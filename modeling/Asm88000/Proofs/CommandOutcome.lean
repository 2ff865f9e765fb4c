import Asm88000.Proofs.Image
import Asm88000.Proofs.Provenance

namespace Asm88000

namespace Object

def Overlaps (o : Object) : Prop :=
  ∃ a, (o.text.start ≤ a ∧ a < o.text.start + o.text.size) ∧
    o.data.start ≤ a ∧ a < o.data.start + o.data.size

variable {o : Object}

theorem IsTidy.checkOverlap_eq_error_iff (h : o.IsTidy) :
    (∃ e, Layout.checkOverlap o.text.start o.text.size o.data.start o.data.size = .error e) ↔
      o.Overlaps :=
  Layout.checkOverlap_eq_error_iff (h.size_nonneg .text) (h.size_nonneg .data)

end Object

def Outcome.ending (out : Outcome) : Nat × List OutputFile :=
  (out.status, out.files)

namespace Command

variable {α β : Type} {host : Host} {o : Options} {s : Session} {lines : List String}
variable {p : CommandM α} {f : α → CommandM β} {a : α} {g : Progress} {written : List OutputFile}
variable {Q : β → Progress → Prop} {E : Stop → Progress → Prop}

theorem yields_display {texts : List String} (h : host.shows texts) :
    Yields (display host texts) g () [] := by
  rw [display, if_pos h]
  exact ⟨rfl, (List.append_nil _).symm⟩

theorem yields_stopOn {x : Except Error α} (h : x = .ok a) : Yields (stopOn x) g a [] := by
  subst h
  exact ⟨rfl, (List.append_nil _).symm⟩

theorem ensures_stopOn_error {x : Except Error α} {e : Error} (h : x = .error e) :
    Ensures (stopOn x >>= f) g Q E ↔ E (.fault e) g := by
  subst h
  rfl

def Stop.status : Stop → Nat
  | .fault _ => 1
  | .failure => 2

def Ends (p : CommandM Unit) (g : Progress) (status : Nat) (written : List OutputFile) : Prop :=
  Ensures p g (fun _ g' => status = 0 ∧ g'.files = written)
    fun stop g' => stop.status = status ∧ g'.files = written

theorem Yields.ends {p : CommandM Unit} {all : List OutputFile} (h : Yields p g () written)
    (hall : g.files ++ written = all) : Ends p g 0 all :=
  (h.counting hall).mono (fun _ _ h => ⟨rfl, h.right⟩) fun _ _ => False.elim

theorem ending_runOptions {status : Nat} (h : Ends (execute host o) ⟨[], []⟩ status written) :
    (runOptions host o).ending = (status, written) := by
  unfold runOptions
  cases hrun : execute host o ⟨[], []⟩
  case ok _ g =>
    obtain ⟨rfl, rfl⟩ := h.ok hrun
    rfl
  case error stop g =>
    obtain ⟨rfl, rfl⟩ := h.error hrun
    cases stop <;> rfl

def logFiles (o : Options) : List OutputFile :=
  if o.logFile then [⟨o.logPath, none⟩] else []

theorem check_eq_error_iff (h : s.object.IsTidy) :
    (∃ e, check o s = .error e) ↔ s.object.Overlaps ∨ s.hasErrors := by
  rw [← h.checkOverlap_eq_error_iff]
  unfold check
  cases Layout.checkOverlap s.object.text.start s.object.text.size s.object.data.start
    s.object.data.size
  case error e => exact ⟨fun _ => .inl ⟨e, rfl⟩, fun _ => ⟨e, rfl⟩⟩
  case ok =>
    cases s.hasErrors
    case true  => exact ⟨fun _ => .inr rfl, fun _ => ⟨_, rfl⟩⟩
    case false => simp [bind, Except.bind, pure, Except.pure]

-- The files can be read and written, the table can be shown, and the input has some lines.
structure Serves (host : Host) (o : Options) (lines : List String) : Prop where
  log     : o.logFile → host.canWrite o.logPath
  input   : ∃ content text, host.readAfter (logFiles o) o.input = .bytes content ∧
    String.fromUTF8? content = some text ∧ Text.lines text = lines
  table   : o.debug → ∀ starts t, SectionStarts.parse o.offsets = .ok starts →
    (Session.new o.cpu starts.code starts.data).assemble lines = .ok t →
    host.shows (Display.table t).flatten
  output  : host.canWrite o.output
  listing : o.readable → host.canWrite o.listingPath

theorem yields_readLines {path : String} {content : ByteArray} {text : String}
    (hread : host.readAfter g.files path = .bytes content)
    (htext : String.fromUTF8? content = some text) :
    Yields (readLines host path) g (Text.lines text) [] := by
  refine ensures_bind.mpr (ensures_get.mpr ?_)
  simp only [hread, htext]
  exact ⟨rfl, (List.append_nil _).symm⟩

theorem serves_holding (o : Options) (text : String) :
    Serves (Host.holding text) o (Text.lines text) where
  log _           := rfl
  input           := by
    have hread : (Host.holding text).readAfter (logFiles o) o.input = .bytes text.toUTF8 := by
      have hnone : (logFiles o).reverse.find? (fun _ => false) = none :=
        List.find?_eq_none.mpr fun _ _ => Bool.false_ne_true
      simp only [Host.readAfter, Host.holding, hnone]
    have htext : String.fromUTF8? text.toUTF8 = some text := by
      simp [String.fromUTF8?, String.fromUTF8, text.isValidUTF8]
    exact ⟨_, text, hread, htext, rfl⟩
  table _ _ _ _ _ := rfl
  output          := rfl
  listing _       := rfl

theorem Serves.ends_execute {status : Nat} (h : Serves host o lines)
    (hprocess : ∀ g, g.files = logFiles o → Ends (process host o lines) g status written) :
    Ends (execute host o) ⟨[], []⟩ status written := by
  obtain ⟨content, text, hread, htext, rfl⟩ := h.input
  unfold execute
  refine Yields.optional (fun hlog => yields_write (h.log hlog)) fun g₁ h₁ => ?_
  have hlog : g₁.files = logFiles o := h₁
  refine (yields_readLines (hlog ▸ hread) htext).andThen fun g₂ h₂ => ?_
  refine (yields_note _ _).andThen fun g₃ h₃ => ?_
  exact hprocess g₃ (by simp [h₃, h₂, hlog])

theorem Serves.ends_process {status : Nat} {starts : SectionStarts} (h : Serves host o lines)
    (hparse : SectionStarts.parse o.offsets = .ok starts)
    (hs : (Session.new o.cpu starts.code starts.data).assemble lines = .ok s)
    (hdeliver : ∀ g', g'.files = g.files → Ends (deliver host o s) g' status written) :
    Ends (process host o lines) g status written := by
  unfold process
  refine (yields_stopOn hparse).andThen fun g₁ h₁ => ?_
  refine (yields_failOn hs).andThen fun g₂ h₂ => ?_
  refine ensures_bind.mpr (ensures_modify.mpr ?_)
  refine Yields.optional (fun hd => yields_display (h.table hd starts s hparse hs)) fun g₃ h₃ => ?_
  exact hdeliver g₃ (by simpa [h₂, h₁] using h₃)

theorem ends_deliver_of_check {status : Nat} (hcheck : check o s = .ok ())
    (hrest : ∀ g', g'.files = g.files →
      Ends (do writeFiles host o s; display host (Display.summary o s)) g' status written) :
    Ends (deliver host o s) g status written := by
  unfold deliver
  refine (yields_stopOn hcheck).andThen fun g₁ h₁ => ?_
  refine (yields_note _ _).andThen fun g₂ h₂ => ?_
  refine (yields_note _ _).andThen fun g₃ h₃ => ?_
  exact hrest g₃ (by simp [h₃, h₂, h₁])

theorem Serves.ends_deliver {ws : List Nat} (h : Serves host o lines) (hcheck : check o s = .ok ())
    (hbuild : Image.build host.allocate s.object.records = .ok ws)
    (hcomplete : Listing.isComplete s) :
    Ends (deliver host o s) g (if host.shows (Display.summary o s) then 0 else 2)
      (g.files ++ programFiles o s ws) := by
  refine ends_deliver_of_check hcheck fun g₁ h₁ => ?_
  refine (yields_writeFiles hbuild h.output h.listing hcomplete).andThen fun g₂ h₂ => ?_
  have hfiles : g₂.files = g.files ++ programFiles o s ws := by rw [h₂, h₁]
  split
  case isTrue hshows  => exact (yields_display hshows).ends (by rw [hfiles, List.append_nil])
  case isFalse hshows =>
    rw [display, if_neg hshows]
    exact ⟨rfl, hfiles⟩

theorem ends_deliver_of_breach {b : Breach} (hcheck : check o s = .ok ())
    (hbuild : Image.build host.allocate s.object.records = .error b) :
    Ends (deliver host o s) g 2 g.files := by
  refine ends_deliver_of_check hcheck fun g₁ h₁ => ?_
  refine ensures_bind.mpr ?_
  unfold writeFiles
  exact (ensures_failOn_error hbuild).mpr ⟨rfl, h₁⟩

theorem ends_deliver_of_error {e : Error} (hcheck : check o s = .error e) :
    Ends (deliver host o s) g 1 g.files :=
  (ensures_stopOn_error hcheck).mpr ⟨rfl, rfl⟩

section

variable {args : List String} (hargs : Options.parse args = .ok o) (h : Serves host o lines)

include hargs h

theorem ending_of_offsets {e : Error} (hparse : SectionStarts.parse o.offsets = .error e) :
    (run host args).ending = (1, logFiles o) := by
  rw [run, hargs]
  refine ending_runOptions (h.ends_execute fun g hg => ?_)
  unfold process
  exact (ensures_stopOn_error hparse).mpr ⟨rfl, hg⟩

theorem ending_of_deliver {status : Nat} {starts : SectionStarts}
    (hparse : SectionStarts.parse o.offsets = .ok starts)
    (hs : (Session.new o.cpu starts.code starts.data).assemble lines = .ok s)
    (hdeliver : ∀ g, g.files = logFiles o → Ends (deliver host o s) g status written) :
    (run host args).ending = (status, written) := by
  rw [run, hargs]
  refine ending_runOptions (h.ends_execute fun g hg => ?_)
  exact h.ends_process hparse hs fun g' hg' => hdeliver g' (hg'.trans hg)

end

-- The command refuses a program, and writes nothing of it, if the section starts make no sense, the
-- sections overlap or there are errors. Otherwise it writes the word file, and the listing if that
-- is asked for. It fails without memory for the image, and then it has written nothing, or without
-- a way to show the summary, and then it has written everything.
theorem run_ending {host : Host} {args : List String} {o : Options} {lines : List String}
    (hargs : Options.parse args = .ok o) (hserves : Serves host o lines) :
    (∀ e, SectionStarts.parse o.offsets = .error e → (run host args).ending = (1, logFiles o)) ∧
    ∀ starts, SectionStarts.parse o.offsets = .ok starts →
      ∃ s, (Session.new o.cpu starts.code starts.data).assemble lines = .ok s ∧
        (s.object.Overlaps ∨ s.hasErrors → (run host args).ending = (1, logFiles o)) ∧
        (¬s.object.Overlaps → ¬s.hasErrors → 0 ≤ starts.code → 0 ≤ starts.data →
          (host.HasMemory s.object.records →
            ∃ ws, Image.words s.object.records = .ok ws ∧
              (run host args).ending = (if host.shows (Display.summary o s) then 0 else 2,
                logFiles o ++ programFiles o s ws)) ∧
          (¬host.HasMemory s.object.records → (run host args).ending = (2, logFiles o))) := by
  refine ⟨fun e he => ending_of_offsets hargs hserves he, fun starts hparse => ?_⟩
  obtain ⟨s, hs, _⟩ := Session.assembleFrom_ok 1 (Session.new o.cpu starts.code starts.data) lines
  have hsteps := Session.assembleFrom_object_steps hs
  have htidy := (Object.isTidy_new starts.code starts.data).steps hsteps
  refine ⟨s, hs, fun hrefused => ?_, fun hapart herrors hcode hdata => ?_⟩
  · obtain ⟨e, he⟩ := (check_eq_error_iff htidy).mpr hrefused
    exact ending_of_deliver hargs hserves hparse hs fun g hg => hg ▸ ends_deliver_of_error he
  have hcheck : check o s = .ok () := by
    refine eq_ok_of_not_error (mt (check_eq_error_iff htidy).mp ?_)
    simp [hapart, herrors]
  -- The program has an image, so that only the memory matters.
  obtain ⟨ws, hwords⟩ := Image.words_exist (hsteps.wordIndex_nonneg hcode hdata)
  refine ⟨fun hmemory => ⟨ws, hwords, ?_⟩, fun hmemory => ?_⟩
  · have hbuild := Image.build_of_words hmemory hwords
    have hcomplete : Listing.isComplete s := Session.assemble_isNamed hs
    refine ending_of_deliver hargs hserves hparse hs fun g hg => ?_
    exact hg ▸ hserves.ends_deliver hcheck hbuild hcomplete
  · obtain ⟨b, hbuild⟩ := Image.build_eq_error hmemory
    refine ending_of_deliver hargs hserves hparse hs fun g hg => ?_
    exact hg ▸ ends_deliver_of_breach hcheck hbuild

theorem run_ending_listed :
    let args := ["-i", "a.s", "-o", "a.out", "-r", "-l", "-m", "code=16,data=8"]
    let host := Host.holding "rte\n.data\n.word 1\n"
    let written : List OutputFile := [
      ⟨"a.out.log", none⟩,
      ⟨"a.out", some "00000000\n00000000\n00000001\n00000000\nF400FC00\n"⟩,
      ⟨"a.out_readable.txt", some
        "00000010 | 0xF400FC00 | .text | rte\n00000008 | 0x00000001 | .data | .word 1\n"⟩]
    ∃ o, Options.parse args = .ok o ∧ Serves host o ["rte", ".data", ".word 1"] ∧
      (run host args).ending = (0, written) := by
  intro args host written
  have hlines : Text.lines "rte\n.data\n.word 1\n" = ["rte", ".data", ".word 1"] := by
    decide +kernel
  obtain ⟨o, hargs, hparse, s, hs, ⟨htext, hdata, hsize⟩, herrors, hmemory, ws, hwords, hwritten⟩ :
      ∃ o, Options.parse args = .ok o ∧ SectionStarts.parse o.offsets = .ok ⟨16, 8⟩ ∧
        ∃ s, (Session.new o.cpu 16 8).assemble ["rte", ".data", ".word 1"] = .ok s ∧
          (s.object.text.start = 16 ∧ s.object.data.start = 8 ∧ s.object.data.size = 4) ∧
          s.hasErrors = false ∧ host.HasMemory s.object.records ∧
          ∃ ws, Image.words s.object.records = .ok ws ∧
            logFiles o ++ programFiles o s ws = written := by
    decide +kernel
  have hserves := serves_holding o "rte\n.data\n.word 1\n"
  rw [hlines] at hserves
  have hapart : ¬s.object.Overlaps := by
    rintro ⟨a, ha⟩
    omega
  obtain ⟨s', hs', _, hwrites⟩ := (run_ending hargs hserves).right ⟨16, 8⟩ hparse
  cases hs.symm.trans hs'
  obtain ⟨ws', hwords', hending⟩ :=
    (hwrites hapart (by simp [herrors]) (by decide) (by decide)).left hmemory
  cases hwords.symm.trans hwords'
  exact ⟨o, hargs, hserves, hwritten ▸ hending⟩

-- Nothing is wrong with the program, but no machine can count as far as its second section.
theorem far_start_fails :
    let args := ["-i", "a.s", "-o", "a.out", "-m", "data=0x100000000000000000"]
    let host := Host.holding ".data\n.word 1\n"
    ∃ o s, Options.parse args = .ok o ∧ Serves host o [".data", ".word 1"] ∧
      SectionStarts.parse o.offsets = .ok ⟨0, 0x100000000000000000⟩ ∧
      (Session.new o.cpu 0 0x100000000000000000).assemble [".data", ".word 1"] = .ok s ∧
      ¬s.object.Overlaps ∧ ¬s.hasErrors ∧ (run host args).ending = (2, []) := by
  intro args host
  have hlines : Text.lines ".data\n.word 1\n" = [".data", ".word 1"] := by
    decide +kernel
  obtain ⟨o, hargs, hlog, hparse, s, hs, ⟨hstart, hsize⟩, herrors, hcheck, hmemory⟩ :
      ∃ o, Options.parse args = .ok o ∧ logFiles o = [] ∧
        SectionStarts.parse o.offsets = .ok ⟨0, 0x100000000000000000⟩ ∧
        ∃ s, (Session.new o.cpu 0 0x100000000000000000).assemble [".data", ".word 1"] = .ok s ∧
          (s.object.text.start = 0 ∧ s.object.text.size = 0) ∧ s.hasErrors = false ∧
          check o s = .ok () ∧ ¬host.HasMemory s.object.records := by
    decide +kernel
  have hserves := serves_holding o ".data\n.word 1\n"
  rw [hlines] at hserves
  have hapart : ¬s.object.Overlaps := by
    rintro ⟨a, ha⟩
    omega
  refine ⟨o, s, hargs, hserves, hparse, hs, hapart, by simp [herrors], ?_⟩
  obtain ⟨b, hbuild⟩ := Image.build_eq_error hmemory
  refine ending_of_deliver hargs hserves hparse hs fun g hg => ?_
  rw [← hlog, ← hg]
  exact ends_deliver_of_breach hcheck hbuild

end Command
end Asm88000
