import Asm88000.Proofs.Agreement
import Asm88000.Proofs.Execution

namespace Asm88000

namespace InstructionSet

def is88110 (opcode : String) : Bool :=
  table.any fun e => e.features.contains .mc88110 && e.opcode.name = opcode

theorem mem_features_of_is88110 :
    ∀ e ∈ table, is88110 e.opcode.name → Feature.mc88110 ∈ e.features := by
  decide +kernel

end InstructionSet

def Record.needs88110 (r : Record) : Bool :=
  r.inst.any fun i => i.opcode.any InstructionSet.is88110

theorem Cpu.eq_mc88110 {cpu : Cpu} (h : .mc88110 ∈ cpu.features) : cpu = .mc88110 := by
  revert h
  cases cpu <;> decide

namespace Session

def Adds (s t : Session) : Prop :=
  ∃ rs, t.object.records = s.object.records ++ rs ∧ ∀ r ∈ rs, r.needs88110 → .mc88110 ∈ s.available

structure Gates (s t : Session) : Prop where
  cpu       : t.cpu = s.cpu
  available : t.available = s.available
  mark      : t.object.requires88110 = s.object.requires88110
  adds      : s.Adds t

structure Grants (s t : Session) : Prop where
  cpu       : t.cpu = .mc88110
  available : t.available = Cpu.features .mc88110
  mark      : t.object.requires88110 = true
  adds      : s.Adds t

inductive Heeds (s : Session) : Bool → Session → Prop
  | grants {t} : s.Grants t → Heeds s true t
  | gates {t} : s.Gates t → Heeds s false t

variable {s t u : Session} {loc : Loc}

theorem Adds.of_eq (h : t.object.records = s.object.records) : s.Adds t :=
  ⟨[], by simp [h], by simp⟩

theorem Adds.trans (h : s.Adds t) (havailable : t.available = s.available) (h' : t.Adds u) :
    s.Adds u := by
  obtain ⟨rs, hrs, hneeds⟩ := h
  obtain ⟨rs', hrs', hneeds'⟩ := h'
  refine ⟨rs ++ rs', by rw [hrs', hrs, List.append_assoc], fun r hr => ?_⟩
  rcases List.mem_append.mp hr with hr | hr
  · exact hneeds r hr
  · exact fun hneed => havailable ▸ hneeds' r hr hneed

namespace Gates

theorem refl (s : Session) : s.Gates s :=
  ⟨rfl, rfl, rfl, .of_eq rfl⟩

theorem trans (h : s.Gates t) (h' : t.Gates u) : s.Gates u :=
  ⟨h'.cpu.trans h.cpu, h'.available.trans h.available, h'.mark.trans h.mark,
    h.adds.trans h.available h'.adds⟩

theorem heeds {asked : Bool} (h : s.Gates t) (h' : t.Heeds asked u) : s.Heeds asked u := by
  cases h'
  case grants h' => exact .grants { h' with adds := h.adds.trans h.available h'.adds }
  case gates h'  => exact .gates (h.trans h')

end Gates

theorem gates_addSource (s : Session) (line : Int) (text : String) :
    s.Gates (s.addSource line text) :=
  ⟨rfl, rfl, rfl, .of_eq rfl⟩

theorem gates_report (s : Session) (d : Diagnostic) : s.Gates (s.report d) :=
  ⟨rfl, rfl, rfl, .of_eq rfl⟩

theorem gates_reportAll (s : Session) (ds : List Diagnostic) : s.Gates (s.reportAll ds) := by
  have hobject := object_reportAll s ds
  exact ⟨cpu_reportAll s ds, available_reportAll s ds, by rw [hobject], .of_eq (by rw [hobject])⟩

theorem gates_switch (s : Session) (sect : SectionName) : s.Gates (s.switch sect) :=
  ⟨rfl, rfl, rfl, .of_eq rfl⟩

theorem gates_global (s : Session) (name : String) : s.Gates (s.global name) := by
  unfold global Object.global
  split <;> exact ⟨rfl, rfl, rfl, .of_eq rfl⟩

theorem gates_label {name : String} (h : s.label name loc = .ok t) : s.Gates t := by
  obtain ⟨o, _, ho, rfl⟩ := label_eq_ok h
  obtain ⟨_, rfl⟩ := Object.label_eq_ok ho
  exact ⟨rfl, rfl, rfl, .of_eq rfl⟩

theorem gates_align {alignment : Int} (h : s.align alignment loc = .ok t) : s.Gates t := by
  obtain ⟨o, ho, rfl⟩ := align_eq_ok h
  obtain ⟨a, _, rfl⟩ := Object.align_eq_ok ho
  exact ⟨rfl, rfl, Object.requires88110_setAddress _ a, .of_eq (Object.records_setAddress _ a)⟩

theorem gates_append {r : Record} (h : r.needs88110 → .mc88110 ∈ s.available) :
    s.Gates (s.append r) := by
  refine ⟨cpu_append s r, available_append s r, ?_, [r], ?_, by simpa using h⟩ <;>
    rw [object_append]
  · exact Object.requires88110_setAddress _ _
  · exact Object.records_append _ _

theorem gates_emitWord {e : Expr} (h : s.emitWord e loc = .ok t) : s.Gates t := by
  obtain ⟨r, hr, rfl⟩ := emitWord_eq_ok h
  refine gates_append fun hneeds => ?_
  unfold Object.wordRecord at hr
  split at hr
  · cases hr
    cases hneeds
  · split at hr <;> cases hr
    cases hneeds

theorem gates_emitOperands {ops : List Operand} {inst : Inst}
    (h : s.emitOperands ops loc = .ok (inst, t)) : s.Gates t := by
  obtain ⟨e, r, he, _, hcovers, rfl, hr, rfl⟩ := emitOperands_eq_ok h
  obtain ⟨_, word, fixups, _, rfl⟩ := Object.instructionRecord_eq_ok hr
  refine gates_append fun hneeds => ?_
  have hmem := InstructionSet.mem_features_of_is88110 e he hneeds
  simpa using List.all_eq_true.mp hcovers _ hmem

theorem grants_require88110 (s : Session) : s.Grants s.require88110 :=
  ⟨rfl, rfl, rfl, .of_eq rfl⟩

-- The features are those of the variant, and a mark goes with the mc88110.
structure GoesByCpu (s : Session) : Prop where
  available : s.available = s.cpu.features
  marked    : s.object.requires88110 → s.cpu = .mc88110

theorem Gates.goesByCpu (h : s.Gates t) (hs : s.GoesByCpu) : t.GoesByCpu where
  available := by rw [h.available, h.cpu, hs.available]
  marked    := by
    rw [h.mark, h.cpu]
    exact hs.marked

theorem Grants.goesByCpu (h : s.Grants t) : t.GoesByCpu where
  available := by rw [h.available, h.cpu]
  marked _  := h.cpu

theorem Step.goesByCpu (h : Step s t) (hs : s.GoesByCpu) : t.GoesByCpu := by
  cases h
  case note          => exact ⟨hs.available, hs.marked⟩
  case warn d _      => exact (gates_report s d).goesByCpu hs
  case switch sect   => exact (gates_switch s sect).goesByCpu hs
  case global name   => exact (gates_global s name).goesByCpu hs
  case require88110  => exact (grants_require88110 s).goesByCpu
  case label h       => exact (gates_label h).goesByCpu hs
  case align h       => exact (gates_align h).goesByCpu hs
  case word h        => exact (gates_emitWord h).goesByCpu hs
  case instruction h => exact (gates_emitOperands h).goesByCpu hs

theorem Steps.goesByCpu (h : Steps s t) (hs : s.GoesByCpu) : t.GoesByCpu := by
  induction h
  case refl            => exact hs
  case tail _ hstep ih => exact hstep.goesByCpu ih

end Session

def asksFor88110 : List Lexeme → Bool
  | [.identifier name]                   => name = ".requires_88110"
  | .identifier _ :: .punct .colon :: ls => asksFor88110 ls
  | _                                    => false

namespace StatementM

open Discipline

def gating : Discipline Failure Run where
  valid _    := True
  rel r q    := r.session.Gates q.session
  fails _    := True
  refl r     := .refl r.session
  trans h h' := h.trans h'
  keeps _ _  := trivial

end StatementM

namespace Statement

open Discipline StatementM

theorem parts_gating : Parts (fun _ => True) (fun _ => True) fun _ p => gating.Obeys p where
  pure       := .pure
  bind       := .bind
  cursor hf  := cursor_obeys.bind fun c => hf c fun _ _ => trivial
  skip       := .modify fun r _ => .refl r.session
  expr hf    :=
    have hparse : gating.Obeys (ofTokens Expr.parse) :=
      ofTokens_obeys Expr.parse_forward (fun {r _} _ _ => .refl r.session) fun _ => trivial
    hparse.bind fun o => hf o fun _ _ => trivial
  fail _ _   := .throw trivial
  label _    := tryChange_obeys (fun _ h => Session.gates_label h) fun _ => trivial
  switch s   := .modify fun r _ => Session.gates_switch r.session s
  global n   := .modify fun r _ => Session.gates_global r.session n
  align _ _  := tryChange_obeys (fun _ h => Session.gates_align h) fun _ => trivial
  word _ _   := tryChange_obeys (fun _ h => Session.gates_emitWord h) fun _ => trivial

theorem operands_gating (mnemonic : String) (loc : Loc) : gating.Obeys (operands mnemonic loc) := by
  intro r _
  have hgates (ws : List Diagnostic) := Session.gates_reportAll r.session ws
  unfold Ensures operands
  cases Operand.parseAll mnemonic (Scan.start mnemonic loc r.cursor)
  case error f scan => exact ⟨hgates scan.warnings, trivial⟩
  case ok scan =>
    dsimp only
    cases (scan.operands.drop 1).mapM Operand.describe
    case error => exact ⟨hgates scan.warnings, trivial⟩
    case ok =>
      have hgates := hgates scan.warnings
      exact ⟨hgates.cpu, hgates.available, hgates.mark, hgates.adds⟩

theorem emit_gating (ops : List Operand) (loc : Loc) : gating.Obeys (emit ops loc) := by
  intro r _
  cases h : r.session.emitOperands ops loc <;> simp only [Ensures, emit, h]
  case ok p    => exact Session.gates_emitOperands h
  case error f => exact ⟨.refl r.session, trivial⟩

theorem labels_gates (n : Nat) {r : Run} (hn : r.cursor.ahead.length ≤ n) (h : r.cursor.Plain) :
    Ensures (labels n) r
      (fun _ q => r.session.Gates q.session ∧ ¬StartsLabel q.cursor.ahead ∧ q.cursor.Plain ∧
        asksFor88110 q.cursor.lexemes = asksFor88110 r.cursor.lexemes)
      fun _ q => r.session.Gates q.session := by
  induction n generalizing r
  case zero =>
    refine ⟨.refl _, ?_, h, rfl⟩
    rintro ⟨name, l, m, rest, hrest⟩
    simp [hrest] at hn
  case succ n ih =>
    obtain ⟨s, c⟩ := r
    simp only [labels, ensures_bind, ensures_cursor]
    split
    case h_2 hno =>
      refine ⟨.refl s, ?_, h, rfl⟩
      rintro ⟨name, l, m, rest, hrest⟩
      simp only at hrest
      exact hno name (by simp [Cursor.current, hrest]) (by simp [Cursor.peek, hrest])
    case h_1 name hname hcolon =>
      obtain ⟨past, loc, ts, stop, rfl⟩ := Cursor.eq_of_current hname (by simp)
      cases ts
      case nil => cases hcolon
      case cons tok ts =>
        obtain ⟨lexeme, loc'⟩ := tok
        obtain rfl : lexeme = .punct .colon := hcolon
        simp only [ensures_bind, ensures_skip, Cursor.loc_cons, Cursor.advance_cons, ne_eq,
          reduceCtorEq, not_false_eq_true]
        cases hl : s.label name loc <;> simp only [Ensures, tryChange, hl]
        case error => exact .refl s
        case ok t =>
          have hgates := Session.gates_label hl
          have hlength : ts.length ≤ n := by
            simp only [List.length_cons] at hn
            omega
          refine (ih hlength h.tail.tail).mono (fun _ q hq => ?_) fun _ q hq => hgates.trans hq
          exact ⟨hgates.trans hq.left, hq.right.left, hq.right.right.left, hq.right.right.right⟩

section

variable {s : Session} {past ts : List Token} {stop loc : Loc} {name : String}

theorem asksFor88110_eq (h : ¬StartsLabel (⟨.identifier name, loc⟩ :: ts)) :
    asksFor88110 (.identifier name :: ts.map Token.lexeme) =
      decide (name = ".requires_88110" ∧ ts = []) := by
  cases ts
  case nil => simp [asksFor88110]
  case cons t ts =>
    obtain ⟨lexeme, m⟩ := t
    by_cases hcolon : lexeme = .punct .colon
    case pos => exact (h ⟨name, loc, m, ts, by rw [hcolon]⟩).elim
    case neg => simp [asksFor88110, hcolon]

theorem directive_gates (h : Cursor.Plain ⟨⟨.identifier name, loc⟩ :: past, ts, stop⟩) :
    Ensures (directive name loc) ⟨s, ⟨⟨.identifier name, loc⟩ :: past, ts, stop⟩⟩
      (fun _ q => s.Heeds (name = ".requires_88110" ∧ ts = []) q.session)
      fun _ q => s.Gates q.session := by
  by_cases hname : name = ".requires_88110"
  case neg =>
    have hobeys : gating.Obeys (directive name loc) :=
      parts_gating.directive (by rw [targetDirective, if_neg hname]; exact .pure false) loc
    simp only [hname, false_and, decide_false]
    exact (hobeys _ trivial).mono (fun _ _ => .gates) fun _ _ => And.left
  case pos =>
    subst hname
    simp only [directive, targetDirective, ↓reduceIte, ensures_bind, ensures_cursor]
    split
    case isTrue => exact .refl s
    case isFalse hend =>
      have hend := h.atEnd_iff.mp (by simpa using hend)
      simp only at hend
      subst hend
      exact .grants (Session.grants_require88110 s)

end

theorem run_gates {r : Run} (h : r.cursor.Plain) :
    Ensures run r
      (fun _ q => r.session.Heeds (asksFor88110 r.cursor.lexemes) q.session)
      fun _ q => r.session.Gates q.session := by
  unfold run
  rw [ensures_bind, ensures_cursor]
  refine (labels_gates _ (Nat.le_refl _) h).bind (fun _ q hq => ?_) fun _ _ => id
  obtain ⟨hgates, hlabel, hplain, hasks⟩ := hq
  obtain ⟨s, c⟩ := q
  rw [ensures_bind, ensures_cursor, ← hasks]
  refine Ensures.mono (Q := fun _ q => s.Heeds (asksFor88110 c.lexemes) q.session)
    (E := fun _ q => s.Gates q.session) ?_ (fun _ _ => hgates.heeds) fun _ _ => hgates.trans
  split
  case h_1 hend =>
    have hend : c.ahead = [] := hplain.atEnd_iff.mp (decide_eq_true hend)
    simp only [ensures_pure, Cursor.lexemes, hend]
    exact .gates (.refl s)
  case h_3 => exact .refl s
  case h_2 name hname =>
    obtain ⟨past, loc, ts, stop, rfl⟩ := Cursor.eq_of_current hname (by simp)
    have hasks := asksFor88110_eq hlabel
    simp only [ensures_bind, ensures_skip, Cursor.advance_cons, ne_eq, reduceCtorEq,
      not_false_eq_true, Cursor.loc_cons, Cursor.lexemes, List.map_cons, hasks]
    split
    case isTrue => exact directive_gates hplain.tail
    case isFalse hdirective =>
      have hname : name ≠ ".requires_88110" := by
        rintro rfl
        exact hdirective (by decide)
      have hobeys : gating.Obeys (do
          let ops ← operands (Text.lowerAscii name) loc
          let _ ← emit ops loc) :=
        (operands_gating _ _).bind fun ops => (emit_gating ops loc).bind fun _ => .pure ()
      simp only [hname, false_and, decide_false]
      exact (hobeys _ trivial).mono (fun _ _ => .gates) fun _ _ => And.left

end Statement

namespace Session

open Statement

variable {s t u v : Session} {lines : List String} {n : Nat} {l : String}

def requests88110 (text : String) : Bool :=
  match lexemes text with
  | .ok ls   => asksFor88110 ls
  | .error _ => false

theorem assembleLine_heeds {line : Int} {text : String} (h : s.assembleLine line text = .ok t) :
    s.Heeds (requests88110 text ∧ t.errors = s.errors) t := by
  -- An error is never lost, so that a line with one is none that is heeded.
  have hfailed {e : Error} {u : Session} (hu : s.Gates u) (herrors : u.errors = s.errors) :
      s.Heeds (requests88110 text ∧ (u.report (.ofError e)).errors = s.errors)
        (u.report (.ofError e)) := by
    have hne : s.errors ++ [.ofError e] ≠ s.errors := by simp
    simp only [errors_report_ofError, herrors, hne, and_false, decide_false]
    exact .gates (hu.trans (gates_report u _))
  cases htok : tokenize line text
  case error e =>
    cases (assembleLine_invalid htok s).symm.trans h
    exact hfailed (gates_addSource s _ _) rfl
  case ok ts =>
    obtain ⟨ts, stop, rfl, hplain⟩ := tokenize_ok htok
    simp only [assembleLine, htok, Cursor.ofTokens_append_stop] at h
    have hgates := run_gates (r := ⟨s.addSource line (Text.trim text), ⟨[], ts, stop⟩⟩) hplain
    have horderly := run_orderly ⟨s.addSource line (Text.trim text), ⟨[], ts, stop⟩⟩ trivial
    cases hrun : run ⟨s.addSource line (Text.trim text), ⟨[], ts, stop⟩⟩ <;> simp only [hrun] at h
    case error f r =>
      obtain ⟨⟨hsteps, _⟩, e, rfl⟩ := horderly.error hrun
      cases h
      exact hfailed ((gates_addSource s _ _).trans (hgates.error hrun)) hsteps.errors_eq
    case ok r =>
      cases h
      have herrors : r.session.errors = s.errors := (horderly.ok hrun).left.errors_eq
      simp only [requests88110, lexemes_of_tokenize htok, herrors, and_true, Bool.decide_eq_true]
      exact (gates_addSource s _ _).heeds (hgates.ok hrun)

def Requested (s : Session) (lines : List String) (n : Nat) : Prop :=
  ∃ l u v, s.Passes lines n l u v ∧ requests88110 (dropLineEnds l) ∧ v.errors = u.errors

-- The record with an index has been emitted by the line with an index, on the mc88110. If this was
-- not the variant from the beginning, then the object is marked and a line before has asked for it.
def EmittedOn88110 (s : Session) (lines : List String) (n i : Nat) (r : Record) : Prop :=
  ∃ l u v, s.Passes lines n l u v ∧
    u.object.records.length ≤ i ∧ v.object.records[i]? = some r ∧
    u.cpu = .mc88110 ∧ v.cpu = .mc88110 ∧
    (s.cpu ≠ .mc88110 → u.object.requires88110 ∧ ∃ k < n, s.Requested lines k)

structure Gated (s : Session) (lines : List String) (n : Nat) (u : Session) : Prop where
  goesByCpu : u.GoesByCpu
  requested : s.cpu ≠ .mc88110 → u.cpu = .mc88110 →
    u.object.requires88110 ∧ ∃ k < n, s.Requested lines k
  records   : ∀ i r, u.object.records[i]? = some r → r.needs88110 →
    ∃ m < n, s.EmittedOn88110 lines m i r

namespace Heeds

variable {asked : Bool}

theorem adds (h : s.Heeds asked t) : s.Adds t := by
  cases h
  case grants h => exact h.adds
  case gates h  => exact h.adds

theorem goesByCpu (h : s.Heeds asked t) (hs : s.GoesByCpu) : t.GoesByCpu := by
  cases h
  case grants h => exact h.goesByCpu
  case gates h  => exact h.goesByCpu hs

theorem cpu (h : s.Heeds asked t) (hs : s.cpu = .mc88110) : t.cpu = .mc88110 := by
  cases h
  case grants h => exact h.cpu
  case gates h  => exact h.cpu.trans hs

theorem eq (h : s.Heeds asked t) :
    (t.cpu, t.object.requires88110) =
      if asked then (.mc88110, true) else (s.cpu, s.object.requires88110) := by
  cases h
  case grants h => exact Prod.ext h.cpu h.mark
  case gates h  => exact Prod.ext h.cpu h.mark

end Heeds

theorem Gated.start (hs : s.GoesByCpu) (hrecords : s.object.records = []) : s.Gated lines 0 s :=
  ⟨hs, fun hne hcpu => (hne hcpu).elim, by simp [hrecords]⟩

theorem Gated.records_next (h : s.Gated lines n u) (hp : s.Passes lines n l u v) {i : Nat}
    {r : Record} (hr : v.object.records[i]? = some r) (hneed : r.needs88110) :
    ∃ m < n + 1, s.EmittedOn88110 lines m i r := by
  have hheeds := assembleLine_heeds hp.after
  obtain ⟨rs, hrs, hneeds⟩ := hheeds.adds
  by_cases hi : i < u.object.records.length
  case pos =>
    rw [hrs, List.getElem?_append_left hi] at hr
    obtain ⟨m, hm, hemitted⟩ := h.records i r hr hneed
    exact ⟨m, Nat.lt_succ_of_lt hm, hemitted⟩
  case neg =>
    have hi := Nat.le_of_not_lt hi
    have hmem : r ∈ rs := by
      rw [hrs, List.getElem?_append_right hi] at hr
      exact List.mem_of_getElem? hr
    have hcpu := Cpu.eq_mc88110 (h.goesByCpu.available ▸ hneeds r hmem hneed)
    exact ⟨n, Nat.lt_succ_self n, l, u, v, hp, hi, hr, hcpu, hheeds.cpu hcpu,
      fun hs => h.requested hs hcpu⟩

theorem Gated.next (h : s.Gated lines n u) (hp : s.Passes lines n l u v) :
    s.Gated lines (n + 1) v := by
  have hheeds := assembleLine_heeds hp.after
  have hrecords := fun i r => h.records_next hp (i := i) (r := r)
  have hgoes := hheeds.goesByCpu h.goesByCpu
  by_cases hasked : requests88110 (dropLineEnds l) ∧ v.errors = u.errors
  case pos =>
    rw [decide_eq_true hasked] at hheeds
    cases hheeds
    case grants hgrants =>
      refine ⟨hgoes, fun _ _ => ⟨hgrants.mark, n, Nat.lt_succ_self n, ?_⟩, hrecords⟩
      exact ⟨l, u, v, hp, hasked⟩
  case neg =>
    rw [decide_eq_false hasked] at hheeds
    cases hheeds
    case gates hgates =>
      refine ⟨hgoes, fun hs hcpu => ?_, hrecords⟩
      obtain ⟨hmark, k, hk, hrequested⟩ := h.requested hs (hgates.cpu.symm.trans hcpu)
      exact ⟨hgates.mark.trans hmark, k, Nat.lt_succ_of_lt hk, hrequested⟩

-- In every program, what needs the mc88110 is emitted on the mc88110 only, and behind a line that
-- has asked for it unless it was there from the beginning. Other lines leave the variant and the
-- mark alone, and at any point a mark goes with the mc88110 and the features are those of the
-- variant.
theorem assemble_gates_features (cpu : Cpu) (codeStart dataStart : Int) (lines : List String) :
    ∃ t, (new cpu codeStart dataStart).assemble lines = .ok t ∧
      (∀ i r, t.object.records[i]? = some r → r.needs88110 →
        ∃ n, (new cpu codeStart dataStart).EmittedOn88110 lines n i r) ∧
      t.GoesByCpu ∧
      ∀ n l, lines[n]? = some l → ∃ u v, (new cpu codeStart dataStart).Passes lines n l u v ∧
        (v.cpu, v.object.requires88110) =
          (if requests88110 (dropLineEnds l) ∧ v.errors = u.errors then (.mc88110, true)
            else (u.cpu, u.object.requires88110)) ∧
        ∀ line text w, (u.addSource line text).Steps w → w.GoesByCpu := by
  obtain ⟨⟨t, ht, hwhole⟩, hlines⟩ := assemble_invariant
    (P := (new cpu codeStart dataStart).Gated lines) (.start ⟨rfl, nofun⟩ rfl)
    fun _ _ _ _ hp h => h.next hp
  refine ⟨t, ht, fun i r hr hneeds => ?_, hwhole.goesByCpu, fun n l hl => ?_⟩
  · obtain ⟨n, _, hemitted⟩ := hwhole.records i r hr hneeds
    exact ⟨n, hemitted⟩
  · obtain ⟨u, v, hpasses, hbefore⟩ := hlines n l hl
    have hheeds := (assembleLine_heeds hpasses.after).eq
    simp only [decide_eq_true_eq] at hheeds
    refine ⟨u, v, hpasses, hheeds, fun line text w hw => hw.goesByCpu ?_⟩
    exact (gates_addSource u line text).goesByCpu hbefore.goesByCpu

theorem assemble_gates_features_requested :
    ∃ t r, (new .mc88100 0 0x1000).assemble
        ["rte", "prot %r2, %r4, <4>", "a: .requires_88110", "prot %r2, %r4, <4>"] = .ok t ∧
      t.errors.length = 1 ∧ t.object.records[1]? = some r ∧ r.needs88110 ∧
      t.object.requires88110 ∧ t.cpu = .mc88110 ∧ t.available = [.mc88110] ∧
      ∃ n, (new .mc88100 0 0x1000).EmittedOn88110
        ["rte", "prot %r2, %r4, <4>", "a: .requires_88110", "prot %r2, %r4, <4>"] n 1 r := by
  obtain ⟨t, ht, hemitted, hgoes, _⟩ := assemble_gates_features .mc88100 0 0x1000
    ["rte", "prot %r2, %r4, <4>", "a: .requires_88110", "prot %r2, %r4, <4>"]
  have h : ((new .mc88100 0 0x1000).assemble
      ["rte", "prot %r2, %r4, <4>", "a: .requires_88110", "prot %r2, %r4, <4>"]).map
      (fun t => (t.errors.length, t.object.records.map Record.needs88110, t.object.requires88110)) =
        .ok (1, [false, true], true) := by
    decide +kernel
  rw [ht] at h
  simp only [Except.map, Except.ok.injEq, Prod.mk.injEq] at h
  obtain ⟨herrors, hneeds, hmark⟩ := h
  have hsecond : (t.object.records[1]?).map Record.needs88110 = some true := by
    rw [← List.getElem?_map, hneeds]
    rfl
  obtain ⟨r, hr, hneed⟩ := Option.map_eq_some_iff.mp hsecond
  have hcpu := hgoes.marked hmark
  have havailable : t.available = [.mc88110] := by
    rw [hgoes.available, hcpu]
    rfl
  exact ⟨t, r, ht, herrors, hr, hneed, hmark, hcpu, havailable, hemitted 1 r hr hneed⟩

end Session
end Asm88000
