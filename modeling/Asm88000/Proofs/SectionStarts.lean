import Mathlib.Data.List.Pairwise
import Asm88000.Proofs.Image
import Asm88000.Proofs.Provenance

namespace Asm88000

namespace SectionStarts

variable {s s' : SectionStarts}

structure IsAligned (s : SectionStarts) : Prop where
  code : s.code % wordSize = 0
  data : s.data % wordSize = 0

theorem setItem_isAligned {item : List Char} (hs : s.IsAligned) (h : s.setItem item = .ok s') :
    s'.IsAligned := by
  unfold setItem at h
  split at h
  case h_1 => cases h
  case h_2 key value _ =>
    dsimp only at h
    split at h
    case h_1 => cases h
    case h_2 v _ =>
      split_ifs at h with hv hcode hdata
      · obtain rfl := pure_eq_ok.mp h
        exact ⟨not_not.mp hv, hs.data⟩
      · obtain rfl := pure_eq_ok.mp h
        exact ⟨hs.code, not_not.mp hv⟩

theorem parse_isAligned {text : String} (h : parse text = .ok s) : s.IsAligned :=
  foldlM_invariant setItem_isAligned ⟨by decide, by decide⟩ h

end SectionStarts

namespace Image

variable {records : List Record}

-- Each record has a line of its own, with its word on it.
structure Keeps (f : WordFormat) (records : List Record) (lines : List String) : Prop where
  line : ∀ r ∈ records, ∃ (k : Nat) (line : String),
    slot (size records) r = k ∧ lines[k]? = some line ∧ f.Writes line r.word
  own  : records.Pairwise fun r r' => slot (size records) r ≠ slot (size records) r'

-- There is a word without a record for each record below zero, as far before the end of the image.
def Spares (records : List Record) : Prop :=
  ∀ r ∈ records, r.address < 0 → 0 ≤ r.address + size records * wordSize ∧
    ∀ r' ∈ records, r'.address ≠ r.address + size records * wordSize

instance (records : List Record) : Decidable (Spares records) :=
  List.decidableBAll _ _

theorem wordIndex_neg_iff {a : Int} : wordIndex a < 0 ↔ a < 0 := by
  simp only [wordIndex, wordSize]
  omega

theorem slot_of_neg {n : Int} {r : Record} (h : r.address < 0) :
    slot n r = wordIndex r.address + n :=
  if_pos (wordIndex_neg_iff.mpr h)

theorem slot_of_nonneg {n : Int} {r : Record} (h : 0 ≤ r.address) :
    slot n r = wordIndex r.address :=
  slot_eq_wordIndex (Int.not_lt.mp fun hneg => by have := wordIndex_neg_iff.mp hneg; omega)

theorem slot_nonneg_iff {n : Int} {r : Record} (h : r.address % wordSize = 0) :
    0 ≤ slot n r ↔ (r.address < 0 → 0 ≤ r.address + n * wordSize) := by
  by_cases hneg : r.address < 0
  case pos =>
    rw [slot_of_neg hneg]
    simp only [wordIndex, wordSize] at *
    omega
  case neg =>
    rw [slot_of_nonneg (Int.not_lt.mp hneg)]
    simp only [wordIndex, wordSize] at *
    omega

theorem slot_eq_iff {n : Int} {r r' : Record} (h : r.address % wordSize = 0)
    (h' : r'.address % wordSize = 0) (hneg : r.address < 0) (hpos : 0 ≤ r'.address) :
    slot n r = slot n r' ↔ r'.address = r.address + n * wordSize := by
  rw [slot_of_neg hneg, slot_of_nonneg hpos]
  simp only [wordIndex, wordSize] at *
  omega

theorem slots_iff_spares
    (hne : records.Pairwise fun r r' => wordIndex r.address ≠ wordIndex r'.address)
    (haligned : ∀ r ∈ records, r.address % wordSize = 0) :
    ((∀ r ∈ records, 0 ≤ slot (size records) r) ∧
      records.Pairwise fun r r' => slot (size records) r ≠ slot (size records) r') ↔
    Spares records := by
  constructor
  · intro ⟨h₀, hown⟩ r hr hneg
    have hroom := (slot_nonneg_iff (haligned r hr)).mp (h₀ r hr) hneg
    refine ⟨hroom, fun r' hr' haddress => ?_⟩
    have hne : r ≠ r' := by
      rintro rfl
      omega
    have hsymm : Std.Symm fun r r' => slot (size records) r ≠ slot (size records) r' :=
      ⟨fun _ _ => Ne.symm⟩
    have hslot := hown.forall hr hr' hne
    exact hslot ((slot_eq_iff (haligned r hr) (haligned r' hr') hneg (by omega)).mpr haddress)
  · intro hspares
    refine ⟨fun r hr => ?_, hne.imp_of_mem fun {r r'} hr hr' hne hslot => ?_⟩
    · exact (slot_nonneg_iff (haligned r hr)).mpr fun hneg => (hspares r hr hneg).left
    · rcases Int.lt_or_le r.address 0 with hneg | hpos <;>
        rcases Int.lt_or_le r'.address 0 with hneg' | hpos'
      · rw [slot_of_neg hneg, slot_of_neg hneg'] at hslot
        omega
      · have haddress := (slot_eq_iff (haligned r hr) (haligned r' hr') hneg hpos').mp hslot
        exact (hspares r hr hneg).right r' hr' haddress
      · have haddress := (slot_eq_iff (haligned r' hr') (haligned r hr) hneg' hpos).mp hslot.symm
        exact (hspares r' hr' hneg').right r hr haddress
      · rw [slot_of_nonneg hpos, slot_of_nonneg hpos'] at hslot
        exact hne hslot

theorem spares_of_nonneg (h : ∀ r ∈ records, 0 ≤ r.address) : Spares records := by
  intro r hr hneg
  have hpos := h r hr
  omega

theorem keeps_render {ws : List Nat} {f : WordFormat}
    (hne : records.Pairwise fun r r' => slot (size records) r ≠ slot (size records) r')
    (h₀ : ∀ r ∈ records, 0 ≤ slot (size records) r) (hlen : (ws.length : Int) = size records)
    (hholds : Holds records ws) (hword : ∀ r ∈ records, r.word < 0x100000000) :
    Keeps f records (Text.lines (render f ws)) where
  line r hr := by
    have ⟨line, hline⟩ := hholds.line_written hword f (hholds.getElem?_slot hlen hr (h₀ r hr))
    exact ⟨_, line, (Int.toNat_of_nonneg (h₀ r hr)).symm, hline⟩
  own := hne

theorem Keeps.slot_nonneg {f : WordFormat} {lines : List String} (h : Keeps f records lines) :
    ∀ r ∈ records, 0 ≤ slot (size records) r := by
  intro r hr
  have ⟨k, _, hk, _⟩ := h.line r hr
  omega

end Image

namespace Command

-- Whatever section starts are admitted, a program without overlap is written with all of its words
-- just if there is memory for its image and room in it for the words below zero.
theorem admitted_starts_usable_iff_spares {text : String} {starts : SectionStarts}
    (hparse : SectionStarts.parse text = .ok starts) (cpu : Cpu) (lines : List String) :
    ∃ t, (Session.new cpu starts.code starts.data).assemble lines = .ok t ∧
      (Layout.checkOverlap t.object.text.start t.object.text.size t.object.data.start
          t.object.data.size = .ok () →
        ∀ (host : Host) (o : Options) (g : Progress), host.canWrite o.output →
          (o.readable → host.canWrite o.listingPath) →
          (Ensures (writeFiles host o t) g
              (fun _ g' => ∃ content, Wrote o.output content g g' ∧
                Image.Keeps o.wordFormat t.object.records (Text.lines content))
              (fun _ _ => False) ↔
            host.HasMemory t.object.records ∧ Image.Spares t.object.records)) ∧
      (0 ≤ starts.code → 0 ≤ starts.data → Image.Spares t.object.records) := by
  have ⟨t, ht, _⟩ := Session.assembleFrom_ok 1 (Session.new cpu starts.code starts.data) lines
  have hsteps := Session.assembleFrom_object_steps ht
  have htidy := (Object.isTidy_new starts.code starts.data).steps hsteps
  have hstarts := SectionStarts.parse_isAligned hparse
  have haligned := (Object.isWordAligned_new hstarts.code hstarts.data).steps hsteps
  refine ⟨t, ht, fun hcheck host o g houtput hlisting => ?_, fun hcode hdata => ?_⟩
  · have hslots := Image.slots_iff_spares (htidy.pairwise_wordIndex_ne hcheck) haligned.records
    constructor
    · intro h
      have ⟨ws, hbuild⟩ := build_of_writeFiles h
      have ⟨_, _, _, content, _, hkeeps⟩ := h.exists_ok
      exact ⟨Image.hasMemory_of_build hbuild, hslots.mp ⟨hkeeps.slot_nonneg, hkeeps.own⟩⟩
    · intro ⟨hmemory, hspares⟩
      have ⟨h₀, hne⟩ := hslots.mpr hspares
      have ⟨ws, hwords, hlen, hholds⟩ := Image.words_ok_of_slots hne h₀
      have hbuild := Image.build_of_words hmemory hwords
      have hyields := yields_writeFiles (g := g) hbuild houtput hlisting
        (Session.assemble_isNamed ht)
      refine hyields.mono (fun _ g' hg' => ?_) fun _ _ => id
      exact ⟨_, ⟨_, hg'.right⟩, Image.keeps_render hne h₀ hlen hholds htidy.word_lt⟩
  · refine Image.spares_of_nonneg fun r hr => Int.le_trans ?_ (htidy.placed r hr).left
    rw [hsteps.start_eq]
    cases r.sect
    case text => exact hcode
    case data => exact hdata

theorem admitted_starts_usable_below_zero :
    ∃ t, SectionStarts.parse "code=-8,data=4" = .ok ⟨-8, 4⟩ ∧
      (Session.new .mc88100 (-8) 4).assemble ["rte", ".data", ".word 1"] = .ok t ∧
      t.object.records.map (fun r => (r.address, r.word)) = [(-8, 0xF400FC00), (4, 1)] ∧
      Ensures
        (writeFiles (Host.holding "")
          ⟨"a.s", "a.out", .mc88100, "code=-8,data=4", .hex, .hex, false, false, false, false⟩ t)
        ⟨[], []⟩
        (fun _ g => ∃ content, Wrote "a.out" content ⟨[], []⟩ g ∧
          Image.Keeps .hex t.object.records (Text.lines content))
        (fun _ _ => False) := by
  have hparse : SectionStarts.parse "code=-8,data=4" = .ok ⟨-8, 4⟩ := by decide +kernel
  have ⟨t, ht, husable, _⟩ :=
    admitted_starts_usable_iff_spares hparse .mc88100 ["rte", ".data", ".word 1"]
  have hrun : ((Session.new .mc88100 (-8) 4).assemble ["rte", ".data", ".word 1"]).toOption.any
      fun t => Layout.checkOverlap t.object.text.start t.object.text.size t.object.data.start
          t.object.data.size = .ok () ∧
        t.object.records.map (fun r => (r.address, r.word)) = [(-8, 0xF400FC00), (4, 1)] ∧
        (Host.holding "").HasMemory t.object.records ∧ Image.Spares t.object.records := by
    decide +kernel
  rw [ht] at hrun
  have ⟨hcheck, hrecords, hroom⟩ := of_decide_eq_true hrun
  exact ⟨t, hparse, ht, hrecords, (husable hcheck _ _ _ rfl (fun _ => rfl)).mpr hroom⟩

-- Next to a word at zero there is no room for a word right below: it is lost, or, with nothing else
-- in the image, there is no image.
theorem admitted_start_loses_word :
    SectionStarts.parse "code=-4,data=0" = .ok ⟨-4, 0⟩ ∧
      ((Session.new .mc88100 (-4) 0).assemble ["rte", ".data", ".word 1"]).toOption.any (fun t =>
        t.hasErrors = false ∧
        Layout.checkOverlap t.object.text.start t.object.text.size t.object.data.start
          t.object.data.size = .ok () ∧
        t.object.records.map Record.word = [0xF400FC00, 1] ∧
        Image.build (Host.holding "").allocate t.object.records = .ok [1]) ∧
      ((Session.new .mc88100 (-4) 0).assemble ["rte"]).toOption.any (fun t =>
        t.hasErrors = false ∧
        Layout.checkOverlap t.object.text.start t.object.text.size t.object.data.start
          t.object.data.size = .ok () ∧
        Image.build (Host.holding "").allocate t.object.records = .error .missingElement) := by
  decide +kernel

end Command
end Asm88000
