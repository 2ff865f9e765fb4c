import Asm88000.Layout
import Asm88000.Proofs.Object

namespace Asm88000

def Record.Occupies (r : Record) (a : Int) : Prop :=
  r.address ≤ a ∧ a < r.address + wordSize

namespace Layout

variable {codeStart codeSize dataStart dataSize : Int}

theorem checkOverlap_eq_error_iff (hcode : 0 ≤ codeSize) (hdata : 0 ≤ dataSize) :
    (∃ e, checkOverlap codeStart codeSize dataStart dataSize = .error e) ↔
      ∃ a, (codeStart ≤ a ∧ a < codeStart + codeSize) ∧ dataStart ≤ a ∧
        a < dataStart + dataSize := by
  simp only [checkOverlap]
  split
  case isTrue hempty =>
    refine ⟨nofun, fun ⟨a, ha⟩ => ?_⟩
    omega
  case isFalse hempty =>
    split
    case isTrue hapart =>
      refine ⟨nofun, fun ⟨a, ha⟩ => ?_⟩
      omega
    case isFalse hapart =>
      -- The higher one of the two starts is in both.
      refine ⟨fun _ => ⟨max codeStart dataStart, ?_⟩, fun _ => ⟨_, rfl⟩⟩
      omega

theorem not_shared_of_checkOverlap (hcode : 0 ≤ codeSize) (hdata : 0 ≤ dataSize)
    (h : checkOverlap codeStart codeSize dataStart dataSize = .ok ()) (a : Int) :
    ¬((codeStart ≤ a ∧ a < codeStart + codeSize) ∧ dataStart ≤ a ∧ a < dataStart + dataSize) := by
  intro ha
  have ⟨e, he⟩ := (checkOverlap_eq_error_iff hcode hdata).mpr ⟨a, ha⟩
  rw [h] at he
  cases he

end Layout

namespace Object

namespace IsTidy

variable {o : Object} {r r' : Record} {a : Int}

theorem size_nonneg (h : o.IsTidy) (sect : SectionName) : 0 ≤ (o.getSection sect).size :=
  Int.sub_nonneg_of_le (h.ordered sect)

theorem occupied_in_section (h : o.IsTidy) (hr : r ∈ o.records) (ha : r.Occupies a) :
    (o.getSection r.sect).start ≤ a ∧
      a < (o.getSection r.sect).start + (o.getSection r.sect).size := by
  have hplaced := h.placed r hr
  unfold Record.Occupies at ha
  unfold Section.size
  omega

theorem not_occupied_of_spaced (h : r.address + wordSize ≤ r'.address) :
    ¬(r.Occupies a ∧ r'.Occupies a) := by
  unfold Record.Occupies
  omega

theorem pairwise_disjoint (h : o.IsTidy)
    (hcheck : Layout.checkOverlap o.text.start o.text.size o.data.start o.data.size = .ok ()) :
    o.records.Pairwise fun r r' => ∀ a, ¬(r.Occupies a ∧ r'.Occupies a) := by
  have hshared :=
    Layout.not_shared_of_checkOverlap (h.size_nonneg .text) (h.size_nonneg .data) hcheck
  have happart {r r' : Record} (hr : r ∈ o.records) (hr' : r' ∈ o.records) (ht : r.sect = .text)
      (hd : r'.sect = .data) (a : Int) : ¬(r.Occupies a ∧ r'.Occupies a) := by
    intro ha
    have hin := h.occupied_in_section hr ha.left
    have hin' := h.occupied_in_section hr' ha.right
    rw [ht] at hin
    rw [hd] at hin'
    exact hshared a ⟨hin, hin'⟩
  refine h.spaced.imp_of_mem fun {r r'} hr hr' hspaced a => ?_
  cases hs : r.sect <;> cases hs' : r'.sect
  case text.text => exact not_occupied_of_spaced (hspaced (by rw [hs, hs']))
  case data.data => exact not_occupied_of_spaced (hspaced (by rw [hs, hs']))
  case text.data => exact happart hr hr' hs hs' a
  case data.text => exact fun ha => happart hr' hr hs' hs a ha.symm

end IsTidy

inductive Call
  | switch (name : String)
  | label (name : String) (loc : Option Loc)
  | global (name : String)
  | require88110
  | instruction (inst : Inst)
  | word (e : Expr) (loc : Option Loc)
  | align (alignment : Int) (loc : Option Loc)

def call (o : Object) : Call → Except Failure Object
  | .switch name         => (o.switchTo name).mapError .error
  | .label name loc      => (o.label name loc).mapError .error
  | .global name         => .ok (o.global name)
  | .require88110        => .ok o.require88110
  | .instruction inst    => o.emitInstruction inst
  | .word e loc          => (o.emitWord e loc).mapError .error
  | .align alignment loc => (o.align alignment loc).mapError .error

def after (o : Object) (c : Call) : Object :=
  match o.call c with
  | .ok o'   => o'
  | .error _ => o

def afterAll (o : Object) (cs : List Call) : Object :=
  cs.foldl after o

def symbol? (o : Object) (name : String) : Option Symbol :=
  o.symbols.find? fun s => s.name = name

def recordsIn (o : Object) (sect : SectionName) : List Record :=
  o.records.filter fun r => r.sect = sect

section

variable {o o' : Object} {c : Call}

theorem step_of_call (h : o.call c = .ok o') : Step o o' := by
  cases c
  case global       => exact Except.ok.inj h ▸ .global _
  case require88110 => exact Except.ok.inj h ▸ .require88110
  case label        => exact .label (mapError_eq_ok.mp h)
  case align        => exact .align (mapError_eq_ok.mp h)
  case switch name  =>
    have h := mapError_eq_ok.mp h
    unfold switchTo at h
    split at h
    case h_1 sect _ => exact pure_eq_ok.mp h ▸ .switch sect
    case h_2        => cases h
  case instruction inst =>
    have ⟨r, hr, h⟩ := bind_eq_ok.mp h
    exact pure_eq_ok.mp h ▸ .append (receives_instructionRecord hr)
  case word e loc =>
    have ⟨r, hr, h⟩ := bind_eq_ok.mp (mapError_eq_ok.mp h)
    exact pure_eq_ok.mp h ▸ .append (receives_wordRecord hr)

theorem steps_after (o : Object) (c : Call) : Steps o (o.after c) := by
  unfold after
  split
  case h_1 h => exact .single (step_of_call h)
  case h_2   => exact .refl

theorem steps_afterAll (o : Object) (cs : List Call) : Steps o (o.afterAll cs) := by
  induction cs generalizing o
  case nil          => exact .refl
  case cons c cs ih => exact (steps_after o c).trans (ih _)

theorem Steps.symbol?_eq (h : Steps o o') {name : String} {s : Symbol}
    (hs : o.symbol? name = some s) : o'.symbol? name = some s :=
  h.symbols_prefix.find?_eq_some hs

end

-- What holds of an object whose sections began at the given addresses.
structure IsLaidOut (o : Object) (codeStart dataStart : Int) : Prop where
  starts      : o.text.start = codeStart ∧ o.data.start = dataStart
  spaced      : ∀ sect, (o.recordsIn sect).Pairwise fun r r' => r.address + wordSize ≤ r'.address
  placed      : ∀ sect, ∀ r ∈ o.recordsIn sect, (o.getSection sect).start ≤ r.address ∧
    r.address ≤ (o.getSection sect).address - wordSize
  aligned     : ∀ r ∈ o.records, r.type = .instruction → wordSize ∣ r.address
  word_lt     : ∀ r ∈ o.records, r.word < 0x100000000
  symbols     : ∀ s ∈ o.symbols, (o.getSection s.sect).start ≤ s.address ∧
    s.address ≤ (o.getSection s.sect).address
  definitions : (o.symbols.map Symbol.name).Nodup
  disjoint    : Layout.checkOverlap o.text.start o.text.size o.data.start o.data.size = .ok () →
    o.records.Pairwise fun r r' => ∀ a, ¬(r.Occupies a ∧ r'.Occupies a)

theorem isLaidOut_of_steps {codeStart dataStart : Int} {o : Object}
    (h : Steps (new codeStart dataStart) o) : o.IsLaidOut codeStart dataStart := by
  have htidy := (isTidy_new codeStart dataStart).steps h
  have hlabelled := (isLabelled_new codeStart dataStart).steps (isTidy_new codeStart dataStart) h
  constructor
  case starts      => exact ⟨h.start_eq .text, h.start_eq .data⟩
  case aligned     => exact fun r hr ht => Int.dvd_of_emod_eq_zero (htidy.aligned r hr ht)
  case word_lt     => exact htidy.word_lt
  case symbols     => exact hlabelled.placed
  case definitions => exact hlabelled.nodup
  case disjoint    => exact htidy.pairwise_disjoint
  case spaced      =>
    intro sect
    refine (htidy.spaced.filter _).imp_of_mem fun {r r'} hr hr' hspaced => hspaced ?_
    have hsect := of_decide_eq_true (List.mem_filter.mp hr).right
    rw [hsect, of_decide_eq_true (List.mem_filter.mp hr').right]
  case placed =>
    intro sect r hr
    obtain ⟨hr, hsect⟩ := List.mem_filter.mp hr
    have hplaced := htidy.placed r hr
    rw [of_decide_eq_true hsect] at hplaced
    omega

-- However an object came about, it is laid out, its symbols are there to stay, and the sections are
-- refused just if they share an address.
theorem afterAll_isLaidOut (codeStart dataStart : Int) (cs : List Call) :
    ((new codeStart dataStart).afterAll cs).IsLaidOut codeStart dataStart ∧
    (∀ name s more, ((new codeStart dataStart).afterAll cs).symbol? name = some s →
      ((new codeStart dataStart).afterAll (cs ++ more)).symbol? name = some s) ∧
    ∀ codeStart codeSize dataStart dataSize : Int, 0 ≤ codeSize → 0 ≤ dataSize →
      ((∃ e, Layout.checkOverlap codeStart codeSize dataStart dataSize = .error e) ↔
        ∃ a, (codeStart ≤ a ∧ a < codeStart + codeSize) ∧
          dataStart ≤ a ∧ a < dataStart + dataSize) := by
  have hsteps := steps_afterAll (new codeStart dataStart) cs
  refine ⟨isLaidOut_of_steps hsteps, fun name s more hs => ?_, fun _ _ _ _ => ?_⟩
  · rw [afterAll, List.foldl_append]
    exact (steps_afterAll _ more).symbol?_eq hs
  · exact Layout.checkOverlap_eq_error_iff

-- An instruction in the middle of a word, a bad alignment, a second definition and a section that
-- there is not are refused on the way.
theorem afterAll_isLaidOut_refused :
    ∃ o, o = (new 2 0x1000).afterAll
        [.instruction ⟨some "RTE", [], none⟩, .align 3 none, .align 4 none, .label "a" none,
          .instruction ⟨some "RTE", [], none⟩, .label "a" none, .switch ".bss", .switch ".data",
          .word (.const (-1)) none] ∧
      o.records.map Record.address = [4, 0x1000] ∧ o.symbol? "a" = some ⟨"a", .text, 4⟩ ∧
      o.IsLaidOut 2 0x1000 ∧
      o.records.Pairwise fun r r' => ∀ a, ¬(r.Occupies a ∧ r'.Occupies a) := by
  have h := (afterAll_isLaidOut 2 0x1000
    [.instruction ⟨some "RTE", [], none⟩, .align 3 none, .align 4 none, .label "a" none,
      .instruction ⟨some "RTE", [], none⟩, .label "a" none, .switch ".bss", .switch ".data",
      .word (.const (-1)) none]).left
  exact ⟨_, rfl, by decide +kernel, by decide +kernel, h, h.disjoint rfl⟩

end Object
end Asm88000
