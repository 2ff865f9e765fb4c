import Mathlib.Logic.Relation
import Asm88000.Object
import Asm88000.Proofs.Ensures

namespace Asm88000

theorem Inst.encode_lt {inst : Inst} {word : Nat} {fixups : List Fixup}
    (h : inst.encode = .ok (word, fixups)) : word < 0x100000000 := by
  have ⟨op, _, h⟩ := bind_eq_ok.mp h
  have ⟨parts, _, h⟩ := bind_eq_ok.mp h
  have ⟨hword, _⟩ := Prod.mk.inj (pure_eq_ok.mp h)
  exact hword ▸ Nat.mod_lt _ (by decide)

namespace Object

structure Receives (o : Object) (r : Record) : Prop where
  sect_eq    : r.sect = o.current
  address_eq : r.address = o.address
  word_lt    : r.word < 0x100000000
  aligned    : r.type = .instruction → r.address % wordSize = 0

-- An address that the counter can move up to. In steps of words it stays between words.
structure Advances (o : Object) (a : Int) : Prop where
  le      : o.address ≤ a
  aligned : o.address % wordSize = 0 → a % wordSize = 0

inductive Step : Object → Object → Prop
  | switch {o} (sect : SectionName) : Step o (o.switch sect)
  | global {o} (name : String) : Step o (o.global name)
  | require88110 {o} : Step o o.require88110
  | label {o o' name loc} : o.label name loc = .ok o' → Step o o'
  | align {o o' alignment loc} : o.align alignment loc = .ok o' → Step o o'
  | append {o r} : o.Receives r → Step o (o.append r)

abbrev Steps : Object → Object → Prop :=
  Relation.ReflTransGen Step

variable {o o' : Object} {r : Record} {loc : Option Loc}

@[simp]
theorem records_setAddress (o : Object) (a : Int) : (o.setAddress a).records = o.records := by
  unfold setAddress
  split <;> rfl

@[simp]
theorem symbols_setAddress (o : Object) (a : Int) : (o.setAddress a).symbols = o.symbols := by
  unfold setAddress
  split <;> rfl

@[simp]
theorem requires88110_setAddress (o : Object) (a : Int) :
    (o.setAddress a).requires88110 = o.requires88110 := by
  unfold setAddress
  split <;> rfl

@[simp]
theorem records_append (o : Object) (r : Record) : (o.append r).records = o.records ++ [r] := by
  simp [append]

@[simp]
theorem symbols_append (o : Object) (r : Record) : (o.append r).symbols = o.symbols := by
  simp [append]

theorem current_append (o : Object) (r : Record) : (o.append r).current = o.current := by
  cases h : o.current <;> simp [append, setAddress, h]

theorem address_append (o : Object) (r : Record) : (o.append r).address = o.address + 4 := by
  cases h : o.current <;> simp [append, setAddress, address, getSection, wordSize, h]

theorem records_foldl_append (o : Object) (rs : List Record) :
    (rs.foldl append o).records = o.records ++ rs := by
  induction rs generalizing o
  case nil          => simp
  case cons r rs ih => rw [List.foldl_cons, ih, records_append, List.append_assoc]; rfl

@[simp]
theorem getSection_setAddress (o : Object) (a : Int) (sect : SectionName) :
    (o.setAddress a).getSection sect =
      if sect = o.current then ⟨(o.getSection sect).start, a⟩ else o.getSection sect := by
  unfold setAddress
  split
  case _ hc => cases sect <;> simp [getSection, hc]
  case _ hc => cases sect <;> simp [getSection, hc]

theorem address_setAddress (o : Object) (a : Int) : (o.setAddress a).address = a := by
  cases h : o.current <;> simp [setAddress, address, getSection, h]

theorem setAddress_eq_self {a : Int} : o.setAddress a = o ↔ a = o.address := by
  obtain ⟨⟨start, here⟩, ⟨start', there⟩, current, _⟩ := o
  cases current <;> simp [setAddress, address, getSection]

@[simp]
theorem getSection_append (o : Object) (r : Record) (sect : SectionName) :
    (o.append r).getSection sect = (o.setAddress (o.address + wordSize)).getSection sect := by
  rw [append, getSection_setAddress, getSection_setAddress]
  rfl

theorem receives_wordRecord {e : Expr} (h : o.wordRecord e loc = .ok r) : o.Receives r := by
  unfold wordRecord at h
  split at h
  · cases h
    exact ⟨rfl, rfl, Nat.zero_lt_succ _, nofun⟩
  · split at h <;> cases h
    case _ v _ _ =>
      have hlt : v % 0x100000000 < 0x100000000 := Int.emod_lt_of_pos v (by decide)
      exact ⟨rfl, rfl, by simp only; omega, nofun⟩

theorem instructionRecord_eq_ok {inst : Inst} (h : o.instructionRecord inst = .ok r) :
    o.address % wordSize = 0 ∧ ∃ word fixups, inst.encode = .ok (word, fixups) ∧
      r = ⟨.instruction, o.current, o.address, word, fixups, inst.loc, some inst⟩ := by
  unfold instructionRecord at h
  split at h
  · cases h
  · split at h
    · cases h
    case isFalse haligned =>
      split at h <;> cases h
      case _ word fixups hencode => exact ⟨by simpa using haligned, word, fixups, hencode, rfl⟩

theorem instructionRecord_of_encode {inst : Inst} {name : String} {word : Nat} {fixups : List Fixup}
    (hname : inst.opcode = some name) (h : inst.encode = .ok (word, fixups)) :
    o.instructionRecord inst =
      if o.address % wordSize = 0 then
        .ok ⟨.instruction, o.current, o.address, word, fixups, inst.loc, some inst⟩
      else .error (.error ⟨.unalignedInstruction o.address, inst.loc⟩) := by
  unfold instructionRecord
  rw [if_neg (by simp [hname]), h, ite_not]
  rfl

theorem receives_instructionRecord {inst : Inst} (h : o.instructionRecord inst = .ok r) :
    o.Receives r := by
  obtain ⟨haligned, word, fixups, hencode, rfl⟩ := instructionRecord_eq_ok h
  exact ⟨rfl, rfl, Inst.encode_lt hencode, fun _ => haligned⟩

theorem isPowerOfTwo_iff {n : Int} : isPowerOfTwo n ↔ ∃ k : Nat, n = (1 <<< k : Nat) := by
  simp only [isPowerOfTwo, Bool.and_eq_true, decide_eq_true_eq]
  constructor
  · intro ⟨hpos, hand⟩
    have ⟨k, hk⟩ := (Nat.and_sub_one_eq_zero_iff_isPowerOfTwo (by omega)).mp hand
    exact ⟨k, by rw [Nat.one_shiftLeft, ← hk, Int.toNat_of_nonneg (by omega)]⟩
  · intro ⟨k, hk⟩
    have hpos := Nat.two_pow_pos k
    rw [Nat.one_shiftLeft] at hk
    subst hk
    exact ⟨by omega,
      (Nat.and_sub_one_eq_zero_iff_isPowerOfTwo (by omega)).mpr ⟨k, Int.toNat_natCast _⟩⟩

theorem pos_of_isPowerOfTwo {n : Int} (h : isPowerOfTwo n) : 0 < n := by
  simp only [isPowerOfTwo, Bool.and_eq_true, decide_eq_true_eq] at h
  exact h.left

theorem isPowerOfTwo_cases {n : Int} (h : isPowerOfTwo n) : n = 1 ∨ n = 2 ∨ wordSize ∣ n := by
  have ⟨k, hk⟩ := isPowerOfTwo_iff.mp h
  rw [Nat.one_shiftLeft] at hk
  rcases k with _ | _ | k
  · exact .inl hk
  · exact .inr (.inl hk)
  · rw [Nat.pow_add] at hk
    exact .inr (.inr ⟨(2 ^ k : Nat), by simp only [hk, wordSize]; omega⟩)

theorem advances_add_wordSize (o : Object) : o.Advances (o.address + wordSize) where
  le          := Int.le_add_of_nonneg_right (by decide)
  aligned ha  := by simpa using ha

theorem advances_align (o : Object) {n : Int} (h : isPowerOfTwo n) :
    o.Advances (o.address + (-o.address) % n) where
  le := by
    have hpad := Int.emod_nonneg (-o.address) (Int.ne_of_gt (pos_of_isPowerOfTwo h))
    omega
  aligned ha := by
    rcases isPowerOfTwo_cases h with hn | hn | hn
    · simpa [hn] using ha
    · simp only [hn, wordSize] at ha ⊢
      omega
    · have hpad := Int.emod_emod_of_dvd (-o.address) hn
      simp only [wordSize] at ha hpad ⊢
      omega

theorem align_eq_ok_iff {alignment : Int} :
    o.align alignment loc = .ok o' ↔
      isPowerOfTwo alignment ∧ o.setAddress (o.address + (-o.address) % alignment) = o' := by
  unfold align
  split
  case isTrue h  => simp [h, pure_eq_ok]
  case isFalse h =>
    constructor
    · exact fun hok => by cases hok
    · exact fun hok => absurd hok.left h

theorem align_eq_error_iff {alignment : Int} {e : Error} :
    o.align alignment loc = .error e ↔
      ¬isPowerOfTwo alignment ∧ e = ⟨.badAlignment alignment, loc⟩ := by
  unfold align
  split
  case isTrue h =>
    constructor
    · exact fun herror => by cases herror
    · exact fun hnot => absurd h hnot.left
  case isFalse h =>
    constructor
    · exact fun herror => ⟨h, (Except.error.inj herror).symm⟩
    · exact fun he => congrArg Except.error he.right.symm

theorem align_eq_ok {alignment : Int} (h : o.align alignment loc = .ok o') :
    ∃ a, o.Advances a ∧ o' = o.setAddress a := by
  obtain ⟨hpow, rfl⟩ := align_eq_ok_iff.mp h
  exact ⟨_, o.advances_align hpow, rfl⟩

theorem label_eq_ok {name : String} (h : o.label name loc = .ok o') :
    (∀ s ∈ o.symbols, s.name ≠ name) ∧
      o' = { o with symbols := o.symbols ++ [⟨name, o.current, o.address⟩] } := by
  unfold label at h
  split at h
  case isTrue => cases h
  case isFalse hfresh => exact ⟨by simpa using hfresh, (pure_eq_ok.mp h).symm⟩

-- A step appends a record, moves the counter up, or leaves records and sections alone.
theorem Step.cases (h : Step o o') :
    (∃ r, o.Receives r ∧ o' = o.append r) ∨ (∃ a, o.Advances a ∧ o' = o.setAddress a) ∨
    (o'.records = o.records ∧ ∀ sect, o'.getSection sect = o.getSection sect) := by
  cases h
  case append r hr    => exact .inl ⟨r, hr, rfl⟩
  case align h        => exact .inr (.inl (align_eq_ok h))
  case switch sect    => exact .inr (.inr ⟨rfl, fun s => by cases s <;> rfl⟩)
  case require88110   => exact .inr (.inr ⟨rfl, fun s => by cases s <;> rfl⟩)
  case global name    =>
    refine .inr (.inr ?_)
    unfold Object.global
    split
    · exact ⟨rfl, fun _ => rfl⟩
    · exact ⟨rfl, fun s => by cases s <;> rfl⟩
  case label h        =>
    have ⟨_, ho'⟩ := label_eq_ok h
    exact .inr (.inr ⟨ho' ▸ rfl, fun s => by cases s <;> exact ho' ▸ rfl⟩)

theorem Step.symbols_cases (h : Step o o') :
    o'.symbols = o.symbols ∨
      ∃ name, (∀ s ∈ o.symbols, s.name ≠ name) ∧
        o'.symbols = o.symbols ++ [⟨name, o.current, o.address⟩] := by
  cases h
  case append r hr  => exact .inl (symbols_append o r)
  case switch       => exact .inl rfl
  case require88110 => exact .inl rfl
  case align h      =>
    have ⟨a, _, ho'⟩ := align_eq_ok h
    exact .inl (ho' ▸ symbols_setAddress o a)
  case global name  =>
    refine .inl ?_
    unfold Object.global
    split <;> rfl
  case label name _ h =>
    have ⟨hfresh, ho'⟩ := label_eq_ok h
    exact .inr ⟨name, hfresh, ho' ▸ rfl⟩

theorem Step.start_eq (h : Step o o') (sect : SectionName) :
    (o'.getSection sect).start = (o.getSection sect).start := by
  rcases h.cases with ⟨r, _, rfl⟩ | ⟨a, _, rfl⟩ | ⟨_, hs⟩
  · rw [getSection_append, getSection_setAddress]
    split <;> rfl
  · rw [getSection_setAddress]
    split <;> rfl
  · rw [hs]

theorem Steps.start_eq (h : Steps o o') (sect : SectionName) :
    (o'.getSection sect).start = (o.getSection sect).start := by
  induction h
  case refl            => rfl
  case tail _ hstep ih => rw [hstep.start_eq, ih]

theorem Step.address_le (h : Step o o') (sect : SectionName) :
    (o.getSection sect).address ≤ (o'.getSection sect).address := by
  have hmoved {a : Int} (ha : o.Advances a) :
      (o.getSection sect).address ≤ ((o.setAddress a).getSection sect).address := by
    rw [getSection_setAddress]
    split
    case isTrue hc  => exact hc ▸ ha.le
    case isFalse    => exact Int.le_refl _
  rcases h.cases with ⟨r, _, rfl⟩ | ⟨a, ha, rfl⟩ | ⟨_, hs⟩
  · rw [getSection_append]
    exact hmoved o.advances_add_wordSize
  · exact hmoved ha
  · exact Int.le_of_eq (by rw [hs])

theorem Step.symbols_prefix (h : Step o o') : o.symbols <+: o'.symbols := by
  rcases h.symbols_cases with hs | ⟨name, _, hs⟩
  · exact hs ▸ List.prefix_refl _
  · exact hs ▸ List.prefix_append _ _

theorem Steps.symbols_prefix (h : Steps o o') : o.symbols <+: o'.symbols := by
  induction h
  case refl            => exact List.prefix_refl _
  case tail _ hstep ih => exact ih.trans hstep.symbols_prefix

theorem Step.records_prefix (h : Step o o') : o.records <+: o'.records := by
  rcases h.cases with ⟨r, _, rfl⟩ | ⟨a, _, rfl⟩ | ⟨hr, _⟩
  · exact records_append o r ▸ List.prefix_append _ _
  · exact records_setAddress o a ▸ List.prefix_refl _
  · exact hr ▸ List.prefix_refl _

theorem Steps.records_prefix (h : Steps o o') : o.records <+: o'.records := by
  induction h
  case refl            => exact List.prefix_refl _
  case tail _ hstep ih => exact ih.trans hstep.records_prefix

structure IsTidy (o : Object) : Prop where
  ordered : ∀ sect, (o.getSection sect).start ≤ (o.getSection sect).address
  placed  : ∀ r ∈ o.records, (o.getSection r.sect).start ≤ r.address ∧
    r.address + wordSize ≤ (o.getSection r.sect).address
  spaced  : o.records.Pairwise fun r r' => r.sect = r'.sect → r.address + wordSize ≤ r'.address
  word_lt : ∀ r ∈ o.records, r.word < 0x100000000
  aligned : ∀ r ∈ o.records, r.type = .instruction → r.address % wordSize = 0

theorem isTidy_new (codeStart dataStart : Int) : (new codeStart dataStart).IsTidy where
  ordered sect := by cases sect <;> exact Int.le_refl _
  placed       := by simp [new]
  spaced       := .nil
  word_lt      := by simp [new]
  aligned      := by simp [new]

namespace IsTidy

theorem setAddress (h : o.IsTidy) {a : Int} (ha : o.Advances a) : (o.setAddress a).IsTidy where
  ordered sect := by
    have hordered := h.ordered sect
    rw [getSection_setAddress]
    split
    case isTrue hc =>
      subst hc
      exact Int.le_trans hordered ha.le
    case isFalse => exact hordered
  placed r hr := by
    rw [records_setAddress] at hr
    have hplaced := h.placed r hr
    rw [getSection_setAddress]
    split
    case isTrue hc =>
      rw [hc] at hplaced ⊢
      exact ⟨hplaced.left, Int.le_trans hplaced.right ha.le⟩
    case isFalse => exact hplaced
  spaced  := by simpa using h.spaced
  word_lt := by simpa using h.word_lt
  aligned := by simpa using h.aligned

theorem append (h : o.IsTidy) (hr : o.Receives r) : (o.append r).IsTidy := by
  -- The sections are those of an object whose counter has been moved up by a word.
  have hmoved := h.setAddress o.advances_add_wordSize
  constructor
  case ordered =>
    intro sect
    rw [getSection_append]
    exact hmoved.ordered sect
  case placed =>
    intro r' hr'
    rw [records_append, List.mem_append, List.mem_singleton] at hr'
    rw [getSection_append]
    cases hr'
    case inl hr' => exact hmoved.placed r' (by rwa [records_setAddress])
    case inr hr' =>
      subst hr'
      rw [getSection_setAddress, if_pos hr.sect_eq, hr.sect_eq, hr.address_eq]
      exact ⟨h.ordered o.current, Int.le_refl _⟩
  case spaced =>
    rw [records_append, List.pairwise_append]
    refine ⟨h.spaced, List.pairwise_singleton _ _, fun r' hr' s hs hsect => ?_⟩
    have hplaced := (h.placed r' hr').right
    rw [List.mem_singleton.mp hs, hr.sect_eq] at hsect
    rw [hsect] at hplaced
    rw [List.mem_singleton.mp hs, hr.address_eq]
    exact hplaced
  case word_lt =>
    intro r' hr'
    rw [records_append, List.mem_append, List.mem_singleton] at hr'
    cases hr'
    case inl hr' => exact h.word_lt r' hr'
    case inr hr' => exact hr' ▸ hr.word_lt
  case aligned =>
    intro r' hr'
    rw [records_append, List.mem_append, List.mem_singleton] at hr'
    cases hr'
    case inl hr' => exact h.aligned r' hr'
    case inr hr' => exact hr' ▸ hr.aligned

theorem step (h : o.IsTidy) (hstep : Step o o') : o'.IsTidy := by
  rcases hstep.cases with ⟨r, hr, rfl⟩ | ⟨a, ha, rfl⟩ | ⟨hrecords, hsections⟩
  · exact h.append hr
  · exact h.setAddress ha
  · obtain ⟨hordered, hplaced, hspaced, hword, haligned⟩ := h
    constructor
    all_goals simpa only [hrecords, hsections]

theorem steps (h : o.IsTidy) (hsteps : Steps o o') : o'.IsTidy := by
  induction hsteps
  case refl            => exact h
  case tail _ hstep ih => exact ih.step hstep

end IsTidy

structure IsLabelled (o : Object) : Prop where
  placed : ∀ s ∈ o.symbols, (o.getSection s.sect).start ≤ s.address ∧
    s.address ≤ (o.getSection s.sect).address
  nodup  : (o.symbols.map Symbol.name).Nodup

theorem isLabelled_new (codeStart dataStart : Int) : (new codeStart dataStart).IsLabelled where
  placed := by simp [new]
  nodup  := by simp [new]

namespace IsLabelled

theorem step (h : o.IsLabelled) (htidy : o.IsTidy) (hstep : Step o o') : o'.IsLabelled := by
  -- What is between start and counter before the step is so behind it.
  have hkept {s : Symbol} (hs : (o.getSection s.sect).start ≤ s.address ∧
      s.address ≤ (o.getSection s.sect).address) : (o'.getSection s.sect).start ≤ s.address ∧
        s.address ≤ (o'.getSection s.sect).address :=
    ⟨hstep.start_eq s.sect ▸ hs.left, Int.le_trans hs.right (hstep.address_le s.sect)⟩
  rcases hstep.symbols_cases with hsymbols | ⟨name, hfresh, hsymbols⟩
  · exact ⟨fun s hs => hkept (h.placed s (hsymbols ▸ hs)), hsymbols ▸ h.nodup⟩
  constructor
  case placed =>
    intro s hs
    rw [hsymbols, List.mem_append, List.mem_singleton] at hs
    cases hs
    case inl hs => exact hkept (h.placed s hs)
    case inr hs =>
      subst hs
      exact hkept ⟨htidy.ordered o.current, Int.le_refl _⟩
  case nodup =>
    rw [hsymbols, List.map_append, List.nodup_append]
    exact ⟨h.nodup, by simp, by simpa using hfresh⟩

theorem steps (h : o.IsLabelled) (htidy : o.IsTidy) (hsteps : Steps o o') : o'.IsLabelled := by
  induction hsteps
  case refl                 => exact h
  case tail hsteps hstep ih => exact ih.step (htidy.steps hsteps) hstep

end IsLabelled

structure IsWordAligned (o : Object) : Prop where
  sections : ∀ sect, (o.getSection sect).address % wordSize = 0
  records  : ∀ r ∈ o.records, r.address % wordSize = 0

theorem isWordAligned_new {codeStart dataStart : Int} (hcode : codeStart % wordSize = 0)
    (hdata : dataStart % wordSize = 0) : (new codeStart dataStart).IsWordAligned where
  sections sect := by
    cases sect
    case text => exact hcode
    case data => exact hdata
  records       := by simp [new]

namespace IsWordAligned

theorem setAddress (h : o.IsWordAligned) {a : Int} (ha : o.Advances a) :
    (o.setAddress a).IsWordAligned where
  sections sect := by
    rw [getSection_setAddress]
    split
    case isTrue  => exact ha.aligned (h.sections o.current)
    case isFalse => exact h.sections sect
  records       := by simpa using h.records

theorem append (h : o.IsWordAligned) (hr : o.Receives r) : (o.append r).IsWordAligned where
  sections sect := by
    rw [getSection_append]
    exact (h.setAddress o.advances_add_wordSize).sections sect
  records r' hr' := by
    rw [records_append, List.mem_append, List.mem_singleton] at hr'
    cases hr'
    case inl hr' => exact h.records r' hr'
    case inr hr' =>
      rw [hr', hr.address_eq]
      exact h.sections o.current

theorem step (h : o.IsWordAligned) (hstep : Step o o') : o'.IsWordAligned := by
  rcases hstep.cases with ⟨r, hr, rfl⟩ | ⟨a, ha, rfl⟩ | ⟨hrecords, hsections⟩
  · exact h.append hr
  · exact h.setAddress ha
  · exact ⟨fun sect => hsections sect ▸ h.sections sect, hrecords ▸ h.records⟩

theorem steps (h : o.IsWordAligned) (hsteps : Steps o o') : o'.IsWordAligned := by
  induction hsteps
  case refl            => exact h
  case tail _ hstep ih => exact ih.step hstep

end IsWordAligned
end Object
end Asm88000
