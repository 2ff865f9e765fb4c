import Mathlib.Data.List.Pairwise
import Asm88000.Proofs.Encoding

namespace Asm88000

namespace OperandClass

def window : OperandClass → Nat × Nat
  | gpr | gpr64 | xr                                    => (0, 5)
  | cr | fcr                                            => (0, 6)
  | u5 | conditionCode | bitfieldWidth | bitfieldOffset => (0, 5)
  | vec9                                                => (0, 9)
  | u16                                                 => (0, 16)
  | pixelRotation                                       => (2, 4)
  | displacement16                                      => (2, 16)
  | displacement26                                      => (2, 26)
  | less | greater | lbrack | rbrack                    => (0, 0)

-- What is kept of an immediate. Displacements count words up to the size of their field, and
-- rotations count steps of four. Everything else is kept as it is.
def kept : OperandClass → Int → Int
  | displacement16, v => v / 4 % 0x10000
  | displacement26, v => v / 4 % 0x4000000
  | pixelRotation,  v => v / 4
  | _,              v => v

end OperandClass

namespace Entry

def slots (e : Entry) : List (Field × Nat) :=
  e.opcode.format.flatMap fun f => f.places.map (f, ·)

def width (e : Entry) (f : Field) : Nat :=
  e.argClasses[f.arg]?.elim 0 (·.window.2)

def mask (e : Entry) : Nat :=
  Opcode.layAll 0 (e.opcode.format.map fun f => (f, 1 <<< e.width f - 1))

def Differs (e e' : Entry) : Prop :=
  (e.opcode.base ^^^ e'.opcode.base) ||| (e.mask ||| e'.mask) ≠ e.mask ||| e'.mask

instance (e e' : Entry) : Decidable (e.Differs e') :=
  inferInstanceAs (Decidable (_ ≠ _))

instance : Std.Symm Differs where
  symm e e' h := by rwa [Differs, Nat.xor_comm, Nat.or_comm e'.mask]

def Apart (e : Entry) (s s' : Field × Nat) : Prop :=
  s.2 + e.width s.1 ≤ s'.2 ∨ s'.2 + e.width s'.1 ≤ s.2

instance (e : Entry) (s s' : Field × Nat) : Decidable (e.Apart s s') :=
  inferInstanceAs (Decidable (_ ∨ _))

instance (e : Entry) : Std.Symm e.Apart where
  symm _ _ := Or.symm

structure IsLaidOut (e : Entry) : Prop where
  apart   : e.slots.Pairwise e.Apart
  inside  : ∀ s ∈ e.slots, s.2 + e.width s.1 ≤ 32
  clear   : ∀ s ∈ e.slots, (e.opcode.base >>> s.2) % (1 <<< e.width s.1) = 0
  base_lt : e.opcode.base < 0x100000000

instance (e : Entry) : Decidable e.IsLaidOut :=
  decidable_of_iff
    (e.slots.Pairwise e.Apart ∧ (∀ s ∈ e.slots, s.2 + e.width s.1 ≤ 32) ∧
      (∀ s ∈ e.slots, (e.opcode.base >>> s.2) % (1 <<< e.width s.1) = 0) ∧
      e.opcode.base < 0x100000000)
    ⟨fun ⟨h₁, h₂, h₃, h₄⟩ => ⟨h₁, h₂, h₃, h₄⟩, fun ⟨h₁, h₂, h₃, h₄⟩ => ⟨h₁, h₂, h₃, h₄⟩⟩

end Entry

namespace InstructionSet

theorem isLaidOut : ∀ e ∈ table, e.IsLaidOut := by
  decide +kernel

theorem differ : table.Pairwise Entry.Differs := by
  decide +kernel

theorem args_read : ∀ e ∈ table, ∀ i < e.argClasses.length, e.slots.any (·.1.arg = i) := by
  decide +kernel

theorem windows : ∀ e ∈ table, ∀ f ∈ e.opcode.format, f.content = .register ∨
    ∃ cls ∈ e.argClasses[f.arg]?, ∃ kind ∈ FixupKind.all,
      f.content = .immediate cls.window.1 cls.window.2 kind := by
  decide +kernel

end InstructionSet

theorem Field.testBit_lay (f : Field) (word n i : Nat) :
    (f.lay word n).testBit i =
      (word.testBit i || f.places.any fun p => p ≤ i && n.testBit (i - p)) := by
  unfold lay
  generalize f.places = places
  induction places generalizing word
  case nil            => simp
  case cons p places ih => simp [ih, Bool.or_assoc]

theorem Opcode.testBit_layAll (word : Nat) (fields : List (Field × Nat)) (i : Nat) :
    (layAll word fields).testBit i = (word.testBit i ||
      fields.any fun f => f.1.places.any fun p => p ≤ i && f.2.testBit (i - p)) := by
  unfold layAll
  induction fields generalizing word
  case nil              => simp
  case cons f fields ih => simp [ih, Field.testBit_lay, Bool.or_assoc]

namespace Entry

variable {e e' : Entry} {n n' : Field → Nat} {s : Field × Nat} {i : Nat}

theorem testBit_layAll (e : Entry) (word : Nat) (n : Field → Nat) (i : Nat) :
    (Opcode.layAll word (e.opcode.format.map fun f => (f, n f))).testBit i =
      (word.testBit i || e.slots.any fun s => s.2 ≤ i && (n s.1).testBit (i - s.2)) := by
  simp [Opcode.testBit_layAll, slots, List.any_flatMap, List.any_map, Function.comp_def]

def covers (e : Entry) (i : Nat) : Bool :=
  e.slots.any fun s => s.2 ≤ i && i < s.2 + e.width s.1

theorem testBit_mask (e : Entry) (i : Nat) : e.mask.testBit i = e.covers i := by
  have hbit (s : Field × Nat) : (s.2 ≤ i && (1 <<< e.width s.1 - 1).testBit (i - s.2)) =
      (s.2 ≤ i && i < s.2 + e.width s.1) := by
    rw [Nat.one_shiftLeft, Nat.testBit_two_pow_sub_one]
    simp only [← Bool.decide_and, decide_eq_decide]
    omega
  simp only [mask, testBit_layAll, covers, Nat.zero_testBit, Bool.false_or, hbit]

theorem one_shiftLeft_pos (w : Nat) : 0 < 1 <<< w := by
  rw [Nat.one_shiftLeft]
  exact Nat.two_pow_pos w

theorem testBit_eq_false_of_width_le {w m : Nat} (h : m < 1 <<< w) (hi : w ≤ i) :
    m.testBit i = false := by
  rw [Nat.one_shiftLeft] at h
  exact Nat.testBit_lt_two_pow (Nat.lt_of_lt_of_le h (Nat.pow_le_pow_right (by decide) hi))

def word (e : Entry) (n : Field → Nat) : Nat :=
  Opcode.layAll e.opcode.base (e.opcode.format.map fun f => (f, n f)) % 0x100000000

theorem word_congr (h : ∀ f ∈ e.opcode.format, n f = n' f) :
    e.word n = e.word n' := by
  have hmap : (e.opcode.format.map fun f => (f, n f)) = e.opcode.format.map fun f => (f, n' f) :=
    List.map_congr_left fun f hf => by rw [h f hf]
  rw [word, word, hmap]

theorem testBit_word (e : Entry) (n : Field → Nat) (hi : i < 32) :
    (e.word n).testBit i = (e.opcode.base.testBit i ||
      e.slots.any fun s => s.2 ≤ i && (n s.1).testBit (i - s.2)) := by
  have hmod : (e.word n).testBit i = _ := Nat.testBit_mod_two_pow _ 32 i
  rw [hmod, testBit_layAll, decide_eq_true hi, Bool.true_and]

def Holds (e : Entry) (n : Field → Nat) : Prop :=
  ∀ s ∈ e.slots, n s.1 < 1 <<< e.width s.1

namespace IsLaidOut

theorem testBit_slot (h : e.IsLaidOut) (hn : e.Holds n) (hs : s ∈ e.slots) (hi : i < e.width s.1) :
    (e.word n).testBit (s.2 + i) = (n s.1).testBit i := by
  have hbase : e.opcode.base.testBit (s.2 + i) = false := by
    have hclear := congrArg (Nat.testBit · i) (h.clear s hs)
    rw [Nat.one_shiftLeft] at hclear
    simpa [hi] using hclear
  have hin := h.inside s hs
  rw [testBit_word e n (by omega), hbase, Bool.false_or, Bool.eq_iff_iff, List.any_eq_true]
  refine ⟨fun ⟨s', hs', hbit⟩ => ?_, fun hbit => ⟨s, hs, by simpa using hbit⟩⟩
  simp only [Bool.and_eq_true, decide_eq_true_eq] at hbit
  have ⟨hle, hbit⟩ := hbit
  have hlt : s.2 + i - s'.2 < e.width s'.1 := by
    by_contra hge
    simp [testBit_eq_false_of_width_le (hn s' hs') (Nat.le_of_not_lt hge)] at hbit
  have heq : s' = s := by
    by_contra hne
    have hapart : _ ∨ _ := h.apart.forall hs' hs hne
    omega
  subst heq
  simpa using hbit

theorem number_slot (h : e.IsLaidOut) (hn : e.Holds n) (hs : s ∈ e.slots) :
    (e.word n >>> s.2) % (1 <<< e.width s.1) = n s.1 := by
  refine Nat.eq_of_testBit_eq fun i => ?_
  rw [Nat.one_shiftLeft, Nat.testBit_mod_two_pow, Nat.testBit_shiftRight]
  by_cases hi : i < e.width s.1
  case pos => rw [decide_eq_true hi, Bool.true_and, h.testBit_slot hn hs hi]
  case neg =>
    rw [decide_eq_false hi, Bool.false_and,
      testBit_eq_false_of_width_le (hn s hs) (Nat.le_of_not_lt hi)]

theorem testBit_base (hn : e.Holds n) (hi : i < 32) (hc : e.covers i = false) :
    (e.word n).testBit i = e.opcode.base.testBit i := by
  have hslots : (e.slots.any fun s => s.2 ≤ i && (n s.1).testBit (i - s.2)) = false := by
    rw [List.any_eq_false]
    intro s hs hbit
    simp only [Bool.and_eq_true, decide_eq_true_eq] at hbit
    have hout := List.any_eq_false.mp hc s hs
    simp only [Bool.and_eq_true, decide_eq_true_eq] at hout
    have hge : e.width s.1 ≤ i - s.2 := by omega
    simp [testBit_eq_false_of_width_le (hn s hs) hge] at hbit
  rw [testBit_word e n hi, hslots, Bool.or_false]

theorem number_eq (h : e.IsLaidOut) (hn : e.Holds n) (hn' : e.Holds n') (hw : e.word n = e.word n')
    (hs : s ∈ e.slots) : n s.1 = n' s.1 := by
  rw [← h.number_slot hn hs, ← h.number_slot hn' hs, hw]

theorem word_ne (h : e.IsLaidOut) (h' : e'.IsLaidOut) (hd : e.Differs e') (hn : e.Holds n)
    (hn' : e'.Holds n') : e.word n ≠ e'.word n' := by
  intro hw
  refine hd (Nat.eq_of_testBit_eq fun i => ?_)
  simp only [Nat.testBit_or, Nat.testBit_xor, testBit_mask]
  cases hc : e.covers i || e'.covers i
  case true  => simp
  case false =>
    have ⟨hc, hc'⟩ := Bool.or_eq_false_iff.mp hc
    by_cases hi : i < 32
    case pos =>
      have hbase := congrArg (Nat.testBit · i) hw
      simp only [testBit_base hn hi hc, testBit_base hn' hi hc'] at hbase
      simp [hbase]
    case neg =>
      have hi := Nat.le_of_not_lt hi
      have hlt : e.opcode.base < 1 <<< 32 := h.base_lt
      have hlt' : e'.opcode.base < 1 <<< 32 := h'.base_lt
      simp [testBit_eq_false_of_width_le hlt hi, testBit_eq_false_of_width_le hlt' hi]

end IsLaidOut
end Entry

def Arg.isSymbolic : Arg → Bool
  | expr e => e.value?.isNone
  | _      => false

namespace OperandClass

variable {cls : OperandClass} {a a' : Arg} {p p' : Nat × Option Fixup} {v : Int}

-- What a field has of an argument: the number of a register, what is kept of a value, or nothing
-- and a fixup.
inductive Encodes (cls : OperandClass) : Arg → Nat × Option Fixup → Prop
  | register {r : Register} :
    ¬cls.shape.isImmediate → r.number < 1 <<< cls.window.2 →
      Encodes cls (.reg r.id) (r.number, none)
  | value {a : Arg} {v : Int} {n : Nat} :
    cls.shape.isImmediate → a.value? = some v → n = cls.kept v → n < 1 <<< cls.window.2 →
    Encodes cls a (n, none)
  | symbol {a : Arg} {fixup : Fixup} :
    cls.shape.isImmediate → a.isSymbolic → Encodes cls a (0, some fixup)

-- Two arguments that come to the same as far as it is known.
inductive Agree (cls : OperandClass) : Arg → Arg → Prop
  | register {r r' : Register} : r.number = r'.number → Agree cls (.reg r.id) (.reg r'.id)
  | value {a a' : Arg} {v v' : Int} :
    a.value? = some v → a'.value? = some v' → cls.kept v = cls.kept v' → Agree cls a a'
  | symbol {a a' : Arg} : a.isSymbolic ∨ a'.isSymbolic → Agree cls a a'

theorem Encodes.lt (h : cls.Encodes a p) : p.1 < 1 <<< cls.window.2 := by
  cases h
  case register hlt    => exact hlt
  case value _ _ hlt _ => exact hlt
  case symbol          => exact Entry.one_shiftLeft_pos _

theorem Encodes.fixup_eq_none_iff (h : cls.Encodes a p) : p.2 = none ↔ ¬a.isSymbolic := by
  cases h
  case register      => simp [Arg.isSymbolic]
  case value v n _ _ => cases a <;> simp_all [Arg.isSymbolic, Arg.value?]
  case symbol hs     => simp [hs]

theorem Encodes.agree (h : cls.Encodes a p) (h' : cls.Encodes a' p') (hp : p.1 = p'.1) :
    cls.Agree a a' := by
  cases h
  case symbol hs => exact .symbol (.inl hs)
  case register hr _ =>
    cases h'
    case register       => exact .register hp
    case value hi _ _ _ => exact (hr hi).elim
    case symbol hs      => exact .symbol (.inr hs)
  case value hi hn _ hv =>
    cases h'
    case register hr _     => exact (hr hi).elim
    case symbol hs         => exact .symbol (.inr hs)
    case value _ hn' _ hv' =>
      have hkept := congrArg (Nat.cast (R := Int)) hp
      exact .value hv hv' (hn.symm.trans (hkept.trans hn'))

end OperandClass

namespace Field

theorem natCast_cut (low bits : Nat) (v : Int) :
    (cut low bits v : Int) = v / (1 <<< low : Nat) % (1 <<< bits : Nat) := by
  have hpos : (0 : Int) < (1 <<< bits : Nat) := Int.natCast_pos.mpr (Entry.one_shiftLeft_pos bits)
  rw [cut, Int.toNat_of_nonneg (Int.emod_nonneg _ (Int.ne_of_gt hpos)), Int.shiftRight_eq_div_pow,
    Nat.one_shiftLeft low]

theorem cut_lt (low bits : Nat) (v : Int) : cut low bits v < 1 <<< bits := by
  have hpos : (0 : Int) < (1 <<< bits : Nat) := Int.natCast_pos.mpr (Entry.one_shiftLeft_pos bits)
  have hlt := Int.emod_lt_of_pos (v / (1 <<< low : Nat)) hpos
  rw [← natCast_cut] at hlt
  exact Int.ofNat_lt.mp hlt

end Field

theorem Register.number_lt (r : Register) :
    r.number < match r.regClass with
      | .cr | .fcr => 64
      | _          => 32 := by
  cases r
  case pair n => exact Nat.mul_lt_mul_of_pos_left n.isLt (by decide)
  all_goals exact Fin.isLt _

namespace OperandClass

variable {cls : OperandClass} {a : Arg} {v : Int} {r : Register}

theorem selectHalf_bounds (sel : String) (v : Int) :
    0 ≤ Expr.selectHalf sel v ∧ Expr.selectHalf sel v ≤ 0xFFFF := by
  unfold Expr.selectHalf
  split <;> omega

theorem value_bounds (h : cls.shape.Admits a) (hv : a.value? = some v) :
    (∀ max, cls.shape = .constant max → 0 ≤ v ∧ v ≤ max) ∧
    (cls.shape = .half → 0 ≤ v ∧ v ≤ 0xFFFF) := by
  generalize cls.shape = shape at h
  cases h
  case register | number | expr => simp
  case constant h₀ h =>
    cases hv
    simpa using ⟨h₀, h⟩
  case word h₀ h =>
    cases hv
    simpa using ⟨h₀, h⟩
  case half sel sub =>
    have ⟨w, _, hw⟩ := Option.map_eq_some_iff.mp hv
    simpa [← hw] using selectHalf_bounds sel w

theorem cut_eq_kept (h : cls.shape.Admits a) (hi : cls.shape.isImmediate) (hv : a.value? = some v) :
    (Field.cut cls.window.1 cls.window.2 v : Int) = cls.kept v := by
  have ⟨hconst, hhalf⟩ := value_bounds h hv
  rw [Field.natCast_cut]
  cases cls
  case gpr | gpr64 | xr | cr | fcr | less | greater | lbrack | rbrack => cases hi
  case displacement16 | displacement26 => simp [window, kept]
  case u16 =>
    have hbounds := hhalf rfl
    simp only [window, kept, Nat.reduceShiftLeft]
    omega
  all_goals
    have hbounds := hconst _ rfl
    simp only [window, kept, Nat.reduceShiftLeft]
    omega

theorem number_lt {classes : List RegClass} (hs : cls.shape = .register classes)
    (hr : r.regClass ∈ classes) : r.number < 1 <<< cls.window.2 := by
  have hlt := r.number_lt
  cases cls <;> cases hs
  case gpr64 => rcases List.mem_pair.mp hr with hr | hr <;> rwa [hr] at hlt
  all_goals rwa [List.mem_singleton.mp hr] at hlt

end OperandClass

theorem Shape.Admits.isSymbolic_iff {sh : Shape} {a : Arg} (h : sh.Admits a) (hi : sh.isImmediate) :
    a.isSymbolic ↔ a.value? = none := by
  cases h
  case register                 => cases hi
  case constant | word | number => simp [Arg.isSymbolic, Arg.value?]
  case half | expr              => simp [Arg.isSymbolic, Arg.value?]

def Field.part (args : List Arg) (f : Field) : Nat × Option Fixup :=
  match f.read args with
  | .ok part => part
  | .error _ => (0, none)

theorem Field.part_eq {args : List Arg} {f : Field} {part : Nat × Option Fixup}
    (h : f.read args = .ok part) : f.part args = part := by
  simp [Field.part, h]

theorem Field.zip_parts {args : List Arg} {fs : List Field} {parts : List (Nat × Option Fixup)}
    (h : List.Forall₂ (fun f part => f.read args = .ok part) fs parts) :
    parts = fs.map (part args) ∧
      fs.zip (parts.map Prod.fst) = fs.map fun f => (f, (f.part args).1) := by
  have hparts : fs.map (part args) = parts := by
    have hmap := List.forall₂_map_left_iff.mpr (h.imp fun _ _ => part_eq)
    rwa [List.forall₂_eq_eq_eq] at hmap
  refine ⟨hparts.symm, ?_⟩
  simpa [← hparts, Function.comp_def] using List.zip_map' (l := fs) (f := id)
    (g := fun f => (f.part args).1)

namespace Entry.Fits

variable {e : Entry} {ops ops' : List Operand} {f : Field}

theorem encodes (h : e.Fits ops) (he : e ∈ InstructionSet.table) (hf : f ∈ e.opcode.format) :
    ∃ cls a part, e.argClasses[f.arg]? = some cls ∧ (e.inst ops).args[f.arg]? = some a ∧
      f.read (e.inst ops).args = .ok part ∧ cls.Encodes a part := by
  obtain ⟨cls, hcls, hsuits⟩ :=
    Option.any_eq_true _ _ |>.mp (InstructionSet.fields_suit e he f hf)
  obtain ⟨a, ha, hadmits⟩ := forall₂_getElem? h.admits hcls
  have hread : f.read (e.inst ops).args = Field.readArg f.content a := by simp [Field.read, ha]
  simp only [hcls, ha, hread, Option.some.injEq, exists_and_left, exists_eq_left']
  rcases InstructionSet.windows e he f hf with hc | ⟨cls', hcls', kind, _, hc⟩
  · rw [hc] at hsuits ⊢
    generalize hshape : cls.shape = sh at hadmits hsuits
    cases hadmits
    case register r classes hr =>
      have hi : ¬cls.shape.isImmediate := by simp [hshape, Shape.isImmediate]
      exact ⟨_, Field.readArg_register r, .register hi (OperandClass.number_lt hshape hr)⟩
    all_goals cases hsuits
  · cases hcls.symm.trans hcls'
    rw [hc] at hsuits ⊢
    obtain ⟨fixup, hpart, hfixup⟩ := Field.readArg_immediate hadmits hsuits
    refine ⟨_, hpart, ?_⟩
    cases hv : a.value?
    case some v =>
      obtain rfl : fixup = none := hfixup.mpr (by simp [hv])
      exact .value hsuits hv (OperandClass.cut_eq_kept hadmits hsuits hv) (Field.cut_lt _ _ v)
    case none =>
      have hsome : fixup ≠ none := by simp [hfixup, hv]
      obtain ⟨x, rfl⟩ := Option.ne_none_iff_exists'.mp hsome
      exact .symbol hsuits ((hadmits.isSymbolic_iff hsuits).mpr hv)

theorem encode_eq (h : e.Fits ops) (he : e ∈ InstructionSet.table) :
    (e.inst ops).encode = .ok (e.word fun f => (f.part (e.inst ops).args).1,
      e.opcode.format.filterMap fun f => (f.part (e.inst ops).args).2) := by
  obtain ⟨parts, hreads, hencode⟩ := h.encode_ok he
  obtain ⟨hparts, hzip⟩ := Field.zip_parts hreads
  rw [hencode, hzip, hparts, List.filterMap_map]
  rfl

theorem mem_format_of_slot {s : Field × Nat} (hs : s ∈ e.slots) : s.1 ∈ e.opcode.format := by
  have ⟨f, hf, hs⟩ := List.mem_flatMap.mp hs
  have ⟨p, _, hs⟩ := List.mem_map.mp hs
  exact hs ▸ hf

theorem encodes_slot {s : Field × Nat} {cls : OperandClass} (h : e.Fits ops)
    (he : e ∈ InstructionSet.table) (hs : s ∈ e.slots) (hcls : e.argClasses[s.1.arg]? = some cls) :
    ∃ a, (e.inst ops).args[s.1.arg]? = some a ∧ cls.Encodes a (s.1.part (e.inst ops).args) := by
  have ⟨cls', a, part, hcls', ha, hread, hencodes⟩ := h.encodes he (mem_format_of_slot hs)
  cases hcls.symm.trans hcls'
  exact ⟨a, ha, Field.part_eq hread ▸ hencodes⟩

theorem holds (h : e.Fits ops) (he : e ∈ InstructionSet.table) :
    e.Holds fun f => (f.part (e.inst ops).args).1 := by
  intro s hs
  have ⟨cls, hcls, _⟩ := Option.any_eq_true _ _ |>.mp
    (InstructionSet.fields_suit e he s.1 (mem_format_of_slot hs))
  have ⟨a, _, hencodes⟩ := h.encodes_slot he hs hcls
  simp only [Entry.width, hcls, Option.elim_some]
  exact hencodes.lt

theorem number_of_value {s : Field × Nat} {cls : OperandClass} {a : Arg} {v : Int} (h : e.Fits ops)
    (he : e ∈ InstructionSet.table) (hs : s ∈ e.slots) (hcls : e.argClasses[s.1.arg]? = some cls)
    (ha : (e.inst ops).args[s.1.arg]? = some a) (hv : a.value? = some v) :
    (((e.word fun f => (f.part (e.inst ops).args).1) >>> s.2 % (1 <<< e.width s.1) : Nat) : Int) =
      cls.kept v := by
  obtain ⟨a', ha', hencodes⟩ := h.encodes_slot he hs hcls
  obtain rfl : a = a' := Option.some.inj (ha.symm.trans ha')
  rw [(InstructionSet.isLaidOut e he).number_slot (h.holds he) hs]
  generalize s.1.part (e.inst ops).args = p at hencodes ⊢
  cases hencodes
  case register         => cases hv
  case symbol hs        => cases a <;> simp_all [Arg.isSymbolic, Arg.value?]
  case value _ hn _ hv' =>
    obtain rfl := Option.some.inj (hv.symm.trans hv')
    exact hn

theorem exists_slot {i : Nat} {cls : OperandClass} (he : e ∈ InstructionSet.table)
    (hcls : e.argClasses[i]? = some cls) : ∃ s ∈ e.slots, s.1.arg = i := by
  have ⟨hi, _⟩ := List.getElem?_eq_some_iff.mp hcls
  have ⟨s, hs, harg⟩ := List.any_eq_true.mp (InstructionSet.args_read e he i hi)
  exact ⟨s, hs, of_decide_eq_true harg⟩

theorem fixups_eq_nil_iff (h : e.Fits ops) (he : e ∈ InstructionSet.table) :
    (e.opcode.format.filterMap fun f => (f.part (e.inst ops).args).2) = [] ↔
      ∀ a ∈ (e.inst ops).args, ¬a.isSymbolic := by
  rw [List.filterMap_eq_nil_iff]
  constructor
  · intro hnone a ha
    have ⟨i, hi⟩ := List.mem_iff_getElem?.mp ha
    have ⟨cls, hcls, _⟩ := forall₂_getElem? h.admits.flip hi
    have ⟨s, hs, harg⟩ := exists_slot he hcls
    subst harg
    have ⟨a', ha', hencodes⟩ := h.encodes_slot he hs hcls
    cases hi.symm.trans ha'
    exact hencodes.fixup_eq_none_iff.mp (hnone s.1 (mem_format_of_slot hs))
  · intro hknown f hf
    have ⟨cls, a, part, _, ha, hread, hencodes⟩ := h.encodes he hf
    rw [Field.part_eq hread]
    exact hencodes.fixup_eq_none_iff.mpr (hknown a (List.mem_of_getElem? ha))

end Entry.Fits

def Entry.Agree (e : Entry) (args args' : List Arg) : Prop :=
  args.length = e.argClasses.length ∧ args'.length = e.argClasses.length ∧
  ∀ (i : Nat) (cls : OperandClass), e.argClasses[i]? = some cls →
    ∃ a a', args[i]? = some a ∧ args'[i]? = some a' ∧ cls.Agree a a'

theorem Entry.Fits.agree {e : Entry} {ops ops' : List Operand} (he : e ∈ InstructionSet.table)
    (h : e.Fits ops) (h' : e.Fits ops')
    (hw : (e.word fun f => (f.part (e.inst ops).args).1) =
      e.word fun f => (f.part (e.inst ops').args).1) :
    e.Agree (e.inst ops).args (e.inst ops').args := by
  refine ⟨h.admits.length_eq.symm, h'.admits.length_eq.symm, fun i cls hcls => ?_⟩
  have ⟨s, hs, harg⟩ := exists_slot he hcls
  subst harg
  have ⟨a, ha, hencodes⟩ := h.encodes_slot he hs hcls
  have ⟨a', ha', hencodes'⟩ := h'.encodes_slot he hs hcls
  have hn := (InstructionSet.isLaidOut e he).number_eq (h.holds he) (h'.holds he) hw hs
  exact ⟨a, a', ha, ha', hencodes.agree hencodes' hn⟩

theorem Entry.Fits.entry_eq {e e' : Entry} {ops ops' : List Operand}
    (he : e ∈ InstructionSet.table) (he' : e' ∈ InstructionSet.table) (h : e.Fits ops)
    (h' : e'.Fits ops')
    (hw : (e.word fun f => (f.part (e.inst ops).args).1) =
      e'.word fun f => (f.part (e'.inst ops').args).1) : e = e' := by
  by_contra hne
  have hdiffers := InstructionSet.differ.forall he he' hne
  exact (InstructionSet.isLaidOut e he).word_ne (InstructionSet.isLaidOut e' he') hdiffers
    (h.holds he) (h'.holds he') hw

namespace Verdict

-- The fields of every form are apart from each other and from its base. They hold all that their
-- classes keep, and the word of an accepted instruction determines its opcode and what is in them.
theorem words_tell_instructions :
    (∀ e ∈ InstructionSet.table, e.IsLaidOut) ∧
    ∀ {fs fs' : List Feature} {ops ops' : List Operand} {e e' : Entry} {inst inst' : Inst},
      ofOperands fs ops = .ok (success e inst) → ofOperands fs' ops' = .ok (success e' inst') →
      ∃ word fixups word' fixups',
        inst.encode = .ok (word, fixups) ∧ inst'.encode = .ok (word', fixups') ∧
        (fixups = [] ↔ ∀ a ∈ inst.args, ¬a.isSymbolic) ∧
        (fixups' = [] ↔ ∀ a ∈ inst'.args, ¬a.isSymbolic) ∧
        (∀ f ∈ e.opcode.format, ∃ cls a part, e.argClasses[f.arg]? = some cls ∧
          inst.args[f.arg]? = some a ∧ f.read inst.args = .ok part ∧ cls.Encodes a part) ∧
        (word = word' → inst.opcode = inst'.opcode ∧ e.Agree inst.args inst'.args) := by
  refine ⟨InstructionSet.isLaidOut, fun h h' => ?_⟩
  have ⟨he, hfits, _, hinst⟩ := of_ofOperands h
  have ⟨he', hfits', _, hinst'⟩ := of_ofOperands h'
  subst hinst hinst'
  refine ⟨_, _, _, _, hfits.encode_eq he, hfits'.encode_eq he', hfits.fixups_eq_nil_iff he,
    hfits'.fixups_eq_nil_iff he', fun f hf => hfits.encodes he hf, fun hw => ?_⟩
  have heq := hfits.entry_eq he he' hfits' hw
  subst heq
  exact ⟨rfl, hfits.agree he hfits' hw⟩

theorem words_tell_instructions_br :
    ∃ e, Entry.Agree e [.imm 8] [.imm 0x10000008] ∧
      ofOperands (Cpu.features .mc88100)
          [.token "br" ⟨1, 1⟩, .immediate (.const 8) ⟨1, 4⟩ ⟨1, 4⟩] =
        .ok (success e ⟨some "BR", [.imm 8], none⟩) ∧
      ofOperands (Cpu.features .mc88110)
          [.token "br" ⟨2, 1⟩, .immediate (.const 0x10000008) ⟨2, 4⟩ ⟨2, 4⟩] =
        .ok (success e ⟨some "BR", [.imm 0x10000008], none⟩) ∧
      Inst.encode ⟨some "BR", [.imm 8], none⟩ = .ok (0xC0000002, []) ∧
      Inst.encode ⟨some "BR", [.imm 0x10000008], none⟩ = .ok (0xC0000002, []) := by
  have h : ofOperands (Cpu.features .mc88100)
      [.token "br" ⟨1, 1⟩, .immediate (.const 8) ⟨1, 4⟩ ⟨1, 4⟩] =
    .ok (success ⟨"br", [.displacement26], ⟨"BR", 0xC0000000, Format.branch26⟩, []⟩
      ⟨some "BR", [.imm 8], none⟩) := by rfl
  have h' : ofOperands (Cpu.features .mc88110)
      [.token "br" ⟨2, 1⟩, .immediate (.const 0x10000008) ⟨2, 4⟩ ⟨2, 4⟩] =
    .ok (success ⟨"br", [.displacement26], ⟨"BR", 0xC0000000, Format.branch26⟩, []⟩
      ⟨some "BR", [.imm 0x10000008], none⟩) := by rfl
  have hw : Inst.encode ⟨some "BR", [.imm 8], none⟩ = .ok (0xC0000002, []) := by rfl
  have hw' : Inst.encode ⟨some "BR", [.imm 0x10000008], none⟩ = .ok (0xC0000002, []) := by rfl
  have ⟨word, _, word', _, hencode, hencode', _, _, _, hsame⟩ := words_tell_instructions.right h h'
  rw [hw] at hencode
  rw [hw'] at hencode'
  cases hencode
  cases hencode'
  exact ⟨_, (hsame rfl).right, h, h', hw, hw'⟩

end Verdict
end Asm88000
