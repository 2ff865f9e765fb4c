import Asm88000.Proofs.Displacement
import Asm88000.Proofs.ExprGrammar

namespace Asm88000

namespace Expr

def meaning (env : Atom → Int) : Expr → Int
  | const v      => v
  | symbol name  => env (.text name)
  | nameless l   => env l
  | sum _ l r    => l.meaning env + r.meaning env
  | half sel sub => halfBits sel (sub.meaning env)

theorem value?_eq_ite (e : Expr) (env : Atom → Int) :
    e.value? = if e.hasSymbol then none else some (e.meaning env) := by
  induction e
  case const | symbol | nameless => rfl
  case half sel sub ih =>
    cases hs : sub.hasSymbol <;> simp [value?, ih, hasSymbol, meaning, hs, selectHalf_eq_halfBits]
  case sum sign l r ihl ihr =>
    cases hl : l.hasSymbol <;> cases hr : r.hasSymbol <;>
      simp [value?, ihl, ihr, hasSymbol, meaning, hl, hr]

end Expr

namespace Arg

def symbolic? : Arg → Option Expr
  | expr e => if e.hasSymbol then some e else none
  | _      => none

def number : Arg → Nat
  | reg id => (Register.ofId? id).elim 0 Register.number
  | _      => 0

theorem isSymbolic_iff_exists {a : Arg} : a.isSymbolic ↔ ∃ x, a.symbolic? = some x := by
  cases a
  case expr e =>
    cases hs : e.hasSymbol
    case true  => simp [isSymbolic, symbolic?, hs, Expr.value?_eq_none_iff.mpr hs]
    case false =>
      have hv : e.value? ≠ none := fun hv => by simp [Expr.value?_eq_none_iff.mp hv] at hs
      simpa [isSymbolic, symbolic?, hs] using hv
  all_goals simp [isSymbolic, symbolic?]

end Arg

namespace Field

def isImmediate (f : Field) : Bool :=
  f.content ≠ .register

-- What an immediate contributes to a field: its bits from `low` up, or nothing.
inductive Contributes (low bits : Nat) : Arg → Nat → Prop
  | number (v : Int) : Contributes low bits (.imm v) (cut low bits v)
  | value {e : Expr} {v : Int} :
    e.hasSymbol = false → e.value? = some v → Contributes low bits (.expr e) (cut low bits v)
  | symbol {e : Expr} : e.hasSymbol → Contributes low bits (.expr e) 0

variable {low bits n : Nat} {kind : FixupKind} {a : Arg} {fixup : Option Fixup}

theorem fixupFor_expr (kind : FixupKind) (e : Expr) : (fixupFor kind e).expr = e := by
  cases e <;> rfl

theorem Contributes.lt (h : Contributes low bits a n) : n < 1 <<< bits := by
  cases h
  case number | value => exact cut_lt low bits _
  case symbol         => exact Entry.one_shiftLeft_pos bits

theorem readArg_immediate_ok (h : readArg (.immediate low bits kind) a = .ok (n, fixup)) :
    Contributes low bits a n ∧ fixup.map Fixup.expr = a.symbolic? := by
  cases a
  case reg        => cases h
  case nonInteger => cases h
  case imm v =>
    cases h
    exact ⟨.number v, rfl⟩
  case expr e =>
    simp only [readArg] at h
    split at h
    case h_1 v hv =>
      have hsymbol : e.hasSymbol = false := by
        have := Expr.value?_eq_none_iff (e := e)
        simpa [hv] using this
      cases h
      exact ⟨.value hsymbol hv, by simp [Arg.symbolic?, hsymbol]⟩
    case h_2 hv =>
      have hsymbol := Expr.value?_eq_none_iff.mp hv
      cases h
      exact ⟨.symbol hsymbol, by simp [Arg.symbolic?, hsymbol, fixupFor_expr]⟩

theorem readArg_register_ok (h : readArg .register a = .ok (n, fixup)) :
    n = a.number ∧ n < 64 ∧ fixup = none := by
  cases a
  case imm        => cases h
  case nonInteger => cases h
  case expr       => cases h
  case reg id =>
    obtain ⟨r, hr, h⟩ := bind_eq_ok.mp h
    cases h
    unfold Register.get at hr
    split at hr <;> cases hr
    case _ hr =>
      refine ⟨by simp [Arg.number, hr], ?_, rfl⟩
      have := r.number_lt
      split at this <;> omega

end Field

theorem forall₂_of_mapM_eq_ok {ε α β : Type} {f : α → Except ε β} {xs : List α} {ys : List β}
    (h : xs.mapM f = .ok ys) : List.Forall₂ (fun x y => f x = .ok y) xs ys := by
  induction xs generalizing ys
  case nil =>
    obtain rfl := pure_eq_ok.mp h
    exact .nil
  case cons x xs ih =>
    rw [List.mapM_cons] at h
    obtain ⟨y, hy, h⟩ := bind_eq_ok.mp h
    obtain ⟨ys, hys, h⟩ := bind_eq_ok.mp h
    obtain rfl := pure_eq_ok.mp h
    exact .cons hy (ih hys)

namespace Opcode

variable {op : Opcode} {args : List Arg} {word : Nat} {fixups : List Fixup}

theorem encode_eq_ok (h : op.encode args = .ok (word, fixups)) :
    (∀ f ∈ op.format, f.read args = .ok (f.part args)) ∧
    word = layAll op.base (op.format.map fun f => (f, (f.part args).1)) % 0x100000000 ∧
    fixups = op.format.filterMap fun f => (f.part args).2 := by
  obtain ⟨parts, hparts, h⟩ := bind_eq_ok.mp h
  have hreads := forall₂_of_mapM_eq_ok hparts
  obtain ⟨hmap, hzip⟩ := Field.zip_parts hreads
  cases h
  refine ⟨fun f hf => ?_, by rw [hzip], by rw [hmap, List.filterMap_map]; rfl⟩
  obtain ⟨i, hi⟩ := List.mem_iff_getElem?.mp hf
  obtain ⟨part, -, hread⟩ := forall₂_getElem? hreads hi
  rwa [Field.part_eq hread]

end Opcode

def Content.size : Content → Nat
  | register           => 6
  | immediate _ bits _ => bits

namespace InstructionSet

-- The fields of immediates are apart from each other and from the base. They are apart from the
-- registers as well, but for the register below a bit number or a condition, which would fill five
-- bits and can have six.
theorem immediates_apart : ∀ e ∈ table, ∀ s ∈ e.slots, s.1.isImmediate →
    s.2 + s.1.content.size ≤ 32 ∧ 0 < s.1.content.size ∧
    (e.opcode.base >>> s.2) % (1 <<< s.1.content.size) = 0 ∧
    ∀ s' ∈ e.slots, s' = s ∨ s.2 + s.1.content.size ≤ s'.2 ∨ s'.2 + s'.1.content.size ≤ s.2 ∨
      s.2 = 21 ∧ s' = (.reg 1 16, 16) := by
  decide +kernel

theorem immediates_high : ∀ e ∈ table, ∀ s ∈ e.slots, s.1.isImmediate → s.2 = 21 →
    (.reg 1 16, 16) ∈ e.slots ∧
      (e.opcode.format = Format.branch16 ∨ e.opcode.format = Format.trap) := by
  decide +kernel

theorem immediates_placed : ∀ e ∈ table, ∀ f ∈ e.opcode.format, f.isImmediate →
    f.places.length = 1 := by
  decide +kernel

theorem immediates_once : ∀ e ∈ table,
    ((e.opcode.format.filter Field.isImmediate).map Field.arg).Nodup := by
  decide +kernel

end InstructionSet

namespace Entry

variable {e : Entry} {n : Field → Nat} {s : Field × Nat}

theorem lt_of_slot (hn : ∀ f ∈ e.opcode.format, n f < 1 <<< f.content.size) (hs : s ∈ e.slots) :
    n s.1 < 1 <<< s.1.content.size :=
  hn s.1 (Fits.mem_format_of_slot hs)

-- A bit in the field of an immediate is one of its own, or one that comes up from the register
-- below it. No other field gets there.
theorem testBit_immediate (he : e ∈ InstructionSet.table)
    (hn : ∀ f ∈ e.opcode.format, n f < 1 <<< f.content.size) (hs : s ∈ e.slots)
    (hi : s.1.isImmediate) {i : Nat} (hsize : i < s.1.content.size) :
    (e.word n).testBit (s.2 + i) =
      ((n s.1).testBit i || (if s.2 = 21 then n (.reg 1 16) >>> 5 else 0).testBit i) := by
  obtain ⟨hinside, _, hclear, hapart⟩ := InstructionSet.immediates_apart e he s hs hi
  have hbase : e.opcode.base.testBit (s.2 + i) = false := by
    have hbit := congrArg (Nat.testBit · i) hclear
    rw [Nat.one_shiftLeft] at hbit
    simpa [hsize] using hbit
  rw [testBit_word e n (by omega), hbase, Bool.false_or, Bool.eq_iff_iff, List.any_eq_true,
    Bool.or_eq_true]
  constructor
  case mp =>
    rintro ⟨s', hs', hbit⟩
    simp only [Bool.and_eq_true, decide_eq_true_eq] at hbit
    obtain ⟨hle, hbit⟩ := hbit
    rcases hapart s' hs' with rfl | hbelow | habove | ⟨hplace, rfl⟩
    · exact .inl (by simpa using hbit)
    · omega
    · have hsize' : s'.1.content.size ≤ s.2 + i - s'.2 := by omega
      simp [testBit_eq_false_of_width_le (lt_of_slot hn hs') hsize'] at hbit
    · refine .inr ?_
      rw [if_pos hplace, Nat.testBit_shiftRight]
      rwa [show s.2 + i - 16 = 5 + i by omega] at hbit
  case mpr =>
    rintro (hbit | hbit)
    · exact ⟨s, hs, by simpa using hbit⟩
    · split at hbit
      case isFalse       => simp at hbit
      case isTrue hplace =>
        refine ⟨_, (InstructionSet.immediates_high e he s hs hi hplace).left, ?_⟩
        rw [Nat.testBit_shiftRight] at hbit
        simp only [Bool.and_eq_true, decide_eq_true_eq]
        rw [show s.2 + i - 16 = 5 + i by omega]
        exact ⟨by omega, hbit⟩

theorem number_immediate (he : e ∈ InstructionSet.table)
    (hn : ∀ f ∈ e.opcode.format, n f < 1 <<< f.content.size) (hs : s ∈ e.slots)
    (hi : s.1.isImmediate) :
    (e.word n >>> s.2) % (1 <<< s.1.content.size) =
      n s.1 ||| if s.2 = 21 then n (.reg 1 16) >>> 5 else 0 := by
  refine Nat.eq_of_testBit_eq fun i => ?_
  rw [Nat.one_shiftLeft, Nat.testBit_mod_two_pow, Nat.testBit_shiftRight, Nat.testBit_or]
  by_cases hsize : i < s.1.content.size
  case pos => rw [decide_eq_true hsize, Bool.true_and, testBit_immediate he hn hs hi hsize]
  case neg =>
    have hpos := (InstructionSet.immediates_apart e he s hs hi).right.left
    rw [decide_eq_false hsize, Bool.false_and,
      testBit_eq_false_of_width_le (lt_of_slot hn hs) (Nat.le_of_not_lt hsize), Bool.false_or]
    split
    case isFalse       => simp
    case isTrue hplace =>
      have hreg := lt_of_slot hn (InstructionSet.immediates_high e he s hs hi hplace).left
      rw [Nat.testBit_shiftRight, testBit_eq_false_of_width_le hreg]
      change 6 ≤ 5 + i
      omega

end Entry

-- What is encoded of the immediates among some arguments. Each is in its field, and those with
-- symbols leave fixups instead; `spill` is what a register has too much for its place under the
-- field at bit 21, which only two formats have.
structure Opcode.Leaves (op : Opcode) (args : List Arg) (spill word : Nat) (fixups : List Fixup) :
    Prop where
  once   : ((op.format.filter Field.isImmediate).map Field.arg).Nodup
  exprs  : fixups.map Fixup.expr =
    (op.format.filter Field.isImmediate).filterMap fun f => args[f.arg]?.bind Arg.symbolic?
  fields : ∀ f ∈ op.format, ∀ low bits kind, f.content = .immediate low bits kind →
    ∃ a p n, args[f.arg]? = some a ∧ f.places = [p] ∧ Field.Contributes low bits a n ∧
      (word >>> p) % (1 <<< bits) = n ||| if p = 21 then spill else 0
  high   : ∀ f ∈ op.format, f.isImmediate → f.places = [21] →
    op.format = Format.branch16 ∨ op.format = Format.trap

namespace Field

variable {args : List Arg} {f : Field}

theorem read_eq_ok {part : Nat × Option Fixup} (h : f.read args = .ok part) :
    ∃ a, args[f.arg]? = some a ∧ readArg f.content a = .ok part := by
  unfold read at h
  split at h
  case h_1 a ha => exact ⟨a, ha, h⟩
  case h_2      => cases h

theorem part_immediate {low bits : Nat} {kind : FixupKind} (h : f.read args = .ok (f.part args))
    (hc : f.content = .immediate low bits kind) :
    ∃ a, args[f.arg]? = some a ∧ Contributes low bits a (f.part args).1 ∧
      (f.part args).2.map Fixup.expr = a.symbolic? := by
  obtain ⟨a, ha, hread⟩ := read_eq_ok h
  rw [hc] at hread
  exact ⟨a, ha, readArg_immediate_ok hread⟩

theorem part_register (h : f.read args = .ok (f.part args)) (hc : f.content = .register) :
    (f.part args).1 = args[f.arg]?.elim 0 Arg.number ∧ (f.part args).1 < 64 ∧
      (f.part args).2 = none := by
  obtain ⟨a, ha, hread⟩ := read_eq_ok h
  rw [hc] at hread
  rw [ha]
  exact readArg_register_ok hread

theorem part_lt (h : f.read args = .ok (f.part args)) : (f.part args).1 < 1 <<< f.content.size := by
  cases hc : f.content
  case register           => exact (part_register h hc).right.left
  case immediate low bits kind =>
    obtain ⟨a, -, hn, -⟩ := part_immediate h hc
    exact hn.lt

theorem part_expr (h : f.read args = .ok (f.part args)) : (f.part args).2.map Fixup.expr =
    if f.isImmediate then args[f.arg]?.bind Arg.symbolic? else none := by
  cases hc : f.content
  case register           => simp [(part_register h hc).right.right, isImmediate, hc]
  case immediate low bits kind =>
    obtain ⟨a, ha, -, hexpr⟩ := part_immediate h hc
    simp [hexpr, isImmediate, hc, ha]

end Field

theorem Entry.leaves {e : Entry} {args : List Arg} {word : Nat} {fixups : List Fixup}
    (he : e ∈ InstructionSet.table) (h : e.opcode.encode args = .ok (word, fixups)) :
    e.opcode.Leaves args (args[1]?.elim 0 Arg.number >>> 5) word fixups := by
  obtain ⟨hreads, rfl, rfl⟩ := Opcode.encode_eq_ok h
  have hslot {f : Field} {p : Nat} (hf : f ∈ e.opcode.format) (hp : f.places = [p]) :
      (f, p) ∈ e.slots :=
    List.mem_flatMap.mpr ⟨f, hf, by simp [hp]⟩
  refine ⟨InstructionSet.immediates_once e he, ?_, fun f hf low bits kind hc => ?_, ?_⟩
  · rw [List.map_filterMap, List.filterMap_filter]
    exact List.filterMap_congr fun f hf => Field.part_expr (hreads f hf)
  · have hi : f.isImmediate := by simp [Field.isImmediate, hc]
    obtain ⟨p, hp⟩ := List.length_eq_one_iff.mp (InstructionSet.immediates_placed e he f hf hi)
    obtain ⟨a, ha, hn, -⟩ := Field.part_immediate (hreads f hf) hc
    refine ⟨a, p, _, ha, hp, hn, ?_⟩
    have hnumber := number_immediate (n := fun f => (f.part args).1) he
      (fun f hf => Field.part_lt (hreads f hf)) (hslot hf hp) hi
    simp only [hc, Content.size] at hnumber
    refine hnumber.trans ?_
    split
    case isFalse       => rfl
    case isTrue hplace =>
      obtain ⟨hreg, -⟩ := InstructionSet.immediates_high e he _ (hslot hf hp) hi hplace
      rw [(Field.part_register (hreads _ (Fits.mem_format_of_slot hreg)) rfl).left]
      rfl
  · intro f hf hi hp
    exact (InstructionSet.immediates_high e he _ (hslot hf hp) hi rfl).right

theorem Inst.leaves {inst : Inst} {word : Nat} {fixups : List Fixup}
    (h : inst.encode = .ok (word, fixups)) :
    ∃ op, inst.opcode.bind InstructionSet.opcode? = some op ∧
      op.Leaves inst.args (inst.args[1]?.elim 0 Arg.number >>> 5) word fixups := by
  obtain ⟨op, hop, h⟩ := bind_eq_ok.mp h
  unfold InstructionSet.opcode at hop
  split at hop <;> cases hop
  case _ hop =>
    refine ⟨op, hop, ?_⟩
    obtain ⟨name, -, hname⟩ := Option.bind_eq_some_iff.mp hop
    obtain ⟨e, he, rfl⟩ := Option.map_eq_some_iff.mp hname
    exact Entry.leaves (List.mem_of_find?_eq_some he) h

def Shape.admitsSymbol : Shape → Bool
  | half | expression => true
  | _                 => false

theorem Shape.Admits.symbolic?_eq_none {sh : Shape} {a : Arg} (h : sh.Admits a)
    (hs : sh.admitsSymbol = false) : a.symbolic? = none := by
  cases h
  case half | number | expr     => cases hs
  case register | constant | word => rfl

namespace InstructionSet

theorem symbols_once : ∀ e ∈ table, (e.opcode.format.filter fun f =>
    (e.argClasses[f.arg]?).any (·.shape.admitsSymbol)).length ≤ 1 := by
  decide +kernel

theorem high_classes : ∀ e ∈ table,
    e.opcode.format = Format.branch16 ∨ e.opcode.format = Format.trap →
      e.argClasses[1]? = some .gpr := by
  decide +kernel

end InstructionSet

theorem Opcode.Leaves.of_spill {op : Opcode} {args : List Arg} {spill word : Nat}
    {fixups : List Fixup} (h : op.Leaves args spill word fixups)
    (hs : op.format = Format.branch16 ∨ op.format = Format.trap → spill = 0) :
    op.Leaves args 0 word fixups := by
  refine ⟨h.once, h.exprs, fun f hf low bits kind hc => ?_, h.high⟩
  obtain ⟨a, p, n, ha, hp, hn, hbits⟩ := h.fields f hf low bits kind hc
  refine ⟨a, p, n, ha, hp, hn, hbits.trans ?_⟩
  split
  case isFalse    => rfl
  case isTrue h21 =>
    rw [hs (h.high f hf (by simp [Field.isImmediate, hc]) (h21 ▸ hp))]

theorem Operand.symbolic?_toArg? (op : Operand) (x : Expr) :
    op.toArg?.bind Arg.symbolic? = some x ↔ op.value = .immediate x ∧ x.hasSymbol := by
  unfold toArg?
  split
  case h_1 hv => simp [hv]
  case h_2 hv => simp [hv, Arg.symbolic?]
  case h_3 hv =>
    simp only [hv, Option.bind_some, Arg.symbolic?, reduceCtorEq, false_iff, not_and]
    intro hx
    cases hx
    simp [Expr.hasSymbol]
  case h_4 hv =>
    simp only [hv, Option.bind_some, Arg.symbolic?, OperandValue.immediate.injEq]
    split <;> grind

namespace Entry.Fits

variable {e : Entry} {ops : List Operand} {word : Nat} {fixups : List Fixup}

theorem encode_opcode (he : e ∈ InstructionSet.table)
    (h : (e.inst ops).encode = .ok (word, fixups)) :
    e.opcode.encode (e.inst ops).args = .ok (word, fixups) := by
  have hop : InstructionSet.opcode (e.inst ops).opcode = .ok e.opcode := by
    simp [InstructionSet.opcode, inst, InstructionSet.opcode?_name e he]
  simpa only [Inst.encode, hop, bind, Except.bind] using h

theorem leaves (hf : e.Fits ops) (he : e ∈ InstructionSet.table)
    (h : (e.inst ops).encode = .ok (word, fixups)) :
    e.opcode.Leaves (e.inst ops).args 0 word fixups := by
  refine (Entry.leaves he (encode_opcode he h)).of_spill fun hformat => ?_
  obtain ⟨a, ha, hadmits⟩ := forall₂_getElem? hf.admits (InstructionSet.high_classes e he hformat)
  have hlt : a.number < 32 := by
    cases hadmits
    case register r hr =>
      rw [Arg.number, Register.ofId?_id]
      exact OperandClass.number_lt (show OperandClass.gpr.shape = _ from rfl) hr
  rw [ha]
  exact Nat.shiftRight_eq_zero _ _ hlt

theorem fixups_length (hf : e.Fits ops) (he : e ∈ InstructionSet.table)
    (h : (e.inst ops).encode = .ok (word, fixups)) : fixups.length ≤ 1 := by
  have hexprs := (hf.leaves he h).exprs
  rw [List.filterMap_filter] at hexprs
  have hfilter : (e.opcode.format.filterMap fun f =>
      if f.isImmediate then (e.inst ops).args[f.arg]?.bind Arg.symbolic? else none) =
      ((e.opcode.format.filter fun f => (e.argClasses[f.arg]?).any (·.shape.admitsSymbol)).filterMap
        fun f => if f.isImmediate then (e.inst ops).args[f.arg]?.bind Arg.symbolic? else none) := by
    rw [List.filterMap_filter]
    refine List.filterMap_congr fun f hff => ?_
    split
    case isFalse => simp
    case isTrue hi =>
      obtain ⟨cls, hcls, -⟩ :=
        Option.any_eq_true _ _ |>.mp (InstructionSet.fields_suit e he f hff)
      obtain ⟨a, ha, hadmits⟩ := forall₂_getElem? hf.admits hcls
      cases hs : cls.shape.admitsSymbol
      case true  => simp [hcls, hs]
      case false => simp [hcls, hs, ha, hadmits.symbolic?_eq_none hs]
  calc fixups.length
      = (fixups.map Fixup.expr).length := by rw [List.length_map]
    _ ≤ _ := by rw [hexprs, hfilter]; exact List.length_filterMap_le _ _
    _ ≤ 1 := InstructionSet.symbols_once e he

theorem fixups_ne_nil_iff (hf : e.Fits ops) (he : e ∈ InstructionSet.table)
    (h : (e.inst ops).encode = .ok (word, fixups)) :
    fixups ≠ [] ↔ ∃ op ∈ ops, ∃ x, op.value = .immediate x ∧ x.hasSymbol := by
  obtain ⟨-, -, rfl⟩ := Opcode.encode_eq_ok (encode_opcode he h)
  rw [ne_eq, hf.fixups_eq_nil_iff he]
  simp only [not_forall, not_not, exists_prop, Arg.isSymbolic_iff_exists]
  constructor
  · rintro ⟨a, ha, x, hx⟩
    obtain ⟨op, hop, harg⟩ := List.mem_filterMap.mp ha
    exact ⟨op, hop, x, (op.symbolic?_toArg? x).mp (by rw [harg, Option.bind_some, hx])⟩
  · rintro ⟨op, hop, x, hx⟩
    obtain ⟨a, ha, hx⟩ := Option.bind_eq_some_iff.mp ((op.symbolic?_toArg? x).mpr hx)
    exact ⟨a, List.mem_filterMap.mpr ⟨op, hop, ha⟩, x, hx⟩

end Entry.Fits

namespace Statement

inductive HasOperands : Cursor → List Operand → Prop
  | instruction {past ts : List Token} {stop loc : Loc} {name : String} {scan : Scan} :
    isDirectiveName name = false →
    Operand.parseAll (Text.lowerAscii name) (Scan.start (Text.lowerAscii name) loc
      ⟨⟨.identifier name, loc⟩ :: past, ts, stop⟩) = .ok () scan →
    scan.cursor.ahead = [] →
    HasOperands ⟨past, ⟨.identifier name, loc⟩ :: ts, stop⟩ scan.operands
  | label {past ts : List Token} {stop loc loc' : Loc} {name : String} {ops : List Operand} :
    HasOperands ⟨⟨.punct .colon, loc'⟩ :: ⟨.identifier name, loc⟩ :: past, ts, stop⟩ ops →
    HasOperands ⟨past, ⟨.identifier name, loc⟩ :: ⟨.punct .colon, loc'⟩ :: ts, stop⟩ ops

theorem HasOperands.token {c : Cursor} {ops : List Operand} (h : HasOperands c ops) :
    ∃ mnemonic loc rest, ops = .token mnemonic loc :: rest := by
  induction h
  case label ih => exact ih
  case instruction hparse _ =>
    obtain ⟨rest, hrest, -⟩ := operands_real (start_extends hparse)
    exact ⟨_, _, rest, hrest⟩

end Statement

structure Record.Settles (r : Record) (ops : List Operand) : Prop where
  leaves : ∃ inst op, r.inst = some inst ∧ inst.opcode.bind InstructionSet.opcode? = some op ∧
    op.Leaves inst.args 0 r.word r.fixups
  single : r.fixups.length ≤ 1
  fixup  : r.fixups ≠ [] ↔ ∃ op ∈ ops, ∃ x, op.value = .immediate x ∧ x.hasSymbol

theorem Session.emitOperands_settles {s t : Session} {mnemonic : String} {loc loc' : Loc}
    {ops : List Operand} {inst : Inst}
    (h : s.emitOperands (.token mnemonic loc' :: ops) loc = .ok (inst, t)) :
    ∃ r, t.object.records = s.object.records ++ [r] ∧ r.Settles (.token mnemonic loc' :: ops) := by
  obtain ⟨e, r, he, hfits, -, rfl, hr, rfl⟩ := emitOperands_eq_ok h
  obtain ⟨-, word, fixups, hencode, rfl⟩ := Object.instructionRecord_eq_ok hr
  refine ⟨_, by rw [object_append, Object.records_append], ⟨_, e.opcode, rfl, ?_, ?_⟩, ?_, ?_⟩
  · exact InstructionSet.opcode?_name e he
  · exact hfits.leaves he hencode
  · exact hfits.fixups_length he hencode
  · rw [hfits.fixups_ne_nil_iff he hencode]
    simp [Operand.token]

namespace Statement

variable {s t : Session} {c : Cursor}

theorem EmitsWords.records (h : EmitsWords s c t) :
    ∃ rs, t.object.records = s.object.records ++ rs ∧ ∀ r ∈ rs, r.type = .data := by
  have hword {s t : Session} {e : Expr} {loc : Loc} (h : s.emitWord e loc = .ok t) :
      ∃ r, t.object.records = s.object.records ++ [r] ∧ r.type = .data := by
    obtain ⟨r, hr, rfl⟩ := Session.emitWord_eq_ok h
    refine ⟨r, by rw [Session.object_append, Object.records_append], ?_⟩
    unfold Object.wordRecord at hr
    split at hr
    case h_1 => cases hr; rfl
    case h_2 =>
      split at hr <;> cases hr
      rfl
  induction h
  case last hemit =>
    obtain ⟨r, hr, hdata⟩ := hword hemit
    exact ⟨[r], hr, by simpa using hdata⟩
  case more hemit _ ih =>
    obtain ⟨r, hr, hdata⟩ := hword hemit
    obtain ⟨rs, hrs, hall⟩ := ih
    exact ⟨r :: rs, by rw [hrs, hr]; simp, List.forall_mem_cons.mpr ⟨hdata, hall⟩⟩

theorem Executes.records (h : Executes s c t) :
    (∃ rs, t.object.records = s.object.records ++ rs ∧ ∀ r ∈ rs, r.type = .data) ∨
    ∃ ops, HasOperands c ops := by
  have hsame {s t : Session} (h : t.object.records = s.object.records) :
      ∃ rs, t.object.records = s.object.records ++ rs ∧ ∀ r ∈ rs, r.type = .data :=
    ⟨[], by simp [h]⟩
  induction h
  case nothing      => exact .inl (hsame rfl)
  case require88110 => exact .inl (hsame rfl)
  case switch       => exact .inl (hsame rfl)
  case global name _ _ symbol _ _ =>
    refine .inl (hsame ?_)
    unfold Session.global Object.global
    split <;> rfl
  case align halign =>
    obtain ⟨o, ho, rfl⟩ := Session.align_eq_ok halign
    obtain ⟨a, -, rfl⟩ := Object.align_eq_ok ho
    exact .inl (hsame (Object.records_setAddress _ _))
  case word hwords => exact .inl hwords.records
  case label hlabel _ ih =>
    obtain ⟨o, message, ho, rfl⟩ := Session.label_eq_ok hlabel
    obtain ⟨-, rfl⟩ := Object.label_eq_ok ho
    exact ih.imp id fun hops => hops.imp fun _ => .label
  case instruction hname hparse hend _ => exact .inr ⟨_, .instruction hname hparse hend⟩

theorem HasOperands.settles {ops : List Operand} (hops : HasOperands c ops) (h : Executes s c t) :
    ∃ r, t.object.records = s.object.records ++ [r] ∧ r.Settles ops := by
  induction hops generalizing s
  case instruction past ts stop loc name scan hname hparse hend =>
    obtain ⟨mnemonic, loc', rest, hrest⟩ := (HasOperands.instruction hname hparse hend).token
    have hdirective (d : Directive) : Directive.ofName? name ≠ some d :=
      fun hd => by simp [isDirectiveName_of_ofName? hd] at hname
    cases h
    case label         => exact (Operand.parseAll_colon hparse).elim
    case require88110  => exact absurd hname (by decide)
    case switch hd     => exact (hdirective _ hd).elim
    case global hd     => exact (hdirective _ hd).elim
    case align hd _    => exact (hdirective _ hd).elim
    case word hd _     => exact (hdirective _ hd).elim
    case instruction scan' message inst _ _ hparse' hemit =>
      obtain rfl : scan = scan' := by
        have := hparse.symm.trans hparse'
        injection this
      rw [hrest] at hemit ⊢
      obtain ⟨r, hr, hsettles⟩ := Session.emitOperands_settles hemit
      refine ⟨r, ?_, hsettles⟩
      rw [hr, Session.object_note, Session.object_reportAll]
  case label ih =>
    cases h
    case word hwords            => exact (hwords.ne_colon _ _ rfl).elim
    case instruction hparse _   => exact (Operand.parseAll_colon hparse).elim
    case label hlabel h =>
      obtain ⟨o, message, ho, rfl⟩ := Session.label_eq_ok hlabel
      obtain ⟨-, rfl⟩ := Object.label_eq_ok ho
      obtain ⟨r, hr, hsettles⟩ := ih h
      exact ⟨r, hr, hsettles⟩

end Statement

theorem Object.emitWord_fixups {o o' : Object} {e : Expr} {loc : Option Loc}
    (h : o.emitWord e loc = .ok o') : ∃ r, o'.records = o.records ++ [r] ∧
      r.fixups = if e.hasSymbol then [⟨.abs32, e, 0⟩] else [] := by
  obtain ⟨r, hr, h⟩ := bind_eq_ok.mp h
  obtain rfl := pure_eq_ok.mp h
  refine ⟨r, records_append o r, ?_⟩
  unfold wordRecord at hr
  split at hr
  case h_1 hv =>
    cases hr
    rw [if_pos (Expr.value?_eq_none_iff.mp hv)]
  case h_2 v hv =>
    have hs : ¬e.hasSymbol := by simp [← Expr.value?_eq_none_iff, hv]
    split at hr <;> cases hr
    rw [if_neg hs]

-- Symbols are neither lost nor invented, from the value of an expression to the fixups of a record.
-- In the field at bit 21 a register of more than five bits can be seen next to the immediate. This
-- does not happen to instructions that are accepted from text.
theorem fixups_are_symbols :
    (∀ (e : Expr) (env : Atom → Int),
      e.value? = if e.hasSymbol then none else some (e.meaning env)) ∧
    (∀ (inst : Inst) (word : Nat) (fixups : List Fixup), inst.encode = .ok (word, fixups) →
      ∃ op, inst.opcode.bind InstructionSet.opcode? = some op ∧
        op.Leaves inst.args (inst.args[1]?.elim 0 Arg.number >>> 5) word fixups) ∧
    (∀ (s t : Session) (line : Int) (text : String), s.assembleLine line text = .ok t →
      t.errors = s.errors → ∃ ts stop, tokenize line text = .ok (ts ++ [⟨.endOfStatement, stop⟩]) ∧
        (∀ ops, Statement.HasOperands ⟨[], ts, stop⟩ ops →
          ∃ r, t.object.records = s.object.records ++ [r] ∧ r.Settles ops) ∧
        ((∃ rs, t.object.records = s.object.records ++ rs ∧ ∀ r ∈ rs, r.type = .data) ∨
          ∃ ops, Statement.HasOperands ⟨[], ts, stop⟩ ops)) ∧
    ∀ (o o' : Object) (e : Expr) (loc : Option Loc), o.emitWord e loc = .ok o' →
      ∃ r, o'.records = o.records ++ [r] ∧
        r.fixups = if e.hasSymbol then [⟨.abs32, e, 0⟩] else [] := by
  refine ⟨Expr.value?_eq_ite, fun _ _ _ => Inst.leaves, fun s t line text h herrors => ?_,
    fun _ _ _ _ => Object.emitWord_fixups⟩
  obtain ⟨t', ht', hprocesses⟩ := s.assembleLine_ok line text
  obtain rfl : t' = t := Except.ok.inj (ht'.symm.trans h)
  cases hprocesses
  case abandoned herror =>
    rw [herrors] at herror
    simp at herror
  case done ts stop htok _ hexecutes _ =>
    refine ⟨ts, stop, htok, fun ops hops => ?_, hexecutes.records⟩
    obtain ⟨r, hr, hsettles⟩ := hops.settles hexecutes
    exact ⟨r, hr, hsettles⟩

-- The sixth bit of a control register's number stands in the field of a bit number, which is left
-- to the linker.
theorem fixup_field_not_zero :
    Inst.encode ⟨some "BB0", [.expr (.symbol "a"), .reg 144, .imm 0], none⟩ =
      .ok (0xD03F0000, [⟨.abs16, .symbol "a", 0⟩]) ∧
    (0xD03F0000 >>> 21) % (1 <<< 5) = 1 := by
  decide +kernel

end Asm88000
