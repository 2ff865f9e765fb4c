import Mathlib.Data.List.Basic
import Asm88000.Proofs.LoweredText

namespace Asm88000

theorem isDigit_of_mem_toDigits {m : Nat} {c : Char} (h : c ∈ Nat.toDigits 10 m) : c.isDigit := by
  obtain ⟨d, hd, rfl⟩ := Numeral.mem_toDigits (by decide) h
  exact (by decide : ∀ d < 10, d.digitChar.isDigit) d hd

theorem underscore_not_mem_decimal (v : Int) : '_' ∉ (decimal v).toList := by
  intro h
  rw [toList_decimal, List.mem_append] at h
  rcases h with hsign | hdigits
  · split at hsign <;> simp at hsign
  · exact absurd (isDigit_of_mem_toDigits hdigits) (by decide)

theorem decimal_injective {v w : Int} (h : (decimal v).toList = (decimal w).toList) : v = w := by
  have hminus {m : Nat} {cs : List Char} : Nat.toDigits 10 m ≠ '-' :: cs := by
    intro h
    have hdigit := isDigit_of_mem_toDigits (m := m) (h ▸ List.mem_cons_self)
    exact absurd hdigit (by decide)
  rw [toList_decimal, toList_decimal] at h
  split at h <;> split at h
  case isTrue.isTrue =>
    have := toDigits_injective (List.cons.inj h).right
    omega
  case isTrue.isFalse => exact absurd h.symm hminus
  case isFalse.isTrue => exact absurd h hminus
  case isFalse.isFalse =>
    have := toDigits_injective h
    omega

inductive LocalKey
  | block (function number : Int)
  | jumpTable (index : Int)
  | constantPool (index : Int)
  | blockAddress (key : BlockKey)
  deriving DecidableEq

def LocalKey.referent : LocalKey → Referent
  | block function number => .block (.int function) (.int number)
  | jumpTable index       => .jumpTable (.int index)
  | constantPool index    => .constantPool (.int index)
  | blockAddress key      => .blockAddress key

namespace SymbolNamer

variable {n n' n'' : SymbolNamer} {key key' : LocalKey}

def nameOf (n : SymbolNamer) : LocalKey → String
  | .block function number => n.block (.int function) (.int number)
  | .jumpTable index       => n.jumpTable (.int index)
  | .constantPool index    => n.constantPool (.int index)
  | .blockAddress key      => n.temporary (n.blocks.idxOf key)

def Knows (n : SymbolNamer) : LocalKey → Prop
  | .blockAddress key => key ∈ n.blocks
  | _                 => True

def tailOf (n : SymbolNamer) : LocalKey → List Char
  | .block function number =>
    'B' :: 'B' :: ((decimal function).toList ++ '_' :: (decimal number).toList)
  | .jumpTable index =>
    'J' :: 'T' :: 'I' :: (n.function.toText.toList ++ '_' :: (decimal index).toList)
  | .constantPool index =>
    'C' :: 'P' :: 'I' :: (n.function.toText.toList ++ '_' :: (decimal index).toList)
  | .blockAddress key => 't' :: 'm' :: 'p' :: (decimal (n.blocks.idxOf key)).toList

theorem toList_nameOf (n : SymbolNamer) (key : LocalKey) :
    (n.nameOf key).toList = n.mark.toList ++ n.tailOf key := by
  cases key <;>
    simp [nameOf, block, jumpTable, constantPool, temporary, tailOf, Atom.toText]

theorem tailOf_injective (h : n.Knows key) (heq : n.tailOf key = n.tailOf key') : key = key' := by
  cases key <;> cases key'
  case block.block f m f' m' =>
    have hparts := (List.cons.inj (List.cons.inj heq).right).right
    rw [List.append_cons_inj_of_notMem (underscore_not_mem_decimal f)
      (underscore_not_mem_decimal m)] at hparts
    rw [decimal_injective hparts.left, decimal_injective hparts.right.right]
  case jumpTable.jumpTable i i' =>
    have hindex : (decimal i).toList = (decimal i').toList := by simpa [tailOf] using heq
    rw [decimal_injective hindex]
  case constantPool.constantPool i i' =>
    have hindex : (decimal i).toList = (decimal i').toList := by simpa [tailOf] using heq
    rw [decimal_injective hindex]
  case blockAddress.blockAddress k k' =>
    have hindex := decimal_injective (List.cons.inj (List.cons.inj (List.cons.inj heq).2).2).2
    rw [(List.idxOf_inj h).mp (Int.ofNat.inj hindex)]
  -- The kinds begin with different letters.
  all_goals exact absurd (List.cons.inj heq).left (by decide)

theorem nameOf_eq_iff (h : n.Knows key) : n.nameOf key = n.nameOf key' ↔ key = key' := by
  refine ⟨fun heq => ?_, fun heq => heq ▸ rfl⟩
  have hlist := congrArg String.toList heq
  rw [toList_nameOf, toList_nameOf] at hlist
  exact tailOf_injective h (List.append_cancel_left hlist)

structure Extends (n n' : SymbolNamer) : Prop where
  function : n'.function = n.function
  mark     : n'.mark = n.mark
  blocks   : n.blocks <+: n'.blocks

namespace Extends

theorem refl (n : SymbolNamer) : n.Extends n :=
  ⟨rfl, rfl, List.prefix_refl _⟩

theorem trans (h : n.Extends n') (h' : n'.Extends n'') : n.Extends n'' where
  function := h'.function.trans h.function
  mark     := h'.mark.trans h.mark
  blocks   := h.blocks.trans h'.blocks

theorem knows (h : n.Extends n') (hkey : n.Knows key) : n'.Knows key := by
  cases key
  case blockAddress key => exact h.blocks.subset hkey
  all_goals trivial

theorem nameOf_eq (h : n.Extends n') (hkey : n.Knows key) : n'.nameOf key = n.nameOf key := by
  cases key
  case block                => simp only [nameOf, SymbolNamer.block, h.mark]
  case jumpTable            => simp only [nameOf, SymbolNamer.jumpTable, h.mark, h.function]
  case constantPool         => simp only [nameOf, SymbolNamer.constantPool, h.mark, h.function]
  case blockAddress key =>
    obtain ⟨rest, hrest⟩ := h.blocks
    simp only [nameOf, SymbolNamer.temporary, h.mark, ← hrest, List.idxOf_append_of_mem hkey]

end Extends

theorem extends_blockAddress (n : SymbolNamer) (key : BlockKey) :
    n.Extends (n.blockAddress key).2 := by
  unfold blockAddress
  split
  · exact .refl n
  · exact ⟨rfl, rfl, List.prefix_append _ _⟩

theorem knows_blockAddress (n : SymbolNamer) (key : BlockKey) :
    (n.blockAddress key).2.Knows (.blockAddress key) := by
  unfold blockAddress
  split
  case isTrue h => exact h
  case isFalse  => exact List.mem_append_right _ List.mem_cons_self

theorem blockAddress_fst (n : SymbolNamer) (key : BlockKey) :
    (n.blockAddress key).1 = (n.blockAddress key).2.nameOf (.blockAddress key) := by
  unfold blockAddress
  split
  case isTrue    => rfl
  case isFalse h => simp [nameOf, temporary, List.idxOf_append_of_notMem h]

end SymbolNamer

def Expr.names : Expr → List String
  | const _    => []
  | symbol n   => [n]
  | nameless _ => []
  | sum _ l r  => l.names ++ r.names
  | half _ sub => sub.names

namespace Lowering

open SymbolNamer

variable {n n' : SymbolNamer} {op : MachineOperand}

def Names (n : SymbolNamer) (op : MachineOperand) (a : Arg) : Prop :=
  ∀ (key : LocalKey) (offset : Int) (flags : Atom), op = .symbol key.referent offset flags →
    n.Knows key ∧ ∃ e, a = .expr e ∧ e.names = [n.nameOf key]

theorem Names.extends {a : Arg} (h : Names n op a) (hn : n.Extends n') : Names n' op a := by
  intro key offset flags hop
  obtain ⟨hkey, e, he, hname⟩ := h key offset flags hop
  exact ⟨hn.knows hkey, e, he, hn.nameOf_eq hkey ▸ hname⟩

theorem symbolName_names (ref : Referent) (n : SymbolNamer) :
    Ensures (symbolName ref) n
      (fun name n' => n.Extends n' ∧
        ∀ key : LocalKey, ref = key.referent → n'.Knows key ∧ name = .text (n'.nameOf key))
      (fun _ n' => n.Extends n') := by
  cases ref
  case blockAddress key =>
    refine ⟨extends_blockAddress n key, fun key' hkey => ?_⟩
    cases key' <;> cases hkey
    exact ⟨knows_blockAddress n key, by rw [blockAddress_fst]⟩
  case machineSymbol => exact .refl n
  case absent        => exact .refl n
  all_goals
    refine ⟨.refl n, fun key' hkey => ?_⟩
    cases key' <;> cases hkey
  all_goals exact ⟨trivial, rfl⟩

theorem names_symbolExpr (sel : Option String) (ref : Referent) (offset : Int) (name : String) :
    (selectHalf sel (symbolExpr ref offset (.text name))).names = [name] := by
  have hsymbol : (symbolExpr ref offset (.text name)).names = [name] := by
    unfold symbolExpr
    split <;> rfl
  cases sel
  case none     => exact hsymbol
  case some sel => exact hsymbol

theorem lowerSymbol_names (ref : Referent) (offset : Int) (flags : Atom) (n : SymbolNamer) :
    Ensures (lowerSymbol ref offset flags) n
      (fun a n' => n.Extends n' ∧ Names n' (.symbol ref offset flags) a)
      (fun _ n' => n.Extends n') := by
  unfold lowerSymbol
  cases selector flags
  case error b => exact ensures_throw.mpr (.refl n)
  case ok sel  =>
    refine (symbolName_names ref n).bind (fun name n' h => ?_) fun _ _ h => h
    refine ensures_pure.mpr ⟨h.left, fun key _ _ heq => ?_⟩
    cases heq
    obtain ⟨hkey, rfl⟩ := h.right key rfl
    exact ⟨hkey, _, rfl, names_symbolExpr sel _ offset _⟩

theorem lowerOperand_names (op : MachineOperand) (n : SymbolNamer) :
    Ensures (lowerOperand op) n (fun a n' => n.Extends n' ∧ Names n' op a)
      (fun _ n' => n.Extends n') := by
  cases op
  case symbol ref offset flags => exact lowerSymbol_names ref offset flags n
  case register reg sub _ =>
    cases hreg : lowerRegister reg sub <;> simp only [Ensures, lowerOperand, hreg]
    case ok a    => exact ⟨.refl n, fun _ _ _ h => by cases h⟩
    case error b => exact .refl n
  case immediate    => exact ⟨.refl n, fun _ _ _ h => by cases h⟩
  case registerMask => exact Extends.refl n
  case other        => exact Extends.refl n

theorem mapM_lowerOperand_names (ops : List MachineOperand) (n : SymbolNamer) :
    Ensures (ops.mapM lowerOperand) n
      (fun as n' => n.Extends n' ∧ List.Forall₂ (Names n') ops as) (fun _ n' => n.Extends n') := by
  induction ops generalizing n
  case nil => exact ⟨.refl n, .nil⟩
  case cons op ops ih =>
    rw [List.mapM_cons]
    refine (lowerOperand_names op n).bind (fun a n' h => ?_) fun _ _ h => h
    refine (ih n').bind (fun as n'' hs => ?_) fun _ _ hs => h.left.trans hs
    exact ⟨h.left.trans hs.left, .cons (h.right.extends hs.left) hs.right⟩

theorem lower_names (mi : MachineInstr) (st : State) :
    Ensures (lower mi) st
      (fun inst st' => st.namer.Extends st'.namer ∧
        List.Forall₂ (Names st'.namer) (ownOperands mi) inst.args)
      (fun _ st' => st.namer.Extends st'.namer) := by
  have hinst : Ensures (lowerInstr mi) st.namer
      (fun inst n' => st.namer.Extends n' ∧ List.Forall₂ (Names n') (ownOperands mi) inst.args)
      (fun _ n' => st.namer.Extends n') :=
    (mapM_lowerOperand_names (ownOperands mi) st.namer).bind (fun _ _ h => h) fun _ _ h => h
  exact (naming_ensures hinst).bind (fun _ _ h => h.right) fun _ _ h => h.right

theorem emit_namer (inst : Inst) (st : State) :
    Ensures (emit inst) st (fun _ st' => st'.namer = st.namer)
      (fun _ st' => st'.namer = st.namer) := by
  cases hr : st.session.object.instructionRecord inst
  case error => simp only [Ensures, emit, hr]
  case ok r  => cases hnamed : r.isNamed <;> simp [Ensures, emit, hr, hnamed]

theorem lowerAll_names (mis : List MachineInstr) (st : State) :
    Ensures (lowerAll mis) st
      (fun insts st' => st.namer.Extends st'.namer ∧
        List.Forall₂ (Names st'.namer) (mis.flatMap ownOperands) (insts.flatMap Inst.args))
      (fun _ st' => st.namer.Extends st'.namer) := by
  induction mis generalizing st
  case nil => exact ⟨.refl _, .nil⟩
  case cons mi mis ih =>
    refine (lower_names mi st).bind (fun inst st₁ h₁ => ?_) fun _ _ h => h
    -- Between two instructions the first one is emitted, which names nothing.
    refine (emit_namer inst st₁).bind (fun _ st₂ h₂ => ?_) fun _ _ h => h ▸ h₁.left
    refine (ih st₂).bind (fun insts st₃ h₃ => ?_) fun _ _ h => h₁.left.trans (h₂ ▸ h)
    have hlater : st₁.namer.Extends st₃.namer := h₂ ▸ h₃.left
    refine ensures_pure.mpr ⟨h₁.left.trans hlater, ?_⟩
    rw [List.flatMap_cons, List.flatMap_cons]
    exact List.rel_append (h₁.right.imp fun _ _ h => h.extends hlater) h₃.right

inductive Call
  | operand (op : MachineOperand)
  | instruction (mi : MachineInstr)
  | program (mis : List MachineInstr)

namespace Call

def operands : Call → List MachineOperand
  | operand op     => [op]
  | instruction mi => ownOperands mi
  | program mis    => mis.flatMap ownOperands

def run : Call → LowerM (List Arg)
  | operand op     => return [← naming (lowerOperand op)]
  | instruction mi => return (← lower mi).args
  | program mis    => return (← lowerAll mis).flatMap Inst.args

def after (st : State) (c : Call) : State :=
  match c.run st with
  | .ok _ st'    => st'
  | .error _ st' => st'

theorem run_names (c : Call) (st : State) :
    Ensures c.run st
      (fun as st' => st.namer.Extends st'.namer ∧
        List.Forall₂ (Names st'.namer) c.operands as)
      (fun _ st' => st.namer.Extends st'.namer) := by
  cases c
  case operand op =>
    refine (naming_ensures (lowerOperand_names op st.namer)).bind (fun a st' h => ?_)
      fun _ _ h => h.right
    exact ⟨h.right.left, .cons h.right.right .nil⟩
  case instruction mi => exact (lower_names mi st).bind (fun _ _ h => h) fun _ _ h => h
  case program mis    => exact (lowerAll_names mis st).bind (fun _ _ h => h) fun _ _ h => h

theorem extends_after (st : State) (c : Call) : st.namer.Extends (c.after st).namer := by
  unfold after
  cases h : c.run st
  case ok    => exact ((run_names c st).ok h).left
  case error => exact (run_names c st).error h

end Call

def afterAll (st : State) (calls : List Call) : State :=
  calls.foldl Call.after st

theorem extends_afterAll (st : State) (calls : List Call) :
    st.namer.Extends (afterAll st calls).namer := by
  induction calls generalizing st
  case nil             => exact .refl _
  case cons c calls ih => exact (c.extends_after st).trans (ih (c.after st))

-- An operand, somewhere in a series of calls, that asked for a local name and was lowered.
structure Request (st : State) (calls : List Call) where
  index  : Nat
  call   : Call
  slot   : Nat
  key    : LocalKey
  offset : Int
  flags  : Atom
  args   : List Arg
  left   : State
  called : calls[index]? = some call
  asked  : call.operands[slot]? = some (.symbol key.referent offset flags)
  ran    : call.run (afterAll st (calls.take index)) = .ok args left

namespace Request

variable {st : State} {calls : List Call}

def Gets (r : Request st calls) (name : String) : Prop :=
  ∃ e, r.args[r.slot]? = some (.expr e) ∧ e.names = [name]

theorem afterAll_eq (r : Request st calls) :
    afterAll st calls = afterAll r.left (calls.drop (r.index + 1)) := by
  obtain ⟨hlt, hcall⟩ := List.getElem?_eq_some_iff.mp r.called
  have hafter : r.call.after (afterAll st (calls.take r.index)) = r.left := by
    simp only [Call.after, r.ran]
  calc afterAll st calls
    _ = afterAll st (calls.take r.index ++ r.call :: calls.drop (r.index + 1)) := by
      rw [← hcall, ← List.drop_eq_getElem_cons hlt, List.take_append_drop]
    _ = afterAll r.left (calls.drop (r.index + 1)) := by
      rw [← hafter]
      simp only [afterAll, List.foldl_append, List.foldl_cons]

theorem names (r : Request st calls) :
    (afterAll st calls).namer.Knows r.key ∧ r.Gets ((afterAll st calls).namer.nameOf r.key) := by
  have hlater := r.afterAll_eq ▸ extends_afterAll r.left (calls.drop (r.index + 1))
  have hnames := ((r.call.run_names _).ok r.ran).right
  obtain ⟨hslot, hop⟩ := List.getElem?_eq_some_iff.mp r.asked
  have hslot' : r.slot < r.args.length := hnames.length_eq ▸ hslot
  have hname := (hnames.get hslot hslot').extends hlater
  obtain ⟨hkey, e, he, hgets⟩ := hname r.key r.offset r.flags hop
  exact ⟨hkey, e, List.getElem?_eq_some_iff.mpr ⟨hslot', he⟩, hgets⟩

end Request

theorem selector_ok (flags : Fin 3) : ∃ sel, selector (.int flags.val) = .ok sel :=
  selector_known.mpr (by revert flags; decide)

theorem run_operand_symbol (key : LocalKey) (offset : Int) (flags : Fin 3) (st : State) :
    ∃ as st', (Call.operand (.symbol key.referent offset (.int flags.val))).run st =
      .ok as st' := by
  obtain ⟨sel, hsel⟩ := selector_ok flags
  obtain ⟨name, n', hname⟩ : ∃ name n', symbolName key.referent st.namer = .ok (.text name) n' := by
    cases key <;> exact ⟨_, _, rfl⟩
  have hop := lowerOperand_symbol offset hsel hname
  simp only [Call.run, naming, bind, EStateM.bind, hop]
  exact ⟨_, _, rfl⟩

-- Two operands that are lowered with the same namer get the same name just if they are of the same
-- kind and have the same key, wherever they stand. Every key gets a name, whatever came before.
theorem local_names_stable (st : State) (calls : List Call) :
    (∀ (key : LocalKey) (offset : Int) (flags : Fin 3),
      ∃ r : Request st (calls ++ [.operand (.symbol key.referent offset (.int flags.val))]),
        r.index = calls.length ∧ r.key = key) ∧
    ∀ r r' : Request st calls, ∃ name name',
      r.Gets name ∧ r'.Gets name' ∧ (name = name' ↔ r.key = r'.key) := by
  constructor
  · intro key offset flags
    obtain ⟨as, st', hrun⟩ := run_operand_symbol key offset flags (afterAll st calls)
    refine ⟨⟨_, .operand _, 0, key, offset, .int flags.val, as, st', ?_, rfl, ?_⟩, rfl, rfl⟩
    · exact List.getElem?_concat_length
    · rwa [List.take_left]
  · intro r r'
    exact ⟨_, _, r.names.right, r'.names.right, nameOf_eq_iff r.names.left⟩

end Lowering
end Asm88000
