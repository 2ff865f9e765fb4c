import Asm88000.Proofs.Matching

namespace Asm88000

theorem exists_mapM_eq_ok {ε α β : Type} {f : α → Except ε β} {P : α → β → Prop} {xs : List α}
    (h : ∀ x ∈ xs, ∃ y, f x = .ok y ∧ P x y) :
    ∃ ys, xs.mapM f = .ok ys ∧ List.Forall₂ P xs ys := by
  induction xs
  case nil => exact ⟨[], rfl, .nil⟩
  case cons x xs ih =>
    have ⟨⟨y, hy, hp⟩, hxs⟩ := List.forall_mem_cons.mp h
    have ⟨ys, hys, hps⟩ := ih hxs
    exact ⟨y :: ys, by rw [List.mapM_cons, hy, hys]; rfl, .cons hp hps⟩

theorem forall₂_exists_left {α β : Type} {R : α → β → Prop} {xs : List α} {ys : List β} {y : β}
    (h : List.Forall₂ R xs ys) (hy : y ∈ ys) : ∃ x ∈ xs, R x y := by
  induction h
  case nil => cases hy
  case cons x y' xs ys hx _ ih =>
    rcases List.mem_cons.mp hy with rfl | hy
    · exact ⟨x, List.mem_cons_self, hx⟩
    · obtain ⟨x', hx', hr⟩ := ih hy
      exact ⟨x', List.mem_cons_of_mem x hx', hr⟩

theorem forall₂_getElem? {α β : Type} {R : α → β → Prop} {xs : List α} {ys : List β} {i : Nat}
    {x : α} (h : List.Forall₂ R xs ys) (hx : xs[i]? = some x) : ∃ y, ys[i]? = some y ∧ R x y := by
  induction h generalizing i
  case nil => simp at hx
  case cons a b _ _ hab _ ih =>
    cases i
    case zero   => exact ⟨b, rfl, by simpa [← Option.some.inj hx] using hab⟩
    case succ i => exact ih hx

namespace Shape

def isToken : Shape → Bool
  | token _ => true
  | _       => false

def isImmediate : Shape → Bool
  | constant _ | half | expression => true
  | _                              => false

inductive Admits : Shape → Arg → Prop
  | register {r : Register} {classes} : r.regClass ∈ classes → Admits (register classes) (.reg r.id)
  | constant {v : Int} {max : Nat} : 0 ≤ v → v ≤ max → Admits (constant max) (.imm v)
  | word {v : Int} : 0 ≤ v → v ≤ 0xFFFF → Admits half (.imm v)
  | half {sel sub} : Admits half (.expr (.half sel sub))
  | number {v : Int} : Admits expression (.imm v)
  | expr {e : Expr} : Admits expression (.expr e)

variable {sh : Shape} {op : Operand}

theorem toArg?_of_isToken (h : sh.takes op.value) (ht : sh.isToken) : op.toArg? = none := by
  unfold takes at h
  split at h <;> simp_all [isToken, Operand.toArg?]

theorem toArg?_admitted (h : sh.takes op.value) (ht : ¬sh.isToken) :
    ∃ a, op.toArg? = some a ∧ sh.Admits a := by
  unfold takes at h
  split at h
  case h_1 classes id hv =>
    have ⟨r, hr, hc⟩ := Option.any_eq_true _ _ |>.mp h
    rw [Operand.toArg?, hv, Register.ofId?_eq_some.mp hr]
    exact ⟨_, rfl, .register (by simpa using hc)⟩
  case h_2 max v hv =>
    simp only [Bool.and_eq_true, decide_eq_true_eq] at h
    exact ⟨.imm v, by simp [Operand.toArg?, hv], .constant h.left h.right⟩
  case h_3 v hv =>
    simp only [Bool.and_eq_true, decide_eq_true_eq] at h
    exact ⟨.imm v, by simp [Operand.toArg?, hv], .word h.left h.right⟩
  case h_4 sel sub hv => exact ⟨.expr (.half sel sub), by simp [Operand.toArg?, hv], .half⟩
  case h_5 e hv =>
    rw [Operand.toArg?, hv]
    cases e
    case const v => exact ⟨_, rfl, .number⟩
    all_goals exact ⟨_, rfl, .expr⟩
  case h_6 => simp [isToken] at ht
  case h_7 => cases h

end Shape

namespace Entry

def argClasses (e : Entry) : List OperandClass :=
  e.classes.filter (!·.shape.isToken)

theorem Fits.admits {e : Entry} {ops : List Operand} (h : e.Fits ops) :
    List.Forall₂ (fun cls a => cls.shape.Admits a) e.argClasses (e.inst ops).args := by
  simp only [Fits, argClasses, inst] at h ⊢
  generalize e.classes = classes at h ⊢
  induction h
  case nil => exact .nil
  case cons cls op classes ops hop _ ih =>
    by_cases ht : cls.shape.isToken
    case pos => simpa [ht, Shape.toArg?_of_isToken hop ht] using ih
    case neg =>
      obtain ⟨a, ha, hadmits⟩ := Shape.toArg?_admitted hop ht
      simpa [ht, ha] using ⟨hadmits, ih⟩

end Entry

-- The value of an argument that the linker has no part in.
def Arg.value? : Arg → Option Int
  | imm v  => some v
  | expr e => e.value?
  | _      => none

def Content.suits : Content → Shape → Bool
  | .register,     .register _ => true
  | .register,     _           => false
  | .immediate .., sh          => sh.isImmediate

namespace Field

variable {sh : Shape} {a : Arg} {low bits : Nat} {kind : FixupKind}

theorem readArg_register (r : Register) : readArg .register (.reg r.id) = .ok (r.number, none) := by
  simp [readArg, Register.get, Register.ofId?_id, pure, Except.pure, bind, Except.bind]

theorem readArg_immediate (h : sh.Admits a) (hs : (Content.immediate low bits kind).suits sh) :
    ∃ fixup, readArg (.immediate low bits kind) a =
      .ok ((a.value?.map (cut low bits)).getD 0, fixup) ∧ (fixup = none ↔ a.value?.isSome) := by
  have hexpr (e : Expr) : ∃ fixup, readArg (.immediate low bits kind) (.expr e) =
      .ok ((e.value?.map (cut low bits)).getD 0, fixup) ∧ (fixup = none ↔ e.value?.isSome) := by
    cases hv : e.value? <;> simp [readArg, hv, pure, Except.pure]
  cases h
  case register => cases hs
  case constant => exact ⟨none, rfl, by simp [Arg.value?]⟩
  case word     => exact ⟨none, rfl, by simp [Arg.value?]⟩
  case number   => exact ⟨none, rfl, by simp [Arg.value?]⟩
  case half     => exact hexpr _
  case expr     => exact hexpr _

theorem readArg_ok {content : Content} (h : sh.Admits a) (hs : content.suits sh) :
    ∃ part, readArg content a = .ok part := by
  cases content
  case immediate =>
    have ⟨fixup, hread, _⟩ := readArg_immediate h hs
    exact ⟨_, hread⟩
  case register =>
    cases h
    case register => exact ⟨_, readArg_register _⟩
    all_goals cases hs

theorem readArg_fixup {content : Content} {n : Nat} {fixup : Fixup}
    (h : readArg content a = .ok (n, some fixup)) : a = .expr fixup.expr := by
  unfold readArg at h
  split at h
  case h_1 =>
    obtain ⟨_, _, h⟩ := bind_eq_ok.mp h
    cases h
  case h_5 low bits kind e =>
    split at h <;> cases h
    cases e <;> rfl
  all_goals cases h

theorem read_fixup {args : List Arg} {f : Field} {n : Nat} {fixup : Fixup}
    (h : read args f = .ok (n, some fixup)) : .expr fixup.expr ∈ args := by
  unfold read at h
  split at h
  case h_1 a ha => exact readArg_fixup h ▸ List.mem_of_getElem? ha
  case h_2      => cases h

end Field

namespace InstructionSet

theorem opcode?_name : ∀ e ∈ table, opcode? e.opcode.name = some e.opcode := by
  decide +kernel

theorem fields_suit : ∀ e ∈ table, ∀ f ∈ e.opcode.format,
    (e.argClasses[f.arg]?).any (f.content.suits ·.shape) := by
  decide +kernel

end InstructionSet

namespace Entry.Fits

variable {e : Entry} {ops : List Operand}

theorem read_ok (h : e.Fits ops) (he : e ∈ InstructionSet.table) {f : Field}
    (hf : f ∈ e.opcode.format) : ∃ part, f.read (e.inst ops).args = .ok part := by
  have ⟨cls, hcls, hsuits⟩ := Option.any_eq_true _ _ |>.mp (InstructionSet.fields_suit e he f hf)
  have ⟨a, ha, hadmits⟩ := forall₂_getElem? h.admits hcls
  have ⟨part, hpart⟩ := Field.readArg_ok hadmits hsuits
  exact ⟨part, by simp only [Field.read, ha, hpart]⟩

theorem encode_ok (h : e.Fits ops) (he : e ∈ InstructionSet.table) :
    ∃ parts,
      List.Forall₂ (fun f part => f.read (e.inst ops).args = .ok part) e.opcode.format parts ∧
      (e.inst ops).encode = .ok
        (Opcode.layAll e.opcode.base (e.opcode.format.zip (parts.map Prod.fst)) % 0x100000000,
          parts.filterMap Prod.snd) := by
  have hread : ∀ f ∈ e.opcode.format, ∃ part, f.read (e.inst ops).args = .ok part ∧
      f.read (e.inst ops).args = .ok part := by
    simpa using fun f hf => h.read_ok he hf
  have ⟨parts, hmap, hparts⟩ := exists_mapM_eq_ok hread
  refine ⟨parts, hparts, ?_⟩
  have hop : InstructionSet.opcode (e.inst ops).opcode = .ok e.opcode := by
    simp [InstructionSet.opcode, inst, InstructionSet.opcode?_name e he]
  simp only [Inst.encode, hop, Opcode.encode, hmap, bind, Except.bind, pure, Except.pure]

end Entry.Fits
end Asm88000
