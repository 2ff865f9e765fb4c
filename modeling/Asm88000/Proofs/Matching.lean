import Mathlib.Data.List.Forall2
import Asm88000.Proofs.OperandParser
import Asm88000.Verdict

namespace Asm88000

theorem Register.ofId?_eq_some {id : Int} {r : Register} : ofId? id = some r ↔ id = r.id := by
  refine ⟨fun h => ?_, fun h => h ▸ ofId?_id r⟩
  unfold ofId? at h
  split_ifs at h <;> simp only [Option.some.injEq] at h <;> subst h <;> simp only [Register.id] <;>
    omega

theorem Operand.not_isReal_iff {op : Operand} :
    ¬op.IsReal ↔ ∃ id, op.value = .register id ∧ Register.ofId? id = none := by
  simp only [IsReal, Classical.not_forall, not_exists, exists_prop,
    Option.eq_none_iff_forall_ne_some]
  refine exists_congr fun id => and_congr_right fun _ => forall_congr' fun r => ?_
  rw [ne_eq, Register.ofId?_eq_some]

-- What a class asks of an operand: a register of some classes, a constant from zero up to a bound,
-- half a word or half an address, any expression, or a token.
inductive Shape
  | register (classes : List RegClass)
  | constant (max : Nat)
  | half
  | expression
  | token (text : String)
  deriving DecidableEq

namespace Shape

def takes : Shape → OperandValue → Bool
  | register classes, .register id         => (Register.ofId? id).any (classes.contains ·.regClass)
  | constant max,     .immediate (.const v) => 0 ≤ v && v ≤ max
  | half,             .immediate (.const v) => 0 ≤ v && v ≤ 0xFFFF
  | half,             .immediate (.half ..) => true
  | expression,       .immediate _          => true
  | token text,       .token text'          => text' = text
  | _,                _                     => false

def apart : Shape → Shape → Bool
  | register cs, register ds => cs.all (!ds.contains ·)
  | token text,  token text' => text ≠ text'
  | register _,  _           => true
  | _,           register _  => true
  | token _,     _           => true
  | _,           token _     => true
  | _,           _           => false

theorem not_takes_of_apart {sh sh' : Shape} {v : OperandValue} (h : apart sh sh')
    (hv : sh.takes v) :
    ¬sh'.takes v := by
  unfold apart at h
  split at h
  case h_1 cs ds =>
    cases v
    case register id =>
      obtain ⟨r, hr, hc⟩ := Option.any_eq_true _ _ |>.mp hv
      simp_all [takes]
    all_goals cases hv
  all_goals cases v <;> simp_all [takes]

theorem takes_register {classes : List RegClass} {v : OperandValue}
    (h : (register classes).takes v) : ∃ id, v = .register id := by
  unfold takes at h
  split at h <;> simp_all

theorem takes_constant {max : Nat} {v : OperandValue} :
    (constant max).takes v ↔ ∃ n : Int, v = .immediate (.const n) ∧ 0 ≤ n ∧ n ≤ max := by
  unfold takes
  split <;> simp_all

end Shape

namespace OperandClass

def shape : OperandClass → Shape
  | gpr            => .register [.gpr]
  | gpr64          => .register [.gpr64, .gpr]
  | xr             => .register [.xr]
  | cr             => .register [.cr]
  | fcr            => .register [.fcr]
  | u5             => .constant 31
  | u16            => .half
  | vec9           => .constant 511
  | bitfieldWidth  => .constant 31
  | bitfieldOffset => .constant 31
  | pixelRotation  => .constant 60
  | conditionCode  => .constant 31
  | displacement16 => .expression
  | displacement26 => .expression
  | less           => .token "<"
  | greater        => .token ">"
  | lbrack         => .token "["
  | rbrack         => .token "]"

theorem inRange_eq_takes (max : Nat) (op : Operand) :
    op.inRange 0 max = (Shape.constant max).takes op.value := by
  unfold Operand.inRange Shape.takes
  split <;> simp_all

theorem isUnsigned16_eq_takes (op : Operand) : isUnsigned16 op = Shape.half.takes op.value := by
  obtain ⟨value, _, _⟩ := op
  cases value
  case token     => rfl
  case register  => rfl
  case immediate e => cases e <;> simp [isUnsigned16, Operand.inRange, Shape.takes]

theorem isImmediate_eq_takes (op : Operand) : isImmediate op = Shape.expression.takes op.value := by
  unfold isImmediate Shape.takes
  split <;> simp_all

theorem isToken_eq_takes (text : String) (op : Operand) :
    isToken text op = (Shape.token text).takes op.value := by
  unfold isToken Shape.takes
  split <;> simp_all

theorem isOfClass_eq_takes (c : RegClass) {op : Operand} (h : op.IsReal) :
    isOfClass c op = .ok ((Shape.register [c]).takes op.value) := by
  obtain ⟨value, _, _⟩ := op
  cases value
  case token       => rfl
  case immediate   => rfl
  case register id =>
    have ⟨r, hr⟩ := h id rfl
    simp [isOfClass, Register.get, Shape.takes, hr, Register.ofId?_id, pure, Except.pure, bind,
      Except.bind]

theorem takes_register_or (c₁ c₂ : RegClass) (v : OperandValue) :
    (Shape.register [c₁, c₂]).takes v =
      ((Shape.register [c₁]).takes v || (Shape.register [c₂]).takes v) := by
  cases v
  case token       => rfl
  case immediate   => rfl
  case register id => cases h : Register.ofId? id <;> simp [Shape.takes, h]

theorem accepts_eq_takes (cls : OperandClass) {op : Operand} (h : op.IsReal) (hc : cls ≠ gpr64) :
    cls.accepts op = .ok (cls.shape.takes op.value) := by
  have hrange (max : Nat) : (pure (op.inRange 0 max) : Except Breach Bool) =
      .ok ((Shape.constant max).takes op.value) :=
    congrArg _ (inRange_eq_takes max op)
  cases cls
  case gpr64 => contradiction
  case gpr | xr | cr | fcr => exact isOfClass_eq_takes _ h
  case u5 | bitfieldWidth | bitfieldOffset | conditionCode => exact hrange 31
  case vec9                             => exact hrange 511
  case pixelRotation                    => exact hrange 60
  case u16                              => exact congrArg _ (isUnsigned16_eq_takes op)
  case displacement16 | displacement26  => exact congrArg _ (isImmediate_eq_takes op)
  case less | greater | lbrack | rbrack => exact congrArg _ (isToken_eq_takes _ op)

theorem hasTargetCheck_iff (cls : OperandClass) : cls.hasTargetCheck ↔ cls = gpr64 := by
  cases cls <;> simp [hasTargetCheck]

theorem fits_eq_takes (cls : OperandClass) {op : Operand} (h : op.IsReal) :
    cls.fits op = .ok (cls.shape.takes op.value) := by
  by_cases hc : cls = gpr64
  case pos =>
    subst hc
    simp only [fits, accepts, targetAdmits, isOfClass_eq_takes _ h, shape, takes_register_or]
    cases (Shape.register [.gpr64]).takes op.value <;> rfl
  case neg =>
    simp only [fits, accepts_eq_takes cls h hc, hasTargetCheck_iff, hc]
    cases cls.shape.takes op.value <;> rfl

-- A register that is none of the processor's is a breach where a register is asked for, and does
-- not fit elsewhere.
theorem fits_eq_ok_true_iff {cls : OperandClass} {op : Operand} :
    cls.fits op = .ok true ↔ cls.shape.takes op.value := by
  by_cases h : op.IsReal
  case pos => simp [fits_eq_takes cls h]
  case neg =>
    obtain ⟨value, first, last⟩ := op
    obtain ⟨id, rfl, hof⟩ := Operand.not_isReal_iff.mp h
    cases cls <;> simp [fits, accepts, isOfClass, isUnsigned16, isImmediate, isToken,
      Operand.inRange, hasTargetCheck, Register.get, hof, shape, Shape.takes, pure, Except.pure,
      bind, Except.bind]

end OperandClass

def Entry.Fits (e : Entry) (ops : List Operand) : Prop :=
  List.Forall₂ (fun cls op => cls.shape.takes op.value) e.classes ops

def Entry.inst (e : Entry) (ops : List Operand) : Inst :=
  ⟨some e.opcode.name, ops.filterMap Operand.toArg?, none⟩

def Entry.clashes (e e' : Entry) : Bool :=
  e.classes.length ≠ e'.classes.length ||
    (e.classes.zip e'.classes).any fun p => p.1.shape.apart p.2.shape

theorem InstructionSet.forms_clash :
    ∀ e ∈ table, ∀ e' ∈ candidates e.mnemonic, e' = e ∨ e.clashes e' := by
  decide +kernel

theorem Entry.Fits.not_clashes {e e' : Entry} {ops : List Operand} (h : e.Fits ops)
    (h' : e'.Fits ops) : ¬e.clashes e' := by
  unfold Fits at h h'
  unfold clashes
  generalize e.classes = classes at h
  generalize e'.classes = classes' at h'
  induction h generalizing classes'
  case nil =>
    cases h'
    simp
  case cons cls op classes ops hop _ ih =>
    cases h'
    case cons cls' classes' hop' h' =>
      have hnot : ¬cls.shape.apart cls'.shape := fun ha => Shape.not_takes_of_apart ha hop hop'
      simpa [hnot] using ih _ h'

theorem Entry.Fits.unique {e e' : Entry} {ops : List Operand} (he : e ∈ InstructionSet.table)
    (he' : e' ∈ InstructionSet.candidates e.mnemonic) (h : e.Fits ops) (h' : e'.Fits ops) :
    e' = e :=
  (InstructionSet.forms_clash e he e' he').resolve_right (h.not_clashes h')

theorem Feature.lacking_ne_nil {available fs : List Feature} (h : ¬covers available fs) :
    lacking available fs ≠ [] := by
  simpa [covers, lacking] using h

namespace Verdict

variable {available : List Feature} {e : Entry} {es : List Entry} {inst : Inst}
variable {op : Operand} {ops : List Operand}
variable {missing : Option (List Feature)} {best : Option Misfit}

theorem misfit_eq_none_iff {i : Nat} {classes : List OperandClass} :
    misfit i classes ops = .ok none ↔
      List.Forall₂ (fun cls op => cls.shape.takes op.value) classes ops := by
  induction classes generalizing i ops
  case nil => cases ops <;> simp [misfit, pure, Except.pure]
  case cons cls classes ih =>
    cases ops
    case nil         => simp [misfit, pure, Except.pure]
    case cons op ops =>
      rw [List.forall₂_cons, ← OperandClass.fits_eq_ok_true_iff, ← ih (i := i + 1), misfit]
      cases h : cls.fits op
      case error b => simp [bind, Except.bind]
      case ok b    => cases b <;> simp [bind, Except.bind, pure, Except.pure]

theorem misfit_ok (i : Nat) (classes : List OperandClass) (h : ∀ op ∈ ops, op.IsReal) :
    ∃ m, misfit i classes ops = .ok m := by
  induction classes generalizing i ops
  case nil => cases ops <;> exact ⟨_, rfl⟩
  case cons cls classes ih =>
    cases ops
    case nil         => exact ⟨_, rfl⟩
    case cons op ops =>
      have ⟨hop, hops⟩ := List.forall_mem_cons.mp h
      rw [misfit, OperandClass.fits_eq_takes cls hop]
      cases cls.shape.takes op.value
      case false => exact ⟨_, rfl⟩
      case true  => exact ih (i + 1) hops

def IsApt : Verdict → Prop
  | missingFeature fs   => fs ≠ []
  | rejected _ (some i) => 0 ≤ i
  | _                   => True

theorem select_ok (h : ∀ op ∈ ops, op.IsReal) (hm : missing ≠ some []) :
    ∃ v, select available ops missing best es = .ok v ∧ v.IsApt := by
  induction es generalizing missing best
  case nil =>
    match missing, best with
    | some fs, _     => exact ⟨_, rfl, by simpa [IsApt] using hm⟩
    | none, some m   => exact ⟨_, rfl, Int.natCast_nonneg _⟩
    | none, none     => exact ⟨_, rfl, trivial⟩
  case cons e es ih =>
    have ⟨m, hmisfit⟩ := misfit_ok 1 e.classes h
    simp only [select, hmisfit, bind, Except.bind]
    cases m
    case some m => exact ih hm
    case none   =>
      simp only
      split
      · exact ⟨_, rfl, trivial⟩
      case isFalse hs =>
        refine ih ?_
        cases missing
        case none    => simpa using Feature.lacking_ne_nil hs
        case some fs => simpa using hm

theorem of_select (h : select available ops missing best es = .ok (success e inst)) :
    e ∈ es ∧ e.Fits ops ∧ Feature.covers available e.features ∧ inst = e.inst ops := by
  induction es generalizing missing best
  case nil => match missing, best with | some _, _ | none, some _ | none, none => cases h
  case cons e' es ih =>
    have hrec {missing best} (h : select available ops missing best es = .ok (success e inst)) :
        e ∈ e' :: es ∧ e.Fits ops ∧ Feature.covers available e.features ∧ inst = e.inst ops :=
      (ih h).imp_left (List.mem_cons_of_mem e')
    cases hmisfit : misfit 1 e'.classes ops <;>
      simp only [select, hmisfit, bind, Except.bind] at h
    case error b => cases h
    case ok m =>
      cases m
      case some m => exact hrec h
      case none   =>
        simp only at h
        split at h
        case isFalse => exact hrec h
        case isTrue hs =>
          simp only [pure, Except.pure, Except.ok.injEq, success.injEq] at h
          have ⟨he, hinst⟩ := h
          subst he
          exact ⟨List.mem_cons_self, misfit_eq_none_iff.mp hmisfit, hs, hinst.symm⟩

theorem select_eq_success (h : ∀ op ∈ ops, op.IsReal) (he : e ∈ es) (hfits : e.Fits ops)
    (hs : Feature.covers available e.features) (hu : ∀ e' ∈ es, e'.Fits ops → e' = e) :
    select available ops missing best es = .ok (success e (e.inst ops)) := by
  induction es generalizing missing best
  case nil => cases he
  case cons e' es ih =>
    have ⟨m, hmisfit⟩ := misfit_ok 1 e'.classes h
    cases m
    case none =>
      have := hu e' List.mem_cons_self (misfit_eq_none_iff.mp hmisfit)
      subst this
      simp [select, hmisfit, hs, Entry.inst, bind, Except.bind, pure, Except.pure]
    case some m =>
      have hne : e ≠ e' := by
        intro heq
        subst heq
        simp [misfit_eq_none_iff.mpr hfits] at hmisfit
      have he := (List.mem_cons.mp he).resolve_left hne
      simp only [select, hmisfit, bind, Except.bind]
      exact ih he fun e' he' => hu e' (List.mem_cons_of_mem _ he')

structure Accepted (available : List Feature) (ops : List Operand) (e : Entry) (inst : Inst) :
    Prop where
  listed  : e ∈ InstructionSet.table
  fits    : e.Fits ops.tail
  covered : Feature.covers available e.features
  inst_eq : inst = e.inst ops.tail

theorem mem_formsOf {mnemonic : String} :
    e ∈ InstructionSet.formsOf mnemonic es ↔ e ∈ es ∧ e.mnemonic = mnemonic := by
  simp [InstructionSet.formsOf]

theorem mem_candidates {mnemonic : String} :
    e ∈ InstructionSet.candidates mnemonic ↔ e ∈ InstructionSet.table ∧ e.mnemonic = mnemonic :=
  mem_formsOf

variable {forms : List Entry} {mnemonic : String}

theorem byForms_eq_unknownMnemonic (ht : op.getToken = .ok mnemonic)
    (h : InstructionSet.formsOf mnemonic forms = []) :
    byForms forms available (op :: ops) = .ok unknownMnemonic := by
  simp [byForms, ht, h, bind, Except.bind, pure, Except.pure]

theorem byForms_eq_select (ht : op.getToken = .ok mnemonic)
    (h : InstructionSet.formsOf mnemonic forms ≠ []) :
    byForms forms available (op :: ops) =
      select available ops none none (InstructionSet.formsOf mnemonic forms) := by
  cases hes : InstructionSet.formsOf mnemonic forms
  case nil  => contradiction
  case cons => simp only [byForms, ht, hes, bind, Except.bind]

theorem of_byForms (h : byForms forms available (op :: ops) = .ok (success e inst)) :
    ∃ mnemonic, op.getToken = .ok mnemonic ∧ e ∈ InstructionSet.formsOf mnemonic forms ∧
      e.Fits ops ∧ Feature.covers available e.features ∧ inst = e.inst ops := by
  cases ht : op.getToken
  case error b => simp [byForms, ht, bind, Except.bind] at h
  case ok mnemonic =>
    by_cases hnil : InstructionSet.formsOf mnemonic forms = []
    case pos =>
      rw [byForms_eq_unknownMnemonic ht hnil] at h
      cases h
    case neg =>
      rw [byForms_eq_select ht hnil] at h
      exact ⟨mnemonic, rfl, of_select h⟩

theorem byForms_eq_success (ht : op.getToken = .ok e.mnemonic) (h : ∀ op ∈ ops, op.IsReal)
    (he : e ∈ forms) (hfits : e.Fits ops) (hs : Feature.covers available e.features)
    (hu : ∀ e' ∈ forms, e'.mnemonic = e.mnemonic → e'.Fits ops → e' = e) :
    byForms forms available (op :: ops) = .ok (success e (e.inst ops)) := by
  have hmem : e ∈ InstructionSet.formsOf e.mnemonic forms := mem_formsOf.mpr ⟨he, rfl⟩
  rw [byForms_eq_select ht (List.ne_nil_of_mem hmem)]
  refine select_eq_success h hmem hfits hs fun e' he' => ?_
  obtain ⟨he', hword⟩ := mem_formsOf.mp he'
  exact hu e' he' hword

theorem of_ofOperands_cons (h : ofOperands available (op :: ops) = .ok (success e inst)) :
    ∃ mnemonic, op.getToken = .ok mnemonic ∧ e ∈ InstructionSet.candidates mnemonic ∧
      e.Fits ops ∧ Feature.covers available e.features ∧ inst = e.inst ops :=
  of_byForms h

theorem of_ofOperands (h : ofOperands available ops = .ok (success e inst)) :
    Accepted available ops e inst := by
  cases ops
  case nil => cases h
  case cons op ops =>
    have ⟨_, _, he, hfits, hs, hinst⟩ := of_ofOperands_cons h
    exact ⟨(mem_candidates.mp he).left, hfits, hs, hinst⟩

theorem ofOperands_ok (available : List Feature) (mnemonic : String) (loc : Loc)
    (h : ∀ op ∈ ops, op.IsReal) :
    ∃ v, ofOperands available (.token mnemonic loc :: ops) = .ok v ∧ v.IsApt := by
  have ht : (Operand.token mnemonic loc).getToken = .ok mnemonic := rfl
  by_cases hnil : InstructionSet.formsOf mnemonic InstructionSet.table = []
  case pos => exact ⟨_, byForms_eq_unknownMnemonic ht hnil, trivial⟩
  case neg =>
    rw [ofOperands, byForms_eq_select ht hnil]
    exact select_ok h (by simp)

theorem ofOperands_eq_success (loc : Loc) (h : ∀ op ∈ ops, op.IsReal)
    (he : e ∈ InstructionSet.table) (hfits : e.Fits ops)
    (hs : Feature.covers available e.features) :
    ofOperands available (.token e.mnemonic loc :: ops) = .ok (success e (e.inst ops)) :=
  byForms_eq_success rfl h he hfits hs fun _ he' hword =>
    hfits.unique he (mem_candidates.mpr ⟨he', hword⟩)

theorem operandAt_ok {i : Int} (h₀ : 0 ≤ i) (h : i < ops.length) :
    ∃ op, operandAt ops i = .ok op := by
  have hi : i.toNat < ops.length := by omega
  refine ⟨ops[i.toNat], ?_⟩
  simp only [operandAt, Int.not_lt.mpr h₀, ↓reduceIte, List.getElem?_eq_getElem hi]
  rfl

theorem resolve_ne_breach {v : Verdict} {mnemonic : String} {loc at_ : Loc} (hv : v.IsApt)
    (b : Breach) : resolve available (.token mnemonic loc :: ops) at_ v ≠ .error (.breach b) := by
  cases v
  case success => simp [resolve, pure, Except.pure]
  case missingFeature fs =>
    have : fs.isEmpty = false := by simpa [IsApt] using hv
    simp [resolve, this, throw, throwThe, MonadExceptOf.throw]
  case unknownMnemonic =>
    simp [resolve, operandAt, Operand.token, Operand.getToken, throw, throwThe, MonadExceptOf.throw,
      pure, Except.pure, bind, Except.bind]
  case rejected reason index =>
    cases index
    case none =>
      simp only [resolve]
      split <;> simp [throw, throwThe, MonadExceptOf.throw]
    case some i =>
      simp only [resolve]
      split
      case isTrue    => simp [throw, throwThe, MonadExceptOf.throw, bind, Except.bind]
      case isFalse h =>
        obtain ⟨op, hop⟩ := operandAt_ok hv (Int.not_le.mp h)
        simp [hop, throw, throwThe, MonadExceptOf.throw, bind, Except.bind]

end Verdict
end Asm88000
