import Asm88000.Proofs.Lexer
import Asm88000.Proofs.Session
import Asm88000.Statement

namespace Asm88000

def Fault.isUnaligned : Fault → Bool
  | unalignedInstruction _ => true
  | _                      => false

theorem Fault.isUnaligned_eq_false {f : Fault} (h : f.family ≠ .general) :
    f.isUnaligned = false := by
  cases f
  case unalignedInstruction => exact (h rfl).elim
  all_goals rfl

namespace StatementM

open Discipline

def orderly : Discipline Failure Run where
  valid _    := True
  rel r q    := r.session.Steps q.session ∧ r.cursor.LeadsTo q.cursor
  fails f    := ∃ e, f = .error e
  refl _     := ⟨.refl, .refl _⟩
  trans h h' := ⟨h.left.trans h'.left, h.right.trans h'.right⟩
  keeps _ _  := trivial

end StatementM

namespace Statement

open StatementM

-- The property of programs is kept in sequence, and it holds of all that labels and directives are
-- made of. `T` is what is known of the tokens, and `E` of the expressions that are read from them.
structure Parts (T : Token → Prop) (E : Expr → Prop) (P : (α : Type) → StatementM α → Prop) :
    Prop where
  pure {α : Type} (a : α) : P α (Pure.pure a)
  bind {α β : Type} {p : StatementM α} {f : α → StatementM β} :
    P α p → (∀ a, P β (f a)) → P β (p >>= f)
  cursor {α : Type} {f : Cursor → StatementM α} :
    (∀ c, (∀ t ∈ c.tokens, T t) → P α (f c)) → P α (StatementM.cursor >>= f)
  skip : P Unit StatementM.skip
  expr {α : Type} {f : Option Expr → StatementM α} :
    (∀ o, (∀ e ∈ o, E e) → P α (f o)) → P α (ofTokens Expr.parse >>= f)
  fail {α : Type} {f : Fault} (loc : Loc) : f.isUnaligned = false → P α (StatementM.fail f loc)
  label {name : String} {loc : Loc} :
    T ⟨.identifier name, loc⟩ → P Unit (tryChange (Session.label · name loc))
  switch (sect : SectionName) : P Unit (change (Session.switch · sect))
  global (name : String) : P Unit (change (Session.global · name))
  align (alignment : Int) (loc : Loc) : P Unit (tryChange (Session.align · alignment loc))
  word {e : Expr} {t : Token} : E e → T t → P Unit (tryChange (Session.emitWord · e t.loc))

structure AllParts (T : Token → Prop) (E : Expr → Prop) (P : (α : Type) → StatementM α → Prop) :
    Prop extends Parts T E P where
  require88110 : P Unit (change Session.require88110)
  instruction {name : String} {loc : Loc} : T ⟨.identifier name, loc⟩ → P Unit (do
    let ops ← operands (Text.lowerAscii name) loc
    let _ ← emit ops loc)

variable {T : Token → Prop} {E : Expr → Prop} {P : (α : Type) → StatementM α → Prop} {α : Type}

theorem identifier_of_current {c : Cursor} {name : String} (hc : ∀ t ∈ c.tokens, T t)
    (hname : c.current.lexeme = .identifier name) : T ⟨.identifier name, c.loc⟩ := by
  rw [← hname]
  exact hc c.current c.current_mem

namespace Parts

theorem ite {c : Prop} [Decidable c] {p q : StatementM α} (hp : P α p) (hq : P α q) :
    P α (if c then p else q) := by
  split
  · exact hp
  · exact hq

variable (h : Parts T E P)

include h

theorem failHere {f : Fault} (hf : f.isUnaligned = false) : P α (StatementM.failHere f) :=
  h.cursor fun c _ => h.fail c.loc hf

theorem labels (n : Nat) : P Unit (Statement.labels n) := by
  induction n
  case zero => exact h.pure ()
  case succ n ih =>
    refine h.cursor fun c hc => ?_
    split
    case h_1 name hname _ =>
      have hlabel := h.label (identifier_of_current hc hname)
      exact h.bind h.skip fun _ => h.bind h.skip fun _ => h.bind hlabel fun _ => ih
    case h_2 => exact h.pure ()

theorem words (n : Nat) : P Unit (Statement.words n) := by
  induction n
  case zero => exact h.failHere rfl
  case succ n ih =>
    refine h.cursor fun c hc => h.expr fun o ho => ?_
    split
    case h_1   => exact h.fail _ rfl
    case h_2 e =>
      refine h.bind (h.word (ho e rfl) (hc _ c.current_mem)) fun _ => h.cursor fun c _ => ?_
      exact ite (h.bind h.skip fun _ => ih) (h.pure ())

theorem directiveBody (d : Directive) (name : String) (loc : Loc) :
    P Unit (Statement.directiveBody d name loc) := by
  refine h.cursor fun c _ => ?_
  cases d
  case switch sect => exact h.switch sect
  case word        => exact h.words _
  case global =>
    dsimp only
    split
    · exact h.bind h.skip fun _ => h.global _
    · exact h.failHere rfl
  case align =>
    dsimp only
    split
    · exact h.bind h.skip fun _ => h.align _ _
    · exact h.failHere rfl

theorem directive {name : String} (ht : P Bool (Statement.targetDirective name)) (loc : Loc) :
    P Unit (Statement.directive name loc) := by
  refine h.bind ht fun _ => ite ?_ (h.pure ())
  split
  · exact h.fail _ rfl
  · refine h.bind (h.directiveBody _ _ _) fun _ => h.cursor fun c _ => ?_
    exact ite (h.failHere rfl) (h.pure ())

end Parts

namespace AllParts

open Parts

variable (h : AllParts T E P)

include h

theorem targetDirective (name : String) : P Bool (Statement.targetDirective name) := by
  have hdone : P Bool (do change Session.require88110; return true) :=
    h.bind h.require88110 fun _ => h.pure true
  refine ite (h.cursor fun c _ => ite ?_ hdone) (h.pure false)
  exact h.bind (h.failHere rfl) fun _ => hdone

theorem run : P Unit Statement.run := by
  refine h.cursor fun c _ => h.bind (h.labels _) fun _ => h.cursor fun c hc => ?_
  split
  case h_1 => exact h.pure ()
  case h_2 name hname =>
    refine h.bind h.skip fun _ => ite (h.directive (h.targetDirective _) _) ?_
    exact h.instruction (identifier_of_current hc hname)
  case h_3 => exact h.failHere rfl

end AllParts

end Statement

structure Discipline.Admits (D : Discipline Failure Run) : Prop where
  step        : ∀ {r s}, D.valid r → r.session.Step s → D.rel r { r with session := s }
  advance     : ∀ {r c}, D.valid r → r.cursor.LeadsTo c → D.rel r { r with cursor := c }
  fail        : ∀ {e : Error}, e.fault.isUnaligned = false → D.fails (.error e)
  instruction : ∀ mnemonic loc, D.Obeys (do
    let ops ← Statement.operands mnemonic loc
    let _ ← Statement.emit ops loc)

section

variable {D : Discipline Failure Run} {α : Type}

namespace StatementM

open Discipline

theorem cursor_obeys : D.Obeys cursor :=
  Obeys.get.bind fun r => .pure r.cursor

theorem ofTokens_obeys {p : TokenM α} (hp : TokenM.forward.Obeys p)
    (hc : ∀ {r c}, D.valid r → r.cursor.LeadsTo c → D.rel r { r with cursor := c })
    (he : ∀ {e : Error}, e.fault.isUnaligned = false → D.fails (.error e)) :
    D.Obeys (ofTokens p) := by
  intro r hr
  have hforward := hp r.cursor trivial
  unfold ofTokens
  cases hp : p r.cursor <;> simp only [Ensures, hp]
  case ok a c    => exact hc hr (hforward.ok hp)
  case error e c =>
    obtain ⟨hleads, hfails⟩ := hforward.error hp
    exact ⟨hc hr hleads, he (Fault.isUnaligned_eq_false hfails)⟩

theorem tryChange_obeys {f : Session → Except Error Session}
    (hf : ∀ {r s}, D.valid r → f r.session = .ok s → D.rel r { r with session := s })
    (he : ∀ {s e}, f s = .error e → D.fails (.error e)) : D.Obeys (tryChange f) := by
  intro r hr
  unfold tryChange
  cases hs : f r.session <;> simp only [Ensures, hs]
  case ok s    => exact hf hr hs
  case error e => exact ⟨D.refl r, he hs⟩

end StatementM

namespace Statement

open Discipline StatementM

theorem run_obeys (h : D.Admits) : D.Obeys run := by
  refine AllParts.run (T := fun _ => True) (E := fun _ => True) (P := fun _ p => D.Obeys p) ?_
  constructor
  case toParts =>
    constructor
    case pure   => exact .pure
    case bind   => exact .bind
    case cursor => exact fun hf => cursor_obeys.bind fun c => hf c fun _ _ => trivial
    case skip   => exact .modify fun r hr => h.advance hr r.cursor.leadsTo_advance
    case expr =>
      exact fun hf => (ofTokens_obeys Expr.parse_forward h.advance h.fail).bind fun o =>
        hf o fun _ _ => trivial
    case fail   => exact fun _ hf => .throw (h.fail hf)
    case label =>
      exact fun _ => tryChange_obeys (fun hr ht => h.step hr (.label ht)) fun he =>
        h.fail (Session.label_eq_error he ▸ rfl)
    case switch => exact fun sect => .modify fun r hr => h.step hr (.switch sect)
    case global => exact fun name => .modify fun r hr => h.step hr (.global name)
    case align =>
      exact fun _ _ => tryChange_obeys (fun hr ht => h.step hr (.align ht)) fun he =>
        h.fail ((Session.align_eq_error he).right ▸ rfl)
    case word =>
      exact fun _ _ => tryChange_obeys (fun hr ht => h.step hr (.word ht)) fun he =>
        h.fail (Session.emitWord_eq_error he ▸ rfl)
  case require88110 => exact .modify fun r hr => h.step hr .require88110
  case instruction  => exact fun _ => h.instruction _ _

end Statement

end

namespace Statement

open Discipline StatementM

theorem describe_ok {op : Operand} (h : op.IsReal) : ∃ text, op.describe = .ok text := by
  obtain ⟨value, _, _⟩ := op
  cases value
  case token     => exact ⟨_, rfl⟩
  case immediate => exact ⟨_, rfl⟩
  case register id =>
    have ⟨r, hr⟩ := h id rfl
    exact ⟨"Reg: " ++ r.name, by simp [Operand.describe, hr, Register.get, Register.ofId?_id]⟩

section

variable {mnemonic : String} {loc : Loc} {c : Cursor} {scan : Scan} {r q : Run} {ops : List Operand}

theorem start_extends (h : Operand.parseAll mnemonic (Scan.start mnemonic loc c) = .ok () scan) :
    (Scan.start mnemonic loc c).Extends scan :=
  (Operand.parseAll_steady mnemonic _ (by simp [Scan.start, OperandM.steady])).ok h

theorem operands_real (h : (Scan.start mnemonic loc c).Extends scan) :
    ∃ rest, scan.operands = .token mnemonic loc :: rest ∧ ∀ op ∈ rest, op.IsReal :=
  h.operands

theorem warnings_steps (h : (Scan.start mnemonic loc c).Extends scan) (s : Session) :
    s.Steps (s.reportAll scan.warnings) := by
  have ⟨ws, hws, hwarn⟩ := h.warnings
  exact Session.steps_reportAll (hws ▸ hwarn)

def Scanned (mnemonic : String) (loc : Loc) (r : Run) (ops : List Operand) (q : Run) : Prop :=
  ∃ scan message,
    Operand.parseAll mnemonic (Scan.start mnemonic loc r.cursor) = .ok () scan ∧
    ops = scan.operands ∧
    q = ⟨(r.session.reportAll scan.warnings).note .debug message, scan.cursor⟩

theorem operands_eq_ok
    (h : Operand.parseAll mnemonic (Scan.start mnemonic loc r.cursor) = .ok () scan) :
    ∃ message, operands mnemonic loc r = .ok scan.operands
      ⟨(r.session.reportAll scan.warnings).note .debug message, scan.cursor⟩ := by
  have ⟨rest, hops, hreal⟩ := operands_real (start_extends h)
  have ⟨texts, htexts, _⟩ := exists_mapM_eq_ok (P := fun _ _ => True)
    fun op hop => (describe_ok (hreal op hop)).imp fun _ ht => ⟨ht, trivial⟩
  have hdrop : scan.operands.drop 1 = rest := by simp [hops]
  simp only [operands, h, hdrop, htexts]
  exact ⟨_, rfl⟩

theorem operands_ensures (mnemonic : String) (loc : Loc) (r : Run) :
    Ensures (operands mnemonic loc) r (Scanned mnemonic loc r)
      (fun f q => orderly.rel r q ∧ OperandM.steady.fails f) := by
  have hsteady := Operand.parseAll_steady mnemonic (Scan.start mnemonic loc r.cursor)
    (by simp [Scan.start, OperandM.steady])
  cases hp : Operand.parseAll mnemonic (Scan.start mnemonic loc r.cursor)
  case error f scan =>
    have ⟨hext, hf⟩ := hsteady.error hp
    have heq : operands mnemonic loc r =
      .error f ⟨r.session.reportAll scan.warnings, scan.cursor⟩ := by
      simp only [operands, hp]
    exact .of_error heq ⟨⟨warnings_steps hext _, hext.cursor⟩, hf⟩
  case ok scan =>
    have ⟨message, heq⟩ := operands_eq_ok hp
    exact .of_ok heq ⟨scan, message, hp, rfl, rfl⟩

theorem Scanned.orderly_rel (h : Scanned mnemonic loc r ops q) : orderly.rel r q := by
  have ⟨scan, message, hp, _, hq⟩ := h
  have hext := start_extends hp
  exact hq ▸ ⟨(warnings_steps hext _).tail (.note _ _), hext.cursor⟩

theorem emit_orderly {rest : List Operand} (h : ∀ op ∈ rest, op.IsReal) (at_ : Loc) :
    orderly.Obeys (emit (.token mnemonic at_ :: rest) loc) := by
  intro r _
  cases he : r.session.emitOperands (.token mnemonic at_ :: rest) loc
  case ok p =>
    have ⟨inst, t⟩ := p
    simp only [Ensures, emit, he]
    exact ⟨.single (.instruction he), .refl _⟩
  case error f =>
    simp only [Ensures, emit, he]
    refine ⟨⟨.refl, .refl _⟩, ?_⟩
    cases f
    case error e  => exact ⟨e, rfl⟩
    case breach b => exact (Session.emitOperands_ne_breach h b he).elim

end

theorem instruction_orderly (mnemonic : String) (loc : Loc) : orderly.Obeys (do
    let ops ← operands mnemonic loc
    let _ ← emit ops loc) := by
  intro r _
  refine (operands_ensures mnemonic loc r).bind (fun ops q hq => ?_) fun _ _ hf =>
    ⟨hf.left, hf.right.imp fun _ => And.left⟩
  have ⟨scan, _, hp, hops, _⟩ := hq
  have ⟨rest, hrest, hreal⟩ := operands_real (start_extends hp)
  rw [hops, hrest]
  refine ((emit_orderly hreal loc).bind fun _ => .pure ()) q trivial |>.mono ?_ ?_
  · exact fun _ _ h => orderly.trans hq.orderly_rel h
  · exact fun _ _ h => ⟨orderly.trans hq.orderly_rel h.left, h.right⟩

theorem admits_orderly : orderly.Admits where
  step _ h    := ⟨.single h, .refl _⟩
  advance _ h := ⟨.refl, h⟩
  fail _      := ⟨_, rfl⟩
  instruction := instruction_orderly

theorem run_orderly : orderly.Obeys run :=
  run_obeys admits_orderly

end Statement

namespace Session

theorem assembleLine_object_steps {s t : Session} {line : Int} {text : String}
    (h : s.assembleLine line text = .ok t) : s.object.Steps t.object := by
  unfold assembleLine at h
  split at h
  · exact pure_eq_ok.mp h ▸ .refl
  case h_2 ts _ =>
    have horderly := Statement.run_orderly ⟨s.addSource line (Text.trim text), Cursor.ofTokens ts⟩
      trivial
    dsimp only at h
    split at h
    case h_1 hrun =>
      cases h
      exact (horderly.ok hrun).left.object_steps
    case h_2 hrun =>
      cases h
      exact (horderly.error hrun).left.left.object_steps
    case h_3 => cases h

theorem assembleFrom_object_steps {n : Nat} {s t : Session} {lines : List String}
    (h : s.assembleFrom n lines = .ok t) : s.object.Steps t.object := by
  induction lines generalizing n s
  case nil => exact pure_eq_ok.mp h ▸ .refl
  case cons l ls ih =>
    have ⟨u, hline, hrest⟩ := bind_eq_ok.mp h
    exact (assembleLine_object_steps hline).trans (ih hrest)

end Session
end Asm88000
