import Asm88000.Proofs.SessionAgreement
import Asm88000.Proofs.Tokenization

namespace Asm88000

def Record.moveTo (a : Int) (r : Record) : Record :=
  { r with address := a }

def Symbol.moveTo (a : Int) (s : Symbol) : Symbol :=
  { s with address := a }

-- The same object but for addresses.
structure Object.Moved (o p : Object) : Prop where
  current       : o.current = p.current
  records       : o.records.map (Record.moveTo 0) = p.records.map (Record.moveTo 0)
  symbols       : o.symbols.map (Symbol.moveTo 0) = p.symbols.map (Symbol.moveTo 0)
  globals       : o.globals = p.globals
  requires88110 : o.requires88110 = p.requires88110

namespace Object

theorem moved_new (codeStart dataStart codeStart' dataStart' : Int) :
    (new codeStart dataStart).Moved (new codeStart' dataStart') :=
  ⟨rfl, rfl, rfl, rfl, rfl⟩

theorem instructionRecord_eq_error {o : Object} {inst : Inst} {f : Failure}
    (ha : o.address % wordSize = 0) (h : o.instructionRecord inst = .error f) :
    ∃ b, f = .breach b := by
  unfold instructionRecord at h
  rw [ite_not, if_pos ha] at h
  split at h
  case isTrue => exact ⟨_, (Except.error.inj h).symm⟩
  case isFalse =>
    split at h
    case h_1 => cases h
    case h_2 => exact ⟨_, (Except.error.inj h).symm⟩

namespace Moved

variable {o p : Object}

theorem setAddress (h : o.Moved p) (a b : Int) : (o.setAddress a).Moved (p.setAddress b) := by
  obtain ⟨hcurrent, hrecords, hsymbols, hglobals, hrequires⟩ := h
  unfold Object.setAddress
  split <;> split <;> exact ⟨hcurrent, hrecords, hsymbols, hglobals, hrequires⟩

theorem append (h : o.Moved p) {r q : Record} (hr : r.moveTo 0 = q.moveTo 0) :
    (o.append r).Moved (p.append q) := by
  have hmoved :
      Moved { o with records := o.records ++ [r] } { p with records := p.records ++ [q] } :=
    { h with records := by simp [h.records, hr] }
  exact hmoved.setAddress _ _

theorem global (h : o.Moved p) (name : String) : (o.global name).Moved (p.global name) := by
  unfold Object.global
  rw [h.globals]
  split
  case isTrue  => exact h
  case isFalse => exact { h with globals := rfl }

theorem isTaken (h : o.Moved p) (name : String) :
    o.symbols.any (fun s => s.name = name) = p.symbols.any (fun s => s.name = name) := by
  have hmap (ss : List Symbol) : ss.any (fun s => s.name = name) =
      (ss.map (Symbol.moveTo 0)).any fun s => s.name = name := by
    rw [List.any_map]
    rfl
  rw [hmap, h.symbols, ← hmap]

theorem label (h : o.Moved p) (name : String) (l : Loc) :
    Outcomes (Error.Alike Eq) Moved (o.label name (some l)) (p.label name (some l)) := by
  unfold Object.label
  rw [h.isTaken name]
  split
  case isTrue  => exact .error ⟨rfl, .mk rfl⟩
  case isFalse =>
    refine .ok { h with symbols := ?_ }
    simp [h.symbols, h.current, Symbol.moveTo]

theorem align (h : o.Moved p) (alignment : Int) (l : Loc) :
    Outcomes (Error.Alike Eq) Moved (o.align alignment (some l)) (p.align alignment (some l)) := by
  unfold Object.align
  split
  case isTrue  => exact .ok (h.setAddress _ _)
  case isFalse => exact .error ⟨rfl, .mk rfl⟩

theorem wordRecord (h : o.Moved p) (e : Expr) (l : Loc) :
    Outcomes (Error.Alike Eq) (fun r q => r.moveTo 0 = q.moveTo 0) (o.wordRecord e (some l))
      (p.wordRecord e (some l)) := by
  unfold Object.wordRecord
  rw [h.current]
  split
  case h_1 => exact .ok rfl
  case h_2 =>
    split
    case isTrue  => exact .ok rfl
    case isFalse => exact .error ⟨rfl, .mk rfl⟩

theorem instructionRecord (h : o.Moved p) (inst : Inst) (ho : o.address % wordSize = 0)
    (hp : p.address % wordSize = 0) :
    Outcomes (Failure.Alike Eq) (fun r q => r.moveTo 0 = q.moveTo 0) (o.instructionRecord inst)
      (p.instructionRecord inst) := by
  unfold Object.instructionRecord
  simp only [ho, hp, h.current, ne_eq, not_true_eq_false, ↓reduceIte]
  split
  case isTrue => exact .error .breach
  case isFalse =>
    split
    case h_1 => exact .ok rfl
    case h_2 => exact .error .breach

end Moved

end Object

theorem Placed.eq {l m : Option Loc} (h : Placed Eq l m) : l = m := by
  cases h
  case mk h => rw [h]

theorem Inst.Alike.eq {i j : Inst} (h : i.Alike (Placed Eq) j) : i = j := by
  rw [show i = ⟨i.opcode, i.args, i.loc⟩ from rfl, h.opcode, h.args, h.loc.eq]

theorem Diagnostic.Alike.eq {d e : Diagnostic} (h : Diagnostic.Alike Eq d e) : d = e := by
  rw [show d = ⟨d.severity, d.message, d.loc⟩ from rfl, h.severity, h.message, h.loc.eq]

namespace Session

-- The same session but for addresses and for what is told on the way.
structure Moved (s t : Session) : Prop where
  cpu         : s.cpu = t.cpu
  available   : s.available = t.available
  object      : s.object.Moved t.object
  diagnostics : s.diagnostics = t.diagnostics

-- Two sessions that are the same but for addresses, with all counters between words.
structure Parallel (s t : Session) : Prop where
  moved : s.Moved t
  left  : s.object.IsWordAligned
  right : t.object.IsWordAligned

variable {s t : Session}

theorem Moved.setObject (h : s.Moved t) {o p : Object} (ho : o.Moved p) :
    (s.setObject o).Moved (t.setObject p) :=
  { h with object := ho }

theorem Moved.report (h : s.Moved t) {d e : Diagnostic} (hd : d = e) :
    (s.report d).Moved (t.report e) :=
  { h with diagnostics := by simp only [Session.report, h.diagnostics, hd] }

theorem Moved.append (h : s.Moved t) {r q : Record} (hr : r.moveTo 0 = q.moveTo 0) :
    (s.append r).Moved (t.append q) where
  cpu         := by rw [cpu_append, cpu_append, h.cpu]
  available   := by rw [available_append, available_append, h.available]
  object      := by
    rw [object_append, object_append]
    exact h.object.append hr
  diagnostics := by rw [diagnostics_append, diagnostics_append, h.diagnostics]

namespace Parallel

theorem step (h : s.Parallel t) {s' t' : Session} (hs : s.Step s') (ht : t.Step t')
    (hmoved : s'.Moved t') : s'.Parallel t' :=
  ⟨hmoved, h.left.steps hs.object_steps, h.right.steps ht.object_steps⟩

end Parallel

namespace Moved

theorem label (h : s.Moved t) (name : String) (l : Loc) :
    Outcomes (Error.Alike Eq) Moved (s.label name l) (t.label name l) := by
  have houtcomes := h.object.label name l
  unfold Session.label
  generalize s.object.label name (some l) = x at houtcomes
  generalize t.object.label name (some l) = y at houtcomes
  cases houtcomes
  case ok ho    => exact .ok { h with object := ho }
  case error he => exact .error he

theorem align (h : s.Moved t) (alignment : Int) (l : Loc) :
    Outcomes (Error.Alike Eq) Moved (s.align alignment l) (t.align alignment l) := by
  have houtcomes := h.object.align alignment l
  unfold Session.align
  generalize s.object.align alignment (some l) = x at houtcomes
  generalize t.object.align alignment (some l) = y at houtcomes
  cases houtcomes
  case ok ho    => exact .ok (h.setObject ho)
  case error he => exact .error he

theorem emitWord (h : s.Moved t) (e : Expr) (l : Loc) :
    Outcomes (Error.Alike Eq) Moved (s.emitWord e l) (t.emitWord e l) := by
  have houtcomes := h.object.wordRecord e l
  unfold Session.emitWord
  generalize s.object.wordRecord e (some l) = x at houtcomes
  generalize t.object.wordRecord e (some l) = y at houtcomes
  cases houtcomes
  case ok hr    => exact .ok (h.append hr)
  case error he => exact .error he

theorem emitInstruction (h : s.Moved t) (inst : Inst) (hs : s.object.address % wordSize = 0)
    (ht : t.object.address % wordSize = 0) :
    Outcomes (Failure.Alike Eq) Moved (s.emitInstruction inst) (t.emitInstruction inst) := by
  have houtcomes := h.object.instructionRecord inst hs ht
  unfold Session.emitInstruction
  generalize s.object.instructionRecord inst = x at houtcomes
  generalize t.object.instructionRecord inst = y at houtcomes
  cases houtcomes
  case ok hr    => exact .ok (h.append hr)
  case error hf => exact .error hf

end Moved

theorem Parallel.emitOperands (h : s.Parallel t) {ops ops' : List Operand}
    (hops : List.Forall₂ (Operand.Alike Eq) ops ops') {l l' : Loc} (hl : l = l') :
    Outcomes (Failure.Alike Eq) (fun x y => Parallel x.2 y.2) (s.emitOperands ops l)
      (t.emitOperands ops' l') := by
  have hmoved := emitOperands_outcomes hops hl h.moved.available (R := Moved) fun i j hi => by
    rw [← hi.eq]
    exact h.moved.emitInstruction i (h.left.sections _) (h.right.sections _)
  exact hmoved.imp fun _ _ hs ht => h.step (.instruction hs) (.instruction ht)

-- All that is up to an address is how far an alignment goes and whether an instruction can be
-- there. Between words it always can.
theorem simulation_parallel : Simulation Eq Parallel where
  note h         := h.step (.note _ _) (.note _ _) { h.moved with }
  source h       := ⟨{ h.moved with }, h.left, h.right⟩
  report hd h    := ⟨h.moved.report hd.eq, h.left, h.right⟩
  switch sect h  := h.step (.switch sect) (.switch sect)
    { h.moved with object := { h.moved.object with current := rfl } }
  global name h  := h.step (.global name) (.global name)
    (h.moved.setObject (h.moved.object.global name))
  require88110 h := h.step .require88110 .require88110
    { h.moved with
      cpu       := rfl
      available := rfl
      object    := { h.moved.object with requires88110 := rfl } }
  label name hl h := by
    subst hl
    exact (h.moved.label name _).imp fun _ _ hs ht => h.step (.label hs) (.label ht)
  align alignment hl h := by
    subst hl
    exact (h.moved.align alignment _).imp fun _ _ hs ht => h.step (.align hs) (.align ht)
  word e hl h := by
    subst hl
    exact (h.moved.emitWord e _).imp fun _ _ hs ht => h.step (.word hs) (.word ht)
  operands hops hl h := h.emitOperands hops hl

theorem assembleLine_parallel (n : Int) (text : String) (h : s.Parallel t) :
    ∃ s' t', s.assembleLine n text = .ok s' ∧ t.assembleLine n text = .ok t' ∧ s'.Parallel t' := by
  cases htok : tokenize n text
  case error e =>
    have hsource : (s.addSource n (Text.trim text)).Parallel (t.addSource n (Text.trim text)) :=
      simulation_parallel.source h
    exact ⟨_, _, assembleLine_invalid htok s, assembleLine_invalid htok t,
      hsource.moved.report rfl, hsource.left, hsource.right⟩
  case ok ts =>
    obtain ⟨ts, stop, rfl, _⟩ := tokenize_ok htok
    have hts : AlikeTokens Eq ts ts := .refl fun _ _ => rfl
    exact assembleLine_agrees simulation_parallel h htok htok hts.statement rfl

theorem assembleFrom_parallel (n : Nat) (lines : List String) (h : s.Parallel t) :
    ∃ s' t', s.assembleFrom n lines = .ok s' ∧ t.assembleFrom n lines = .ok t' ∧
      s'.Parallel t' := by
  induction lines generalizing n s t
  case nil => exact ⟨s, t, rfl, rfl, h⟩
  case cons l ls ih =>
    obtain ⟨s', t', hs', ht', h'⟩ := assembleLine_parallel n (dropLineEnds l) h
    obtain ⟨s'', t'', hs'', ht'', h''⟩ := ih (n + 1) h'
    refine ⟨s'', t'', ?_, ?_, h''⟩
    case refine_1 => rw [assembleFrom_cons hs', hs'']
    case refine_2 => rw [assembleFrom_cons ht', ht'']

end Session

theorem tokenize_family {line : Int} {text : String} {e : Error}
    (h : tokenize line text = .error e) : e.fault.family = .lexical := by
  obtain ⟨_, _, _, _, hstuck, rfl⟩ := tokenize_eq_error_iff.mp h
  cases hstuck
  case character => rfl
  case integer   => rfl

namespace Verdict

variable {available : List Feature} {ops : List Operand} {loc : Loc} {e : Error}

theorem operandAt_ne_error (i : Int) : operandAt ops i ≠ .error (.error e) := by
  unfold operandAt
  dsimp only
  split
  case h_1 => simp [pure, Except.pure]
  case h_2 => simp [throw, throwThe, MonadExceptOf.throw]

theorem resolve_family {v : Verdict} (h : v.resolve available ops loc = .error (.error e)) :
    e.fault.family ≠ .general := by
  cases v
  case success => cases h
  case missingFeature =>
    simp only [resolve] at h
    split at h <;> cases h
    exact show FaultFamily.feature ≠ .general by decide
  case unknownMnemonic =>
    rcases bind_eq_error.mp h with h | ⟨op, _, h⟩
    · exact (operandAt_ne_error _ h).elim
    · split at h <;> cases h
      exact show FaultFamily.mnemonic ≠ .general by decide
  case rejected reason index =>
    have hclass : FaultFamily.operandClass ≠ .general := by decide
    cases index
    case none =>
      simp only [resolve] at h
      split at h <;> cases h
      case isTrue  => exact hclass
      case isFalse => exact hclass
    case some i =>
      simp only [resolve] at h
      split at h
      case isTrue =>
        cases h
        exact hclass
      case isFalse =>
        rcases bind_eq_error.mp h with h | ⟨op, _, h⟩
        · exact (operandAt_ne_error _ h).elim
        · cases h
          exact hclass

end Verdict

namespace Session

theorem emitOperands_eq_error {s : Session} {ops : List Operand} {loc : Loc} {e : Error}
    (ha : s.object.address % wordSize = 0) (h : s.emitOperands ops loc = .error (.error e)) :
    e.fault.family ≠ .general := by
  unfold emitOperands at h
  split at h
  case h_2 => cases h
  case h_1 =>
    rcases bind_eq_error.mp h with h | ⟨inst, _, h⟩
    · exact Verdict.resolve_family h
    · rcases bind_eq_error.mp h with h | ⟨_, _, h⟩
      · rcases bind_eq_error.mp h with h | ⟨_, _, h⟩
        · obtain ⟨b, hb⟩ := Object.instructionRecord_eq_error ha h
          cases hb
        · cases h
      · cases h

end Session

namespace StatementM

def aligned : Discipline Failure Run where
  valid r   := r.session.object.IsWordAligned
  rel       := orderly.rel
  fails f   := ∀ e, f = .error e → e.fault.isUnaligned = false
  refl      := orderly.refl
  trans     := orderly.trans
  keeps h h' := h.steps h'.left.object_steps

end StatementM

namespace Statement

open Discipline StatementM

theorem emit_aligned (ops : List Operand) (loc : Loc) : aligned.Obeys (emit ops loc) := by
  intro r hr
  unfold Ensures emit
  cases h : r.session.emitOperands ops loc
  case ok => exact ⟨.single (.instruction h), .refl _⟩
  case error f =>
    refine ⟨orderly.refl r, fun e he => ?_⟩
    subst he
    exact Fault.isUnaligned_eq_false (Session.emitOperands_eq_error (hr.sections _) h)

theorem instruction_aligned (mnemonic : String) (loc : Loc) : aligned.Obeys (do
    let ops ← operands mnemonic loc
    let _ ← emit ops loc) := by
  refine Obeys.bind (fun r _ => ?_) fun ops => (emit_aligned ops loc).bind fun _ => .pure ()
  refine (operands_ensures mnemonic loc r).mono (fun _ _ hq => hq.orderly_rel) fun f q hf => ?_
  refine ⟨hf.left, fun e he => ?_⟩
  obtain ⟨e', he', hfamily⟩ := hf.right
  cases he.symm.trans he'
  exact Fault.isUnaligned_eq_false hfamily

theorem admits_aligned : aligned.Admits where
  step _ h    := ⟨.single h, .refl _⟩
  advance _ h := ⟨.refl, h⟩
  fail h e he := by
    cases he
    exact h
  instruction := instruction_aligned

end Statement

theorem any_zip_ne_eq_false {cs ds xs ys : List Char} (h : cs ++ xs = ds ++ ys) :
    ((cs.zip ds).any fun p => p.1 != p.2) = false := by
  induction cs generalizing ds
  case nil => rfl
  case cons c cs ih =>
    cases ds
    case nil => rfl
    case cons d ds =>
      obtain ⟨hc, hcs⟩ := List.cons.inj h
      simp [hc, ih hcs]

theorem append_ne_append {cs ds : List Char} (h : (cs.zip ds).any fun p => p.1 != p.2)
    (s t : String) : String.ofList cs ++ s ≠ String.ofList ds ++ t := by
  intro heq
  have hlists : cs ++ s.toList = ds ++ t.toList := by simpa using congrArg String.toList heq
  rw [any_zip_ne_eq_false hlists] at h
  cases h

theorem ofList_ne_append {cs ds : List Char} (h : (cs.zip ds).any fun p => p.1 != p.2)
    (t : String) : String.ofList cs ≠ String.ofList ds ++ t := by
  simpa using append_ne_append h "" t

theorem decimal_natCast_cons (n : Nat) :
    ∃ d < 10, ∃ cs, (decimal n).toList = Nat.digitChar d :: cs := by
  rw [toList_decimal_natCast]
  cases h : Nat.toDigits 10 n
  case nil => exact absurd h (by simp)
  case cons c cs =>
    have hc : c ∈ Nat.toDigits 10 n := h ▸ List.mem_cons_self
    obtain ⟨d, hd, rfl⟩ := Numeral.mem_toDigits (by decide) hc
    exact ⟨d, hd, cs, rfl⟩

theorem Fault.message_ne_unaligned {f : Fault} (h : f.isUnaligned = false) (a : Int) :
    f.message ≠ (unalignedInstruction a).message := by
  cases f
  case unalignedInstruction => cases h
  case unfitOperand reason =>
    cases reason <;> exact ofList_ne_append (by decide) _
  case failedStatements e _ _ =>
    -- This is the one text with a number in front.
    have hdigit : ∀ d < 10, Nat.digitChar d ≠ 'i' := by decide
    obtain ⟨d, hd, cs, hcs⟩ := decimal_natCast_cons e
    intro heq
    have hheads := congrArg (fun s => s.toList.head?) heq
    unfold message at hheads
    simp [String.toList_append, hcs, hdigit d hd] at hheads
  case unknownToken | unclosedParen | negatedSymbol | symbolDifference | expectedOperand
    | expectedRegisterOrImmediate | expectedBitfieldOffset | unclosedBitfieldOffset
    | expectedRotation | unclosedRotation | expectedScaledRegister | expectedRegister
    | invalidRegister | trailingOperand | offsetOutOfRange | tooFewOperands | statementStart
    | expectedAlignment | expectedExpression | wordOutOfRange =>
    exact ofList_ne_append (by decide) _
  all_goals
    unfold message
    simp only [String.append_assoc]
    exact append_ne_append (by decide) _ _

namespace Session

structure IsSound (s : Session) : Prop where
  aligned : s.object.IsWordAligned
  errors  : ∀ d ∈ s.errors, ∃ e : Error, d = .ofError e ∧ e.fault.isUnaligned = false

variable {s t : Session}

theorem IsSound.report (h : s.IsSound) {e : Error} (he : e.fault.isUnaligned = false) :
    (s.report (.ofError e)).IsSound where
  aligned := h.aligned
  errors d hd := by
    rw [errors_report_ofError, List.mem_append, List.mem_singleton] at hd
    cases hd
    case inl hd => exact h.errors d hd
    case inr hd => exact ⟨e, hd, he⟩

theorem IsSound.steps (h : s.IsSound) (hsteps : s.Steps t) : t.IsSound where
  aligned := h.aligned.steps hsteps.object_steps
  errors  := hsteps.errors_eq ▸ h.errors

theorem IsSound.assembleLine (h : s.IsSound) {n : Int} {text : String}
    (ht : s.assembleLine n text = .ok t) : t.IsSound := by
  have hsource : (s.addSource n (Text.trim text)).IsSound := ⟨h.aligned, h.errors⟩
  cases htok : tokenize n text
  case error e =>
    cases (assembleLine_invalid htok s).symm.trans ht
    exact hsource.report (Fault.isUnaligned_eq_false (by simp [tokenize_family htok]))
  case ok ts =>
    have haligned := Statement.run_obeys Statement.admits_aligned
      ⟨s.addSource n (Text.trim text), Cursor.ofTokens ts⟩ hsource.aligned
    simp only [Session.assembleLine, htok] at ht
    split at ht
    case h_1 hrun =>
      cases ht
      exact hsource.steps (haligned.ok hrun).left
    case h_2 e _ hrun =>
      cases ht
      obtain ⟨hrel, hfails⟩ := haligned.error hrun
      exact (hsource.steps hrel.left).report (hfails e rfl)
    case h_3 => cases ht

theorem IsSound.assembleFrom (h : s.IsSound) {n : Nat} {lines : List String}
    (ht : s.assembleFrom n lines = .ok t) : t.IsSound := by
  induction lines generalizing n s
  case nil => exact pure_eq_ok.mp ht ▸ h
  case cons l ls ih =>
    obtain ⟨u, hline, hrest⟩ := bind_eq_ok.mp ht
    exact ih (h.assembleLine hline) hrest

theorem isSound_new (cpu : Cpu) {codeStart dataStart : Int} (hcode : codeStart % wordSize = 0)
    (hdata : dataStart % wordSize = 0) : (new cpu codeStart dataStart).IsSound where
  aligned := Object.isWordAligned_new hcode hdata
  errors  := by simp [new, errors]

-- On the way to `t`, before each line and whatever is done from there, both counters are between
-- words.
def StaysAligned (s : Session) (lines : List String) (t : Session) : Prop :=
  ∀ n, ∃ u, s.assemble (lines.take n) = .ok u ∧ u.object.Steps t.object ∧
    ∀ o, u.object.Steps o → ∀ sect, (o.getSection sect).address % wordSize = 0

theorem IsSound.staysAligned (h : s.IsSound) {lines : List String}
    (ht : s.assemble lines = .ok t) : s.StaysAligned lines t := by
  intro n
  rw [assemble, ← lines.take_append_drop n, assembleFrom_append] at ht
  obtain ⟨u, hu, hrest⟩ := bind_eq_ok.mp ht
  have haligned := (h.assembleFrom hu).aligned
  exact ⟨u, hu, assembleFrom_object_steps hrest, fun o ho => (haligned.steps ho).sections⟩

-- Programs do the same wherever their sections start, as long as that is between words.
theorem assemble_position_independent (cpu : Cpu) {code data code' data' : Int}
    (hcode : code % wordSize = 0) (hdata : data % wordSize = 0) (hcode' : code' % wordSize = 0)
    (hdata' : data' % wordSize = 0) (lines : List String) :
    ∃ t t', (new cpu code data).assemble lines = .ok t ∧
      (new cpu code' data').assemble lines = .ok t' ∧ t.Moved t' ∧
      (new cpu code data).StaysAligned lines t ∧ (new cpu code' data').StaysAligned lines t' ∧
      ∀ d ∈ t.errors, ∀ a, d.message ≠ (Fault.unalignedInstruction a).message := by
  have hsound := isSound_new cpu hcode hdata
  have hsound' := isSound_new cpu hcode' hdata'
  have hparallel : (new cpu code data).Parallel (new cpu code' data') :=
    ⟨⟨rfl, rfl, Object.moved_new .., rfl⟩, hsound.aligned, hsound'.aligned⟩
  obtain ⟨t, t', ht, ht', h⟩ := assembleFrom_parallel 1 lines hparallel
  refine ⟨t, t', ht, ht', h.moved, hsound.staysAligned ht, hsound'.staysAligned ht', ?_⟩
  intro d hd a
  obtain ⟨e, rfl, he⟩ := (hsound.assembleFrom ht).errors d hd
  exact Fault.message_ne_unaligned he a

-- The gap in front of the second word is of twelve bytes in one run and of four in the other.
theorem assemble_position_independent_align :
    ∃ t t', (new .mc88100 0 0x1000).assemble ["f: rte", ".align 16", "add %r1", ".word f"] = .ok t ∧
      (new .mc88100 (-8) 20).assemble ["f: rte", ".align 16", "add %r1", ".word f"] = .ok t' ∧
      t.object.records.map Record.address = [0, 16] ∧
      t'.object.records.map Record.address = [-8, 0] ∧
      t.object.records.map (Record.moveTo 0) = t'.object.records.map (Record.moveTo 0) ∧
      t.diagnostics = t'.diagnostics := by
  obtain ⟨t, t', ht, ht', hmoved, _⟩ := assemble_position_independent .mc88100
    (show (0 : Int) % wordSize = 0 by decide) (show (0x1000 : Int) % wordSize = 0 by decide)
    (show (-8 : Int) % wordSize = 0 by decide) (show (20 : Int) % wordSize = 0 by decide)
    ["f: rte", ".align 16", "add %r1", ".word f"]
  refine ⟨t, t', ht, ht', ?_, ?_, hmoved.object.records, hmoved.diagnostics⟩
  case refine_1 =>
    have h : ((new .mc88100 0 0x1000).assemble ["f: rte", ".align 16", "add %r1", ".word f"]).map
        (fun t => t.object.records.map Record.address) = .ok [0, 16] := by decide +kernel
    rw [ht] at h
    exact Except.ok.inj h
  case refine_2 =>
    have h : ((new .mc88100 (-8) 20).assemble ["f: rte", ".align 16", "add %r1", ".word f"]).map
        (fun t => t.object.records.map Record.address) = .ok [-8, 0] := by decide +kernel
    rw [ht'] at h
    exact Except.ok.inj h

end Session
end Asm88000
