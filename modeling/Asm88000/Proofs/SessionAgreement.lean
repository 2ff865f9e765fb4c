import Asm88000.Proofs.StatementAgreement

namespace Asm88000

variable {L : Loc → Loc → Prop} {K : Option Loc → Option Loc → Prop}

structure Inst.Alike (K : Option Loc → Option Loc → Prop) (i j : Inst) : Prop where
  opcode : i.opcode = j.opcode
  args   : i.args = j.args
  loc    : K i.loc j.loc

structure Record.Alike (K : Option Loc → Option Loc → Prop) (r q : Record) : Prop where
  type    : r.type = q.type
  sect    : r.sect = q.sect
  address : r.address = q.address
  word    : r.word = q.word
  fixups  : r.fixups = q.fixups
  loc     : K r.loc q.loc
  inst    : Option.Rel (Inst.Alike K) r.inst q.inst

structure Object.Alike (K : Option Loc → Option Loc → Prop) (o p : Object) : Prop where
  text          : o.text = p.text
  data          : o.data = p.data
  current       : o.current = p.current
  records       : List.Forall₂ (Record.Alike K) o.records p.records
  symbols       : o.symbols = p.symbols
  globals       : o.globals = p.globals
  requires88110 : o.requires88110 = p.requires88110

theorem Record.Alike.refl (hK : ∀ l, K l l) (r : Record) : r.Alike K r := by
  refine ⟨rfl, rfl, rfl, rfl, rfl, hK _, ?_⟩
  cases r.inst
  case none   => exact .none
  case some i => exact .some ⟨rfl, rfl, hK _⟩

namespace Object.Alike

variable {o p : Object}

theorem refl (hK : ∀ l, K l l) (o : Object) : o.Alike K o :=
  ⟨rfl, rfl, rfl, List.forall₂_same.mpr fun r _ => .refl hK r, rfl, rfl, rfl⟩

theorem address (h : o.Alike K p) : o.address = p.address := by
  simp only [Object.address, Object.getSection, h.current, h.text, h.data]

theorem setAddress (h : o.Alike K p) (a : Int) : (o.setAddress a).Alike K (p.setAddress a) := by
  obtain ⟨text, data, current, records, symbols, globals, requires⟩ := o
  obtain ⟨text', data', current', records', symbols', globals', requires'⟩ := p
  obtain ⟨rfl, rfl, rfl, hrecords, rfl, rfl, rfl⟩ := h
  cases current <;> exact ⟨rfl, rfl, rfl, hrecords, rfl, rfl, rfl⟩

theorem append {r q : Record} (h : o.Alike K p) (hr : r.Alike K q) :
    (o.append r).Alike K (p.append q) := by
  unfold Object.append
  rw [h.address]
  refine setAddress ?_ _
  exact { h with records := List.rel_append h.records (.cons hr .nil) }

theorem label (h : o.Alike K p) (name : String) {l m : Loc} (hl : L l m) :
    Outcomes (Error.Alike L) (Object.Alike K) (o.label name (some l)) (p.label name (some m)) := by
  unfold Object.label
  rw [h.symbols]
  split
  case isTrue  => exact .error ⟨rfl, .mk hl⟩
  case isFalse =>
    refine .ok { h with symbols := ?_ }
    simp only [h.current, h.address]

theorem global (h : o.Alike K p) (name : String) : (o.global name).Alike K (p.global name) := by
  unfold Object.global
  rw [h.globals]
  split
  case isTrue  => exact h
  case isFalse => exact { h with globals := rfl }

theorem align (h : o.Alike K p) (alignment : Int) {l m : Loc} (hl : L l m) :
    Outcomes (Error.Alike L) (Object.Alike K) (o.align alignment (some l))
      (p.align alignment (some m)) := by
  unfold Object.align
  split
  case isTrue  => exact .ok (h.address ▸ h.setAddress _)
  case isFalse => exact .error ⟨rfl, .mk hl⟩

theorem wordRecord (h : o.Alike K p) (e : Expr) {l m : Loc} (hl : L l m)
    (hK : ∀ a b, Placed L a b → K a b) :
    Outcomes (Error.Alike L) (Record.Alike K) (o.wordRecord e (some l))
    (p.wordRecord e (some m)) := by
  have hplaced := hK _ _ (.mk hl)
  unfold Object.wordRecord
  split
  case h_1 => exact .ok ⟨rfl, h.current, h.address, rfl, rfl, hplaced, .none⟩
  case h_2 =>
    split
    case isTrue  => exact .ok ⟨rfl, h.current, h.address, rfl, rfl, hplaced, .none⟩
    case isFalse => exact .error ⟨rfl, .mk hl⟩

theorem instructionRecord (h : o.Alike K p) {i j : Inst} (hi : i.Alike K j)
    (hloc : Placed L i.loc j.loc) :
    Outcomes (Failure.Alike L) (Record.Alike K) (o.instructionRecord i)
    (p.instructionRecord j) := by
  have hencode : i.encode = j.encode := by simp only [Inst.encode, hi.opcode, hi.args]
  unfold Object.instructionRecord
  rw [← hi.opcode, ← h.address, ← hencode]
  split
  case isTrue => exact .error .breach
  case isFalse =>
    split
    case isTrue => exact .error (.error ⟨rfl, hloc⟩)
    case isFalse =>
      split
      case h_1 => exact .ok ⟨rfl, h.current, rfl, rfl, rfl, hi.loc, .some hi⟩
      case h_2 => exact .error .breach

end Object.Alike

def Inst.mapLoc (f : Option Loc → Option Loc) (i : Inst) : Inst :=
  { i with loc := f i.loc }

def Record.mapLoc (f : Option Loc → Option Loc) (r : Record) : Record :=
  { r with loc := f r.loc, inst := r.inst.map (Inst.mapLoc f) }

def Object.mapLoc (f : Option Loc → Option Loc) (o : Object) : Object :=
  { o with records := o.records.map (Record.mapLoc f) }

def Diagnostic.mapLoc (f : Option Loc → Option Loc) (d : Diagnostic) : Diagnostic :=
  { d with loc := f d.loc }

section

variable {f : Option Loc → Option Loc}

theorem Inst.Alike.mapLoc_eq {i j : Inst} (h : i.Alike (fun l m => f l = f m) j) :
    i.mapLoc f = j.mapLoc f := by
  simp only [Inst.mapLoc, h.opcode, h.args, h.loc]

theorem Record.Alike.mapLoc_eq {r q : Record} (h : r.Alike (fun l m => f l = f m) q) :
    r.mapLoc f = q.mapLoc f := by
  have hinst : r.inst.map (Inst.mapLoc f) = q.inst.map (Inst.mapLoc f) := by
    have hrel := h.inst
    generalize r.inst = x at hrel
    generalize q.inst = y at hrel
    cases hrel
    case none   => rfl
    case some h => exact congrArg some h.mapLoc_eq
  simp only [Record.mapLoc, h.type, h.sect, h.address, h.word, h.fixups, h.loc, hinst]

theorem Object.Alike.mapLoc_eq {o p : Object} (h : o.Alike (fun l m => f l = f m) p) :
    o.mapLoc f = p.mapLoc f := by
  have hrecords : o.records.map (Record.mapLoc f) = p.records.map (Record.mapLoc f) := by
    rw [← List.forall₂_eq_eq_eq]
    exact List.rel_map (fun _ _ hr => hr.mapLoc_eq) h.records
  simp only [Object.mapLoc, h.text, h.data, h.current, hrecords, h.symbols, h.globals,
    h.requires88110]

theorem Diagnostic.Alike.mapLoc_eq {d e : Diagnostic} (h : Diagnostic.Alike L d e)
    (hf : ∀ l m, Placed L l m → f l = f m) : d.mapLoc f = e.mapLoc f := by
  simp only [Diagnostic.mapLoc, h.severity, h.message, hf _ _ h.loc]

theorem Object.mapLoc_id (o : Object) : o.mapLoc id = o := by
  have hinst : Inst.mapLoc id = id := rfl
  have hrecord : Record.mapLoc id = id := by
    funext r
    simp [Record.mapLoc, hinst]
  simp [Object.mapLoc, hrecord]

end

namespace Verdict

variable {ops ops' : List Operand}

theorem fits_alike {op op' : Operand} (h : op.Alike L op') (cls : OperandClass) :
    cls.fits op = cls.fits op' := by
  obtain ⟨value, first, last⟩ := op
  obtain ⟨value', first', last'⟩ := op'
  obtain rfl : value = value' := h.value
  rfl

theorem misfit_alike (h : List.Forall₂ (Operand.Alike L) ops ops') (i : Nat)
    (classes : List OperandClass) : misfit i classes ops = misfit i classes ops' := by
  induction h generalizing i classes
  case nil => rfl
  case cons hop _ ih =>
    cases classes
    case nil              => rfl
    case cons cls classes => simp only [misfit, fits_alike hop, ih]

theorem toArg?_alike (h : List.Forall₂ (Operand.Alike L) ops ops') :
    ops.filterMap Operand.toArg? = ops'.filterMap Operand.toArg? := by
  induction h
  case nil           => rfl
  case cons hop _ ih => simp only [List.filterMap_cons, Operand.toArg?, hop.value, ih]

theorem select_alike (h : List.Forall₂ (Operand.Alike L) ops ops') (available : List Feature)
    (missing : Option (List Feature)) (best : Option Misfit) (es : List Entry) :
    select available ops missing best es = select available ops' missing best es := by
  induction es generalizing missing best
  case nil          => rfl
  case cons e es ih => simp only [select, misfit_alike h, toArg?_alike h, ih]

theorem ofOperands_alike (h : List.Forall₂ (Operand.Alike L) ops ops')
    (available : List Feature) : ofOperands available ops = ofOperands available ops' := by
  cases h
  case nil           => rfl
  case cons hop hops =>
    simp only [ofOperands, byForms, Operand.getToken, hop.value, select_alike hops]

theorem getElem?_alike (h : List.Forall₂ (Operand.Alike L) ops ops') (n : Nat) :
    Option.Rel (Operand.Alike L) ops[n]? ops'[n]? := by
  induction h generalizing n
  case nil => exact .none
  case cons hop _ ih =>
    cases n
    case zero   => exact .some hop
    case succ n => exact ih n

theorem operandAt_alike (h : List.Forall₂ (Operand.Alike L) ops ops') (i : Int) :
    Outcomes (Failure.Alike L) (Operand.Alike L) (operandAt ops i) (operandAt ops' i) := by
  unfold operandAt
  rw [← h.length_eq]
  dsimp only
  generalize (if i < 0 then i + (ops.length : Int) else i) = j
  by_cases hj : j < 0
  case pos =>
    simp only [hj, ↓reduceIte]
    exact .error .breach
  case neg =>
    simp only [hj, ↓reduceIte]
    have hget := getElem?_alike h j.toNat
    generalize ops[j.toNat]? = x at *
    generalize ops'[j.toNat]? = y at *
    cases hget
    case none     => exact .error .breach
    case some hop => exact .ok hop

theorem resolve_alike (h : List.Forall₂ (Operand.Alike L) ops ops') (available : List Feature)
    {l l' : Loc} (hl : L l l') (v : Verdict) :
    Outcomes (Failure.Alike L) (Inst.Alike (Placed L)) (resolve available ops l v)
      (resolve available ops' l' v) := by
  cases v
  case success => exact .ok ⟨rfl, rfl, .mk hl⟩
  case missingFeature missing =>
    simp only [resolve]
    split
    case isTrue  => exact .error .breach
    case isFalse => exact .error (.error (Error.alike_place hl _))
  case unknownMnemonic =>
    have hat := operandAt_alike h 0
    rw [resolve, resolve]
    generalize operandAt ops 0 = x at *
    generalize operandAt ops' 0 = y at *
    cases hat
    case error hf => exact .error hf
    case ok op op' hop =>
      simp only [bind, Except.bind, Operand.getToken, hop.value]
      split
      case h_1 => exact .error (.error (Error.alike_place hl _))
      case h_2 => exact .error .breach
  case rejected reason index =>
    cases index
    case none =>
      simp only [resolve]
      split
      case isTrue  => exact .error (.error (Error.alike_place hl _))
      case isFalse => exact .error (.error (Error.alike_place hl _))
    case some i =>
      have hat := operandAt_alike h i
      simp only [resolve, ← h.length_eq]
      split
      case isTrue  => exact .error (.error (Error.alike_place hl _))
      case isFalse =>
        generalize operandAt ops i = x at *
        generalize operandAt ops' i = y at *
        cases hat
        case error hf => exact .error hf
        case ok hop   => exact .error (.error ⟨rfl, hop.first⟩)

end Verdict

namespace Session

theorem emitOperands_outcomes {R : Session → Session → Prop} {s t : Session}
    {ops ops' : List Operand} (hops : List.Forall₂ (Operand.Alike L) ops ops') {l l' : Loc}
    (hl : L l l') (havailable : s.available = t.available)
    (hemit : ∀ i j : Inst, i.Alike (Placed L) j →
      Outcomes (Failure.Alike L) R (s.emitInstruction i) (t.emitInstruction j)) :
    Outcomes (Failure.Alike L) (fun x y => R x.2 y.2) (s.emitOperands ops l)
      (t.emitOperands ops' l') := by
  unfold emitOperands
  rw [← Verdict.ofOperands_alike hops, ← havailable]
  split
  case h_2 => exact .error .breach
  case h_1 v _ =>
    have hresolve := Verdict.resolve_alike hops s.available hl v
    unfold settle
    rw [← havailable]
    generalize v.resolve s.available ops l = x at *
    generalize v.resolve s.available ops' l' = y at *
    cases hresolve
    case error hf => exact .error hf
    case ok i j hi =>
      have houtcomes := hemit i j hi
      simp only [bind, Except.bind]
      generalize s.emitInstruction i = x at *
      generalize t.emitInstruction j = y at *
      cases houtcomes
      case ok hs    => exact .ok hs
      case error hf => exact .error hf

-- `ds` and `es` are the diagnostics from before the two runs began.
structure Alike (L : Loc → Loc → Prop) (K : Option Loc → Option Loc → Prop)
    (ds es : List Diagnostic) (s t : Session) : Prop where
  cpu         : s.cpu = t.cpu
  available   : s.available = t.available
  object      : s.object.Alike K t.object
  diagnostics : ∃ new new', s.diagnostics = ds ++ new ∧ t.diagnostics = es ++ new' ∧
    List.Forall₂ (Diagnostic.Alike L) new new'

namespace Alike

variable {ds es : List Diagnostic} {s t : Session}

theorem refl (hK : ∀ l, K l l) (s : Session) : Alike L K s.diagnostics s.diagnostics s s :=
  ⟨rfl, rfl, .refl hK _, [], [], by simp, by simp, .nil⟩

theorem setObject (h : Alike L K ds es s t) {o p : Object} (ho : o.Alike K p) :
    Alike L K ds es (s.setObject o) (t.setObject p) :=
  ⟨h.cpu, h.available, ho, h.diagnostics⟩

theorem note (h : Alike L K ds es s t) (level level' : Level) (message message' : String) :
    Alike L K ds es (s.note level message) (t.note level' message') :=
  ⟨h.cpu, h.available, h.object, h.diagnostics⟩

theorem report (h : Alike L K ds es s t) {d d' : Diagnostic} (hd : Diagnostic.Alike L d d') :
    Alike L K ds es (s.report d) (t.report d') := by
  obtain ⟨new, new', hs, ht, hnew⟩ := h.diagnostics
  refine ⟨h.cpu, h.available, h.object, new ++ [d], new' ++ [d'], ?_, ?_,
    List.rel_append hnew (.cons hd .nil)⟩
  case refine_1 => simp [Session.report, hs]
  case refine_2 => simp [Session.report, ht]

theorem append (h : Alike L K ds es s t) {r q : Record} (hr : r.Alike K q) :
    Alike L K ds es (s.append r) (t.append q) := by
  have hset := h.setObject (h.object.append hr)
  simp only [Session.append]
  split <;> split <;> exact ⟨hset.cpu, hset.available, hset.object, hset.diagnostics⟩

theorem emitInstruction (h : Alike L K ds es s t) {i j : Inst} (hi : i.Alike (Placed L) j)
    (hK : ∀ a b, Placed L a b → K a b) :
    Outcomes (Failure.Alike L) (Alike L K ds es) (s.emitInstruction i) (t.emitInstruction j) := by
  have hrecord := h.object.instructionRecord ⟨hi.opcode, hi.args, hK _ _ hi.loc⟩ hi.loc
  unfold Session.emitInstruction
  generalize s.object.instructionRecord i = x at *
  generalize t.object.instructionRecord j = y at *
  cases hrecord
  case ok hr    => exact .ok (h.append hr)
  case error hf => exact .error hf

theorem emitOperands (h : Alike L K ds es s t) {ops ops' : List Operand}
    (hops : List.Forall₂ (Operand.Alike L) ops ops') {l l' : Loc} (hl : L l l')
    (hK : ∀ a b, Placed L a b → K a b) :
    Outcomes (Failure.Alike L) (fun x y => Alike L K ds es x.2 y.2) (s.emitOperands ops l)
      (t.emitOperands ops' l') :=
  emitOperands_outcomes hops hl h.available fun _ _ hi => h.emitInstruction hi hK

end Alike

theorem simulation_alike (hK : ∀ a b, Placed L a b → K a b) (ds es : List Diagnostic) :
    Simulation L (Alike L K ds es) where
  note h         := h.note _ _ _ _
  source h       := ⟨h.cpu, h.available, h.object, h.diagnostics⟩
  report hd h    := h.report hd
  switch sect h  := ⟨h.cpu, h.available, { h.object with current := rfl }, h.diagnostics⟩
  global name h  := h.setObject (h.object.global name)
  require88110 h := ⟨rfl, rfl, { h.object with requires88110 := rfl }, h.diagnostics⟩
  label name hl h := by
    rename_i s t l l'
    have hlabel := h.object.label name hl
    unfold Session.label
    generalize s.object.label name (some l) = x at *
    generalize t.object.label name (some l') = y at *
    cases hlabel
    case ok ho    => exact .ok ((h.setObject ho).note _ _ _ _)
    case error he => exact .error he
  align alignment hl h := by
    rename_i s t l l'
    have halign := h.object.align alignment hl
    unfold Session.align
    generalize s.object.align alignment (some l) = x at *
    generalize t.object.align alignment (some l') = y at *
    cases halign
    case ok ho    => exact .ok (h.setObject ho)
    case error he => exact .error he
  word e hl h := by
    rename_i s t l l'
    have hword := h.object.wordRecord e hl hK
    unfold emitWord
    generalize s.object.wordRecord e (some l) = x at *
    generalize t.object.wordRecord e (some l') = y at *
    cases hword
    case ok hr    => exact .ok (h.append hr)
    case error he => exact .error he
  operands hops hl h := h.emitOperands hops hl hK

end Session

end Asm88000
