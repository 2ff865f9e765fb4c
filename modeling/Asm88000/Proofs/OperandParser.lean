import Asm88000.Proofs.Cursor

namespace Asm88000

def Operand.IsReal (op : Operand) : Prop :=
  ∀ id, op.value = .register id → ∃ r : Register, id = r.id

namespace Operand

theorem isReal_token (text : String) (loc : Loc) : (token text loc).IsReal := by
  simp [IsReal, token]

theorem isReal_immediate (e : Expr) (first last : Loc) : (immediate e first last).IsReal := by
  simp [IsReal, immediate]

theorem isReal_register (r : RegisterRef) : r.operand.IsReal := by
  simp only [IsReal, RegisterRef.operand, register, OperandValue.register.injEq]
  exact fun _ h => ⟨r.register, h.symm⟩

end Operand

structure Scan.Extends (s t : Scan) : Prop where
  cursor   : s.cursor.LeadsTo t.cursor
  operands : ∃ ops, t.operands = s.operands ++ ops ∧ ∀ op ∈ ops, op.IsReal
  warnings : ∃ ws, t.warnings = s.warnings ++ ws ∧ ∀ w ∈ ws, w.isWarning

namespace Scan.Extends

theorem refl (s : Scan) : s.Extends s where
  cursor   := .refl _
  operands := ⟨[], by simp⟩
  warnings := ⟨[], by simp⟩

theorem trans {s t u : Scan} (h₁ : s.Extends t) (h₂ : t.Extends u) : s.Extends u where
  cursor   := h₁.cursor.trans h₂.cursor
  operands := by
    have ⟨ops₁, ht, hr₁⟩ := h₁.operands
    have ⟨ops₂, hu, hr₂⟩ := h₂.operands
    refine ⟨ops₁ ++ ops₂, by simp [ht, hu], fun op hop => ?_⟩
    exact (List.mem_append.mp hop).elim (hr₁ op) (hr₂ op)
  warnings := by
    have ⟨ws₁, ht, hw₁⟩ := h₁.warnings
    have ⟨ws₂, hu, hw₂⟩ := h₂.warnings
    refine ⟨ws₁ ++ ws₂, by simp [ht, hu], fun w hw => ?_⟩
    exact (List.mem_append.mp hw).elim (hw₁ w) (hw₂ w)

end Scan.Extends

namespace OperandM

open Discipline

variable {s : Scan}

@[simp]
theorem ensures_cursor {Q : Cursor → Scan → Prop} {E : Failure → Scan → Prop} :
    Ensures cursor s Q E ↔ Q s.cursor s :=
  .rfl

@[simp]
theorem ensures_skip {Q : Unit → Scan → Prop} {E : Failure → Scan → Prop} :
    Ensures skip s Q E ↔ Q () { s with cursor := s.cursor.advance } :=
  .rfl

theorem ensures_ofTokens {α : Type} {p : TokenM α} {Q : α → Scan → Prop}
    {E : Failure → Scan → Prop} (hq : ∀ a c, p s.cursor = .ok a c → Q a { s with cursor := c })
    (he : ∀ e c, E (.error e) { s with cursor := c }) : Ensures (ofTokens p) s Q E := by
  cases hp : p s.cursor <;> simp only [Ensures, ofTokens, hp]
  case ok a c    => exact hq a c hp
  case error e c => exact he e c

def steady : Discipline Failure Scan where
  valid s := s.operands ≠ []
  rel     := Scan.Extends
  fails f := ∃ e, f = .error e ∧ e.fault.family ≠ .general
  refl    := .refl
  trans   := .trans
  keeps   := fun hs ht => by
    have ⟨ops, h, _⟩ := ht.operands
    simp [h, hs]

theorem cursor_obeys {D : Discipline Failure Scan} : D.Obeys cursor :=
  Obeys.get.bind fun s => .pure s.cursor

theorem push_steady {op : Operand} (h : op.IsReal) : steady.Obeys (push op) :=
  .modify fun _ _ => ⟨.refl _, ⟨[op], rfl, by simpa⟩, ⟨[], by simp⟩⟩

theorem ofTokens_steady {α : Type} {p : TokenM α} (h : TokenM.forward.Obeys p) :
    steady.Obeys (ofTokens p) := by
  intro s _
  have hp := h s.cursor trivial
  unfold ofTokens
  cases hc : p s.cursor <;> simp only [Ensures, hc]
  case ok a c    => exact ⟨hp.ok hc, ⟨[], by simp⟩, ⟨[], by simp⟩⟩
  case error e c =>
    obtain ⟨hleads, hfails⟩ := hp.error hc
    exact ⟨⟨hleads, ⟨[], by simp⟩, ⟨[], by simp⟩⟩, ⟨e, rfl, hfails⟩⟩

end OperandM

-- What happens around the operands: tokens are passed, registers and tokens become operands, and
-- the text is found at fault.
structure Discipline.Lets (D : Discipline Failure Scan) : Prop where
  skip          : D.Obeys OperandM.skip
  pushToken     : ∀ text loc, D.Obeys (OperandM.push (.token text loc))
  pushRegister  : ∀ r : RegisterRef, D.Obeys (OperandM.push r.operand)
  parseRegister : D.Obeys (OperandM.ofTokens RegisterRef.parse)
  fail          : ∀ {f : Fault}, f.family ≠ .general → ∀ loc, D.fails (.error (f.place loc))

-- Besides, what happens in an operand: a constant or an expression that was read becomes one too,
-- and there can be warnings. `E` is what is known of the expressions.
structure Discipline.Reads (D : Discipline Failure Scan) (E : Expr → Prop) : Prop
    extends D.Lets where
  begun          : ∀ {s}, D.valid s → s.operands ≠ []
  const          : ∀ v, E (.const v)
  pushImmediate  : ∀ {e}, E e → ∀ first last, D.Obeys (OperandM.push (.immediate e first last))
  warn           : ∀ {w : Diagnostic}, w.isWarning → D.Obeys (OperandM.warn w)
  parseRegister? : D.Obeys (OperandM.ofTokens RegisterRef.parse?)
  parseExpr      : D.Answers (fun o => ∀ e ∈ o, E e) (OperandM.ofTokens Expr.parse)

namespace Discipline.Lets

open OperandM

variable {D : Discipline Failure Scan}

theorem failHere {α : Type} (h : D.Lets) {f : Fault} (hf : f.family ≠ .general) :
    D.Obeys (OperandM.failHere (α := α) f) :=
  cursor_obeys.bind fun _ => .throw (h.fail hf _)

end Discipline.Lets

theorem OperandM.lets_steady : steady.Lets where
  skip          := .modify fun s _ => ⟨s.cursor.leadsTo_advance, ⟨[], by simp⟩, ⟨[], by simp⟩⟩
  pushToken     := fun text loc => push_steady (Operand.isReal_token text loc)
  pushRegister  := fun r => push_steady (Operand.isReal_register r)
  parseRegister := ofTokens_steady RegisterRef.parse_forward
  fail          := fun hf _ => ⟨_, rfl, hf⟩

theorem OperandM.reads_steady : steady.Reads fun _ => True where
  toLets         := lets_steady
  begun          := id
  const _        := trivial
  pushImmediate  := fun {e} _ first last => push_steady (Operand.isReal_immediate e first last)
  warn           := fun {w} hw => .modify fun _ _ =>
    ⟨.refl _, ⟨[], by simp⟩, ⟨[w], rfl, by simpa⟩⟩
  parseRegister? := ofTokens_steady RegisterRef.parse?_forward
  parseExpr      := (ofTokens_steady Expr.parse_forward).answers fun _ _ _ => trivial

namespace SlotReader

open Discipline OperandM

variable {D : Discipline Failure Scan} {E : Expr → Prop} (h : D.Reads E)

include h

theorem readBitfieldWidth_obeys : D.Obeys readBitfieldWidth := by
  have hpush (v : Int) (first last : Loc) := h.pushImmediate (h.const v) first last
  refine cursor_obeys.bind fun c => ?_
  split
  · refine h.skip.bind fun _ => cursor_obeys.bind fun c' => ?_
    refine .ite ((hpush _ _ _).bind fun _ => .pure true) ?_
    refine (hpush _ _ _).bind fun _ => (h.pushToken _ _).bind fun _ => ?_
    exact (hpush _ _ _).bind fun _ => (h.pushToken _ _).bind fun _ => .pure true
  · exact (hpush _ _ _).bind fun _ => .pure true
  · exact .pure false

theorem readBracketed_obeys {missing unclosed : Fault} (hm : missing.family ≠ .general)
    (hu : unclosed.family ≠ .general) : D.Obeys (readBracketed missing unclosed) := by
  refine h.skip.bind fun _ => cursor_obeys.bind fun c => ?_
  split
  · refine h.skip.bind fun _ => cursor_obeys.bind fun c' => ?_
    exact .ite (h.skip.bind fun _ => .pure _) (h.failHere hu)
  · exact h.failHere hm

theorem readBitfieldOffset_obeys : D.Obeys readBitfieldOffset := by
  refine cursor_obeys.bind fun c => .ite ?_ (.pure false)
  refine (readBracketed_obeys h (by decide) (by decide)).bind fun (v, _) => ?_
  exact (h.pushImmediate (h.const v) _ _).bind fun _ => (h.pushToken _ _).bind fun _ => .pure true

theorem readPixelRotation_obeys : D.Obeys readPixelRotation := by
  refine cursor_obeys.bind fun c => .ite ?_ (.pure false)
  refine (readBracketed_obeys h (by decide) (by decide)).bind fun (v, close) => ?_
  have hpush : D.Obeys (do
      push (.immediate (.const (v - v % 4 : Nat)) c.loc close)
      return true) :=
    (h.pushImmediate (h.const _) _ _).bind fun _ => .pure true
  exact .ite ((h.warn rfl).bind fun _ => hpush) hpush

theorem readConditionCode_obeys : D.Obeys readConditionCode := by
  refine cursor_obeys.bind fun c => ?_
  dsimp only
  split
  · exact h.skip.bind fun _ => (h.pushImmediate (h.const _) _ _).bind fun _ => .pure true
  · exact .pure false

theorem readDisplacement_obeys (bits : Nat) : D.Obeys (readDisplacement bits) := by
  refine cursor_obeys.bind fun c => h.parseExpr.bind fun o ho => ?_
  split
  case _ e =>
    have hpush : D.Obeys (do
        push (.immediate e c.loc (← cursor).lastLoc)
        return true) :=
      cursor_obeys.bind fun _ => (h.pushImmediate (ho e rfl) _ _).bind fun _ => .pure true
    exact .ite ((Obeys.throw (h.fail (by decide) _)).bind fun _ => hpush) hpush
  · exact .pure false

theorem read_obeys (r : SlotReader) : D.Obeys r.read := by
  cases r
  case bitfieldWidth  => exact readBitfieldWidth_obeys h
  case bitfieldOffset => exact readBitfieldOffset_obeys h
  case pixelRotation  => exact readPixelRotation_obeys h
  case conditionCode  => exact readConditionCode_obeys h
  case displacement16 => exact readDisplacement_obeys h 18
  case displacement26 => exact readDisplacement_obeys h 28

theorem readAny_obeys (rs : List SlotReader) : D.Obeys (readAny rs) := by
  induction rs
  case nil          => exact .pure false
  case cons r rs ih => exact (read_obeys h r).bind fun _ => .ite (.pure true) ih

end SlotReader

theorem Entry.classAt_ok (e : Entry) (slot : Nat) : e.classAt slot = .ok e.classes[slot]? := by
  unfold classAt
  split
  case isTrue h  => rw [List.getElem?_eq_none (by omega)]; rfl
  case isFalse h => simp; rfl

def InstructionSet.slotReaders (mnemonic : String) (slot : Nat) : List SlotReader :=
  ((candidates mnemonic).filterMap (·.classes[slot]?.bind OperandClass.reader?)).eraseDups

theorem InstructionSet.readersAt_ok (mnemonic : String) (slot : Nat) :
    readersAt mnemonic slot = .ok (slotReaders mnemonic slot) := by
  have h (es : List Entry) :
      es.mapM (Entry.classAt · slot) = .ok (es.map (·.classes[slot]?)) := by
    induction es
    case nil          => rfl
    case cons e es ih => rw [List.mapM_cons, Entry.classAt_ok, ih]; rfl
  simp only [readersAt, slotReaders, h, bind, Except.bind, pure, Except.pure, List.filterMap_map]
  rfl

namespace Operand

open Discipline OperandM

def parseWith (readers : List SlotReader) : OperandM Bool := do
  if ← SlotReader.readAny readers then return true
  let c ← cursor
  if c.sees .percent then
    match ← ofTokens RegisterRef.parse? with
    | some r =>
      push r.operand
      return true
    | none => failHere .invalidRegister
  else if c.current.lexeme.startsExpr then
    match ← ofTokens Expr.parse with
    | some e =>
      push (.immediate e c.loc (← cursor).lastLoc)
      return true
    | none => return false
  else return false

theorem ensures_parse {mnemonic : String} {s : Scan} {Q : Bool → Scan → Prop}
    {E : Failure → Scan → Prop} (hs : s.operands ≠ []) :
    Ensures (parse mnemonic) s Q E ↔
      Ensures (parseWith (InstructionSet.slotReaders mnemonic (s.operands.length - 1))) s Q E := by
  have hlen : ((s.operands.length : Int) - 1) = (s.operands.length - 1 : Nat) := by
    have := List.length_pos_iff.mpr hs
    omega
  unfold parse
  rw [ensures_bind, ensures_get, hlen, InstructionSet.readersAt_ok]
  rfl

section

variable {D : Discipline Failure Scan} {E : Expr → Prop} (h : D.Reads E)

include h

theorem parseWith_obeys (readers : List SlotReader) : D.Obeys (parseWith readers) := by
  refine (SlotReader.readAny_obeys h _).bind fun b => .ite (.pure true) ?_
  refine cursor_obeys.bind fun c => .ite ?_ (.ite ?_ (.pure false))
  · refine h.parseRegister?.bind fun o => ?_
    split
    · exact (h.pushRegister _).bind fun _ => .pure true
    · exact h.failHere (by decide)
  · refine h.parseExpr.bind fun o ho => ?_
    split
    · exact cursor_obeys.bind fun _ => (h.pushImmediate (ho _ rfl) _ _).bind fun _ => .pure true
    · exact .pure false

theorem parse_obeys (mnemonic : String) : D.Obeys (parse mnemonic) :=
  fun s hs => (ensures_parse (h.begun hs)).mpr (parseWith_obeys h _ s hs)

end

theorem parse_steady (mnemonic : String) : steady.Obeys (parse mnemonic) :=
  parse_obeys reads_steady mnemonic

section

variable {D : Discipline Failure Scan} {mnemonic : String}

theorem expect_obeys (h : D.Lets) (hp : D.Obeys (parse mnemonic)) {f : Fault}
    (hf : f.family ≠ .general) : D.Obeys (expect mnemonic f) :=
  hp.bind fun _ => .ite (h.failHere hf) (.pure ())

theorem parseScaled_obeys (h : D.Lets) : D.Obeys parseScaled := by
  refine cursor_obeys.bind fun c => .ite ?_ (.pure false)
  refine h.skip.bind fun _ => h.parseRegister.bind fun r => ?_
  refine cursor_obeys.bind fun close => .ite ?_ (.pure false)
  refine h.skip.bind fun _ => (h.pushToken _ _).bind fun _ => (h.pushRegister r).bind fun _ => ?_
  exact (h.pushToken _ _).bind fun _ => .pure true

theorem parseThird_obeys (h : D.Lets) (hp : D.Obeys (parse mnemonic)) :
    D.Obeys (parseThird mnemonic) := by
  have hoffset : D.Obeys (do
      expect mnemonic .expectedRegisterOrImmediate
      let c ← cursor
      if c.sees .less then
        push (.token "<" c.loc)
        expect mnemonic .expectedBitfieldOffset) := by
    refine (expect_obeys h hp (by decide)).bind fun _ => cursor_obeys.bind fun c =>
      .ite ?_ (.pure ())
    exact (h.pushToken _ _).bind fun _ => expect_obeys h hp (by decide)
  exact cursor_obeys.bind fun c => .ite ((h.pushToken _ _).bind fun _ => hoffset) hoffset

theorem parseAll_obeys (h : D.Lets) (hp : D.Obeys (parse mnemonic)) :
    D.Obeys (parseAll mnemonic) := by
  have hend : D.Obeys (do if !(← cursor).atEnd then failHere .trailingOperand) :=
    cursor_obeys.bind fun c => .ite (h.failHere (by decide)) (.pure ())
  refine cursor_obeys.bind fun c => .ite ?_ (.pure ())
  refine (expect_obeys h hp (by decide)).bind fun _ => cursor_obeys.bind fun c => .ite ?_ hend
  refine h.skip.bind fun _ => (expect_obeys h hp (by decide)).bind fun _ => ?_
  refine cursor_obeys.bind fun c => .ite ?_ (.ite ?_ hend)
  · exact h.skip.bind fun _ => (parseThird_obeys h hp).bind fun _ => hend
  · refine (parseScaled_obeys h).bind fun b => .ite ?_ hend
    exact (h.failHere (by decide)).bind fun _ => hend

end

theorem parseAll_steady (mnemonic : String) : steady.Obeys (parseAll mnemonic) :=
  parseAll_obeys lets_steady (parse_steady mnemonic)

theorem parseAll_atEnd (mnemonic : String) (s : Scan) :
    Ensures (parseAll mnemonic) s (fun _ t => t.cursor.atEnd) fun _ _ => True := by
  have hend (s : Scan) : Ensures (do if !(← cursor).atEnd then failHere .trailingOperand) s
      (fun _ t => t.cursor.atEnd) fun _ _ => True := by
    simp only [cursor, bind_assoc, pure_bind, ensures_bind, ensures_get]
    split
    · exact .of_error rfl trivial
    case isFalse h => simpa using h
  simp only [parseAll, cursor, bind_assoc, pure_bind]
  rw [ensures_bind, ensures_get]
  split
  case isFalse h => simpa using h
  refine .last fun _ _ => .last fun c t => ?_
  split
  case isFalse => exact hend t
  refine .last fun _ _ => .last fun _ _ => .last fun c t => ?_
  split
  · exact .last fun _ _ => .last fun _ t => hend t
  split
  · refine .last fun b t => ?_
    split
    · exact .last fun _ t => hend t
    · exact hend t
  · exact hend t

end Operand
end Asm88000
