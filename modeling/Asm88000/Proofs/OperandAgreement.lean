import Asm88000.Proofs.Agreement
import Asm88000.Proofs.OperandParser

namespace Asm88000

variable {L : Loc → Loc → Prop}

theorem Diagnostic.alike_droppedBits {l m : Loc} (h : L l m) :
    Diagnostic.Alike L (.droppedBits l) (.droppedBits m) :=
  ⟨rfl, rfl, .mk h⟩

structure Operand.Alike (L : Loc → Loc → Prop) (op op' : Operand) : Prop where
  value : op.value = op'.value
  first : Placed L op.first op'.first
  last  : Placed L op.last op'.last

namespace Operand

variable {l l' m m' : Loc}

theorem alike_token (text : String) (h : L l l') : Alike L (token text l) (token text l') :=
  ⟨rfl, .mk h, .mk h⟩

theorem alike_immediate (e : Expr) (hl : L l l') (hm : L m m') :
    Alike L (immediate e l m) (immediate e l' m') :=
  ⟨rfl, .mk hl, .mk hm⟩

theorem alike_register {r q : RegisterRef} (h : r.Alike L q) : r.operand.Alike L q.operand :=
  ⟨by simp [RegisterRef.operand, register, h.register], .mk h.first, .mk h.last⟩

end Operand

inductive Failure.Alike (L : Loc → Loc → Prop) : Failure → Failure → Prop
  | error {e f : Error} : e.Alike L f → Alike L (.error e) (.error f)
  | breach {b b' : Breach} : Alike L (.breach b) (.breach b')

structure Scan.Alike (L : Loc → Loc → Prop) (s t : Scan) : Prop where
  cursor   : s.cursor.Alike L t.cursor
  operands : List.Forall₂ (Operand.Alike L) s.operands t.operands
  warnings : List.Forall₂ (Diagnostic.Alike L) s.warnings t.warnings

namespace OperandM

open Pairing

def alike (L : Loc → Loc → Prop) : Pairing Failure Scan where
  state  := Scan.Alike L
  failed := fun f s g t => f.Alike L g ∧ List.Forall₂ (Diagnostic.Alike L) s.warnings t.warnings

variable {α : Type} {A : α → α → Prop} {s t : Scan}

theorem meets_cursor {f g : Cursor → OperandM α} :
    (alike L).Meets A (cursor >>= f) s (cursor >>= g) t ↔
      (alike L).Meets A (f s.cursor) s (g t.cursor) t :=
  .rfl

theorem meets_skip {f g : Unit → OperandM α} (h : s.Alike L t)
    (hp : s.cursor.sees .percent = false) (hf : (alike L).Agrees A (f ()) (g ())) :
    (alike L).Meets A (skip >>= f) s (skip >>= g) t :=
  hf _ _ ⟨h.cursor.advance hp, h.operands, h.warnings⟩

theorem push_agrees {op op' : Operand} (h : op.Alike L op') :
    (alike L).Agrees Eq (push op) (push op') :=
  fun _ _ hs => .ok rfl ⟨hs.cursor, List.rel_append hs.operands (.cons h .nil), hs.warnings⟩

theorem warn_agrees {w w' : Diagnostic} (h : w.Alike L w') :
    (alike L).Agrees Eq (warn w) (warn w') :=
  fun _ _ hs => .ok rfl ⟨hs.cursor, hs.operands, List.rel_append hs.warnings (.cons h .nil)⟩

theorem fail_agrees {l l' : Loc} (h : L l l') (f : Fault) :
    (alike L).Agrees A (fail f l) (fail f l') :=
  fun _ _ hs => .error ⟨.error (Error.alike_place h f), hs.warnings⟩

theorem failHere_agrees (f : Fault) : (alike L).Agrees A (failHere f) (failHere f) :=
  fun s t hs => fail_agrees hs.cursor.loc f s t hs

theorem ofTokens_agrees {p q : TokenM α} (h : (TokenM.alike L).Agrees A p q) :
    (alike L).Agrees A (ofTokens p) (ofTokens q) := by
  intro s t hs
  have hresults : (TokenM.alike L).Results A (p s.cursor) (q t.cursor) := h _ _ hs.cursor
  unfold Meets ofTokens
  generalize p s.cursor = x at hresults
  generalize q t.cursor = y at hresults
  cases hresults
  case ok ha hc => exact .ok ha ⟨hc, hs.operands, hs.warnings⟩
  case error he => exact .error ⟨.error he, hs.warnings⟩

theorem pushImmediate_agrees (e : Expr) {l l' m m' : Loc} (hl : L l l') (hm : L m m') :
    (alike L).Agrees Eq (push (.immediate e l m)) (push (.immediate e l' m')) :=
  push_agrees (Operand.alike_immediate e hl hm)

theorem pushToken_agrees (text : String) {l l' : Loc} (h : L l l') :
    (alike L).Agrees Eq (push (.token text l)) (push (.token text l')) :=
  push_agrees (Operand.alike_token text h)

end OperandM

namespace SlotReader

open Pairing OperandM

theorem readBitfieldWidth_agrees : (alike L).Agrees Eq readBitfieldWidth readBitfieldWidth := by
  intro s t h
  have hloc := h.cursor.loc
  obtain ⟨hl, _⟩ := h.cursor.current
  rw [readBitfieldWidth, meets_cursor]
  dsimp only
  generalize hls : s.cursor.current.lexeme = l at hl
  generalize hlt : t.cursor.current.lexeme = m at hl
  cases hl
  case integer =>
    refine meets_skip h (Cursor.sees_percent_eq_false hls (by simp)) fun s t h => ?_
    rw [meets_cursor, ← h.cursor.sees]
    split
    case isTrue => exact (pushImmediate_agrees _ hloc hloc).bind_eq (fun _ => .pure rfl) s t h
    case isFalse =>
      refine (pushImmediate_agrees _ hloc hloc).bind_eq (fun _ => ?_) s t h
      refine (pushToken_agrees _ h.cursor.loc).bind_eq fun _ => ?_
      refine (pushImmediate_agrees _ hloc hloc).bind_eq fun _ => ?_
      exact (pushToken_agrees _ h.cursor.loc).bind_eq fun _ => .pure rfl
  case other hother =>
    split
    case h_1 => exact (hother _ _ rfl).elim
    case h_2 => exact (pushImmediate_agrees _ hloc hloc).bind_eq (fun _ => .pure rfl) s t h
    case h_3 => exact .pure rfl h

theorem readBracketed_agrees {s t : Scan} (h : s.Alike L t) (hs : s.cursor.sees .less)
    (missing unclosed : Fault) :
    (alike L).Meets (fun v w => v.1 = w.1 ∧ L v.2 w.2) (readBracketed missing unclosed) s
      (readBracketed missing unclosed) t := by
  refine meets_skip h (Cursor.sees_percent_of_sees hs (by simp)) fun s t h => ?_
  obtain ⟨hl, _⟩ := h.cursor.current
  rw [meets_cursor]
  generalize hls : s.cursor.current.lexeme = l at hl
  generalize hlt : t.cursor.current.lexeme = m at hl
  cases hl
  case integer =>
    refine meets_skip h (Cursor.sees_percent_eq_false hls (by simp)) fun s t h => ?_
    rw [meets_cursor, ← h.cursor.sees]
    split
    case isTrue hs =>
      exact meets_skip h (Cursor.sees_percent_of_sees hs (by simp)) (.pure ⟨rfl, h.cursor.loc⟩)
    case isFalse => exact failHere_agrees unclosed s t h
  case other hother =>
    split
    case h_1 => exact (hother _ _ rfl).elim
    case h_2 => exact failHere_agrees missing s t h

theorem readBitfieldOffset_agrees : (alike L).Agrees Eq readBitfieldOffset readBitfieldOffset := by
  intro s t h
  rw [readBitfieldOffset, meets_cursor, ← h.cursor.sees]
  split
  case isFalse => exact .pure rfl h
  case isTrue hs =>
    refine (readBracketed_agrees h hs _ _).bind fun v w hvw => ?_
    obtain ⟨v, close⟩ := v
    obtain ⟨w, close'⟩ := w
    obtain ⟨rfl, hclose⟩ := hvw
    refine (pushImmediate_agrees _ h.cursor.loc hclose).bind_eq fun _ => ?_
    exact (pushToken_agrees _ hclose).bind_eq fun _ => .pure rfl

theorem readPixelRotation_agrees : (alike L).Agrees Eq readPixelRotation readPixelRotation := by
  intro s t h
  rw [readPixelRotation, meets_cursor, ← h.cursor.sees]
  split
  case isFalse => exact .pure rfl h
  case isTrue hs =>
    refine (readBracketed_agrees h hs _ _).bind fun v w hvw => ?_
    obtain ⟨v, close⟩ := v
    obtain ⟨w, close'⟩ := w
    obtain ⟨rfl, hclose⟩ := hvw
    have hpush := pushImmediate_agrees (.const (v - v % 4 : Nat)) h.cursor.loc hclose
    dsimp only
    split
    case isTrue =>
      refine (warn_agrees (Diagnostic.alike_droppedBits h.cursor.loc)).bind_eq fun _ => ?_
      exact hpush.bind_eq fun _ => .pure rfl
    case isFalse => exact hpush.bind_eq fun _ => .pure rfl

theorem conditionCode?_same {l m : Lexeme} (h : l.Same m) :
    conditionCode? l = conditionCode? m := by
  cases h <;> rfl

theorem readConditionCode_agrees : (alike L).Agrees Eq readConditionCode readConditionCode := by
  intro s t h
  obtain ⟨hl, hloc⟩ := h.cursor.current
  rw [readConditionCode, meets_cursor]
  dsimp only
  rw [← conditionCode?_same hl]
  split
  case h_2 => exact .pure rfl h
  case h_1 code hcode =>
    have hp : s.cursor.sees .percent = false := by
      rw [Cursor.sees, decide_eq_false_iff_not]
      intro hp
      rw [hp] at hcode
      cases hcode
    exact meets_skip h hp ((pushImmediate_agrees _ hloc hloc).bind_eq fun _ => .pure rfl)

theorem readDisplacement_agrees (bits : Nat) :
    (alike L).Agrees Eq (readDisplacement bits) (readDisplacement bits) := by
  intro s t h
  have hloc := h.cursor.loc
  rw [readDisplacement, meets_cursor]
  refine (ofTokens_agrees Expr.parse_agrees).bind_eq (fun o => ?_) s t h
  cases o
  case none => exact .pure rfl
  case some e =>
    dsimp only
    split
    case isTrue => exact fun s t h => .error ⟨.error (Error.alike_place hloc _), h.warnings⟩
    case isFalse =>
      intro s t h
      rw [meets_cursor]
      exact (pushImmediate_agrees e hloc h.cursor.lastLoc).bind_eq (fun _ => .pure rfl) s t h

theorem read_agrees (r : SlotReader) : (alike L).Agrees Eq r.read r.read := by
  cases r
  case bitfieldWidth  => exact readBitfieldWidth_agrees
  case bitfieldOffset => exact readBitfieldOffset_agrees
  case pixelRotation  => exact readPixelRotation_agrees
  case conditionCode  => exact readConditionCode_agrees
  case displacement16 => exact readDisplacement_agrees 18
  case displacement26 => exact readDisplacement_agrees 28

theorem readAny_agrees (rs : List SlotReader) : (alike L).Agrees Eq (readAny rs) (readAny rs) := by
  induction rs
  case nil => exact .pure rfl
  case cons r rs ih =>
    refine (read_agrees r).bind_eq fun b => ?_
    split
    · exact .pure rfl
    · exact ih

end SlotReader

namespace Operand

open Pairing OperandM

theorem parse_agrees (mnemonic : String) :
    (alike L).Agrees Eq (parse mnemonic) (parse mnemonic) := by
  intro s t h
  rw [parse, meets_get, ← h.operands.length_eq]
  split
  case h_1 => exact .error ⟨.breach, h.warnings⟩
  case h_2 readers _ =>
    refine (SlotReader.readAny_agrees readers).bind_eq (fun b => ?_) s t h
    split
    case isTrue => exact .pure rfl
    case isFalse =>
      intro s t h
      rw [meets_cursor, ← h.cursor.sees, ← h.cursor.current.left.startsExpr]
      split
      case isTrue =>
        refine (ofTokens_agrees RegisterRef.parse?_agrees).bind (fun o o' ho => ?_) s t h
        cases ho
        case none    => exact failHere_agrees _
        case some hr => exact (push_agrees (alike_register hr)).bind_eq fun _ => .pure rfl
      case isFalse =>
        have hloc := h.cursor.loc
        split
        case isFalse => exact .pure rfl h
        case isTrue =>
          refine (ofTokens_agrees Expr.parse_agrees).bind_eq (fun o => ?_) s t h
          cases o
          case none => exact .pure rfl
          case some e =>
            intro s t h
            rw [meets_cursor]
            exact (pushImmediate_agrees e hloc h.cursor.lastLoc).bind_eq (fun _ => .pure rfl) s t h

theorem expect_agrees (mnemonic : String) (f : Fault) :
    (alike L).Agrees Eq (expect mnemonic f) (expect mnemonic f) := by
  refine (parse_agrees mnemonic).bind_eq fun b => ?_
  split
  · exact failHere_agrees f
  · exact .pure rfl

theorem parseScaled_agrees : (alike L).Agrees Eq parseScaled parseScaled := by
  intro s t h
  have hloc := h.cursor.loc
  rw [parseScaled, meets_cursor, ← h.cursor.sees]
  split
  case isFalse => exact .pure rfl h
  case isTrue hs =>
    refine meets_skip h (Cursor.sees_percent_of_sees hs (by simp)) ?_
    refine (ofTokens_agrees RegisterRef.parse_agrees).bind fun r q hr s t h => ?_
    rw [meets_cursor, ← h.cursor.sees]
    split
    case isFalse => exact .pure rfl h
    case isTrue hs =>
      refine meets_skip h (Cursor.sees_percent_of_sees hs (by simp)) ?_
      refine (pushToken_agrees _ hloc).bind_eq fun _ => ?_
      refine (push_agrees (alike_register hr)).bind_eq fun _ => ?_
      exact (pushToken_agrees _ h.cursor.loc).bind_eq fun _ => .pure rfl

theorem parseThird_agrees (mnemonic : String) :
    (alike L).Agrees Eq (parseThird mnemonic) (parseThird mnemonic) := by
  intro s t h
  rw [parseThird, meets_cursor, ← h.cursor.sees]
  have hoffset : (alike L).Agrees Eq
      (do
        let c ← cursor
        if c.sees .less then
          push (.token "<" c.loc)
          expect mnemonic .expectedBitfieldOffset)
      (do
        let c ← cursor
        if c.sees .less then
          push (.token "<" c.loc)
          expect mnemonic .expectedBitfieldOffset) := by
    intro s t h
    rw [meets_cursor, ← h.cursor.sees]
    split
    · exact (pushToken_agrees _ h.cursor.loc).bind_eq (fun _ => expect_agrees mnemonic _) s t h
    · exact .pure rfl h
  have hthird := (expect_agrees (L := L) mnemonic .expectedRegisterOrImmediate).bind_eq
    fun _ => hoffset
  split
  case isTrue  => exact (pushToken_agrees _ h.cursor.loc).bind_eq (fun _ => hthird) s t h
  case isFalse => exact hthird s t h

theorem parseAll_agrees (mnemonic : String) :
    (alike L).Agrees Eq (parseAll mnemonic) (parseAll mnemonic) := by
  have hend : (alike L).Agrees Eq (do if !(← cursor).atEnd then failHere .trailingOperand)
      (do if !(← cursor).atEnd then failHere .trailingOperand) := by
    intro s t h
    rw [meets_cursor, ← h.cursor.atEnd]
    split
    · exact failHere_agrees _ s t h
    · exact .pure rfl h
  intro s t h
  rw [parseAll, meets_cursor, ← h.cursor.atEnd]
  split
  case isFalse => exact .pure rfl h
  case isTrue =>
    refine (expect_agrees mnemonic _).bind_eq (fun _ s t h => ?_) s t h
    rw [meets_cursor, ← h.cursor.sees]
    split
    case isFalse => exact hend s t h
    case isTrue hs =>
      refine meets_skip h (Cursor.sees_percent_of_sees hs (by simp)) ?_
      refine (expect_agrees mnemonic _).bind_eq fun _ s t h => ?_
      rw [meets_cursor, ← h.cursor.sees, ← h.cursor.sees]
      split
      case isTrue hs =>
        refine meets_skip h (Cursor.sees_percent_of_sees hs (by simp)) ?_
        exact (parseThird_agrees mnemonic).bind_eq fun _ => hend
      case isFalse =>
        split
        case isFalse => exact hend s t h
        case isTrue =>
          refine parseScaled_agrees.bind_eq (fun b => ?_) s t h
          split
          case isTrue  =>
            exact fun s t h => .error ⟨.error (Error.alike_place h.cursor.loc _), h.warnings⟩
          case isFalse => exact hend

end Operand

theorem Scan.alike_start {c d : Cursor} {l l' : Loc} (h : c.Alike L d) (hl : L l l')
    (mnemonic : String) : (start mnemonic l c).Alike L (start mnemonic l' d) :=
  ⟨h, .cons (Operand.alike_token mnemonic hl) .nil, .nil⟩

end Asm88000
