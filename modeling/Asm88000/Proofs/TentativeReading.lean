import Asm88000.Proofs.OperandParser

namespace Asm88000

structure Scan.Retains (s t : Scan) : Prop where
  operands : t.operands = s.operands
  warnings : t.warnings = s.warnings

-- What a trial leaves. Without a match that is the scan itself, and a match adds operands.
inductive Scan.Tried (s : Scan) : Bool → Scan → Prop
  | unmatched : Tried s false s
  | matched {t : Scan} :
    s.operands <+: t.operands → s.operands.length < t.operands.length → Tried s true t

namespace OperandM

theorem ensures_ofTokens_iff {α : Type} {p : TokenM α} {s : Scan} {Q : α → Scan → Prop}
    {E : Failure → Scan → Prop} :
    Ensures (ofTokens p) s Q E ↔ Ensures p s.cursor (fun a c => Q a { s with cursor := c })
      fun e c => E (.error e) { s with cursor := c } := by
  cases hp : p s.cursor <;> simp only [Ensures, ofTokens, hp]

-- On any scan, the reader finds its notation just if it begins at the current token, and only there
-- can it fail.
def Tries (p : OperandM Bool) (begins : Lexeme → Bool) : Prop :=
  ∀ s, Ensures p s (fun b t => b = begins s.cursor.current.lexeme ∧ s.Tried b t)
    fun _ t => begins s.cursor.current.lexeme ∧ s.Retains t

end OperandM

namespace SlotReader

open OperandM

def begins : SlotReader → Lexeme → Bool
  | bitfieldWidth, .integer _ _ => true
  | bitfieldWidth, l            => l = .punct .less
  | bitfieldOffset, l           => l = .punct .less
  | pixelRotation, l            => l = .punct .less
  | conditionCode, l            => (conditionCode? l).isSome
  | displacement16, l           => l.startsExpr
  | displacement26, l           => l.startsExpr

theorem readBitfieldWidth_tries : Tries readBitfieldWidth bitfieldWidth.begins := by
  intro s
  rw [readBitfieldWidth, ensures_bind, ensures_cursor]
  dsimp only
  split
  case h_1 v h =>
    rw [h]
    simp only [ensures_bind, ensures_skip, ensures_cursor]
    split
    case isTrue  => exact ⟨rfl, .matched (by simp) (by simp)⟩
    case isFalse => exact ⟨rfl, .matched (by simp) (by simp)⟩
  case h_2 h =>
    rw [h]
    exact ⟨rfl, .matched (by simp) (by simp)⟩
  case h_3 hinteger hless =>
    refine ⟨?_, .unmatched⟩
    unfold begins
    split <;> simp_all

theorem readBracketed_retains (missing unclosed : Fault) (s : Scan) :
    Ensures (readBracketed missing unclosed) s (fun _ t => s.Retains t) fun _ t => s.Retains t := by
  simp only [readBracketed, ensures_bind, ensures_skip, ensures_cursor]
  split
  case h_2 => exact ⟨rfl, rfl⟩
  case h_1 =>
    simp only [ensures_bind, ensures_skip, ensures_cursor]
    split
    case isFalse => exact ⟨rfl, rfl⟩
    case isTrue  => exact ⟨rfl, rfl⟩

theorem readBitfieldOffset_tries : Tries readBitfieldOffset bitfieldOffset.begins := by
  intro s
  rw [readBitfieldOffset, ensures_bind, ensures_cursor]
  split
  case isFalse hless => exact ⟨by simpa [begins, Cursor.sees] using hless, .unmatched⟩
  case isTrue hless =>
    have hbegins : bitfieldOffset.begins s.cursor.current.lexeme := hless
    refine (readBracketed_retains _ _ s).bind (fun p t ht => ?_) fun _ _ ht => ⟨hbegins, ht⟩
    refine ⟨hbegins.symm, ?_⟩
    exact .matched (by simp [ht.operands]) (by simp [ht.operands])

theorem readPixelRotation_tries : Tries readPixelRotation pixelRotation.begins := by
  intro s
  rw [readPixelRotation, ensures_bind, ensures_cursor]
  split
  case isFalse hless => exact ⟨by simpa [begins, Cursor.sees] using hless, .unmatched⟩
  case isTrue hless =>
    have hbegins : pixelRotation.begins s.cursor.current.lexeme := hless
    refine (readBracketed_retains _ _ s).bind (fun p t ht => ?_) fun _ _ ht => ⟨hbegins, ht⟩
    dsimp only
    split
    case isTrue  => exact ⟨hbegins.symm, .matched (by simp [ht.operands]) (by simp [ht.operands])⟩
    case isFalse => exact ⟨hbegins.symm, .matched (by simp [ht.operands]) (by simp [ht.operands])⟩

theorem readConditionCode_tries : Tries readConditionCode conditionCode.begins := by
  intro s
  rw [readConditionCode, ensures_bind, ensures_cursor]
  dsimp only
  split
  case h_1 code h => exact ⟨by simp [begins, h], .matched (by simp) (by simp)⟩
  case h_2 h      => exact ⟨by simp [begins, h], .unmatched⟩

theorem readDisplacement_tries (bits : Nat) : Tries (readDisplacement bits) Lexeme.startsExpr := by
  intro s
  rw [readDisplacement, ensures_bind, ensures_cursor, ensures_bind, ensures_ofTokens_iff]
  refine (Expr.parse_starts s.cursor).mono (fun o d hparse => ?_) fun _ _ hstarts => ?_
  case refine_2 => exact ⟨hstarts, rfl, rfl⟩
  obtain ⟨hstarts, hnone⟩ := hparse
  cases o
  case none =>
    obtain rfl := hnone rfl
    exact ⟨hstarts, .unmatched⟩
  case some e =>
    dsimp only
    split
    case isTrue  => exact ⟨hstarts.symm, rfl, rfl⟩
    case isFalse => exact ⟨hstarts, .matched (by simp) (by simp)⟩

theorem read_tries (r : SlotReader) : Tries r.read r.begins := by
  cases r
  case bitfieldWidth  => exact readBitfieldWidth_tries
  case bitfieldOffset => exact readBitfieldOffset_tries
  case pixelRotation  => exact readPixelRotation_tries
  case conditionCode  => exact readConditionCode_tries
  case displacement16 => exact readDisplacement_tries 18
  case displacement26 => exact readDisplacement_tries 28

end SlotReader

open OperandM

theorem RegisterRef.parse?_tries (s : Scan) :
    Ensures (ofTokens parse?) s
      (fun o t => o = at? s.cursor ∧ s.Retains t ∧ (o = none → t = s)) fun _ _ => False := by
  rw [ensures_ofTokens_iff]
  cases h : at? s.cursor
  case none   => exact .of_ok (parse?_of_none h) ⟨rfl, ⟨rfl, rfl⟩, fun _ => rfl⟩
  case some r => exact .of_ok (parse?_of_some h) ⟨rfl, ⟨rfl, rfl⟩, fun hr => by cases hr⟩

theorem Operand.parseScaled_tries (s : Scan) :
    Ensures parseScaled s
      (fun b t => if b then ∃ r : RegisterRef, ∃ left right, t.operands =
        s.operands ++ [.token "[" left, r.operand, .token "]" right] else s.Retains t)
      fun _ t => s.Retains t := by
  rw [parseScaled, ensures_bind, ensures_cursor]
  split
  case isFalse => exact ⟨rfl, rfl⟩
  case isTrue =>
    rw [ensures_bind, ensures_skip, ensures_bind]
    refine ensures_ofTokens (fun r c _ => ?_) fun _ _ => ⟨rfl, rfl⟩
    rw [ensures_bind, ensures_cursor]
    split
    case isFalse => exact ⟨rfl, rfl⟩
    case isTrue  => exact ⟨r, s.cursor.loc, c.loc, by simp⟩

-- Whatever the tokens and operands are, a reader that finds no match leaves all of them as they
-- were and reports nothing. If it fails there is no more operand and no more warning than before.
theorem unmatched_leaves_no_trace (s : Scan) :
    (∀ r : SlotReader, Ensures r.read s
      (fun b t => b = r.begins s.cursor.current.lexeme ∧ s.Tried b t)
      fun _ t => r.begins s.cursor.current.lexeme ∧ s.Retains t) ∧
    Ensures (ofTokens RegisterRef.parse?) s
      (fun o t => o = RegisterRef.at? s.cursor ∧ s.Retains t ∧ (o = none → t = s))
      (fun _ _ => False) ∧
    Ensures Operand.parseScaled s
      (fun b t => if b then ∃ r : RegisterRef, ∃ left right, t.operands =
        s.operands ++ [.token "[" left, r.operand, .token "]" right] else s.Retains t)
      fun _ t => s.Retains t :=
  ⟨fun r => r.read_tries s, RegisterRef.parse?_tries s, Operand.parseScaled_tries s⟩

end Asm88000
