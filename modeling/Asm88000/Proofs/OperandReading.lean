import Asm88000.Proofs.ExprParser
import Asm88000.Proofs.OperandParser
import Asm88000.Proofs.Register

namespace Asm88000

structure Scan.Shows (s : Scan) (vs : List OperandValue) (ls : List Lexeme) : Prop where
  values   : s.operands.map Operand.value = vs
  lexemes  : s.cursor.lexemes = ls
  warnings : s.warnings = []

namespace OperandM

variable {α β : Type} {a : α} {b : β} {p : OperandM α} {f : α → OperandM β}
variable {vs vs₁ vs₂ : List OperandValue} {ls ls₁ ls₂ : List Lexeme} {l : Lexeme}

-- From the operands `vs` and the lexemes `ls` the program gets to `vs₁` and `ls₁` without a
-- warning, and its answer is `a`.
def Moves (p : OperandM α) (vs : List OperandValue) (ls : List Lexeme) (a : α)
    (vs₁ : List OperandValue) (ls₁ : List Lexeme) : Prop :=
  ∀ s : Scan, s.Shows vs ls → Ensures p s (fun b t => b = a ∧ t.Shows vs₁ ls₁) fun _ _ => False

theorem Moves.pure (vs : List OperandValue) (ls : List Lexeme) (a : α) :
    Moves (pure a) vs ls a vs ls :=
  fun _ hs => ⟨rfl, hs⟩

theorem Moves.bind (hp : Moves p vs ls a vs₁ ls₁) (hf : Moves (f a) vs₁ ls₁ b vs₂ ls₂) :
    Moves (p >>= f) vs ls b vs₂ ls₂ := by
  intro s hs
  refine (hp s hs).bind (fun a' t ht => ?_) fun _ _ => id
  obtain ⟨rfl, ht⟩ := ht
  exact hf t ht

theorem Moves.cursor {f : Cursor → OperandM α}
    (h : ∀ c : Cursor, c.lexemes = ls → Moves (f c) vs ls a vs₁ ls₁) :
    Moves (cursor >>= f) vs ls a vs₁ ls₁ :=
  fun s hs => h s.cursor hs.lexemes s hs

theorem moves_skip (hl : l ≠ .endOfStatement) : Moves skip vs (l :: ls) () vs ls :=
  fun _ hs => ⟨rfl, hs.values, Cursor.advance_lexemes hs.lexemes hl, hs.warnings⟩

theorem moves_push (op : Operand) : Moves (push op) vs ls () (vs ++ [op.value]) ls :=
  fun _ hs => ⟨rfl, by simp [hs.values], hs.lexemes, hs.warnings⟩

theorem moves_ofTokens {p : TokenM α} {rest : List Lexeme} (h : TokenM.Reads p ls rest a) :
    Moves (ofTokens p) vs (ls ++ rest) a vs rest := by
  intro s hs
  have ⟨b, c, hp, hb, hc⟩ := (h s.cursor hs.lexemes).exists_ok
  simp only [Ensures, ofTokens, hp]
  exact ⟨hb, hs.values, hc, hs.warnings⟩

end OperandM

namespace SlotReader

open OperandM Asm88000.Expr

variable {vs : List OperandValue} {ls rest : List Lexeme} {l : Lexeme}
variable {spelling : String} {v : Nat} {e : Expr}

theorem readBitfieldWidth_moves :
    Moves readBitfieldWidth vs (.integer spelling v :: .punct .less :: rest) true
      (vs ++ [.immediate (.const v)]) (.punct .less :: rest) := by
  refine .cursor fun c hc => ?_
  simp only [current_lexeme_cons hc]
  refine (moves_skip (by simp)).bind (.cursor fun c hc => ?_)
  have hsees : c.sees .less := by simp [Cursor.sees_eq, hc]
  simp only [hsees, ↓reduceIte]
  exact (moves_push _).bind (.pure _ _ true)

theorem readBracketed_moves {α : Type} {a : α} {f : Nat × Loc → OperandM α}
    {vs₁ : List OperandValue} {ls₁ : List Lexeme} {missing unclosed : Fault}
    (h : ∀ loc, Moves (f (v, loc)) vs rest a vs₁ ls₁) :
    Moves (readBracketed missing unclosed >>= f) vs
      (.punct .less :: .integer spelling v :: .punct .greater :: rest) a vs₁ ls₁ := by
  simp only [SlotReader.readBracketed, bind_assoc]
  refine (moves_skip (by simp)).bind (.cursor fun c hc => ?_)
  simp only [current_lexeme_cons hc, bind_assoc]
  refine (moves_skip (by simp)).bind (.cursor fun c hc => ?_)
  have hsees : c.sees .greater := by simp [Cursor.sees_eq, hc]
  simp only [hsees, ↓reduceIte, bind_assoc, pure_bind]
  exact (moves_skip (by simp)).bind (h c.loc)

theorem readBitfieldOffset_moves :
    Moves readBitfieldOffset vs
      (.punct .less :: .integer spelling v :: .punct .greater :: rest) true
      (vs ++ [.immediate (.const v)] ++ [.token ">"]) rest := by
  refine .cursor fun c hc => ?_
  have hsees : c.sees .less := by simp [Cursor.sees_eq, hc]
  simp only [hsees, ↓reduceIte]
  exact readBracketed_moves fun loc => (moves_push _).bind ((moves_push _).bind (.pure _ _ true))

theorem readPixelRotation_moves (h : v % 4 = 0) :
    Moves readPixelRotation vs
      (.punct .less :: .integer spelling v :: .punct .greater :: rest) true
      (vs ++ [.immediate (.const v)]) rest := by
  refine .cursor fun c hc => ?_
  have hsees : c.sees .less := by simp [Cursor.sees_eq, hc]
  simp only [hsees, ↓reduceIte]
  refine readBracketed_moves fun loc => ?_
  simp only [h, ne_eq, not_true_eq_false, ↓reduceIte, Nat.sub_zero]
  exact (moves_push _).bind (.pure _ _ true)

theorem readConditionCode_refuses (h : v ≤ 31) :
    Moves readConditionCode vs (.integer spelling v :: rest) false vs
      (.integer spelling v :: rest) := by
  refine .cursor fun c hc => ?_
  simp only [current_lexeme_cons hc, conditionCode?, h, ↓reduceIte]
  exact .pure _ _ false

theorem readConditionCode_moves (h : 31 < v) :
    Moves readConditionCode vs (.integer spelling v :: rest) true
      (vs ++ [.immediate (.const (v % 0x100000000 : Nat))]) rest := by
  refine .cursor fun c hc => ?_
  simp only [current_lexeme_cons hc, conditionCode?, Nat.not_le.mpr h, ↓reduceIte]
  exact (moves_skip (by simp)).bind ((moves_push _).bind (.pure _ _ true))

theorem readDisplacement_moves {bits : Nat} (h : Written ls e) (hrest : Closes rest)
    (hrange : badDisplacement bits e = false) :
    Moves (readDisplacement bits) vs (ls ++ rest) true (vs ++ [.immediate e]) rest := by
  refine .cursor fun c hc => (moves_ofTokens (h.parse_reads (hrest.stops ls))).bind ?_
  simp only [hrange, Bool.false_eq_true, ↓reduceIte]
  exact .cursor fun c' hc' => (moves_push _).bind (.pure _ _ true)

theorem read_refuses (r : SlotReader) (hl : l.startsExpr = false) (hless : l ≠ .punct .less) :
    Moves r.read vs (l :: ls) false vs (l :: ls) := by
  have hparse : TokenM.Reads parse [] (l :: ls) none := by
    refine .get fun c hc => ?_
    simp only [current_lexeme_cons hc, hl]
    exact .pure _ none
  have hdisplacement (bits : Nat) :
      Moves (readDisplacement bits) vs (l :: ls) false vs (l :: ls) :=
    .cursor fun c hc => (moves_ofTokens hparse).bind (.pure _ _ false)
  cases r <;> simp only [read]
  case displacement16 => exact hdisplacement 18
  case displacement26 => exact hdisplacement 28
  case bitfieldWidth | conditionCode =>
    refine .cursor fun c hc => ?_
    simp only [current_lexeme_cons hc]
    cases l
    case identifier     => cases hl
    case integer        => cases hl
    case endOfStatement => exact .pure _ _ false
    case punct p =>
      cases p
      case less => exact absurd rfl hless
      all_goals exact .pure _ _ false
  case bitfieldOffset | pixelRotation =>
    refine .cursor fun c hc => ?_
    have hsees : c.sees .less = false := by simpa [Cursor.sees_eq, hc] using hless
    simp only [hsees, Bool.false_eq_true, ↓reduceIte]
    exact .pure _ _ false

theorem readAny_refuses (rs : List SlotReader) (hl : l.startsExpr = false)
    (hless : l ≠ .punct .less) : Moves (readAny rs) vs (l :: ls) false vs (l :: ls) := by
  induction rs
  case nil          => exact .pure _ _ false
  case cons r rs ih => exact (r.read_refuses hl hless).bind ih

end SlotReader

namespace RegisterRef

open OperandM

variable {α : Type} {a : α} {r : Register} {name : String} {vs vs₁ : List OperandValue}
variable {ls₁ rest : List Lexeme}

theorem at?_eq_some {c : Cursor} (h : Register.named? name = some r)
    (hc : c.lexemes = .punct .percent :: .identifier name :: rest) :
    at? c = some ⟨r, c.loc, (c.peek 1).loc⟩ := by
  have hsees : c.sees .percent := by simp [Cursor.sees_eq, hc]
  have hname : (c.peek 1).lexeme = .identifier name := by simp [Cursor.peek_lexeme, hc]
  simp [at?, hsees, hname, h]

theorem advance_advance_lexemes {c : Cursor}
    (hc : c.lexemes = .punct .percent :: .identifier name :: rest) :
    c.advance.advance.lexemes = rest :=
  Cursor.advance_lexemes (Cursor.advance_lexemes hc (by simp)) (by simp)

theorem parse?_moves {f : Option RegisterRef → OperandM α} (h : Register.named? name = some r)
    (hf : ∀ ref : RegisterRef, ref.register = r → Moves (f (some ref)) vs rest a vs₁ ls₁) :
    Moves (ofTokens parse? >>= f) vs (.punct .percent :: .identifier name :: rest) a vs₁ ls₁ := by
  intro s hs
  rw [ensures_bind]
  simp only [Ensures, ofTokens, parse?_of_some (at?_eq_some h hs.lexemes)]
  exact hf _ rfl _ ⟨hs.values, advance_advance_lexemes hs.lexemes, hs.warnings⟩

theorem parse_moves {f : RegisterRef → OperandM α} (h : Register.named? name = some r)
    (hf : ∀ ref : RegisterRef, ref.register = r → Moves (f ref) vs rest a vs₁ ls₁) :
    Moves (ofTokens parse >>= f) vs (.punct .percent :: .identifier name :: rest) a vs₁ ls₁ := by
  intro s hs
  rw [ensures_bind]
  simp only [Ensures, ofTokens, parse, at?_eq_some h hs.lexemes]
  exact hf _ rfl _ ⟨hs.values, advance_advance_lexemes hs.lexemes, hs.warnings⟩

theorem operand_value {ref : RegisterRef} (h : ref.register = r) :
    ref.operand.value = .register r.id := by
  simp [operand, Operand.register, h]

end RegisterRef

namespace Operand

open OperandM Asm88000.Expr

variable {mnemonic : String} {vs vs₁ : List OperandValue} {ls ls₁ rest : List Lexeme}
variable {i : Nat} {e : Expr} {r : Register} {b : Bool} {l : Lexeme}

theorem parse_moves (hvs : vs.length = i + 1)
    (h : Moves (parseWith (InstructionSet.slotReaders mnemonic i)) vs ls b vs₁ ls₁) :
    Moves (parse mnemonic) vs ls b vs₁ ls₁ := by
  intro s hs
  have hlen : s.operands.length = i + 1 := by
    rw [← hvs, ← hs.values, List.length_map]
  have hi : s.operands.length - 1 = i := by omega
  have hbegun : s.operands ≠ [] := by
    intro hnil
    simp [hnil] at hlen
  rw [ensures_parse hbegun, hi]
  exact h s hs

theorem parse_special_moves (hvs : vs.length = i + 1)
    (h : Moves (SlotReader.readAny (InstructionSet.slotReaders mnemonic i)) vs ls true vs₁ ls₁) :
    Moves (parse mnemonic) vs ls true vs₁ ls₁ := by
  refine parse_moves hvs (h.bind ?_)
  simp only [↓reduceIte]
  exact .pure _ _ true

theorem parse_register_moves {name : String} (hvs : vs.length = i + 1)
    (h : Register.named? name = some r) :
    Moves (parse mnemonic) vs (.punct .percent :: .identifier name :: rest) true
      (vs ++ [.register r.id]) rest := by
  refine parse_moves hvs ((SlotReader.readAny_refuses _ rfl (by simp)).bind
    (.cursor fun c hc => ?_))
  have hsees : c.sees .percent := by simp [Cursor.sees_eq, hc]
  simp only [hsees, ↓reduceIte]
  refine RegisterRef.parse?_moves h fun ref href => ?_
  rw [← RegisterRef.operand_value href]
  exact (moves_push _).bind (.pure _ _ true)

theorem parse_refuses (hvs : vs.length = i + 1) (hl : l.startsExpr = false)
    (hless : l ≠ .punct .less) (hpercent : l ≠ .punct .percent) :
    Moves (parse mnemonic) vs (l :: ls) false vs (l :: ls) := by
  refine parse_moves hvs ((SlotReader.readAny_refuses _ hl hless).bind (.cursor fun c hc => ?_))
  have hsees : c.sees .percent = false := by simpa [Cursor.sees_eq, hc] using hpercent
  simp only [hsees, current_lexeme_cons hc, hl, Bool.false_eq_true, ↓reduceIte]
  exact .pure _ _ false

theorem parse_expr_moves (hvs : vs.length = i + 1)
    (h : Moves (SlotReader.readAny (InstructionSet.slotReaders mnemonic i)) vs (ls ++ rest) false vs
      (ls ++ rest))
    (he : Written ls e) (hrest : Closes rest) :
    Moves (parse mnemonic) vs (ls ++ rest) true (vs ++ [.immediate e]) rest := by
  refine parse_moves hvs (h.bind (.cursor fun c hc => ?_))
  have hstart : c.current.lexeme.startsExpr := by
    rw [Cursor.current_lexeme, hc]
    exact he.headD_startsExpr rest _
  have hsees : c.sees .percent = false := by
    cases hsees : c.sees .percent
    case false => rfl
    case true =>
      rw [of_decide_eq_true hsees] at hstart
      cases hstart
  simp only [hsees, hstart, Bool.false_eq_true, ↓reduceIte]
  refine (moves_ofTokens (he.parse_reads (hrest.stops ls))).bind ?_
  exact .cursor fun c' hc' => (moves_push _).bind (.pure _ _ true)

theorem expect_moves {f : Fault} (h : Moves (parse mnemonic) vs ls true vs₁ ls₁) :
    Moves (expect mnemonic f) vs ls () vs₁ ls₁ :=
  h.bind (.pure _ _ ())

end Operand
end Asm88000
