import Mathlib.Tactic.Common
import Asm88000.Proofs.Numeral

namespace Asm88000

namespace Lexer

variable {line : Int} {stop : Loc} {c : Char} {cs rest : List Char}

theorem scan_ok {n col : Nat} {ts : List Token} (h : scan line stop n col cs = .ok ts) :
    ∃ init, ts = init ++ [⟨.endOfStatement, stop⟩] ∧ ∀ t ∈ init, t.lexeme ≠ .endOfStatement := by
  induction n generalizing col cs ts
  case zero => exact ⟨[], by simpa [scan, eq_comm] using h, by simp⟩
  case succ n ih =>
    cases cs
    case nil => exact ⟨[], by simpa [scan, eq_comm] using h, by simp⟩
    case cons c cs =>
      -- A token in front of what the rest of the line is split into.
      have hcons {col cs t} (ht : t.lexeme ≠ .endOfStatement)
          (h : (do return t :: (← scan line stop n col cs)) = Except.ok ts) :
          ∃ init, ts = init ++ [⟨.endOfStatement, stop⟩] ∧
            ∀ t ∈ init, t.lexeme ≠ .endOfStatement := by
        cases hs : scan line stop n col cs
        case error e => simp [hs, bind, Except.bind] at h
        case ok us =>
          have ⟨init, hus, hi⟩ := ih hs
          simp only [hs, bind, Except.bind, pure, Except.pure, Except.ok.injEq] at h
          exact ⟨t :: init, by simp [← h, hus], by simpa [ht] using hi⟩
      simp only [scan] at h
      split at h
      · exact ih h
      split at h
      · exact ⟨[], by simpa [eq_comm] using h, by simp⟩
      split at h
      · split at h
        · split at h
          · cases h
          · exact hcons (by simp) h
        · exact ⟨[_], by simpa [eq_comm] using h, by simp⟩
      split at h
      · exact hcons (by simp) h
      split at h
      · exact hcons (by simp) h
      · cases h

def Ends (cs : List Char) : Prop :=
  ∀ c ∈ cs.head?, isIdentifierChar c = false

instance : Decidable (Ends cs) :=
  inferInstanceAs (Decidable (∀ c ∈ cs.head?, isIdentifierChar c = false))

def isIdentifier : List Char → Bool
  | []      => false
  | c :: cs => startsIdentifier c && cs.all isIdentifierChar

-- The characters spell the lexemes, with white space anywhere between them.
inductive Spells : List Char → List Lexeme → Prop
  | nil : Spells [] []
  | space {c cs ls} : isSpace c → Spells cs ls → Spells (c :: cs) ls
  | identifier {name cs ls} :
    isIdentifier name → Ends cs → Spells cs ls →
    Spells (name ++ cs) (.identifier (String.ofList name) :: ls)
  | integer (v : Nat) {cs ls} :
    Ends cs → Spells cs ls →
    Spells (Nat.toDigits 10 v ++ cs) (.integer (String.ofList (Nat.toDigits 10 v)) v :: ls)
  | punct (p : Punct) {cs ls} : Spells cs ls → Spells (p.toChar :: cs) (.punct p :: ls)

def Writes (cs : List Char) (ls : List Lexeme) : Prop :=
  ∀ cs' ls', Ends cs' → Spells cs' ls' → Spells (cs ++ cs') (ls ++ ls')

theorem ends_nil : Ends [] := by
  simp [Ends]

theorem ends_cons : Ends (c :: cs) ↔ isIdentifierChar c = false := by
  simp [Ends]

theorem Ends.append {cs cs' : List Char} (h : Ends cs) (h' : Ends cs') : Ends (cs ++ cs') := by
  cases cs
  case nil       => exact h'
  case cons c cs => exact ends_cons.mpr (ends_cons.mp h)

theorem ends_punct (p : Punct) (cs : List Char) : Ends (p.toChar :: cs) :=
  ends_cons.mpr (by cases p <;> decide)

namespace Writes

variable {cs cs' : List Char} {ls ls' : List Lexeme}

theorem nil : Writes [] [] :=
  fun _ _ _ hs => hs

theorem identifier {name : List Char} (h : isIdentifier name) :
    Writes name [.identifier (String.ofList name)] :=
  fun _ _ => .identifier h

theorem integer (v : Nat) :
    Writes (Nat.toDigits 10 v) [.integer (String.ofList (Nat.toDigits 10 v)) v] :=
  fun _ _ => .integer v

theorem punct (p : Punct) (h : Writes cs ls) : Writes (p.toChar :: cs) (.punct p :: ls) :=
  fun _ _ he hs => .punct p (h _ _ he hs)

theorem space {c : Char} (hc : isSpace c) (h : Writes cs ls) : Writes (c :: cs) ls :=
  fun _ _ he hs => .space hc (h _ _ he hs)

theorem append (h : Writes cs ls) (h' : Writes cs' ls') (he : Ends cs') :
    Writes (cs ++ cs') (ls ++ ls') := by
  intro ds ms hds hs
  rw [List.append_assoc, List.append_assoc]
  exact h _ _ (he.append hds) (h' _ _ hds hs)

theorem spells (h : Writes cs ls) : Spells cs ls := by
  simpa using h [] [] ends_nil .nil

end Writes

theorem isDigit_iff : c.isDigit ↔ 48 ≤ c.toNat ∧ c.toNat ≤ 57 := by
  simp [Char.isDigit, UInt32.le_iff_toNat_le]

theorem isAlpha_iff :
    c.isAlpha ↔ 65 ≤ c.toNat ∧ c.toNat ≤ 90 ∨ 97 ≤ c.toNat ∧ c.toNat ≤ 122 := by
  delta Char.isAlpha Char.isUpper Char.isLower
  simp [UInt32.le_iff_toNat_le]

theorem isDigitOf_dec (c : Char) : isDigitOf .dec c = c.isDigit := by
  unfold isDigitOf digitValue
  cases h : c.isDigit
  case true =>
    have := isDigit_iff.mp h
    simp only [Radix.base, ↓reduceIte, decide_eq_true_eq]
    omega
  case false =>
    simp only [Radix.base, Bool.false_eq_true, ↓reduceIte, decide_eq_false_iff_not]
    split
    case isTrue h =>
      simp [Char.le_def, UInt32.le_iff_toNat_le] at h
      omega
    case isFalse =>
      split
      case isTrue h =>
        simp [Char.le_def, UInt32.le_iff_toNat_le] at h
        omega
      case isFalse => omega

theorem not_isSpace_of_isIdentifierChar (h : isIdentifierChar c) : isSpace c = false := by
  by_contra hs
  simp only [isSpace, Bool.not_eq_false, Bool.or_eq_true, decide_eq_true_eq] at hs
  rcases hs with ((rfl | rfl) | rfl) | rfl <;> revert h <;> decide

theorem not_startsComment_of_isIdentifierChar (h : isIdentifierChar c) :
    startsComment c = false := by
  by_contra hs
  simp only [startsComment, Bool.not_eq_false, Bool.or_eq_true, decide_eq_true_eq] at hs
  rcases hs with rfl | rfl <;> revert h <;> decide

theorem isIdentifierChar_of_isDigit (h : c.isDigit) : isIdentifierChar c := by
  simp [isIdentifierChar, Char.isAlphanum, h]

theorem isIdentifierChar_of_startsIdentifier (h : startsIdentifier c) : isIdentifierChar c := by
  simp only [startsIdentifier, isIdentifierChar, Char.isAlphanum, Bool.or_eq_true] at h ⊢
  tauto

theorem not_isDigit_of_startsIdentifier (h : startsIdentifier c) : c.isDigit = false := by
  by_contra hd
  have hd := isDigit_iff.mp (by simpa using hd)
  simp only [startsIdentifier, Bool.or_eq_true, decide_eq_true_eq, isAlpha_iff] at h
  rcases h with ((h | rfl) | rfl) | rfl
  · omega
  all_goals revert hd; decide

theorem Ends.takeWhile_append {p : Char → Bool} {ds : List Char}
    (hp : ∀ c, p c → isIdentifierChar c)
    (h : Ends cs) (hd : ∀ d ∈ ds, p d) :
    (ds ++ cs).takeWhile p = ds ∧ (ds ++ cs).dropWhile p = cs := by
  rw [List.takeWhile_append_of_pos hd, List.dropWhile_append_of_pos hd]
  cases cs
  case nil       => simp
  case cons c cs =>
    have hc : p c = false := by
      by_contra hc
      have := h c rfl
      simp [hp c (by simpa using hc)] at this
    simp [hc]

theorem Radix.mark?_eq_some {r : Radix} (h : Radix.mark? c = some r) :
    isIdentifierChar c ∧ c.isDigit = false := by
  unfold Radix.mark? at h
  split at h
  case h_7 => cases h
  all_goals decide

theorem literal_eq_decimalLiteral {ds : List Char} (hd : ∀ d ∈ ds, d.isDigit) (h : Ends cs) :
    literal (ds ++ cs) = decimalLiteral (ds ++ cs) := by
  unfold literal
  split
  case h_1 m tail heq =>
    cases hm : Radix.mark? m
    case none => simp [heq]
    case some r =>
      exfalso
      have ⟨hi, hn⟩ := Radix.mark?_eq_some hm
      match ds, heq with
      | [], heq          => exact absurd (h '0' (by simp at heq; simp [heq])) (by decide)
      | [_], heq         => exact absurd (h m (by simp_all)) (by simp [hi])
      | _ :: d :: _, heq => exact absurd (hd m (by simp_all)) (by simp [hn])
  case h_2 => rfl

theorem literal_toDigits (v : Nat) (h : Ends cs) :
    literal (Nat.toDigits 10 v ++ cs) = ⟨Nat.toDigits 10 v, v, cs⟩ := by
  have hd : ∀ d ∈ Nat.toDigits 10 v, d.isDigit :=
    fun d => Nat.isDigit_of_mem_toDigits (by decide) (by decide)
  have hv : digitsValue .dec (Nat.toDigits 10 v) = v := by
    simpa [Radix.base] using digitsValue_map_toDigits .dec id digitValue_digitChar v
  have ⟨ht, hr⟩ := h.takeWhile_append (p := isDigitOf .dec)
    (fun c hc => isIdentifierChar_of_isDigit (isDigitOf_dec c ▸ hc))
    (fun d hm => isDigitOf_dec d ▸ hd d hm)
  rw [literal_eq_decimalLiteral hd h, decimalLiteral, ht, hr, hv]

theorem Punct.ofChar?_toChar (p : Punct) : Punct.ofChar? p.toChar = some p := by
  cases p <;> decide

theorem Punct.toChar_special (p : Punct) :
    isSpace p.toChar = false ∧ startsComment p.toChar = false ∧ p.toChar.isDigit = false ∧
      startsIdentifier p.toChar = false := by
  cases p <;> decide

theorem scan_nil (n col : Nat) : scan line stop n col [] = .ok [⟨.endOfStatement, stop⟩] := by
  cases n <;> rfl

theorem scan_identifier {name : List Char} (hi : isIdentifier name) (he : Ends cs) (n col : Nat) :
    scan line stop (n + 1) col (name ++ cs) =
      (⟨.identifier (String.ofList name), ⟨line, col⟩⟩ :: ·) <$>
        scan line stop n (col + name.length) cs := by
  cases name
  case nil => simp [isIdentifier] at hi
  case cons c name =>
    simp only [isIdentifier, Bool.and_eq_true, List.all_eq_true] at hi
    have ⟨hc, hname⟩ := hi
    have hic := isIdentifierChar_of_startsIdentifier hc
    have ⟨htake, hdrop⟩ := he.takeWhile_append (fun _ => id) hname
    rw [List.cons_append, scan, htake, hdrop]
    simp [not_isSpace_of_isIdentifierChar hic, not_startsComment_of_isIdentifierChar hic,
      not_isDigit_of_startsIdentifier hc, hc]

theorem scan_integer (v : Nat) (he : Ends cs) (n col : Nat) :
    scan line stop (n + 1) col (Nat.toDigits 10 v ++ cs) =
      (⟨.integer (String.ofList (Nat.toDigits 10 v)) v, ⟨line, col⟩⟩ :: ·) <$>
        scan line stop n (col + (Nat.toDigits 10 v).length) cs := by
  have hlit := literal_toDigits v he
  cases hds : Nat.toDigits 10 v
  case nil => exact absurd hds Nat.toDigits_ne_nil
  case cons d ds =>
    have hd : d.isDigit := Nat.isDigit_of_mem_toDigits (by decide) (by decide)
      (hds ▸ List.mem_cons_self)
    have hic := isIdentifierChar_of_isDigit hd
    rw [hds, List.cons_append] at hlit
    rw [List.cons_append, scan, hlit]
    simp only [not_isSpace_of_isIdentifierChar hic, not_startsComment_of_isIdentifierChar hic, hd,
      Bool.false_eq_true, ↓reduceIte]
    cases cs
    case nil         => rw [scan_nil]; rfl
    case cons r rest =>
      have hr : isIdentifierChar r = false := he r rfl
      simp [hr]

theorem scan_punct (p : Punct) (n col : Nat) :
    scan line stop (n + 1) col (p.toChar :: cs) =
      (⟨.punct p, ⟨line, col⟩⟩ :: ·) <$> scan line stop n (col + 1) cs := by
  have ⟨h₁, h₂, h₃, h₄⟩ := Punct.toChar_special p
  simp [scan, h₁, h₂, h₃, h₄, Punct.ofChar?_toChar]

-- The bound on the recursion does not matter as long as it is large enough.
theorem scan_of_spells {ls : List Lexeme} (h : Spells cs ls) {n : Nat} (hn : cs.length ≤ n)
    (col : Nat) : ∃ ts, scan line stop n col cs = .ok (ts ++ [⟨.endOfStatement, stop⟩]) ∧
      ts.map Token.lexeme = ls := by
  induction h generalizing n col
  case nil => exact ⟨[], scan_nil n col, rfl⟩
  all_goals cases n
  case space.zero              => simp at hn
  case identifier.zero hi _ _ _ => simp at hn; simp [hn, isIdentifier] at hi
  case integer.zero            => simp at hn
  case punct.zero              => simp at hn
  case space.succ c cs ls hc _ ih n =>
    have ⟨ts, hs, ht⟩ := ih (n := n) (by simpa using hn) (col + 1)
    exact ⟨ts, by simp [scan, hc, hs], ht⟩
  case identifier.succ name cs ls hi he _ ih n =>
    have hlen : 0 < name.length := by cases name <;> simp [isIdentifier] at hi ⊢
    have ⟨ts, hs, ht⟩ := ih (n := n) (by simp at hn; omega) (col + name.length)
    exact ⟨_ :: ts, by rw [scan_identifier hi he, hs]; rfl, by simp [ht]⟩
  case integer.succ v cs ls he _ ih n =>
    have hlen := Nat.length_toDigits_pos (b := 10) (n := v)
    have ⟨ts, hs, ht⟩ := ih (n := n) (by simp at hn; omega) (col + (Nat.toDigits 10 v).length)
    exact ⟨_ :: ts, by rw [scan_integer v he, hs]; rfl, by simp [ht]⟩
  case punct.succ p cs ls _ ih n =>
    have ⟨ts, hs, ht⟩ := ih (n := n) (by simpa using hn) (col + 1)
    exact ⟨_ :: ts, by rw [scan_punct, hs]; rfl, by simp [ht]⟩

end Lexer

theorem tokenize_ok {line : Int} {text : String} {ts : List Token}
    (h : tokenize line text = .ok ts) :
    ∃ init stop, ts = init ++ [⟨.endOfStatement, stop⟩] ∧
      ∀ t ∈ init, t.lexeme ≠ .endOfStatement :=
  have ⟨init, h⟩ := Lexer.scan_ok h
  ⟨init, _, h⟩

theorem tokenize_of_spells {text : String} {ls : List Lexeme} (h : Lexer.Spells text.toList ls)
    (line : Int) : ∃ ts stop, tokenize line text = .ok (ts ++ [⟨.endOfStatement, stop⟩]) ∧
      ts.map Token.lexeme = ls :=
  have ⟨ts, h⟩ := Lexer.scan_of_spells h (Nat.le_refl _) 1
  ⟨ts, _, h⟩

end Asm88000
