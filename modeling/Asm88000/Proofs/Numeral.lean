import Asm88000.Token.Lexer

namespace Asm88000

namespace Lexer

theorem digitValue_digitChar : ∀ d < 16, digitValue (Nat.digitChar d) = d := by
  decide

theorem digitValue_digitChar_toUpper : ∀ d < 16, digitValue (Nat.digitChar d).toUpper = d := by
  decide

theorem Radix.one_lt_base (r : Radix) : 1 < r.base := by
  cases r <;> decide

theorem Radix.base_le (r : Radix) : r.base ≤ 16 := by
  cases r <;> decide

theorem digitsValue_append_singleton (r : Radix) (ds : List Char) (d : Char) :
    digitsValue r (ds ++ [d]) = digitsValue r ds * r.base + digitValue d := by
  simp [digitsValue]

theorem digitsValue_zeros_append (r : Radix) (k : Nat) (ds : List Char) :
    digitsValue r (List.replicate k '0' ++ ds) = digitsValue r ds := by
  have hd : digitValue '0' = 0 := by decide
  induction k
  case zero      => rfl
  case succ k ih => simpa [List.replicate_succ, digitsValue, hd] using ih

theorem digitsValue_map_toDigits (r : Radix) (g : Char → Char)
    (hg : ∀ d < 16, digitValue (g (Nat.digitChar d)) = d) (n : Nat) :
    digitsValue r ((Nat.toDigits r.base n).map g) = n := by
  have hb := r.one_lt_base
  have hle := r.base_le
  induction n using Nat.strongRecOn
  case ind n ih =>
    rw [Nat.toDigits_eq_if hb]
    split
    case isTrue h => simp [digitsValue, hg n (by omega)]
    case isFalse h =>
      have hm := Nat.mod_lt n (show r.base > 0 by omega)
      have hdiv := Nat.div_lt_self (show 0 < n by omega) hb
      rw [List.map_append, List.map_singleton, digitsValue_append_singleton, ih _ hdiv,
        hg _ (by omega), Nat.mul_comm, Nat.div_add_mod]

end Lexer

namespace Numeral

variable {f : Numeral} {r : Lexer.Radix} {n : Nat}

open Lexer

theorem digits_eq_map (f : Numeral) (n : Nat) :
    f.digits n = (Nat.toDigits f.base n).map (if f.upper then Char.toUpper else id) := by
  unfold digits
  split <;> simp

theorem digitsValue_digits (h : f.base = r.base) : digitsValue r (f.digits n) = n := by
  rw [digits_eq_map, h]
  apply digitsValue_map_toDigits
  split
  · exact digitValue_digitChar_toUpper
  · exact digitValue_digitChar

theorem mem_toDigits {b : Nat} (hb : 1 < b) {c : Char} (h : c ∈ Nat.toDigits b n) :
    ∃ d < b, c = d.digitChar := by
  induction n using Nat.strongRecOn
  case ind n ih =>
    rw [Nat.toDigits_eq_if hb] at h
    split at h
    case isTrue hn => exact ⟨n, hn, by simpa using h⟩
    case isFalse hn =>
      cases List.mem_append.mp h
      case inl h => exact ih _ (Nat.div_lt_self (by omega) hb) h
      case inr h => exact ⟨n % b, Nat.mod_lt n (by omega), by simpa using h⟩

theorem chars_natCast (f : Numeral) (n : Nat) :
    f.chars n = List.replicate (f.width - (f.digits n).length) '0' ++ f.digits n := by
  have hs : sign n = [] := if_neg (Int.not_lt.mpr (Int.natCast_nonneg n))
  simp [chars, hs]

theorem digitsValue_chars (h : f.base = r.base) : digitsValue r (f.chars n) = n := by
  rw [chars_natCast, digitsValue_zeros_append, digitsValue_digits h]

theorem length_chars (hb : 1 < f.base) (hw : 0 < f.width) (h : n < f.base.pow f.width) :
    (f.chars n).length = f.width := by
  have hlen : (f.digits n).length ≤ f.width := by
    rw [digits_eq_map, List.length_map, Nat.length_toDigits_le_iff hb hw]
    exact h
  rw [chars_natCast, List.length_append, List.length_replicate]
  omega

theorem mem_chars (hb : 1 < f.base) {c : Char} (h : c ∈ f.chars n) :
    ∃ d < f.base, c = if f.upper then d.digitChar.toUpper else d.digitChar := by
  rw [chars_natCast, List.mem_append] at h
  cases h
  case inl h =>
    refine ⟨0, by omega, ?_⟩
    rw [List.eq_of_mem_replicate h]
    split <;> decide
  case inr h =>
    rw [digits_eq_map, List.mem_map] at h
    obtain ⟨x, hx, rfl⟩ := h
    have ⟨d, hd, hxd⟩ := mem_toDigits hb hx
    refine ⟨d, hd, ?_⟩
    split <;> simp [hxd]

end Numeral

theorem toList_decimal (v : Int) :
    (decimal v).toList = (if v < 0 then ['-'] else []) ++ Nat.toDigits 10 v.natAbs := by
  simp [decimal, Numeral.render, Numeral.chars, Numeral.sign, Numeral.decimal, Numeral.digits]

theorem toList_decimal_natCast (n : Nat) : (decimal n).toList = Nat.toDigits 10 n := by
  simp [toList_decimal, Int.not_lt.mpr (Int.natCast_nonneg n)]

theorem toDigits_injective {m n : Nat} (h : Nat.toDigits 10 m = Nat.toDigits 10 n) : m = n := by
  rw [← Nat.ofDigitChars_ten_toDigits (n := m), h, Nat.ofDigitChars_ten_toDigits]

end Asm88000
