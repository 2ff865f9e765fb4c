import Asm88000.Breach
import Asm88000.Proofs.Lexer

namespace Asm88000.Register

open Lexer

theorem mem_all (r : Register) : r ∈ all := by
  have hid : 1 ≤ r.id ∧ r.id < 209 := by cases r <;> simp only [id] <;> omega
  simp only [all, count, List.mem_filterMap, List.mem_range]
  refine ⟨r.id - 1, by omega, ?_⟩
  rw [← ofId?_id r]
  congr
  omega

theorem toLower_of_isDigit {c : Char} (h : c.isDigit) : c.toLower = c := by
  have hd := isDigit_iff.mp h
  refine dif_neg fun hu => ?_
  simp [UInt32.le_iff_toNat_le] at hu
  omega

theorem toList_name {r : Register} (h : r.hasSpelling) :
    ∃ letters n, r.name.toList = letters ++ Nat.toDigits 10 n ∧
      isIdentifier letters ∧ letters.map Char.toLower = letters := by
  cases r
  case pair   => cases h
  case gpr n  => exact ⟨['r'], n, by simp [name, toList_decimal_natCast], by decide, by decide⟩
  case xr n   => exact ⟨['x'], n, by simp [name, toList_decimal_natCast], by decide, by decide⟩
  case cr n   => exact ⟨['c', 'r'], n, by simp [name, toList_decimal_natCast], by decide, by decide⟩
  case fcr n  => exact ⟨['f', 'c', 'r'], n, by simp [name, toList_decimal_natCast],
      by decide, by decide⟩

theorem name_injective {r s : Register} (hr : r.hasSpelling) (hs : s.hasSpelling)
    (h : r.name = s.name) : r = s := by
  have h := congrArg String.toList h
  -- Names of different kinds differ in their letters.
  cases r <;> cases s <;> simp [hasSpelling, name, toList_decimal_natCast] at hr hs h ⊢
  all_goals exact Fin.ext (toDigits_injective h)

theorem isIdentifier_append {cs ds : List Char} (hc : isIdentifier cs)
    (hd : ∀ d ∈ ds, d.isDigit) : isIdentifier (cs ++ ds) := by
  cases cs
  case nil => cases hc
  case cons c cs =>
    simp only [isIdentifier, List.cons_append, Bool.and_eq_true, List.all_eq_true] at hc ⊢
    refine ⟨hc.left, fun x hx => ?_⟩
    cases List.mem_append.mp hx
    case inl hx => exact hc.right x hx
    case inr hx => exact isIdentifierChar_of_isDigit (hd x hx)

theorem isIdentifier_name {r : Register} (h : r.hasSpelling) : isIdentifier r.name.toList := by
  have ⟨letters, n, hname, hletters, _⟩ := toList_name h
  rw [hname]
  exact isIdentifier_append hletters fun d => Nat.isDigit_of_mem_toDigits (by decide) (by decide)

theorem lowerAscii_name {r : Register} (h : r.hasSpelling) : Text.lowerAscii r.name = r.name := by
  have ⟨letters, n, hname, _, hlower⟩ := toList_name h
  have hdigits : (Nat.toDigits 10 n).map Char.toLower = Nat.toDigits 10 n := by
    refine (List.map_congr_left fun d hd => ?_).trans (List.map_id' _)
    exact toLower_of_isDigit (Nat.isDigit_of_mem_toDigits (by decide) (by decide) hd)
  rw [Text.lowerAscii, hname, List.map_append, hlower, hdigits, ← hname, String.ofList_toList]

theorem named?_name {r : Register} (h : r.hasSpelling) : named? r.name = some r := by
  have hfind : byName? r.name = some r := by
    unfold byName?
    rw [lowerAscii_name h]
    cases hs : all.find? (fun s => s.hasSpelling && s.name == r.name)
    case none =>
      have := List.find?_eq_none.mp hs r r.mem_all
      simp [h] at this
    case some s =>
      have hs := List.find?_some hs
      simp only [Bool.and_eq_true, beq_iff_eq] at hs
      rw [name_injective hs.left h hs.right]
  simp [named?, hfind]

def IsCalled (r : Register) (s : String) : Prop :=
  r.hasSpelling ∧ r.name = Text.lowerAscii s ∨ r.altName? = some (Text.lowerAscii s)

instance (r : Register) (s : String) : Decidable (r.IsCalled s) :=
  inferInstanceAs (Decidable (_ ∨ _))

theorem named?_congr {s s' : String} (h : Text.lowerAscii s = Text.lowerAscii s') :
    named? s = named? s' := by
  simp only [named?, byName?, byAltName?, h]

theorem named?_altName (r : Register) :
    ∀ s ∈ r.altName?, Text.lowerAscii s = s ∧ named? s = some r := by
  have hall : ∀ r ∈ all, ∀ s ∈ r.altName?, Text.lowerAscii s = s ∧ named? s = some r := by
    decide +kernel
  exact hall r r.mem_all

theorem IsCalled.named? {r : Register} {s : String} (h : r.IsCalled s) :
    Register.named? s = some r := by
  rcases h with ⟨hr, hname⟩ | halt
  · rw [← named?_name hr]
    exact named?_congr (hname ▸ (lowerAscii_name hr).symm)
  · obtain ⟨hlower, hnamed⟩ := named?_altName r _ halt
    rw [← hnamed]
    exact named?_congr hlower.symm

end Asm88000.Register
