import Mathlib.Order.Bounds.Basic
import Asm88000.Spelling

namespace Asm88000.Spelling

inductive Edit : List Char → List Char → Prop
  | insert (before behind : List Char) (c : Char) : Edit (before ++ behind) (before ++ c :: behind)
  | delete (before behind : List Char) (c : Char) : Edit (before ++ c :: behind) (before ++ behind)
  | substitute (before behind : List Char) (c d : Char) :
    Edit (before ++ c :: behind) (before ++ d :: behind)

inductive Edits : Nat → List Char → List Char → Prop
  | nil {xs} : Edits 0 xs xs
  | cons {n xs ys zs} : Edit xs ys → Edits n ys zs → Edits (n + 1) xs zs

-- What an edit makes of a word with a last character: it is done in front of that character, or to
-- it, or it is a character behind it.
inductive EditsLast (xs : List Char) (x : Char) : List Char → Prop
  | front {ys : List Char} : Edit xs ys → EditsLast xs x (ys ++ [x])
  | replaced (c : Char) : EditsLast xs x (xs ++ [c])
  | removed : EditsLast xs x xs
  | followed (c : Char) : EditsLast xs x (xs ++ [x] ++ [c])

section

variable {m n : Nat} {x y : Char} {xs ys zs : List Char}

theorem concat_inj_of_cons {c b : Char} (h : xs ++ [x] = ys ++ c :: zs.concat b) :
    xs = ys ++ c :: zs ∧ x = b := by
  rw [List.concat_eq_append, ← List.cons_append, ← List.append_assoc] at h
  simpa using List.append_inj' h rfl

namespace Edit

theorem append (h : Edit xs ys) (us : List Char) : Edit (xs ++ us) (ys ++ us) := by
  cases h
  case insert before behind c       => simpa using insert before (behind ++ us) c
  case delete before behind c       => simpa using delete before (behind ++ us) c
  case substitute before behind c d => simpa using substitute before (behind ++ us) c d

theorem length_le (h : Edit xs ys) : xs.length ≤ ys.length + 1 ∧ ys.length ≤ xs.length + 1 := by
  cases h <;> simp only [List.length_append, List.length_cons] <;> omega

theorem last (h : Edit (xs ++ [x]) ys) : EditsLast xs x ys := by
  generalize hword : xs ++ [x] = word at h
  cases h
  case insert before behind c =>
    rcases behind.eq_nil_or_concat with rfl | ⟨behind, b, rfl⟩
    · obtain rfl : xs ++ [x] = before := by simpa using hword
      exact .followed c
    · obtain ⟨rfl, rfl⟩ : xs = before ++ behind ∧ x = b := by
        simpa [← List.append_assoc] using hword
      simpa using EditsLast.front (x := x) (insert before behind c)
  case delete before behind c =>
    rcases behind.eq_nil_or_concat with rfl | ⟨behind, b, rfl⟩
    · obtain ⟨rfl, rfl⟩ : xs = before ∧ x = c := by simpa using hword
      rw [List.append_nil]
      exact .removed
    · obtain ⟨rfl, rfl⟩ := concat_inj_of_cons hword
      simpa using EditsLast.front (x := x) (delete before behind c)
  case substitute before behind c d =>
    rcases behind.eq_nil_or_concat with rfl | ⟨behind, b, rfl⟩
    · obtain ⟨rfl, rfl⟩ : xs = before ∧ x = c := by simpa using hword
      exact .replaced d
    · obtain ⟨rfl, rfl⟩ := concat_inj_of_cons hword
      simpa using EditsLast.front (x := x) (substitute before behind c d)

end Edit

namespace Edits

theorem concat (h : Edits n xs ys) (he : Edit ys zs) : Edits (n + 1) xs zs := by
  induction h
  case nil             => exact .cons he .nil
  case cons hedit _ ih => exact .cons hedit (ih he)

theorem append (h : Edits n xs ys) (us : List Char) : Edits n (xs ++ us) (ys ++ us) := by
  induction h
  case nil             => exact .nil
  case cons hedit _ ih => exact .cons (hedit.append us) ih

theorem length_le (h : Edits n xs ys) :
    xs.length ≤ ys.length + n ∧ ys.length ≤ xs.length + n := by
  induction h
  case nil => simp
  case cons hedit _ ih =>
    have hone := hedit.length_le
    omega

theorem to_nil (xs : List Char) : Edits xs.length xs [] := by
  induction xs
  case nil          => exact .nil
  case cons x xs ih => exact .cons (.delete [] xs x) ih

theorem of_nil (ys : List Char) : Edits ys.length [] ys := by
  induction ys
  case nil          => exact .nil
  case cons y ys ih => exact ih.concat (.insert [] ys y)

end Edits

def Within (n : Nat) (xs ys : List Char) : Prop :=
  ∃ m ≤ n, Edits m xs ys

namespace Within

theorem cons (he : Edit xs ys) (h : Within n ys zs) : Within (n + 1) xs zs := by
  obtain ⟨k, hk, hedits⟩ := h
  exact ⟨k + 1, Nat.succ_le_succ hk, .cons he hedits⟩

theorem concat (h : Within n xs ys) (he : Edit ys zs) : Within (n + 1) xs zs := by
  obtain ⟨k, hk, hedits⟩ := h
  exact ⟨k + 1, Nat.succ_le_succ hk, hedits.concat he⟩

theorem append (h : Within n xs ys) (us : List Char) : Within n (xs ++ us) (ys ++ us) := by
  obtain ⟨k, hk, hedits⟩ := h
  exact ⟨k, hk, hedits.append us⟩

theorem mono (h : Within m xs ys) (hle : m ≤ n) : Within n xs ys := by
  obtain ⟨k, hk, hedits⟩ := h
  exact ⟨k, Nat.le_trans hk hle, hedits⟩

end Within

def change (x y : Char) : Nat :=
  if x = y then 0 else 1

theorem change_le_one (x y : Char) : change x y ≤ 1 := by
  unfold change
  split <;> omega

-- How two words with a last character come to be the same in at most `n` edits: the last character
-- of the first is deleted, or that of the second is inserted, or it takes the place of the other.
inductive Aligns (xs : List Char) (x : Char) (ys : List Char) (y : Char) (n : Nat) : Prop
  | deleted {m : Nat} : m + 1 ≤ n → Within m xs (ys ++ [y]) → Aligns xs x ys y n
  | inserted {m : Nat} : m + 1 ≤ n → Within m (xs ++ [x]) ys → Aligns xs x ys y n
  | changed {m : Nat} : m + change x y ≤ n → Within m xs ys → Aligns xs x ys y n

theorem Aligns.mono (h : Aligns xs x ys y m) (hle : m ≤ n) : Aligns xs x ys y n := by
  cases h
  case deleted hm h  => exact .deleted (Nat.le_trans hm hle) h
  case inserted hm h => exact .inserted (Nat.le_trans hm hle) h
  case changed hm h  => exact .changed (Nat.le_trans hm hle) h

theorem Aligns.within (h : Aligns xs x ys y n) : Within n (xs ++ [x]) (ys ++ [y]) := by
  cases h
  case deleted hm h  => exact (Within.cons (by simpa using Edit.delete xs [] x) h).mono hm
  case inserted hm h => exact (h.concat (by simpa using Edit.insert ys [] y)).mono hm
  case changed hm h =>
    have h := h.append [x]
    unfold change at hm
    split at hm
    case isTrue hxy => exact hxy ▸ h.mono hm
    case isFalse    => exact (h.concat (.substitute ys [] x y)).mono hm

-- The induction is on the number of edits. Where the first edit puts a character behind the last
-- one, either that character is deleted later and fewer edits do without it, or it ends up as `y`
-- and `y` might as well be inserted.
theorem Edits.aligns (h : Edits n (xs ++ [x]) (ys ++ [y])) : Aligns xs x ys y n := by
  induction n using Nat.strongRecOn generalizing xs x
  case ind n ih =>
    generalize hword : xs ++ [x] = word at h
    generalize hgoal : ys ++ [y] = goal at h
    cases h
    case nil =>
      obtain ⟨rfl, rfl⟩ : ys = xs ∧ y = x := by simpa using hgoal.trans hword.symm
      exact .changed (m := 0) (by simp [change]) ⟨0, Nat.le_refl 0, .nil⟩
    case cons n mid hedit hrest =>
      subst hword hgoal
      cases hedit.last
      case front ws hfront =>
        cases ih n (Nat.lt_succ_self n) hrest
        case deleted hm h  => exact .deleted (Nat.succ_le_succ hm) (h.cons hfront)
        case inserted hm h => exact .inserted (Nat.succ_le_succ hm) (h.cons (hfront.append [x]))
        case changed hm h  => exact .changed (by omega) (h.cons hfront)
      case replaced c =>
        have hcost := change_le_one x y
        cases ih n (Nat.lt_succ_self n) hrest
        case deleted hm h  => exact .deleted (Nat.le_succ_of_le hm) h
        case inserted hm h => exact .inserted (Nat.succ_le_succ hm) (h.cons (.substitute xs [] x c))
        case changed hm h  => exact .changed (by omega) h
      case removed => exact .deleted (Nat.le_refl _) ⟨n, Nat.le_refl n, hrest⟩
      case followed c =>
        cases ih n (Nat.lt_succ_self n) hrest
        case deleted hm h =>
          obtain ⟨k, hk, hedits⟩ := h
          exact (ih k (by omega) hedits).mono (by omega)
        case inserted hm h =>
          exact .inserted (Nat.succ_le_succ hm)
            (h.cons (by simpa using Edit.insert (xs ++ [x]) [] c))
        case changed hm h => exact .inserted (by omega) h

-- Just as many edits as `d` or more are enough.
def Measures (d : Nat) (xs ys : List Char) : Prop :=
  ∀ n, Within n xs ys ↔ d ≤ n

namespace Measures

variable {d up left corner : Nat}

theorem isLeast (h : Measures d xs ys) : IsLeast {n | Edits n xs ys} d := by
  constructor
  · obtain ⟨m, hm, hedits⟩ := (h d).mpr (Nat.le_refl d)
    obtain rfl : d = m := Nat.le_antisymm ((h m).mp ⟨m, Nat.le_refl m, hedits⟩) hm
    exact hedits
  · exact fun n hedits => (h n).mp ⟨n, Nat.le_refl n, hedits⟩

theorem unique {d' : Nat} (h : Measures d xs ys) (h' : Measures d' xs ys) : d = d' :=
  h.isLeast.unique h'.isLeast

theorem to_nil (xs : List Char) : Measures xs.length xs [] := by
  refine fun n => ⟨?_, fun hle => ⟨_, hle, Edits.to_nil xs⟩⟩
  rintro ⟨m, hm, hedits⟩
  have hlength := hedits.length_le.left
  simp only [List.length_nil] at hlength
  omega

theorem of_nil (ys : List Char) : Measures ys.length [] ys := by
  refine fun n => ⟨?_, fun hle => ⟨_, hle, Edits.of_nil ys⟩⟩
  rintro ⟨m, hm, hedits⟩
  have hlength := hedits.length_le.right
  simp only [List.length_nil] at hlength
  omega

theorem step (hcorner : Measures corner xs ys) (hup : Measures up xs (ys ++ [y]))
    (hleft : Measures left (xs ++ [x]) ys) :
    Measures (min (min (up + 1) (left + 1)) (corner + change x y)) (xs ++ [x]) (ys ++ [y]) := by
  intro n
  constructor
  · rintro ⟨m, hm, hedits⟩
    cases hedits.aligns
    case deleted k hk h  => exact Nat.le_trans (by have := (hup k).mp h; omega) hm
    case inserted k hk h => exact Nat.le_trans (by have := (hleft k).mp h; omega) hm
    case changed k hk h  => exact Nat.le_trans (by have := (hcorner k).mp h; omega) hm
  · intro hle
    have hcases : up + 1 ≤ n ∨ left + 1 ≤ n ∨ corner + change x y ≤ n := by omega
    rcases hcases with hn | hn | hn
    · exact (Aligns.deleted hn ((hup up).mpr (Nat.le_refl up))).within
    · exact (Aligns.inserted hn ((hleft left).mpr (Nat.le_refl left))).within
    · exact (Aligns.changed hn ((hcorner corner).mpr (Nat.le_refl corner))).within

end Measures

end

inductive IsRow (xs : List Char) : List Char → List Char → List Nat → Prop
  | last {ys : List Char} {d : Nat} : Measures d xs ys → IsRow xs ys [] [d]
  | more {ys bs : List Char} {b : Char} {d : Nat} {ds : List Nat} :
    Measures d xs ys → IsRow xs (ys ++ [b]) bs ds → IsRow xs ys (b :: bs) (d :: ds)

namespace IsRow

variable {a : Char} {xs ys bs : List Char} {above : List Nat}

theorem head (h : IsRow xs ys bs above) : ∃ d ds, above = d :: ds ∧ Measures d xs ys := by
  cases h
  case last hd   => exact ⟨_, _, rfl, hd⟩
  case more hd _ => exact ⟨_, _, rfl, hd⟩

theorem getLastD (h : IsRow xs ys bs above) : Measures (above.getLastD 0) xs (ys ++ bs) := by
  induction h
  case last hd => simpa using hd
  case more h ih =>
    obtain ⟨d', ds', rfl, _⟩ := h.head
    simpa using ih

theorem row {left : Nat} (h : IsRow xs ys bs above) (hleft : Measures left (xs ++ [a]) ys) :
    IsRow (xs ++ [a]) ys bs (left :: Spelling.row a bs above left) := by
  induction h generalizing left
  case last hd => exact .last hleft
  case more b corner _ hcorner h ih =>
    obtain ⟨up, ds, rfl, hup⟩ := h.head
    exact .more hleft (ih (hcorner.step hup hleft))

theorem nextRow (h : IsRow xs [] bs above) :
    IsRow (xs ++ [a]) [] bs (Spelling.nextRow bs above a) := by
  obtain ⟨d, ds, rfl, hd⟩ := h.head
  obtain rfl := hd.unique (.to_nil xs)
  have hfirst := Measures.to_nil (xs ++ [a])
  rw [List.length_append, List.length_singleton] at hfirst
  exact h.row hfirst

theorem foldl (h : IsRow xs [] bs above) (as : List Char) :
    IsRow (xs ++ as) [] bs (as.foldl (Spelling.nextRow bs) above) := by
  induction as generalizing xs above
  case nil          => simpa using h
  case cons a as ih => simpa using ih h.nextRow

theorem first (ys bs : List Char) : IsRow [] ys bs (List.range' ys.length (bs.length + 1)) := by
  induction bs generalizing ys
  case nil => exact .last (.of_nil ys)
  case cons b bs ih =>
    rw [List.length_cons, List.range'_succ]
    exact .more (.of_nil ys) (by simpa using ih (ys ++ [b]))

end IsRow

theorem measures_distance (a b : String) : Measures (distance a b) a.toList b.toList := by
  have hfirst := IsRow.first [] b.toList
  rw [List.length_nil, ← List.range_eq_range'] at hfirst
  exact (hfirst.foldl a.toList).getLastD

-- The distance can be reached by edits, and there is no shorter way.
theorem distance_isLeast (a b : String) :
    IsLeast {n | Edits n a.toList b.toList} (distance a b) :=
  (measures_distance a b).isLeast

end Asm88000.Spelling
