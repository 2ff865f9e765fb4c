import Mathlib.Data.String.Basic
import Asm88000.Proofs.EditDistance

namespace Asm88000.Spelling

namespace Nearest

variable {word b m : String} {ms : List String} {n : Nearest}

-- What is kept of the words `ms`: those at the least distance, unless all are too far away.
inductive Keeps (word : String) (ms : List String) : Nearest → Prop
  | none : (∀ m ∈ ms, maxDistance < distance word m) → Keeps word ms ⟨none, []⟩
  | some {b : String} :
    b ∈ ms → distance word b ≤ maxDistance → (∀ m ∈ ms, distance word b ≤ distance word m) →
    Keeps word ms ⟨some (distance word b), ms.filter fun m => distance word m = distance word b⟩

namespace Keeps

theorem nearer (hm : distance word m ≤ maxDistance)
    (hms : ∀ m' ∈ ms, distance word m < distance word m') :
    Keeps word (ms ++ [m]) ⟨Option.some (distance word m), [m]⟩ := by
  have hnone : ms.filter (fun m' => distance word m' = distance word m) = [] := by
    rw [List.filter_eq_nil_iff]
    intro m' hm'
    simpa using Nat.ne_of_gt (hms m' hm')
  have hkeeps : Keeps word (ms ++ [m]) _ := .some (List.mem_concat_self) hm fun m' hm' => ?_
  · rwa [List.filter_append, hnone, List.filter_singleton, decide_eq_true rfl] at hkeeps
  · rcases List.mem_append.mp hm' with hm' | hm'
    · exact Nat.le_of_lt (hms m' hm')
    · exact Nat.le_of_eq (List.mem_singleton.mp hm' ▸ rfl)

theorem further (hb : b ∈ ms) (hle : distance word b ≤ maxDistance)
    (hms : ∀ m' ∈ ms, distance word b ≤ distance word m') (hm : distance word b ≤ distance word m) :
    Keeps word (ms ++ [m]) ⟨Option.some (distance word b),
      ms.filter (fun m' => distance word m' = distance word b) ++
        if distance word m = distance word b then [m] else []⟩ := by
  have hkeeps : Keeps word (ms ++ [m]) _ := .some (List.mem_append_left _ hb) hle fun m' hm' => ?_
  · simpa only [List.filter_append, List.filter_singleton, Bool.cond_decide] using hkeeps
  · rcases List.mem_append.mp hm' with hm' | hm'
    · exact hms m' hm'
    · exact List.mem_singleton.mp hm' ▸ hm

theorem offer (h : Keeps word ms n) (m : String) : Keeps word (ms ++ [m]) (n.offer word m) := by
  unfold Nearest.offer
  cases h
  case none hms =>
    dsimp only
    split
    case isTrue hfar =>
      refine .none fun m' hm' => ?_
      rcases List.mem_append.mp hm' with hm' | hm'
      · exact hms m' hm'
      · exact List.mem_singleton.mp hm' ▸ hfar
    case isFalse hnear =>
      have hm := Nat.le_of_not_lt hnear
      exact nearer hm fun m' hm' => Nat.lt_of_le_of_lt hm (hms m' hm')
  case some b hb hle hms =>
    have hkept := further (m := m) hb hle hms
    dsimp only
    split
    case isTrue hfar =>
      have hlt := Nat.lt_of_le_of_lt hle hfar
      simpa [Nat.ne_of_gt hlt] using hkept (Nat.le_of_lt hlt)
    case isFalse hnear =>
      split
      case isTrue hlt =>
        exact nearer (Nat.le_of_not_lt hnear) fun m' hm' => Nat.lt_of_lt_of_le hlt (hms m' hm')
      case isFalse hge =>
        have hkept := hkept (Nat.le_of_not_lt hge)
        split
        case isTrue heq  => simpa [heq] using hkept
        case isFalse hne => simpa [hne] using hkept

theorem foldl (h : Keeps word ms n) (ms' : List String) :
    Keeps word (ms ++ ms') (ms'.foldl (Nearest.offer word) n) := by
  induction ms' generalizing ms n
  case nil           => simpa using h
  case cons m ms' ih => simpa using ih (h.offer m)

theorem mem_words_iff (h : Keeps word ms n) : m ∈ n.words ↔
    m ∈ ms ∧ distance word m ≤ maxDistance ∧ ∀ m' ∈ ms, distance word m ≤ distance word m' := by
  cases h
  case none hms =>
    refine ⟨fun hm => absurd hm List.not_mem_nil, ?_⟩
    rintro ⟨hm, hle, _⟩
    exact absurd hle (Nat.not_le_of_lt (hms m hm))
  case some b hb hle hms =>
    simp only [List.mem_filter, decide_eq_true_eq]
    refine and_congr_right fun hm => ⟨fun heq => heq ▸ ⟨hle, hms⟩, ?_⟩
    rintro ⟨_, hleast⟩
    exact Nat.le_antisymm (hleast b hb) (hms m hm)

theorem words_eq_nil_iff (h : Keeps word ms n) :
    n.words = [] ↔ ∀ m ∈ ms, maxDistance < distance word m := by
  cases h
  case none hms => simpa using hms
  case some b hb hle hms =>
    refine ⟨fun hnil => ?_, fun hfar => absurd hle (Nat.not_le_of_lt (hfar b hb))⟩
    simpa using List.filter_eq_nil_iff.mp hnil b hb

theorem words_sublist (h : Keeps word ms n) : n.words.Sublist ms := by
  cases h
  case none => exact List.nil_sublist ms
  case some => exact List.filter_sublist

end Keeps
end Nearest

section

variable {available : List Feature} {word m : String}

theorem mem_usable_iff : m ∈ usable available ↔
    ∃ e ∈ InstructionSet.table, e.mnemonic = m ∧ Feature.covers available e.features := by
  simp only [usable, InstructionSet.mnemonics, InstructionSet.candidates, InstructionSet.formsOf,
    List.mem_filter, List.mem_eraseDups, List.mem_map, List.any_eq_true, beq_iff_eq]
  constructor
  · rintro ⟨_, e, ⟨he, hname⟩, hcovers⟩
    exact ⟨e, he, hname, hcovers⟩
  · rintro ⟨e, he, hname, hcovers⟩
    exact ⟨⟨e, he, hname⟩, e, ⟨he, hname⟩, hcovers⟩

theorem nodup_usable (available : List Feature) : (usable available).Nodup := by
  have hnodup : InstructionSet.mnemonics.Nodup := by decide +kernel
  exact hnodup.filter _

theorem keeps_usable (available : List Feature) (word : String) :
    Nearest.Keeps word (usable available)
      ((usable available).foldl (Nearest.offer word) ⟨none, []⟩) := by
  have hstart : Nearest.Keeps word [] ⟨none, []⟩ := .none (by simp)
  exact hstart.foldl (usable available)

theorem suggestions_sorted (available : List Feature) (word : String) :
    (suggestions available word).Pairwise (· < ·) := by
  have hle : (suggestions available word).Pairwise fun a b => decide (a ≤ b) :=
    List.pairwise_mergeSort (by simpa using fun a b c => le_trans) (by simpa using le_total) _
  have hnodup : (suggestions available word).Nodup :=
    (List.mergeSort_perm _ _).nodup_iff.mpr
      ((keeps_usable available word).words_sublist.nodup (nodup_usable available))
  refine (hle.and hnodup).imp fun hab => ?_
  exact lt_of_le_of_ne (of_decide_eq_true hab.left) hab.right

-- A mnemonic with a form that needs available features only, and that a word becomes by `d` edits
-- and no fewer, where `d` is two at most.
structure IsNear (available : List Feature) (word m : String) (d : Nat) : Prop where
  usable : ∃ e ∈ InstructionSet.table, e.mnemonic = m ∧ Feature.covers available e.features
  edits  : IsLeast {n | Edits n word.toList m.toList} d
  few    : d ≤ 2

theorem isNear_iff {d : Nat} : IsNear available word m d ↔
    m ∈ usable available ∧ distance word m = d ∧ d ≤ maxDistance := by
  rw [mem_usable_iff]
  constructor
  · rintro ⟨husable, hedits, hfew⟩
    exact ⟨husable, (measures_distance word m).isLeast.unique hedits, hfew⟩
  · rintro ⟨husable, rfl, hfew⟩
    exact ⟨husable, (measures_distance word m).isLeast, hfew⟩

end

-- The suggestions are sorted and each is there once. They are the near mnemonics that no other one
-- is nearer than, and there are none just if no mnemonic is near.
theorem suggestions_nearest (available : List Feature) (word : String) :
    (suggestions available word).Pairwise (· < ·) ∧
    (∀ m, m ∈ suggestions available word ↔
      ∃ d, IsNear available word m d ∧ ∀ m' d', IsNear available word m' d' → d ≤ d') ∧
    (suggestions available word = [] ↔ ∀ m d, ¬IsNear available word m d) := by
  have hkeeps := keeps_usable available word
  refine ⟨suggestions_sorted available word, fun m => ?_, ?_⟩
  case refine_1 =>
    simp only [suggestions, List.mem_mergeSort, hkeeps.mem_words_iff, isNear_iff]
    constructor
    · rintro ⟨hm, hle, hleast⟩
      refine ⟨_, ⟨hm, rfl, hle⟩, ?_⟩
      rintro m' _ ⟨hm', rfl, _⟩
      exact hleast m' hm'
    · rintro ⟨_, ⟨hm, rfl, hle⟩, hleast⟩
      refine ⟨hm, hle, fun m' hm' => ?_⟩
      by_cases hle' : distance word m' ≤ maxDistance
      case pos => exact hleast m' _ ⟨hm', rfl, hle'⟩
      case neg => exact Nat.le_trans hle (Nat.le_of_not_le hle')
  case refine_2 =>
    rw [suggestions, ← List.length_eq_zero_iff, List.length_mergeSort, List.length_eq_zero_iff,
      hkeeps.words_eq_nil_iff]
    simp only [isNear_iff]
    constructor
    · rintro hfar m _ ⟨hm, rfl, hle⟩
      exact absurd hle (Nat.not_le_of_lt (hfar m hm))
    · intro hnone m hm
      exact Nat.lt_of_not_le fun hle => hnone m _ ⟨hm, rfl, hle⟩

end Asm88000.Spelling
