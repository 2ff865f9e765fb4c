import Mathlib.Data.List.Forall2
import Mathlib.Data.List.Induction
import Mathlib.Data.Nat.Digits.Defs
import Mathlib.Tactic.IntervalCases
import Asm88000.Proofs.Lexer

namespace Asm88000

namespace Lexer

variable {line : Int} {stop : Loc} {c : Char} {cs w w' rest : List Char} {v v' : Nat} {r r' : Radix}

namespace Radix

def all : List Radix :=
  [hex, bin, oct, dec]

def marks : Radix → List (List Char)
  | hex => [['0', 'x'], ['0', 'X']]
  | bin => [['0', 'b'], ['0', 'B']]
  | oct => [['0', 'o'], ['0', 'O']]
  | dec => [[]]

def IsDigit (r : Radix) (c : Char) (d : Nat) : Prop :=
  d < r.base ∧ (c = d.digitChar ∨ c = d.digitChar.toUpper)

-- A numeral is a mark with at least one digit behind it, and has their positional value.
inductive IsNumeral (r : Radix) : List Char → Nat → Prop
  | intro {mark cs : List Char} {ds : List Nat} :
    mark ∈ r.marks → cs ≠ [] → List.Forall₂ r.IsDigit cs ds →
    IsNumeral r (mark ++ cs) (Nat.ofDigits r.base ds.reverse)

-- A numeral at the front of the characters which no other there exceeds.
structure IsLongest (r : Radix) (cs w : List Char) (v : Nat) : Prop where
  front   : w <+: cs
  numeral : r.IsNumeral w v
  longest : ∀ {w' v'}, w' <+: cs → r.IsNumeral w' v' → w'.length ≤ w.length

def HasNumeral (r : Radix) (cs : List Char) : Prop :=
  ∃ w v, w <+: cs ∧ r.IsNumeral w v

end Radix

-- The literal at the front of the characters: the longest numeral of the first number system that
-- has one there.
def IsLiteral (cs w : List Char) (v : Nat) : Prop :=
  ∃ r : Radix, r.IsLongest cs w v ∧ ∀ r' ∈ Radix.all.takeWhile (· ≠ r), ¬r'.HasNumeral cs

theorem eq_digitChar_digitValue (h : digitValue c < 16) :
    c = (digitValue c).digitChar ∨ c = (digitValue c).digitChar.toUpper := by
  have hcases : 48 ≤ c.toNat ∧ c.toNat ≤ 57 ∨ 97 ≤ c.toNat ∧ c.toNat ≤ 102 ∨
      65 ≤ c.toNat ∧ c.toNat ≤ 70 := by
    unfold digitValue at h
    split at h
    case isTrue hc => exact .inl (isDigit_iff.mp hc)
    case isFalse =>
      split at h
      case isTrue hc =>
        simp only [Bool.and_eq_true, decide_eq_true_eq, Char.le_def, UInt32.le_iff_toNat_le] at hc
        exact .inr (.inl hc)
      case isFalse =>
        split at h
        case isTrue hc =>
          simp only [Bool.and_eq_true, decide_eq_true_eq, Char.le_def, UInt32.le_iff_toNat_le] at hc
          exact .inr (.inr hc)
        case isFalse => omega
  rw [← Char.ofNat_toNat c]
  generalize c.toNat = n at hcases
  rcases hcases with h | h | h <;> obtain ⟨hl, hu⟩ := h <;> interval_cases n <;> decide

namespace Radix

theorem isDigit_iff : r.IsDigit c v ↔ isDigitOf r c ∧ digitValue c = v := by
  constructor
  · rintro ⟨hv, rfl | rfl⟩
    · have hd := digitValue_digitChar v (by have := r.base_le; omega)
      simp [isDigitOf, hd, hv]
    · have hd := digitValue_digitChar_toUpper v (by have := r.base_le; omega)
      simp [isDigitOf, hd, hv]
  · rintro ⟨hc, rfl⟩
    have hlt : digitValue c < r.base := by simpa [isDigitOf] using hc
    exact ⟨hlt, eq_digitChar_digitValue (by have := r.base_le; omega)⟩

theorem forall₂_isDigit_iff {ds : List Nat} :
    List.Forall₂ r.IsDigit cs ds ↔ (∀ c ∈ cs, isDigitOf r c) ∧ ds = cs.map digitValue := by
  induction cs generalizing ds
  case nil => simp
  case cons c cs ih =>
    simp only [List.forall₂_cons_left_iff, isDigit_iff, ih]
    constructor
    · rintro ⟨_, _, ⟨hc, rfl⟩, ⟨hcs, rfl⟩, rfl⟩
      exact ⟨by simpa [hc] using hcs, rfl⟩
    · rintro ⟨h, rfl⟩
      obtain ⟨hc, hcs⟩ := List.forall_mem_cons.mp h
      exact ⟨_, _, ⟨hc, rfl⟩, ⟨hcs, rfl⟩, rfl⟩

end Radix

theorem ofDigits_digitValue (r : Radix) (cs : List Char) :
    Nat.ofDigits r.base (cs.map digitValue).reverse = digitsValue r cs := by
  induction cs using List.reverseRecOn
  case nil => rfl
  case append_singleton cs c ih =>
    rw [digitsValue_append_singleton, ← ih]
    simp [Nat.ofDigits_cons, Nat.mul_comm, Nat.add_comm]

theorem isIdentifierChar_of_isDigitOf (h : isDigitOf r c) : isIdentifierChar c := by
  have hchars : ∀ d < 16, isIdentifierChar d.digitChar ∧ isIdentifierChar d.digitChar.toUpper := by
    decide
  obtain ⟨hlt, hc⟩ := Radix.isDigit_iff.mpr ⟨h, rfl⟩
  have hd := hchars (digitValue c) (by have := r.base_le; omega)
  cases hc
  case inl hc => exact hc ▸ hd.left
  case inr hc => exact hc ▸ hd.right

theorem Ends.length_le_of_prefix (he : Ends rest) (hw : w' <+: w ++ rest)
    (hchars : ∀ c ∈ w', isIdentifierChar c) : w'.length ≤ w.length := by
  by_contra hlt
  cases rest
  case nil         => exact hlt (by simpa using hw.length_le)
  case cons c rest =>
    have hc : w ++ [c] <+: w' :=
      List.prefix_of_prefix_length_le ⟨rest, by simp⟩ hw (by simp; omega)
    have := hchars c (hc.subset (by simp))
    simp [ends_cons.mp he] at this

namespace Radix

theorem mem_marks_iff :
    w ∈ r.marks ↔ r = dec ∧ w = [] ∨ ∃ m, w = ['0', m] ∧ mark? m = some r := by
  constructor
  · intro h
    cases r <;> simp only [marks, List.mem_cons, List.not_mem_nil, or_false] at h
    case dec => exact .inl ⟨rfl, h⟩
    all_goals
      refine .inr ?_
      rcases h with rfl | rfl <;> exact ⟨_, rfl, rfl⟩
  · rintro (⟨rfl, rfl⟩ | ⟨m, rfl, hm⟩)
    · decide
    · unfold mark? at hm
      split at hm <;> cases hm <;> decide

theorem length_mark : ∀ r : Radix, ∀ m ∈ r.marks, ∀ m' ∈ r.marks, m.length = m'.length := by
  intro r
  cases r <;> decide

theorem isNumeral_iff : r.IsNumeral w v ↔ ∃ mark ds, mark ∈ r.marks ∧ ds ≠ [] ∧
    (∀ d ∈ ds, isDigitOf r d) ∧ w = mark ++ ds ∧ v = digitsValue r ds := by
  constructor
  · rintro ⟨hm, hne, hds⟩
    obtain ⟨hd, rfl⟩ := forall₂_isDigit_iff.mp hds
    exact ⟨_, _, hm, hne, hd, rfl, ofDigits_digitValue r _⟩
  · rintro ⟨mark, ds, hm, hne, hd, rfl, rfl⟩
    rw [← ofDigits_digitValue]
    exact ⟨hm, hne, forall₂_isDigit_iff.mpr ⟨hd, rfl⟩⟩

namespace IsNumeral

theorem value_unique (h : r.IsNumeral w v) (h' : r.IsNumeral w v') : v = v' := by
  obtain ⟨m, ds, hm, -, -, rfl, rfl⟩ := isNumeral_iff.mp h
  obtain ⟨m', ds', hm', -, -, hw, rfl⟩ := isNumeral_iff.mp h'
  rw [(List.append_inj hw (r.length_mark m hm m' hm')).right]

theorem isIdentifierChar (h : r.IsNumeral w v) : ∀ c ∈ w, isIdentifierChar c := by
  obtain ⟨m, ds, hm, -, hd, rfl, -⟩ := isNumeral_iff.mp h
  intro c hc
  rcases List.mem_append.mp hc with hc | hc
  · rcases mem_marks_iff.mp hm with ⟨-, rfl⟩ | ⟨x, rfl, hx⟩
    · simp at hc
    · simp only [List.mem_cons, List.not_mem_nil, or_false] at hc
      rcases hc with rfl | rfl
      · decide
      · exact (mark?_eq_some hx).left
  · exact isIdentifierChar_of_isDigitOf (hd c hc)

theorem head (h : r.IsNumeral w v) : ∃ c cs, w = c :: cs ∧ c.isDigit := by
  obtain ⟨m, ds, hm, hne, hd, rfl, -⟩ := isNumeral_iff.mp h
  rcases mem_marks_iff.mp hm with ⟨rfl, rfl⟩ | ⟨x, rfl, -⟩
  · cases ds
    case nil       => exact absurd rfl hne
    case cons c ds => exact ⟨c, ds, rfl, isDigitOf_dec c ▸ hd c (by simp)⟩
  · exact ⟨'0', _, rfl, by decide⟩

end IsNumeral

theorem HasNumeral.mark (h : r.HasNumeral cs) (hr : r ≠ dec) :
    ∃ m tail, cs = '0' :: m :: tail ∧ mark? m = some r ∧ tail.takeWhile (isDigitOf r) ≠ [] := by
  obtain ⟨w, v, ⟨rest, rfl⟩, hw⟩ := h
  obtain ⟨mark, ds, hm, hne, hd, rfl, -⟩ := isNumeral_iff.mp hw
  rcases mem_marks_iff.mp hm with ⟨rfl, -⟩ | ⟨m, rfl, hx⟩
  · exact absurd rfl hr
  · refine ⟨m, ds ++ rest, by simp, hx, ?_⟩
    rw [List.takeWhile_append_of_pos hd]
    simp [hne]

theorem isLongest_takeWhile (hm : w ∈ r.marks) (hne : cs.takeWhile (isDigitOf r) ≠ []) :
    r.IsLongest (w ++ cs) (w ++ cs.takeWhile (isDigitOf r))
      (digitsValue r (cs.takeWhile (isDigitOf r))) where
  front   := (List.prefix_append_right_inj w).mpr (List.takeWhile_prefix _)
  numeral := isNumeral_iff.mpr
    ⟨w, _, hm, hne, fun _ hd => List.all_eq_true.mp List.all_takeWhile _ hd, rfl, rfl⟩
  longest := by
    intro w' v' hw' hn
    obtain ⟨m, ds, hm', -, hd, rfl, -⟩ := isNumeral_iff.mp hn
    obtain ⟨tail, heq⟩ := hw'
    rw [List.append_assoc] at heq
    obtain ⟨rfl, rfl⟩ := List.append_inj heq (r.length_mark _ hm' _ hm)
    rw [List.takeWhile_append_of_pos hd]
    simp

theorem tried_before : ∀ r : Radix, ∀ r' ∈ all.takeWhile (· ≠ r), r' ≠ r ∧ r' ≠ dec := by
  intro r
  cases r <;> decide

theorem tried_before_total : ∀ r r' : Radix, r ≠ r' →
    r ∈ all.takeWhile (· ≠ r') ∨ r' ∈ all.takeWhile (· ≠ r) := by
  intro r r'
  cases r <;> cases r' <;> decide

end Radix

theorem IsLiteral.unique (h : IsLiteral cs w v) (h' : IsLiteral cs w' v') : w = w' ∧ v = v' := by
  obtain ⟨r, hr, hfirst⟩ := h
  obtain ⟨r', hr', hfirst'⟩ := h'
  have heq : r = r' := by
    by_contra hne
    cases r.tried_before_total r' hne
    case inl h => exact hfirst' r h ⟨w, v, hr.front, hr.numeral⟩
    case inr h => exact hfirst r' h ⟨w', v', hr'.front, hr'.numeral⟩
  subst heq
  have hlen := Nat.le_antisymm (hr'.longest hr.front hr.numeral) (hr.longest hr'.front hr'.numeral)
  have hw := (List.prefix_of_prefix_length_le hr.front hr'.front hlen.le).eq_of_length hlen
  subst hw
  exact ⟨rfl, hr.numeral.value_unique hr'.numeral⟩

theorem isLiteral_decimalLiteral (hc : c.isDigit)
    (h : ∀ r ≠ Radix.dec, ¬r.HasNumeral (c :: cs)) :
    IsLiteral (c :: cs) (decimalLiteral (c :: cs)).spelling (decimalLiteral (c :: cs)).value := by
  have hne : (c :: cs).takeWhile (isDigitOf .dec) ≠ [] := by simp [isDigitOf_dec, hc]
  exact ⟨.dec, Radix.isLongest_takeWhile (w := []) (by decide) hne,
    fun r hr => h r (Radix.tried_before _ r hr).right⟩

theorem isLiteral_literal (hc : c.isDigit) :
    IsLiteral (c :: cs) (literal (c :: cs)).spelling (literal (c :: cs)).value := by
  unfold literal
  split
  case h_2 cs' hcs =>
    refine isLiteral_decimalLiteral hc fun r hr hn => ?_
    obtain ⟨m, tail, heq, -⟩ := hn.mark hr
    exact hcs m tail heq
  case h_1 m tail heq =>
    cases heq
    have hnone : (∀ r, Radix.mark? m = some r → tail.takeWhile (isDigitOf r) = []) →
        ∀ r ≠ Radix.dec, ¬r.HasNumeral ('0' :: m :: tail) := by
      intro h r hr hn
      obtain ⟨m', tail', heq, hm, hne⟩ := hn.mark hr
      cases heq
      exact hne (h r hm)
    split
    case h_2 hm => exact isLiteral_decimalLiteral hc (hnone (by simp [hm]))
    case h_1 r hm =>
      dsimp only
      split
      case isTrue hds =>
        refine isLiteral_decimalLiteral hc (hnone fun r' hm' => ?_)
        cases hm.symm.trans hm'
        simpa using hds
      case isFalse hds =>
        have hmark : ['0', m] ∈ r.marks := Radix.mem_marks_iff.mpr (.inr ⟨m, rfl, hm⟩)
        refine ⟨r, Radix.isLongest_takeWhile hmark (by simpa using hds), fun r' hr' hn => ?_⟩
        obtain ⟨hne, hdec⟩ := Radix.tried_before r r' hr'
        obtain ⟨m', tail', heq, hm', -⟩ := hn.mark hdec
        cases heq
        exact hne (Option.some.inj (hm'.symm.trans hm))

theorem spelling_append_rest (cs : List Char) :
    (literal cs).spelling ++ (literal cs).rest = cs := by
  have hdec (cs : List Char) : (decimalLiteral cs).spelling ++ (decimalLiteral cs).rest = cs :=
    List.takeWhile_append_dropWhile
  unfold literal
  split
  case h_2 => exact hdec _
  case h_1 m tail =>
    split
    case h_2 => exact hdec _
    case h_1 r hm =>
      dsimp only
      split
      case isTrue  => exact hdec _
      case isFalse =>
        have := List.prefix_iff_eq_append.mp (List.takeWhile_prefix (isDigitOf r) (l := tail))
        simpa using this

theorem literal_of_isLiteral (h : IsLiteral (w ++ rest) w v) :
    literal (w ++ rest) = ⟨w, v, rest⟩ := by
  obtain ⟨r, hr, -⟩ := id h
  obtain ⟨c, tail, hw, hc⟩ := hr.numeral.head
  have hfront : c :: (tail ++ rest) = w ++ rest := by simp [hw]
  obtain ⟨hspelling, hvalue⟩ := h.unique (hfront ▸ isLiteral_literal hc)
  have hrest : (literal (w ++ rest)).rest = rest := by
    have := spelling_append_rest (w ++ rest)
    rw [← hspelling] at this
    exact List.append_cancel_left this
  generalize literal (w ++ rest) = lit at hspelling hvalue hrest
  obtain ⟨w', v', rest'⟩ := lit
  rw [hspelling, hvalue, ← hrest]

theorem Radix.IsNumeral.isLiteral (h : r.IsNumeral w v) (he : Ends rest) :
    IsLiteral (w ++ rest) w v := by
  have hlongest : r.IsLongest (w ++ rest) w v :=
    ⟨List.prefix_append w rest, h, fun hw hn => he.length_le_of_prefix hw hn.isIdentifierChar⟩
  refine ⟨r, hlongest, fun r' hr' hn => ?_⟩
  obtain ⟨hne, hdec⟩ := Radix.tried_before r r' hr'
  obtain ⟨m, tail, heq, hm, -⟩ := hn.mark hdec
  obtain ⟨hic, hnd⟩ := Radix.mark?_eq_some hm
  obtain ⟨mark, ds, hmark, hds, hd, rfl, -⟩ := Radix.isNumeral_iff.mp h
  rcases Radix.mem_marks_iff.mp hmark with ⟨rfl, rfl⟩ | ⟨m', rfl, hm'⟩
  · -- The second character is one more decimal digit, or none that a word goes on with.
    cases ds
    case nil => exact hds rfl
    case cons d ds =>
      cases ds
      case nil =>
        cases heq
        simp [ends_cons.mp he] at hic
      case cons d' ds =>
        cases heq
        have := isDigitOf_dec m ▸ hd m (by simp)
        simp [hnd] at this
  · cases heq
    exact hne (Option.some.inj (hm.symm.trans hm'))

end Lexer

namespace Lexeme

open Lexer

def IsValid : Lexeme → Prop
  | identifier name    => isIdentifier name.toList
  | integer spelling v => ∃ r : Radix, r.IsNumeral spelling.toList v
  | punct _            => True
  | endOfStatement     => False

-- The lexeme stands right in front of the characters. An identifier goes on as far as it can, and
-- an integer is the literal there, which nothing of an identifier may follow.
def Precedes : Lexeme → List Char → Prop
  | identifier name, rest    => isIdentifier name.toList ∧ Ends rest
  | integer spelling v, rest => IsLiteral (spelling.toList ++ rest) spelling.toList v ∧ Ends rest
  | punct _, _               => True
  | endOfStatement, _        => False

end Lexeme

namespace Lexer

def blanks : List Char :=
  [' ', '\t', '\r', '\n']

def commentMarks : List Char :=
  [';', '|']

-- The characters, the first of which stands in column `col`, are those of the tokens with blanks
-- before each of them, and with blanks and at most a comment behind the last.
inductive Splits (line : Int) : Nat → List Char → List Token → Prop
  | done {col : Nat} {gap comment : List Char} :
    gap ⊆ blanks → (∀ c ∈ comment.head?, c ∈ commentMarks) →
    Splits line col (gap ++ comment) []
  | token {col : Nat} {gap rest : List Char} {l : Lexeme} {ts : List Token} :
    gap ⊆ blanks → l.Precedes rest →
    Splits line (col + gap.length + l.text.length) rest ts →
    Splits line col (gap ++ l.text.toList ++ rest) (⟨l, ⟨line, (col + gap.length : Nat)⟩⟩ :: ts)

-- The places that a reader of the text comes to, with what is before and behind each of them: the
-- start, and behind every blank and every lexeme on the way.
inductive Reaches : List Char → List Char → List Char → Prop
  | start {rest : List Char} : Reaches rest [] rest
  | blank {c : Char} {cs before rest : List Char} :
    c ∈ blanks → Reaches cs before rest → Reaches (c :: cs) (c :: before) rest
  | lexeme {l : Lexeme} {cs before rest : List Char} :
    l.Precedes cs → Reaches cs before rest →
    Reaches (l.text.toList ++ cs) (l.text.toList ++ before) rest

structure StartsNothing (c : Char) (cs : List Char) : Prop where
  blank   : c ∉ blanks
  comment : c ∉ commentMarks
  lexeme  : ∀ l : Lexeme, l.IsValid → ¬l.text.toList <+: c :: cs

inductive Stuck : List Char → Fault → Prop
  | character {c : Char} {cs : List Char} :
    StartsNothing c cs → Stuck (c :: cs) (.invalidCharacter c)
  | integer {w cs : List Char} {v : Nat} {c : Char} :
    IsLiteral (w ++ c :: cs) w v → isIdentifierChar c →
    Stuck (w ++ c :: cs) (.invalidInteger (String.ofList w) c)

theorem isSpace_iff : isSpace c ↔ c ∈ blanks := by
  simp [isSpace, blanks, or_assoc]

theorem startsComment_iff : startsComment c ↔ c ∈ commentMarks := by
  simp [startsComment, commentMarks]

theorem isIdentifier_singleton (h : startsIdentifier c) : isIdentifier [c] := by
  simp [isIdentifier, h]

theorem isNumeral_singleton (h : c.isDigit) : Radix.dec.IsNumeral [c] (digitsValue .dec [c]) :=
  Radix.isNumeral_iff.mpr ⟨[], [c], by decide, by simp, by simpa [isDigitOf_dec] using h, rfl, rfl⟩

end Lexer

namespace Lexeme

open Lexer

variable {l : Lexeme} {rest : List Char}

theorem Precedes.isValid (h : l.Precedes rest) : l.IsValid := by
  cases l
  case identifier     => exact h.left
  case integer        =>
    obtain ⟨⟨r, hr, -⟩, -⟩ := h
    exact ⟨r, hr.numeral⟩
  case punct          => trivial
  case endOfStatement => exact h

theorem IsValid.precedes (h : l.IsValid) (he : Ends rest) : l.Precedes rest := by
  cases l
  case identifier     => exact ⟨h, he⟩
  case integer        =>
    obtain ⟨r, hr⟩ := h
    exact ⟨hr.isLiteral he, he⟩
  case punct          => trivial
  case endOfStatement => exact h

theorem IsValid.head (h : l.IsValid) : ∃ c cs, l.text.toList = c :: cs ∧
    (c.isDigit ∨ startsIdentifier c ∨ ∃ p : Punct, c = p.toChar) := by
  cases l
  case identifier name =>
    simp only [IsValid] at h
    simp only [text]
    cases hname : name.toList
    case nil       => simp [hname, isIdentifier] at h
    case cons c cs =>
      simp only [hname, isIdentifier, Bool.and_eq_true] at h
      exact ⟨c, cs, rfl, .inr (.inl h.left)⟩
  case integer =>
    obtain ⟨r, hr⟩ := h
    obtain ⟨c, cs, hcs, hc⟩ := hr.head
    exact ⟨c, cs, hcs, .inl hc⟩
  case punct p        => exact ⟨p.toChar, [], by simp [text], .inr (.inr ⟨p, rfl⟩)⟩
  case endOfStatement => exact h.elim

theorem IsValid.text_pos (h : l.IsValid) : 0 < l.text.length := by
  obtain ⟨c, cs, hcs, -⟩ := h.head
  rw [← String.length_toList, hcs]
  simp

end Lexeme

namespace Lexer

variable {line : Int} {stop : Loc} {c : Char} {cs w rest : List Char} {l : Lexeme}

theorem scan_blank (hc : c ∈ blanks) (n col : Nat) :
    scan line stop (n + 1) col (c :: cs) = scan line stop n (col + 1) cs := by
  simp [scan, isSpace_iff.mpr hc]

theorem scan_comment (hc : c ∈ commentMarks) (n col : Nat) :
    scan line stop n col (c :: cs) = .ok [⟨.endOfStatement, stop⟩] := by
  have hs : isSpace c = false := by
    simp only [commentMarks, List.mem_cons, List.not_mem_nil, or_false] at hc
    rcases hc with rfl | rfl <;> decide
  cases n
  case zero   => rfl
  case succ n => simp [scan, hs, startsComment_iff.mpr hc]

theorem scan_literal {v : Nat} (h : IsLiteral (w ++ rest) w v) (he : Ends rest) (n col : Nat) :
    scan line stop (n + 1) col (w ++ rest) =
      (⟨.integer (String.ofList w) v, ⟨line, col⟩⟩ :: ·) <$>
        scan line stop n (col + w.length) rest := by
  have hlit := literal_of_isLiteral h
  obtain ⟨r, hr, -⟩ := h
  obtain ⟨d, tail, rfl, hd⟩ := hr.numeral.head
  have hic := isIdentifierChar_of_isDigit hd
  rw [List.cons_append] at hlit ⊢
  rw [scan, hlit]
  simp only [not_isSpace_of_isIdentifierChar hic, not_startsComment_of_isIdentifierChar hic, hd,
    Bool.false_eq_true, ↓reduceIte]
  cases rest
  case nil       => rw [scan_nil]; rfl
  case cons c cs => simp [ends_cons.mp he]

theorem scan_literal_error {v : Nat} (h : IsLiteral (w ++ c :: cs) w v) (hc : isIdentifierChar c)
    (n col : Nat) : scan line stop (n + 1) col (w ++ c :: cs) =
      .error (Fault.place (.invalidInteger (String.ofList w) c) ⟨line, col⟩) := by
  have hlit := literal_of_isLiteral h
  obtain ⟨r, hr, -⟩ := h
  obtain ⟨d, tail, rfl, hd⟩ := hr.numeral.head
  have hic := isIdentifierChar_of_isDigit hd
  rw [List.cons_append] at hlit ⊢
  simp [scan, hlit, not_isSpace_of_isIdentifierChar hic, not_startsComment_of_isIdentifierChar hic,
    hd, hc]

theorem scan_lexeme (h : l.Precedes rest) (n col : Nat) :
    scan line stop (n + 1) col (l.text.toList ++ rest) =
      (⟨l, ⟨line, col⟩⟩ :: ·) <$> scan line stop n (col + l.text.length) rest := by
  rw [← String.length_toList]
  cases l
  case identifier name =>
    have hscan : scan line stop (n + 1) col (name.toList ++ rest) = _ :=
      scan_identifier h.left h.right n col
    simpa [Lexeme.text] using hscan
  case integer spelling v =>
    have hscan : scan line stop (n + 1) col (spelling.toList ++ rest) = _ :=
      scan_literal h.left h.right n col
    simpa [Lexeme.text] using hscan
  case punct p        => simpa [Lexeme.text] using scan_punct p n col
  case endOfStatement => exact h.elim

theorem StartsNothing.scan (h : StartsNothing c cs) (n col : Nat) :
    scan line stop (n + 1) col (c :: cs) =
      .error (Fault.place (.invalidCharacter c) ⟨line, col⟩) := by
  have hspace : isSpace c = false := by simpa [← isSpace_iff] using h.blank
  have hcomment : startsComment c = false := by simpa [← startsComment_iff] using h.comment
  have hdigit : c.isDigit = false := by
    by_contra hc
    have hn := isNumeral_singleton (by simpa using hc)
    exact h.lexeme (.integer (String.singleton c) _) ⟨.dec, by simpa using hn⟩
      ⟨cs, by simp [Lexeme.text]⟩
  have hident : startsIdentifier c = false := by
    by_contra hc
    have hi := isIdentifier_singleton (by simpa using hc)
    exact h.lexeme (.identifier (String.singleton c)) (by simpa [Lexeme.IsValid] using hi)
      ⟨cs, by simp [Lexeme.text]⟩
  have hpunct : Punct.ofChar? c = none := by
    by_contra hc
    obtain ⟨p, hp⟩ := Option.ne_none_iff_exists'.mp hc
    have hpc : p.toChar = c := by simpa using List.find?_some hp
    exact h.lexeme (.punct p) trivial ⟨cs, by simp [Lexeme.text, hpc]⟩
  simp [Lexer.scan, hspace, hcomment, hdigit, hident, hpunct]

theorem Stuck.scan {f : Fault} (h : Stuck cs f) {n : Nat} (hn : cs.length ≤ n) (col : Nat) :
    scan line stop n col cs = .error (f.place ⟨line, col⟩) := by
  cases n
  case zero => cases h <;> simp at hn
  case succ n =>
    cases h
    case character h  => exact h.scan n col
    case integer h hc => exact scan_literal_error h hc n col

namespace Splits

variable {col : Nat} {ts : List Token}

theorem nil : Splits line col [] [] :=
  @Splits.done line col [] [] (List.nil_subset _) (by simp)

theorem comment (hc : c ∈ commentMarks) : Splits line col (c :: cs) [] :=
  @Splits.done line col [] (c :: cs) (List.nil_subset _) (by simpa using hc)

theorem front (hl : l.Precedes rest) (h : Splits line (col + l.text.length) rest ts) :
    Splits line col (l.text.toList ++ rest) (⟨l, ⟨line, col⟩⟩ :: ts) :=
  @Splits.token line col [] rest l ts (List.nil_subset _) hl h

theorem blank (hc : c ∈ blanks) (h : Splits line (col + 1) cs ts) :
    Splits line col (c :: cs) ts := by
  cases h
  case done gap comment hgap hcomment =>
    exact @Splits.done line col (c :: gap) comment (List.cons_subset.mpr ⟨hc, hgap⟩) hcomment
  case token gap rest l ts hgap hl h =>
    have hcol : col + 1 + gap.length = col + (c :: gap).length := by simp; omega
    rw [hcol] at h ⊢
    exact @Splits.token line col (c :: gap) rest l ts (List.cons_subset.mpr ⟨hc, hgap⟩) hl h

end Splits

theorem ends_dropWhile (cs : List Char) : Ends (cs.dropWhile isIdentifierChar) := by
  intro c hc
  have hhead := List.head?_dropWhile_not isIdentifierChar cs
  rw [Option.mem_def.mp hc] at hhead
  exact hhead

theorem front_cases (c : Char) (cs : List Char) :
    c ∈ blanks ∨ c ∈ commentMarks ∨
    (∃ (l : Lexeme) (rest : List Char), l.Precedes rest ∧ c :: cs = l.text.toList ++ rest) ∨
    ∃ f, Stuck (c :: cs) f := by
  by_cases hblank : c ∈ blanks
  · exact .inl hblank
  by_cases hcomment : c ∈ commentMarks
  · exact .inr (.inl hcomment)
  refine .inr (.inr ?_)
  by_cases hdigit : c.isDigit
  · have hlit : IsLiteral (c :: cs) _ _ := isLiteral_literal hdigit
    have happ := spelling_append_rest (c :: cs)
    generalize literal (c :: cs) = lit at hlit happ
    obtain ⟨w, v, rest⟩ := lit
    simp only at hlit happ
    rw [← happ] at hlit ⊢
    by_cases he : Ends rest
    · exact .inl ⟨.integer (String.ofList w) v, rest, by simpa [Lexeme.Precedes] using ⟨hlit, he⟩,
        by simp [Lexeme.text]⟩
    · cases rest
      case nil          => exact absurd ends_nil he
      case cons next cs => exact .inr ⟨_, .integer hlit (by simpa [ends_cons] using he)⟩
  by_cases hident : startsIdentifier c
  · refine .inl ⟨.identifier (String.ofList (c :: cs.takeWhile isIdentifierChar)),
      cs.dropWhile isIdentifierChar, ?_, by simp [Lexeme.text]⟩
    exact ⟨by simp [isIdentifier, hident, List.all_takeWhile], ends_dropWhile cs⟩
  by_cases hpunct : ∃ p : Punct, c = p.toChar
  · obtain ⟨p, rfl⟩ := hpunct
    exact .inl ⟨.punct p, cs, trivial, by simp [Lexeme.text]⟩
  refine .inr ⟨_, .character ⟨hblank, hcomment, fun l hl hfront => ?_⟩⟩
  obtain ⟨d, ds, hd, hkind⟩ := hl.head
  rw [hd] at hfront
  cases (List.cons_prefix_cons.mp hfront).left
  tauto

theorem scan_gap {gap : List Char} (hgap : gap ⊆ blanks) (n col : Nat) :
    scan line stop (n + gap.length) col (gap ++ cs) = scan line stop n (col + gap.length) cs := by
  induction gap generalizing col
  case nil => rfl
  case cons c gap ih =>
    obtain ⟨hc, hgap⟩ := List.cons_subset.mp hgap
    rw [List.cons_append, List.length_cons, ← Nat.add_assoc, scan_blank hc, ih hgap]
    congr 1
    omega

theorem Splits.scan {col : Nat} {ts : List Token} (h : Splits line col cs ts) {n : Nat}
    (hn : cs.length ≤ n) : scan line stop n col cs = .ok (ts ++ [⟨.endOfStatement, stop⟩]) := by
  induction h generalizing n
  case done col gap comment hgap hcomment =>
    obtain ⟨m, rfl⟩ := Nat.exists_eq_add_of_le' (Nat.le_of_add_right_le (List.length_append ▸ hn))
    rw [scan_gap hgap]
    cases comment
    case nil            => exact scan_nil m _
    case cons c comment => exact scan_comment (hcomment c rfl) m _
  case token col gap rest l ts hgap hl hs ih =>
    have hpos := hl.isValid.text_pos
    simp only [List.length_append, String.length_toList] at hn
    obtain ⟨m, rfl⟩ : ∃ m, n = m + 1 + gap.length := ⟨n - 1 - gap.length, by omega⟩
    rw [List.append_assoc, scan_gap hgap, scan_lexeme hl, ih (by omega)]
    rfl

theorem Reaches.scan {before : List Char} (h : Reaches cs before rest) {f : Fault}
    (hf : Stuck rest f) {n : Nat} (hn : cs.length ≤ n) (col : Nat) :
    scan line stop n col cs = .error (f.place ⟨line, (col + before.length : Nat)⟩) := by
  induction h generalizing n col
  case start => exact hf.scan hn col
  case blank c cs before rest hc _ ih =>
    obtain ⟨m, rfl⟩ := Nat.exists_eq_add_of_le' (show 1 ≤ n by simp at hn; omega)
    rw [scan_blank hc, ih hf (by simpa using hn), List.length_cons, Nat.add_assoc,
      Nat.add_comm 1]
  case lexeme l cs before rest hl _ ih =>
    have hpos := hl.isValid.text_pos
    simp only [List.length_append, String.length_toList] at hn
    obtain ⟨m, rfl⟩ := Nat.exists_eq_add_of_le' (show 1 ≤ n by omega)
    rw [scan_lexeme hl, ih hf (by omega), List.length_append, String.length_toList, Nat.add_assoc]
    rfl

-- Every line splits into tokens unless a reader of it comes to a place where it is stuck.
theorem splits_or_stuck (line : Int) (cs : List Char) (col : Nat) :
    (∃ ts, Splits line col cs ts) ∨ ∃ before rest f, Reaches cs before rest ∧ Stuck rest f := by
  induction hlen : cs.length using Nat.strongRecOn generalizing cs col
  case ind n ih =>
    cases cs
    case nil       => exact .inl ⟨[], .nil⟩
    case cons c cs =>
      rcases front_cases c cs with hc | hc | ⟨l, rest, hl, heq⟩ | ⟨f, hf⟩
      · rcases ih cs.length (by simp [← hlen]) cs (col + 1) rfl with ⟨ts, hs⟩ | ⟨b, r, f, hr, hf⟩
        · exact .inl ⟨ts, hs.blank hc⟩
        · exact .inr ⟨_, r, f, .blank hc hr, hf⟩
      · exact .inl ⟨[], .comment hc⟩
      · rw [heq] at hlen ⊢
        have hpos := hl.isValid.text_pos
        simp only [List.length_append, String.length_toList] at hlen
        rcases ih rest.length (by omega) rest (col + l.text.length) rfl with
          ⟨ts, hs⟩ | ⟨b, r, f, hr, hf⟩
        · exact .inl ⟨_, .front hl hs⟩
        · exact .inr ⟨_, r, f, .lexeme hl hr, hf⟩
      · exact .inr ⟨[], _, f, .start, hf⟩

theorem Stuck.family {f : Fault} (h : Stuck cs f) : f.family = .lexical := by
  cases h <;> rfl

namespace Splits

variable {col : Nat} {ts : List Token}

theorem places (h : Splits line col cs ts) : ∀ t ∈ ts, ∃ before after,
    cs = before ++ t.lexeme.text.toList ++ after ∧ t.lexeme.Precedes after ∧
      t.loc = ⟨line, (col + before.length : Nat)⟩ := by
  induction h
  case done  => simp
  case token col gap rest l ts hgap hl _ ih =>
    intro t ht
    cases List.mem_cons.mp ht
    case inl ht =>
      subst ht
      exact ⟨gap, rest, rfl, hl, rfl⟩
    case inr ht =>
      obtain ⟨before, after, rfl, hp, hloc⟩ := ih t ht
      refine ⟨gap ++ l.text.toList ++ before, after, by simp, hp, ?_⟩
      rw [hloc, List.length_append, List.length_append, String.length_toList, Nat.add_assoc,
        Nat.add_assoc, Nat.add_assoc]

theorem column_lt (h : Splits line col cs ts) :
    ∀ t ∈ ts, (col : Int) ≤ t.loc.column ∧ t.loc.column < (col + cs.length : Nat) := by
  intro t ht
  obtain ⟨before, after, rfl, hp, hloc⟩ := h.places t ht
  have hpos := hp.isValid.text_pos
  simp only [hloc, List.length_append, String.length_toList]
  omega

theorem columns (h : Splits line col cs ts) :
    (ts.map (·.loc.column) ++ [((col + cs.length : Nat) : Int)]).Pairwise (· < ·) := by
  induction h
  case done  => simp
  case token col gap rest l ts hgap hl hs ih =>
    have hpos := hl.isValid.text_pos
    have hlen : col + (gap ++ l.text.toList ++ rest).length =
        col + gap.length + l.text.length + rest.length := by
      simp only [List.length_append, String.length_toList]
      omega
    rw [hlen, List.map_cons, List.cons_append, List.pairwise_cons]
    refine ⟨fun n hn => ?_, ih⟩
    simp only [List.mem_append, List.mem_map, List.mem_singleton] at hn
    change ((col + gap.length : Nat) : Int) < n
    rcases hn with ⟨t, ht, rfl⟩ | rfl
    · have := (hs.column_lt t ht).left
      omega
    · omega

end Splits

theorem splits_intercalate (line : Int) (ls : List Lexeme) (h : ∀ l ∈ ls, l.IsValid) (col : Nat) :
    ∃ ts, Splits line col ([' '].intercalate (ls.map (·.text.toList))) ts ∧
      ts.map Token.lexeme = ls := by
  induction ls generalizing col
  case nil => exact ⟨[], .nil, rfl⟩
  case cons l ls ih =>
    obtain ⟨hl, hls⟩ := List.forall_mem_cons.mp h
    cases ls
    case nil =>
      have heq : [' '].intercalate ([l].map (·.text.toList)) = l.text.toList ++ [] := by
        simp [List.intercalate]
      rw [heq]
      exact ⟨[_], .front (hl.precedes ends_nil) .nil, rfl⟩
    case cons l' ls =>
      obtain ⟨ts, hs, hts⟩ := ih hls (col + l.text.length + 1)
      have heq : [' '].intercalate ((l :: l' :: ls).map (·.text.toList)) =
          l.text.toList ++ ' ' :: [' '].intercalate ((l' :: ls).map (·.text.toList)) := by
        simp [List.intercalate]
      rw [heq]
      exact ⟨_ :: ts, .front (hl.precedes (ends_cons.mpr (by decide))) (hs.blank (by decide)),
        by simp [hts]⟩

structure IsExact (line : Int) (text : List Char) (ts : List Token) : Prop where
  splits  : Splits line 1 text ts
  columns : (ts.map (·.loc.column) ++ [(text.length + 1 : Int)]).Pairwise (· < ·)
  inner   : ∀ t ∈ ts, t.lexeme ≠ .endOfStatement
  places  : ∀ t ∈ ts, ∃ before after, text = before ++ t.lexeme.text.toList ++ after ∧
    t.loc = ⟨line, before.length + 1⟩ ∧ t.lexeme.Precedes after

theorem Splits.isExact {ts : List Token} (h : Splits line 1 cs ts) : IsExact line cs ts where
  splits  := h
  columns := by
    have := h.columns
    rwa [Nat.add_comm] at this
  inner   := by
    intro t ht heq
    obtain ⟨before, after, -, hp, -⟩ := h.places t ht
    rw [heq] at hp
    exact hp
  places  := by
    intro t ht
    obtain ⟨before, after, htext, hp, hloc⟩ := h.places t ht
    exact ⟨before, after, htext, by rw [hloc, Nat.add_comm]; rfl, hp⟩

end Lexer

open Lexer

variable {line : Int} {text : String}

theorem tokenize_of_splits {ts : List Token} (h : Splits line 1 text.toList ts) :
    tokenize line text = .ok (ts ++ [⟨.endOfStatement, ⟨line, text.toList.length + 1⟩⟩]) :=
  h.scan (Nat.le_refl _)

theorem tokenize_of_stuck {before rest : List Char} {f : Fault}
    (h : Reaches text.toList before rest) (hf : Stuck rest f) :
    tokenize line text = .error (f.place ⟨line, before.length + 1⟩) := by
  have herr : tokenize line text = .error (f.place ⟨line, (1 + before.length : Nat)⟩) :=
    h.scan hf (Nat.le_refl _) 1
  rwa [Nat.add_comm] at herr

theorem tokenize_eq_ok_iff {ts : List Token} : tokenize line text = .ok ts ↔
    ∃ init, ts = init ++ [⟨.endOfStatement, ⟨line, text.toList.length + 1⟩⟩] ∧
      IsExact line text.toList init := by
  constructor
  · intro h
    rcases splits_or_stuck line text.toList 1 with ⟨init, hs⟩ | ⟨before, rest, f, hr, hf⟩
    · rw [tokenize_of_splits hs, Except.ok.injEq] at h
      exact ⟨init, h.symm, hs.isExact⟩
    · rw [tokenize_of_stuck hr hf] at h
      cases h
  · rintro ⟨init, rfl, hexact⟩
    exact tokenize_of_splits hexact.splits

theorem tokenize_eq_error_iff {e : Error} : tokenize line text = .error e ↔
    ∃ before rest f, Reaches text.toList before rest ∧ Stuck rest f ∧
      e = f.place ⟨line, before.length + 1⟩ := by
  constructor
  · intro h
    rcases splits_or_stuck line text.toList 1 with ⟨init, hs⟩ | ⟨before, rest, f, hr, hf⟩
    · rw [tokenize_of_splits hs] at h
      cases h
    · rw [tokenize_of_stuck hr hf, Except.error.injEq] at h
      exact ⟨before, rest, f, hr, hf, h.symm⟩
  · rintro ⟨before, rest, f, hr, hf, rfl⟩
    exact tokenize_of_stuck hr hf

-- A line is tokenized exactly: the tokens are all that stands in it but blanks and a comment, each
-- at its place; it is refused where nothing begins or an integer runs on into a word; and whatever
-- lexemes are written with spaces between them are read back.
theorem tokenize_exact (line : Int) (text : String) :
    (∀ ts, tokenize line text = .ok ts ↔
      ∃ init, ts = init ++ [⟨.endOfStatement, ⟨line, text.toList.length + 1⟩⟩] ∧
        IsExact line text.toList init) ∧
    (∀ e, tokenize line text = .error e ↔
      ∃ before rest f, Reaches text.toList before rest ∧ Stuck rest f ∧
        e = f.place ⟨line, before.length + 1⟩) ∧
    (∀ e, tokenize line text = .error e → e.fault.family = .lexical) ∧
    ∀ ls : List Lexeme, (∀ l ∈ ls, l.IsValid) →
      ∃ ts stop, tokenize line (" ".intercalate (ls.map Lexeme.text)) =
          .ok (ts ++ [⟨.endOfStatement, stop⟩]) ∧
        ts.map Token.lexeme = ls := by
  refine ⟨fun _ => tokenize_eq_ok_iff, fun _ => tokenize_eq_error_iff, fun e he => ?_,
    fun ls hls => ?_⟩
  · obtain ⟨_, _, f, -, hf, rfl⟩ := tokenize_eq_error_iff.mp he
    exact hf.family
  · obtain ⟨ts, hs, hts⟩ := splits_intercalate line ls hls 1
    refine ⟨ts, _, tokenize_of_splits ?_, hts⟩
    simpa [String.toList_intercalate, Function.comp_def] using hs

end Asm88000
