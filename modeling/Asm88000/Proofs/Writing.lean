import Asm88000.InstructionSet
import Asm88000.Proofs.ExprParser
import Asm88000.Proofs.Register

namespace Asm88000

open Lexer

def Lexeme.number (n : Nat) : Lexeme :=
  .integer (String.ofList (Nat.toDigits 10 n)) n

namespace Expr

inductive IsAddress : Expr → Prop
  | symbol {name : String} : isIdentifier name.toList → IsAddress (.symbol name)
  | offset {name : String} {v : Int} :
    isIdentifier name.toList → v ≠ 0 → IsAddress (.sum "+" (.symbol name) (.const v))

-- What a branch goes to: an even distance below `max`, a symbol, or a symbol and such a distance.
inductive IsTarget (max : Int) : Expr → Prop
  | distance {v : Int} : v % 2 = 0 → -max ≤ v → v < max → IsTarget max (.const v)
  | symbol {name : String} : isIdentifier name.toList → IsTarget max (.symbol name)
  | offset {name : String} {v : Int} :
    isIdentifier name.toList → v ≠ 0 → v % 2 = 0 → -max ≤ v → v < max →
    IsTarget max (.sum "+" (.symbol name) (.const v))

def lexemes : Expr → List Lexeme
  | const v           => if v < 0 then [.punct .minus, .number v.natAbs] else [.number v.natAbs]
  | symbol name       => [.identifier name]
  | sum _ l (const v) =>
    l.lexemes ++ [.punct (if v < 0 then .minus else .plus), .number v.natAbs]
  | half sel sub      => .identifier sel :: .punct .lparen :: (sub.lexemes ++ [.punct .rparen])
  | _                 => []

theorem lexemes_natCast (n : Nat) : lexemes (.const n) = [.number n] := by
  simp [lexemes, Int.not_lt.mpr (Int.natCast_nonneg n)]

theorem writes_const (v : Int) : Writes (toText (.const v)).toList (lexemes (.const v)) := by
  simp only [toText, lexemes, toList_decimal]
  split
  · exact .punct .minus (.integer _)
  · exact .integer _

theorem writes_symbol {name : String} (h : isIdentifier name.toList) :
    Writes (toText (.symbol name)).toList (lexemes (.symbol name)) := by
  simpa [toText, lexemes] using Writes.identifier h

theorem writes_offset {name : String} {v : Int} (h : isIdentifier name.toList) :
    Writes (toText (.sum "+" (.symbol name) (.const v))).toList
      (lexemes (.sum "+" (.symbol name) (.const v))) := by
  by_cases hv : v < 0
  case pos =>
    have hneg : ¬-v < 0 := by omega
    simp only [toText, lexemes, hv, ↓reduceIte, String.toList_append, toList_decimal, hneg,
      List.nil_append, Int.natAbs_neg, List.append_assoc]
    exact (writes_symbol h).append (.punct .minus (.integer _)) (ends_punct .minus _)
  case neg =>
    simp only [toText, lexemes, hv, ↓reduceIte, String.toList_append, toList_decimal,
      List.nil_append, List.append_assoc]
    exact (writes_symbol h).append (.punct .plus (.integer _)) (ends_punct .plus _)

theorem IsAddress.writes {e : Expr} (h : e.IsAddress) : Writes e.toText.toList e.lexemes := by
  cases h
  case symbol h   => exact writes_symbol h
  case offset h _ => exact writes_offset h

theorem IsTarget.writes {max : Int} {e : Expr} (h : e.IsTarget max) :
    Writes e.toText.toList e.lexemes := by
  cases h
  case distance v _ _ _ => exact writes_const v
  case symbol h         => exact writes_symbol h
  case offset h _ _ _ _ => exact writes_offset h

theorem isIdentifier_of_isHalfSelector {sel : String} (h : isHalfSelector sel) :
    isIdentifier sel.toList := by
  simp only [isHalfSelector, Bool.or_eq_true, decide_eq_true_eq] at h
  rcases h with rfl | rfl <;> decide

theorem writes_half {sel : String} {sub : Expr} (hsel : isHalfSelector sel) (h : sub.IsAddress) :
    Writes (toText (.half sel sub)).toList (lexemes (.half sel sub)) := by
  have hsub : Writes (sub.toText.toList ++ [')']) (sub.lexemes ++ [.punct .rparen]) :=
    h.writes.append (.punct .rparen .nil) (ends_punct .rparen [])
  have hopen : Writes ('(' :: (sub.toText.toList ++ [')']))
      (.punct .lparen :: (sub.lexemes ++ [.punct .rparen])) :=
    .punct .lparen hsub
  have hname := Writes.identifier (isIdentifier_of_isHalfSelector hsel)
  simpa [toText, lexemes] using hname.append hopen (ends_punct .lparen _)

theorem derives_number (n : Nat) : Derives none [.number n] (.const n) :=
  .integer

theorem written_const (v : Int) : Written (lexemes (.const v)) (.const v) := by
  refine ⟨_, [], _, (List.append_nil _).symm, ?_, .done⟩
  unfold lexemes
  split
  case isTrue hv =>
    have h := (derives_number v.natAbs).minus
    rwa [show -(v.natAbs : Int) = v by omega] at h
  case isFalse hv =>
    have h := derives_number v.natAbs
    rwa [show (v.natAbs : Int) = v by omega] at h

theorem written_symbol (name : String) : Written (lexemes (.symbol name)) (.symbol name) :=
  ⟨_, [], _, rfl, .symbol, .done⟩

theorem written_offset (name : String) (v : Int) :
    Written (lexemes (.sum "+" (.symbol name) (.const v)))
    (.sum "+" (.symbol name) (.const v)) := by
  refine ⟨_, _, _, rfl, .symbol, ?_⟩
  split
  case isTrue hv =>
    have h := Derives.sub (e := .symbol name) (derives_number v.natAbs) .done
    rwa [show -(v.natAbs : Int) = v by omega] at h
  case isFalse hv =>
    have h := Derives.add (e := .symbol name) (derives_number v.natAbs) .done
    rwa [show (v.natAbs : Int) = v by omega] at h

theorem IsAddress.written {e : Expr} (h : e.IsAddress) : Written e.lexemes e := by
  cases h
  case symbol => exact written_symbol _
  case offset => exact written_offset _ _

theorem IsTarget.written {max : Int} {e : Expr} (h : e.IsTarget max) : Written e.lexemes e := by
  cases h
  case distance v _ _ _ => exact written_const v
  case symbol           => exact written_symbol _
  case offset           => exact written_offset _ _

theorem written_half {sel : String} {sub : Expr} (hsel : isHalfSelector sel)
    (h : sub.IsAddress) : Written (lexemes (.half sel sub)) (.half sel sub) := by
  have ⟨ls₁, ls₂, t, hls, ht, he⟩ := h.written
  refine ⟨_, [], _, (List.append_nil _).symm, ?_, .done⟩
  rw [lexemes, hls, List.append_assoc]
  exact .half hsel ht he

end Expr

namespace OperandClass

inductive Admits : OperandClass → OperandValue → Prop
  | gpr (n : Fin 32) : Admits .gpr (.register (Register.gpr n).id)
  | gpr64 (n : Fin 32) : Admits .gpr64 (.register (Register.gpr n).id)
  | cr (n : Fin 64) : Admits .cr (.register (Register.cr n).id)
  | fcr (n : Fin 64) : Admits .fcr (.register (Register.fcr n).id)
  | u5 {v : Nat} : v ≤ 31 → Admits .u5 (.immediate (.const v))
  | vec9 {v : Nat} : v ≤ 511 → Admits .vec9 (.immediate (.const v))
  | conditionCode {v : Nat} : v ≤ 31 → Admits .conditionCode (.immediate (.const v))
  | bitfieldWidth {v : Nat} : v ≤ 31 → Admits .bitfieldWidth (.immediate (.const v))
  | bitfieldOffset {v : Nat} : v ≤ 31 → Admits .bitfieldOffset (.immediate (.const v))
  | pixelRotation {v : Nat} : v ≤ 60 → v % 4 = 0 → Admits .pixelRotation (.immediate (.const v))
  | u16 {v : Nat} : v ≤ 0xFFFF → Admits .u16 (.immediate (.const v))
  | half {sel : String} {sub : Expr} :
    Expr.isHalfSelector sel → sub.IsAddress → Admits .u16 (.immediate (.half sel sub))
  | displacement16 {e : Expr} : e.IsTarget 0x40000 → Admits .displacement16 (.immediate e)
  | displacement26 {e : Expr} : e.IsTarget 0x10000000 → Admits .displacement26 (.immediate e)
  | less : Admits .less (.token "<")
  | greater : Admits .greater (.token ">")
  | lbrack : Admits .lbrack (.token "[")
  | rbrack : Admits .rbrack (.token "]")

def punct? : OperandClass → Option Punct
  | less    => some .less
  | greater => some .greater
  | lbrack  => some .lbrack
  | rbrack  => some .rbrack
  | _       => none

def write (cls : OperandClass) : OperandValue → String
  | .token text  => text
  | .register id => "%" ++ (Register.ofId? id).elim "" Register.name
  | .immediate e => if cls = pixelRotation then "<" ++ (e.toText ++ ">") else e.toText

def lexemes (cls : OperandClass) : OperandValue → List Lexeme
  | .token _     => cls.punct?.toList.map .punct
  | .register id => [.punct .percent, .identifier ((Register.ofId? id).elim "" Register.name)]
  | .immediate e =>
    if cls = pixelRotation then .punct .less :: (e.lexemes ++ [.punct .greater]) else e.lexemes

-- Brackets touch what they are brackets of, and a width touches its offset. Elsewhere there is a
-- comma.
def touches : OperandClass → OperandClass → Bool
  | _,             greater => true
  | _,             lbrack  => true
  | _,             rbrack  => true
  | less,          _       => true
  | lbrack,        _       => true
  | bitfieldWidth, less    => true
  | _,             _       => false

def writeTail (cls : OperandClass) : List OperandClass → List OperandValue → String
  | cls' :: classes, v :: vs =>
    (if cls.touches cls' then "" else ", ") ++ (cls'.write v ++ writeTail cls' classes vs)
  | _, _ => ""

def lexemesTail (cls : OperandClass) : List OperandClass → List OperandValue → List Lexeme
  | cls' :: classes, v :: vs =>
    (if cls.touches cls' then [] else [.punct .comma]) ++
      (cls'.lexemes v ++ lexemesTail cls' classes vs)
  | _, _ => []

end OperandClass

namespace Entry

def write (e : Entry) (vs : List OperandValue) : String :=
  match e.classes, vs with
  | cls :: classes, v :: vs => e.mnemonic ++ (" " ++ (cls.write v ++ cls.writeTail classes vs))
  | _, _                    => e.mnemonic

def operandLexemes (e : Entry) (vs : List OperandValue) : List Lexeme :=
  match e.classes, vs with
  | cls :: classes, v :: vs => cls.lexemes v ++ cls.lexemesTail classes vs
  | _, _                    => []

end Entry

namespace OperandClass

variable {cls cls' : OperandClass} {v : OperandValue} {cs : List Char} {ls : List Lexeme}

theorem Admits.token_of_punct? {p : Punct} (h : cls.Admits v) (hp : cls.punct? = some p) :
    (cls.write v).toList = [p.toChar] ∧ cls.lexemes v = [.punct p] := by
  cases h <;> simp only [punct?, Option.some.injEq, reduceCtorEq] at hp <;> subst hp <;>
    exact ⟨rfl, rfl⟩

theorem writes_register {r : Register} (h : r.hasSpelling) :
    Writes (cls.write (.register r.id)).toList (cls.lexemes (.register r.id)) := by
  simp only [write, lexemes, Register.ofId?_id, Option.elim_some]
  simpa [Punct.toChar] using Writes.punct .percent (.identifier (Register.isIdentifier_name h))

theorem Admits.writes (h : cls.Admits v) : Writes (cls.write v).toList (cls.lexemes v) := by
  cases h
  case gpr | gpr64 | cr | fcr => exact writes_register rfl
  case u5 | vec9 | conditionCode | bitfieldWidth | bitfieldOffset | u16 => exact Expr.writes_const _
  case half hsel hsub   => exact Expr.writes_half hsel hsub
  case displacement16 h => exact h.writes
  case displacement26 h => exact h.writes
  case less             => exact .punct .less .nil
  case greater          => exact .punct .greater .nil
  case lbrack           => exact .punct .lbrack .nil
  case rbrack           => exact .punct .rbrack .nil
  case pixelRotation v _ _ =>
    have hclose := (Expr.writes_const v).append (.punct .greater .nil) (ends_punct .greater [])
    simpa [write, lexemes, Punct.toChar] using Writes.punct .less hclose

theorem Admits.written {e : Expr} (h : cls.Admits (.immediate e)) : Expr.Written e.lexemes e := by
  cases h
  case half hsel hsub   => exact Expr.written_half hsel hsub
  case displacement16 h => exact h.written
  case displacement26 h => exact h.written
  all_goals exact Expr.written_const _

theorem Admits.writes_append (h : cls.Admits v) (hw : Writes cs ls)
    (he : cls.punct? = none → Ends cs) :
    Writes ((cls.write v).toList ++ cs) (cls.lexemes v ++ ls) := by
  cases hp : cls.punct?
  case none   => exact h.writes.append hw (he hp)
  case some p =>
    have ⟨hwrite, hlexemes⟩ := h.token_of_punct? hp
    rw [hwrite, hlexemes]
    exact .punct p hw

theorem punct?_of_touches (ht : cls.touches cls') (hp : cls.punct? = none) :
    ∃ p, cls'.punct? = some p := by
  unfold touches at ht
  split at ht <;> simp_all [punct?]

theorem ends_writeTail {classes : List OperandClass} {vs : List OperandValue}
    (h : List.Forall₂ Admits classes vs) (hp : cls.punct? = none) :
    Ends (cls.writeTail classes vs).toList := by
  cases h
  case nil => exact ends_nil
  case cons cls' v classes vs hv _ =>
    simp only [writeTail, String.toList_append]
    split
    case isFalse => exact ends_punct .comma _
    case isTrue ht =>
      obtain ⟨p, hp⟩ := punct?_of_touches ht hp
      rw [(hv.token_of_punct? hp).left]
      exact ends_punct p _

theorem writes_tail {classes : List OperandClass} {vs : List OperandValue}
    (h : List.Forall₂ Admits classes vs) (cls : OperandClass) :
    Writes (cls.writeTail classes vs).toList (cls.lexemesTail classes vs) := by
  induction h generalizing cls
  case nil => exact .nil
  case cons cls' v classes vs hv htail ih =>
    have hrest := hv.writes_append (ih cls') (ends_writeTail htail)
    simp only [writeTail, lexemesTail, String.toList_append]
    split
    · exact hrest
    · exact .punct .comma (.space (by decide) hrest)

end OperandClass

theorem Entry.writes {e : Entry} {vs : List OperandValue}
    (h : List.Forall₂ OperandClass.Admits e.classes vs) (hm : isIdentifier e.mnemonic.toList) :
    Writes (e.write vs).toList (.identifier e.mnemonic :: e.operandLexemes vs) := by
  have hm := Writes.identifier hm
  rw [String.ofList_toList] at hm
  unfold write operandLexemes
  generalize e.classes = classes at h
  cases h
  case nil => exact hm
  case cons cls v classes vs hv htail =>
    have hrest := hv.writes_append (OperandClass.writes_tail htail cls)
      (OperandClass.ends_writeTail htail)
    simp only [String.toList_append]
    exact hm.append (.space (by decide) hrest) (ends_cons.mpr (by decide))

end Asm88000
