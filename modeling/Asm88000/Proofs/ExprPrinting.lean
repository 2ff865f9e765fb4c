import Asm88000.Proofs.Execution
import Asm88000.Proofs.ExprGrammar
import Asm88000.Proofs.Tokenization
import Asm88000.Proofs.Writing

namespace Asm88000

namespace Expr

open Lexer TokenM

def isSum : Expr → Bool
  | sum _ _ _ => true
  | _         => false

def isLeftNested : Expr → Bool
  | sum _ l r  => !r.isSum && l.isLeftNested && r.isLeftNested
  | half _ sub => sub.isLeftNested
  | _          => true

-- The trees that are read from tokens.
inductive IsParsed : Expr → Prop
  | const (v : Int) : IsParsed (.const v)
  | symbol {name : String} : isIdentifier name.toList → IsParsed (.symbol name)
  | sum {l r : Expr} :
    l.constant? = none ∨ r.constant? = none → IsParsed l → IsParsed r → IsParsed (.sum "+" l r)
  | half {sel : String} {sub : Expr} :
    isHalfSelector sel → IsParsed sub → IsParsed (.half sel sub)

section

variable {l r e : Expr} {ls : List Lexeme}

theorem add_eq_sum (h : l.constant? = none ∨ r.constant? = none) : l.add r = .sum "+" l r := by
  cases l <;> cases r <;> simp [constant?] at h <;> rfl

theorem IsParsed.add (hl : l.IsParsed) (hr : r.IsParsed) : (l.add r).IsParsed := by
  by_cases h : l.constant? = none ∨ r.constant? = none
  case pos =>
    rw [add_eq_sum h]
    exact .sum h hl hr
  case neg =>
    cases l <;> cases r <;> simp [constant?] at h
    exact .const _

theorem Derives.isParsed {o : Option Expr} (h : Derives o ls e)
    (hls : ∀ name, .identifier name ∈ ls → isIdentifier name.toList) (ho : ∀ t ∈ o, t.IsParsed) :
    e.IsParsed := by
  induction h
  case integer => exact .const _
  case symbol  => exact .symbol (hls _ (by simp))
  case plus ih => exact ih (fun n hn => hls n (by simp [hn])) (by simp)
  case minus   => exact .const _
  case paren iht ihe =>
    have ht := iht (fun n hn => hls n (by simp [hn])) (by simp)
    exact ihe (fun n hn => hls n (by simp [hn])) (by simpa using ht)
  case half hsel _ _ iht ihe =>
    have ht := iht (fun n hn => hls n (by simp [hn])) (by simp)
    exact .half hsel (ihe (fun n hn => hls n (by simp [hn])) (by simpa using ht))
  case done => exact ho _ rfl
  case add iht ihr =>
    have ht := iht (fun n hn => hls n (by simp [hn])) (by simp)
    exact ihr (fun n hn => hls n (by simp [hn])) (by simpa using (ho _ rfl).add ht)
  case sub v _ _ _ _ ihr =>
    have ht := (ho _ rfl).add (.const (-v))
    exact ihr (fun n hn => hls n (by simp [hn])) (by simpa using ht)

theorem Written.isParsed (h : Written ls e)
    (hls : ∀ name, .identifier name ∈ ls → isIdentifier name.toList) : e.IsParsed := by
  obtain ⟨ls₁, ls₂, t, rfl, ht, he⟩ := h
  have ht := ht.isParsed (fun n hn => hls n (by simp [hn])) (by simp)
  exact he.isParsed (fun n hn => hls n (by simp [hn])) (by simpa using ht)

end

namespace Phrase

def join (p : Phrase .sum) : Phrase .sum → Phrase .sum
  | single t => add p t
  | add e t  => add (p.join e) t
  | sub e t  => sub (p.join e) t

def number (n : Nat) : Phrase .term :=
  integer (String.ofList (Nat.toDigits 10 n)) n

variable {p q : Phrase .sum}

theorem lexemes_join : (p.join q).lexemes = p.lexemes ++ .punct .plus :: q.lexemes := by
  fun_induction join p q
  case case1       => rfl
  case case2 e t ih => simp [lexemes, ih]
  case case3 e t ih => simp [lexemes, ih]

theorem value_join (env : String → Int) : (p.join q).value env = p.value env + q.value env := by
  fun_induction join p q
  case case1        => rfl
  case case2 e t ih => simp only [value, ih]; omega
  case case3 e t ih => simp only [value, ih]; omega

theorem isRegular_join (hp : p.isRegular) (hq : q.isRegular) : (p.join q).isRegular := by
  fun_induction join p q
  case case1 t      => simpa [isRegular, hp] using hq
  case case2 e t ih =>
    simp only [isRegular, Bool.and_eq_true] at hq ⊢
    exact ⟨ih hq.left, hq.right⟩
  case case3 e t ih =>
    simp only [isRegular, Bool.and_eq_true] at hq ⊢
    exact ⟨ih hq.left, hq.right⟩

end Phrase

structure Prints (e : Expr) (p : Phrase .sum) : Prop where
  writes  : Writes e.toText.toList p.lexemes
  regular : p.isRegular
  value   : ∀ env, (e.assign env).value? = some (p.value env)
  single  : e.isSum = false → ∃ t, p = .single t
  tree    : e.isLeftNested → p.tree? = some e

section

variable {l r sub : Expr} {p q : Phrase .sum}

theorem toText_sum (s : String) (h : r.constant? = none) :
    toText (.sum s l r) = l.toText ++ s ++ r.toText := by
  cases r
  case const => simp [constant?] at h
  all_goals rfl

theorem prints_const (v : Int) : ∃ p, Prints (.const v) p := by
  by_cases hv : v < 0
  case pos =>
    have habs : -(v.natAbs : Int) = v := by omega
    have hwrites := writes_const v
    rw [lexemes, if_pos hv] at hwrites
    refine ⟨.single (.minus (.number v.natAbs)), hwrites, rfl, fun env => ?_, fun _ => ⟨_, rfl⟩,
      fun _ => Phrase.tree?_minus.mpr ⟨_, rfl, congrArg Expr.const habs⟩⟩
    exact congrArg some habs.symm
  case neg =>
    have habs : (v.natAbs : Int) = v := by omega
    have hwrites := writes_const v
    rw [lexemes, if_neg hv] at hwrites
    refine ⟨.single (.number v.natAbs), hwrites, rfl, fun env => ?_, fun _ => ⟨_, rfl⟩,
      fun _ => congrArg (some ∘ Expr.const) habs⟩
    exact congrArg some habs.symm

theorem prints_symbol {name : String} (h : isIdentifier name.toList) :
    Prints (.symbol name) (.single (.symbol name)) where
  writes  := writes_symbol h
  regular := rfl
  value _ := rfl
  single _ := ⟨_, rfl⟩
  tree _  := rfl

theorem Prints.half {sel : String} (h : Prints sub p) (hsel : isHalfSelector sel) :
    Prints (.half sel sub) (.single (.half sel hsel p)) where
  writes := by
    have hclose : Writes (sub.toText.toList ++ [')']) (p.lexemes ++ [.punct .rparen]) :=
      h.writes.append (.punct .rparen .nil) (ends_punct .rparen [])
    have hopen : Writes ('(' :: (sub.toText.toList ++ [')']))
        (.punct .lparen :: (p.lexemes ++ [.punct .rparen])) :=
      .punct .lparen hclose
    have hword := Writes.identifier (isIdentifier_of_isHalfSelector hsel)
    simpa [toText, Phrase.lexemes] using hword.append hopen (ends_punct .lparen _)
  regular := h.regular
  value env := by
    simp [assign, value?, h.value, Phrase.value, selectHalf_eq_halfBits]
  single _ := ⟨_, rfl⟩
  tree hn := Phrase.tree?_half.mpr ⟨sub, h.tree hn, rfl⟩

theorem Prints.offset (h : Prints l p) (hl : l.constant? = none) (v : Int) :
    ∃ p, Prints (.sum "+" l (.const v)) p := by
  have hsum {z : Int} (hz : z = v) : l.add (.const z) = .sum "+" l (.const v) := by
    rw [add_eq_sum (.inl hl), hz]
  have hnested (hn : isLeftNested (.sum "+" l (.const v))) : l.isLeftNested := by
    simpa [isLeftNested, isSum] using hn
  by_cases hv : v < 0
  case pos =>
    have habs : -(v.natAbs : Int) = v := by omega
    refine ⟨.sub p (.number v.natAbs), ?_, ?_, fun env => ?_, by simp [isSum], fun hn => ?_⟩
    · have htext : (toText (.sum "+" l (.const v))).toList =
          l.toText.toList ++ '-' :: Nat.toDigits 10 v.natAbs := by
        simp [toText, hv, toList_decimal, show ¬0 < v by omega]
      rw [htext]
      exact h.writes.append (.punct .minus (.integer v.natAbs)) (ends_punct .minus _)
    · simpa [Phrase.isRegular, Phrase.isConstant, Phrase.number] using h.regular
    · simp only [assign, value?, h.value, Phrase.value, Phrase.number, bind, Option.bind, pure,
        Option.some.injEq]
      omega
    · exact Phrase.tree?_sub.mpr ⟨l, v.natAbs, h.tree (hnested hn), rfl, hsum habs⟩
  case neg =>
    have habs : (v.natAbs : Int) = v := by omega
    refine ⟨.add p (.number v.natAbs), ?_, ?_, fun env => ?_, by simp [isSum], fun hn => ?_⟩
    · have htext : (toText (.sum "+" l (.const v))).toList =
          l.toText.toList ++ '+' :: Nat.toDigits 10 v.natAbs := by
        simp [toText, hv, toList_decimal]
      rw [htext]
      exact h.writes.append (.punct .plus (.integer v.natAbs)) (ends_punct .plus _)
    · simpa [Phrase.isRegular, Phrase.number] using h.regular
    · simp only [assign, value?, h.value, Phrase.value, Phrase.number, bind, Option.bind, pure,
        Option.some.injEq]
      omega
    · exact Phrase.tree?_add.mpr ⟨l, .const v.natAbs, h.tree (hnested hn), rfl, hsum habs⟩

theorem Prints.sum (hp : Prints l p) (hq : Prints r q) (hr : r.constant? = none) :
    Prints (.sum "+" l r) (p.join q) where
  writes := by
    have hplus := hp.writes.append (.punct .plus hq.writes) (ends_punct .plus _)
    rw [toText_sum "+" hr, Phrase.lexemes_join, String.toList_append, String.toList_append,
      List.append_assoc]
    exact hplus
  regular := Phrase.isRegular_join hp.regular hq.regular
  value env := by
    simp [assign, value?, hp.value, hq.value, Phrase.value_join]
  single := by simp [isSum]
  tree hn := by
    simp only [isLeftNested, Bool.and_eq_true, Bool.not_eq_true'] at hn
    obtain ⟨⟨hsum, hl⟩, hrn⟩ := hn
    obtain ⟨t, rfl⟩ := hq.single hsum
    rw [Phrase.join]
    exact Phrase.tree?_add.mpr ⟨l, r, hp.tree hl, hq.tree hrn, add_eq_sum (.inr hr)⟩

theorem IsParsed.exists_prints {e : Expr} (h : e.IsParsed) : ∃ p, Prints e p := by
  induction h
  case const v  => exact prints_const v
  case symbol h => exact ⟨_, prints_symbol h⟩
  case half hsel _ ih =>
    obtain ⟨p, hp⟩ := ih
    exact ⟨_, hp.half hsel⟩
  case sum l r hconst _ _ ihl ihr =>
    obtain ⟨p, hp⟩ := ihl
    obtain ⟨q, hq⟩ := ihr
    cases hr : r.constant?
    case none   => exact ⟨_, hp.sum hq hr⟩
    case some v =>
      obtain rfl := constant?_eq_some.mp hr
      exact hp.offset (hconst.resolve_right (by simp [constant?])) v

end

theorem parse_of_written {ts : List Token} {e : Expr} (he : Written (ts.map Token.lexeme) e)
    (stop : Loc) : ∃ c, parse (Cursor.ofTokens (ts ++ [⟨.endOfStatement, stop⟩])) = .ok (some e) c ∧
      c.ahead = [] := by
  have hreads : TokenM.Reads parse (ts.map Token.lexeme) [] (some e) :=
    he.parse_reads (Closes.stops (by simp [Closes]) _)
  obtain ⟨_, c, hparse, rfl, hc⟩ := (hreads ⟨[], ts, stop⟩ (by simp [Cursor.lexemes])).exists_ok
  refine ⟨c, ?_, List.map_eq_nil_iff.mp hc⟩
  rw [Cursor.ofTokens_append_stop, hparse]

theorem parse_of_writes {text : String} {ls : List Lexeme} {e : Expr} (hw : Writes text.toList ls)
    (he : Written ls e) (line : Int) : ∃ ts c, tokenize line text = .ok ts ∧
      parse (Cursor.ofTokens ts) = .ok (some e) c ∧ c.ahead = [] := by
  obtain ⟨ts, stop, htok, rfl⟩ := tokenize_of_spells hw.spells line
  obtain ⟨c, hc⟩ := parse_of_written he stop
  exact ⟨_, c, htok, hc⟩

theorem isParsed_of_parse {line : Int} {text : String} {ts : List Token} {c d : Cursor} {e : Expr}
    (htok : tokenize line text = .ok ts) (hc : (Cursor.ofTokens ts).LeadsTo c)
    (h : parse c = .ok (some e) d) : e.IsParsed := by
  obtain ⟨init, rfl, hexact⟩ := tokenize_eq_ok_iff.mp htok
  obtain ⟨ls, hls, hwritten, -⟩ := (parse_ensures c).ok h e rfl
  rw [Cursor.ofTokens_append_stop] at hc
  obtain ⟨us, hinit, -⟩ := hc
  refine hwritten.isParsed fun name hname => ?_
  obtain ⟨ts, rfl, hahead, -⟩ := hls
  obtain ⟨t, ht, hlexeme⟩ := List.mem_map.mp hname
  obtain ⟨_, _, -, -, hprecedes⟩ := hexact.places t (by
    change init = us ++ c.ahead at hinit
    simp [hinit, hahead, ht])
  have hvalid := hprecedes.isValid
  rwa [hlexeme] at hvalid

-- A printed expression is read again as a whole, and has the value it had whatever its symbols
-- stand for. It is the same tree if its sums were associated to the left.
theorem parse_toText_of_parse {line : Int} {text : String} {ts : List Token} {c d : Cursor}
    {e : Expr} (htok : tokenize line text = .ok ts) (hc : (Cursor.ofTokens ts).LeadsTo c)
    (h : parse c = .ok (some e) d) (line' : Int) :
    ∃ us e' d', tokenize line' e.toText = .ok us ∧
      parse (Cursor.ofTokens us) = .ok (some e') d' ∧ d'.ahead = [] ∧
      (∀ env, ∃ v, (e.assign env).value? = some v ∧ (e'.assign env).value? = some v) ∧
      (e.isLeftNested → e' = e) := by
  obtain ⟨p, hp⟩ := (isParsed_of_parse htok hc h).exists_prints
  obtain ⟨e', he'⟩ := Phrase.isRegular_iff.mp hp.regular
  obtain ⟨us, d', hus, hparse, hd'⟩ := parse_of_writes hp.writes (Phrase.derives he') line'
  refine ⟨us, e', d', hus, hparse, hd', fun env => ⟨_, hp.value env, ?_⟩, fun hn => ?_⟩
  · exact Phrase.value_tree? env he'
  · exact Option.some.inj (he'.symm.trans (hp.tree hn))

theorem parse_toText_of_parse_nested :
    ∃ ts e d, tokenize 1 "lo16(a-4)+(2+b)" = .ok ts ∧ parse (.ofTokens ts) = .ok (some e) d ∧
      e = .sum "+" (.half "lo16" (.sum "+" (.symbol "a") (.const (-4))))
        (.sum "+" (.const 2) (.symbol "b")) ∧
      ∃ us e' d', tokenize 2 e.toText = .ok us ∧
        parse (.ofTokens us) = .ok (some e') d' ∧ d'.ahead = [] ∧
        (∀ env, ∃ v, (e.assign env).value? = some v ∧ (e'.assign env).value? = some v) ∧
        (e.isLeftNested → e' = e) := by
  have hread : ((tokenize 1 "lo16(a-4)+(2+b)").toOption.bind fun ts => parse.run' (.ofTokens ts)) =
      some (some (.sum "+" (.half "lo16" (.sum "+" (.symbol "a") (.const (-4))))
        (.sum "+" (.const 2) (.symbol "b")))) := by
    decide +kernel
  cases htok : tokenize 1 "lo16(a-4)+(2+b)"
  case error => simp [htok, Except.toOption] at hread
  case ok ts =>
    simp only [htok, Except.toOption, Option.bind_some] at hread
    obtain ⟨d, hparse⟩ := eq_ok_of_run' hread
    exact ⟨ts, _, d, rfl, hparse, rfl, parse_toText_of_parse htok (.refl _) hparse 2⟩

end Expr
end Asm88000
