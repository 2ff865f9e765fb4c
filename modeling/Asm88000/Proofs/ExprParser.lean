import Mathlib.Tactic.Common
import Asm88000.Proofs.Cursor

namespace Asm88000

namespace TokenM

variable {α β : Type} {a : α} {b : β} {p : TokenM α} {f : α → TokenM β} {l : Lexeme}
variable {ls ls' rest : List Lexeme}

-- With `rest` behind them, the program reads just the lexemes `ls`, and its answer is `a`.
def Reads (p : TokenM α) (ls rest : List Lexeme) (a : α) : Prop :=
  ∀ c : Cursor, c.lexemes = ls ++ rest →
    Ensures p c (fun b d => b = a ∧ d.lexemes = rest) fun _ _ => False

theorem Reads.pure (rest : List Lexeme) (a : α) : Reads (pure a) [] rest a :=
  fun _ hc => ⟨rfl, hc⟩

theorem Reads.bind (hp : Reads p ls (ls' ++ rest) a) (hf : Reads (f a) ls' rest b) :
    Reads (p >>= f) (ls ++ ls') rest b := by
  intro c hc
  refine (hp c (by simpa using hc)).bind (fun a' d hd => ?_) fun _ _ => id
  obtain ⟨rfl, hd⟩ := hd
  exact hf d hd

theorem Reads.last (hp : Reads p ls rest a) (hf : Reads (f a) [] rest b) :
    Reads (p >>= f) ls rest b := by
  rw [← List.append_nil ls]
  exact .bind (by simpa using hp) hf

theorem Reads.skip {f : Unit → TokenM α} (hf : Reads (f ()) ls rest a) (hl : l ≠ .endOfStatement) :
    Reads (TokenM.skip >>= f) (l :: ls) rest a :=
  fun c hc => hf c.advance (Cursor.advance_lexemes hc hl)

theorem Reads.get {f : Cursor → TokenM α}
    (h : ∀ c : Cursor, c.lexemes = ls ++ rest → Reads (f c) ls rest a) :
    Reads (get >>= f) ls rest a :=
  fun c hc => h c hc c hc

end TokenM

namespace Expr

open TokenM

-- A term is derived from `none`, and the rest of a sum from the sum of the terms before it.
inductive Derives : Option Expr → List Lexeme → Expr → Prop
  | integer {spelling v} : Derives none [.integer spelling v] (.const v)
  | symbol {name} : Derives none [.identifier name] (.symbol name)
  | plus {ls e} : Derives none ls e → Derives none (.punct .plus :: ls) e
  | minus {ls v} : Derives none ls (.const v) → Derives none (.punct .minus :: ls) (.const (-v))
  | paren {ls ls' t e} :
    Derives none ls t → Derives (some t) ls' e →
    Derives none (.punct .lparen :: (ls ++ (ls' ++ [.punct .rparen]))) e
  | half {name ls ls' t e} :
    isHalfSelector name → Derives none ls t → Derives (some t) ls' e →
    Derives none (.identifier name :: .punct .lparen :: (ls ++ (ls' ++ [.punct .rparen])))
      (.half name e)
  | done {e} : Derives (some e) [] e
  | add {ls ls' e t r} :
    Derives none ls t → Derives (some (e.add t)) ls' r →
    Derives (some e) (.punct .plus :: (ls ++ ls')) r
  | sub {ls ls' e v r} :
    Derives none ls (.const v) → Derives (some (e.add (.const (-v)))) ls' r →
    Derives (some e) (.punct .minus :: (ls ++ ls')) r

def Closes (ls : List Lexeme) : Prop :=
  ∀ l ∈ ls.head?, l ≠ .punct .plus ∧ l ≠ .punct .minus ∧ l ≠ .punct .lparen

-- A parenthesis after the lexemes `ls` would make their last one a half selector.
def Apart (ls : List Lexeme) (next : Lexeme) : Prop :=
  ∀ name, isHalfSelector name → ls.getLast? = some (.identifier name) → next ≠ .punct .lparen

structure Stops (ls : List Lexeme) (next : Lexeme) : Prop where
  noPlus  : next ≠ .punct .plus
  noMinus : next ≠ .punct .minus
  apart   : Apart ls next

theorem Closes.stops {rest : List Lexeme} (h : Closes rest) (ls : List Lexeme) :
    Stops ls (rest.headD .endOfStatement) := by
  cases rest
  case nil         => exact ⟨by simp, by simp, by simp [Apart]⟩
  case cons l rest =>
    obtain ⟨hplus, hminus, hlparen⟩ := h l rfl
    exact ⟨hplus, hminus, fun _ _ _ => hlparen⟩

theorem closes_rparen (rest : List Lexeme) : Closes (.punct .rparen :: rest) := by
  simp [Closes]

section

variable {l next : Lexeme} {ls ls' : List Lexeme}

theorem Apart.of_append (h : Apart (ls ++ ls') next) : Apart ls' next := by
  intro name hname hlast
  exact h name hname (by simp [List.getLast?_append, hlast])

theorem Apart.of_cons (h : Apart (l :: ls) next) : Apart ls next :=
  Apart.of_append (List.singleton_append ▸ h)

theorem Stops.of_append (h : Stops (ls ++ ls') next) : Stops ls' next :=
  ⟨h.noPlus, h.noMinus, h.apart.of_append⟩

theorem Stops.of_cons (h : Stops (l :: ls) next) : Stops ls next :=
  ⟨h.noPlus, h.noMinus, h.apart.of_cons⟩

end

section

variable {n : Nat} {name spelling : String} {v : Nat} {z : Int} {e t r : Expr}
variable {ls ls' rest : List Lexeme}

theorem current_lexeme_cons {c : Cursor} {l : Lexeme} (hc : c.lexemes = l :: ls) :
    c.current.lexeme = l := by
  simp [Cursor.current_lexeme, hc]

theorem parseTerm_integer : Reads (parseTerm (n + 1)) [.integer spelling v] rest (.const v) := by
  rw [parseTerm]
  refine .get fun c hc => ?_
  simp only [current_lexeme_cons hc]
  exact .skip (.pure rest _) (by simp)

theorem parseTerm_symbol (h : Apart [.identifier name] (rest.headD .endOfStatement)) :
    Reads (parseTerm (n + 1)) [.identifier name] rest (.symbol name) := by
  rw [parseTerm]
  refine .get fun c hc => ?_
  simp only [current_lexeme_cons hc]
  refine .skip (.get fun c hc => ?_) (by simp)
  have hhalf : ¬ (isHalfSelector name && c.sees .lparen) := by
    rw [Bool.and_eq_true, Cursor.sees_eq, hc, decide_eq_true_eq]
    rintro ⟨hname, hsees⟩
    exact h name hname rfl hsees
  rw [if_neg hhalf]
  exact .pure rest _

theorem parseTerm_plus (h : Reads (parseTerm n) ls rest e) :
    Reads (parseTerm (n + 1)) (.punct .plus :: ls) rest e := by
  rw [parseTerm]
  refine .get fun c hc => ?_
  simp only [current_lexeme_cons hc]
  exact .skip h (by simp)

theorem parseTerm_minus (h : Reads (parseTerm n) ls rest (.const z)) :
    Reads (parseTerm (n + 1)) (.punct .minus :: ls) rest (.const (-z)) := by
  rw [parseTerm]
  refine .get fun c hc => ?_
  simp only [current_lexeme_cons hc]
  refine .skip ?_ (by simp)
  exact h.last (.pure rest _)

theorem inParens_reads (ht : Reads (parseTerm n) ls (ls' ++ .punct .rparen :: rest) t)
    (he : Reads (parseSum n t) ls' (.punct .rparen :: rest) e) (f : Fault) (g : Expr → Expr) :
    Reads (do
      let e ← parseSum n (← parseTerm n)
      if (← get).sees .rparen then
        TokenM.skip
        return g e
      else TokenM.failHere f) (ls ++ (ls' ++ [.punct .rparen])) rest (g e) := by
  refine .bind (by simpa using ht) (.bind (by simpa using he) (.get fun c hc => ?_))
  have hsees : c.sees .rparen := by simp [Cursor.sees_eq, hc]
  simp only [hsees, ↓reduceIte]
  exact .skip (.pure rest _) (by simp)

theorem Derives.headD_startsExpr (h : Derives none ls e) (rest : List Lexeme) (l : Lexeme) :
    ((ls ++ rest).headD l).startsExpr := by
  cases h <;> rfl

theorem parseTerm_paren (hd : Derives none ls t)
    (ht : Reads (parseTerm n) ls (ls' ++ .punct .rparen :: rest) t)
    (he : Reads (parseSum n t) ls' (.punct .rparen :: rest) e) :
    Reads (parseTerm (n + 1)) (.punct .lparen :: (ls ++ (ls' ++ [.punct .rparen]))) rest e := by
  rw [parseTerm]
  refine .get fun c hc => ?_
  simp only [current_lexeme_cons hc]
  refine .skip (.get fun c hc => ?_) (by simp)
  have hstart : c.current.lexeme.startsExpr := by
    rw [Cursor.current_lexeme, hc, List.append_assoc]
    exact hd.headD_startsExpr _ _
  simp only [hstart, ↓reduceIte]
  exact inParens_reads ht he _ id

theorem parseTerm_half (hname : isHalfSelector name) (hd : Derives none ls t)
    (ht : Reads (parseTerm n) ls (ls' ++ .punct .rparen :: rest) t)
    (he : Reads (parseSum n t) ls' (.punct .rparen :: rest) e) :
    Reads (parseTerm (n + 1))
      (.identifier name :: .punct .lparen :: (ls ++ (ls' ++ [.punct .rparen]))) rest
      (.half name e) := by
  rw [parseTerm]
  refine .get fun c hc => ?_
  simp only [current_lexeme_cons hc]
  refine .skip (.get fun c hc => ?_) (by simp)
  have hsees : c.sees .lparen := by simp [Cursor.sees_eq, hc]
  simp only [hname, hsees, Bool.and_self, ↓reduceIte]
  refine .skip (.get fun c hc => ?_) (by simp)
  have hstart : c.current.lexeme.startsExpr := by
    rw [Cursor.current_lexeme, hc, List.append_assoc]
    exact hd.headD_startsExpr _ _
  simp only [hstart, ↓reduceIte]
  exact inParens_reads ht he _ _

theorem parseSum_done (h : Stops ls (rest.headD .endOfStatement)) :
    Reads (parseSum n e) [] rest e := by
  cases n
  case zero =>
    rw [parseSum]
    exact .pure rest e
  case succ n =>
    rw [parseSum]
    refine .get fun c hc => ?_
    have hl : c.current.lexeme = rest.headD .endOfStatement := by
      rw [Cursor.current_lexeme, hc, List.nil_append]
    dsimp only
    split
    case h_1 heq => exact absurd (hl.symm.trans heq) h.noPlus
    case h_2 heq => exact absurd (hl.symm.trans heq) h.noMinus
    case h_3     => exact .pure rest e

theorem parseSum_add (ht : Reads (parseTerm n) ls (ls' ++ rest) t)
    (hr : Reads (parseSum n (e.add t)) ls' rest r) :
    Reads (parseSum (n + 1) e) (.punct .plus :: (ls ++ ls')) rest r := by
  rw [parseSum]
  refine .get fun c hc => ?_
  simp only [current_lexeme_cons hc]
  exact .skip (ht.bind hr) (by simp)

theorem parseSum_sub (ht : Reads (parseTerm n) ls (ls' ++ rest) (.const z))
    (hr : Reads (parseSum n (e.add (.const (-z)))) ls' rest r) :
    Reads (parseSum (n + 1) e) (.punct .minus :: (ls ++ ls')) rest r := by
  rw [parseSum]
  refine .get fun c hc => ?_
  simp only [current_lexeme_cons hc]
  exact .skip (ht.bind hr) (by simp)

end

-- What follows a term is the rest of the sum. It begins with a sign, or there is none, and then
-- what follows the sum follows the term.
theorem Derives.apart {t e : Expr} {ls ls' rest : List Lexeme} (h : Derives (some t) ls' e)
    (hrest : Apart (ls ++ ls') (rest.headD .endOfStatement)) :
    Apart ls ((ls' ++ rest).headD .endOfStatement) := by
  cases h
  case done => simpa using hrest
  case add  => simp [Apart]
  case sub  => simp [Apart]

-- The induction is on the derivation. A bound that is no less than the number of lexemes is enough.
theorem Derives.reads {o : Option Expr} {ls : List Lexeme} {e : Expr} (h : Derives o ls e)
    {n : Nat} (hn : ls.length ≤ n) (rest : List Lexeme) :
    match o with
    | none   => Apart ls (rest.headD .endOfStatement) → Reads (parseTerm n) ls rest e
    | some t => Stops ls (rest.headD .endOfStatement) → Reads (parseSum n t) ls rest e := by
  induction h generalizing n rest <;> dsimp only <;> intro hrest
  case done => exact parseSum_done hrest
  all_goals
    obtain ⟨n, rfl⟩ : ∃ m, n = m + 1 := ⟨n - 1, by simp at hn; omega⟩
    simp only [List.length_cons, List.length_append, Nat.add_le_add_iff_right] at hn
  case integer => exact parseTerm_integer
  case symbol  => exact parseTerm_symbol hrest
  case plus _ ih  => exact parseTerm_plus (ih hn rest hrest.of_cons)
  case minus _ ih => exact parseTerm_minus (ih hn rest hrest.of_cons)
  case paren ht he iht ihe =>
    have hstops := (closes_rparen rest).stops
    exact parseTerm_paren ht (iht (by omega) _ (he.apart (hstops _).apart))
      (ihe (by omega) _ (hstops _))
  case half hname ht he iht ihe =>
    have hstops := (closes_rparen rest).stops
    exact parseTerm_half hname ht (iht (by omega) _ (he.apart (hstops _).apart))
      (ihe (by omega) _ (hstops _))
  case add ht hr iht ihr =>
    have hstops := hrest.of_cons
    exact parseSum_add (iht (by omega) _ (hr.apart hstops.apart))
      (ihr (by omega) rest hstops.of_append)
  case sub ht hr iht ihr =>
    have hstops := hrest.of_cons
    exact parseSum_sub (iht (by omega) _ (hr.apart hstops.apart))
      (ihr (by omega) rest hstops.of_append)

def Written (ls : List Lexeme) (e : Expr) : Prop :=
  ∃ ls₁ ls₂ t, ls = ls₁ ++ ls₂ ∧ Derives none ls₁ t ∧ Derives (some t) ls₂ e

theorem Written.headD_startsExpr {ls : List Lexeme} {e : Expr} (h : Written ls e)
    (rest : List Lexeme) (l : Lexeme) : ((ls ++ rest).headD l).startsExpr := by
  obtain ⟨ls₁, ls₂, t, rfl, ht, _⟩ := h
  rw [List.append_assoc]
  exact ht.headD_startsExpr _ l

theorem Written.parse_reads {ls rest : List Lexeme} {e : Expr} (h : Written ls e)
    (hrest : Stops ls (rest.headD .endOfStatement)) : Reads parse ls rest (some e) := by
  refine .get fun c hc => ?_
  have hstart : c.current.lexeme.startsExpr := by
    rw [Cursor.current_lexeme, hc]
    exact h.headD_startsExpr rest _
  obtain ⟨ls₁, ls₂, t, rfl, ht, he⟩ := h
  have hlen : c.ahead.length = (ls₁ ++ (ls₂ ++ rest)).length := by
    rw [← List.append_assoc, ← hc, Cursor.lexemes, List.length_map]
  simp only [List.length_append] at hlen
  simp only [hstart, ↓reduceIte]
  have hterm := ht.reads (n := c.ahead.length) (by omega) _ (he.apart hrest.apart)
  have hsum := he.reads (n := c.ahead.length) (by omega) _ hrest.of_append
  exact hterm.bind (hsum.last (.pure rest _))

end Expr
end Asm88000
