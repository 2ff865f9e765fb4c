import Mathlib.Tactic.Common
import Asm88000.Proofs.ExprParser

namespace Asm88000

namespace Cursor

variable {c d d' : Cursor} {l : Lexeme} {ls ls' : List Lexeme}

def Consumes (c : Cursor) (ls : List Lexeme) (d : Cursor) : Prop :=
  ∃ ts, ts.map Token.lexeme = ls ∧ c.ahead = ts ++ d.ahead ∧ d.past = ts.reverse ++ c.past ∧
    d.stop = c.stop

namespace Consumes

theorem nil (c : Cursor) : c.Consumes [] c :=
  ⟨[], rfl, rfl, rfl, rfl⟩

theorem append (h₁ : c.Consumes ls d) (h₂ : d.Consumes ls' d') : c.Consumes (ls ++ ls') d' := by
  obtain ⟨ts, rfl, ha, hp, hs⟩ := h₁
  obtain ⟨us, rfl, ha', hp', hs'⟩ := h₂
  exact ⟨ts ++ us, by simp, by simp [ha, ha'], by simp [hp, hp'], hs'.trans hs⟩

theorem lexemes (h : c.Consumes ls d) : c.lexemes = ls ++ d.lexemes := by
  obtain ⟨ts, rfl, ha, _⟩ := h
  simp [Cursor.lexemes, ha]

theorem ahead_length (h : c.Consumes ls d) : c.ahead.length = ls.length + d.ahead.length := by
  obtain ⟨ts, rfl, ha, _⟩ := h
  simp [ha]

theorem eq_of_nil (h : c.Consumes [] d) : d = c := by
  obtain ⟨ts, hts, ha, hp, hs⟩ := h
  obtain rfl := List.map_eq_nil_iff.mp hts
  obtain ⟨past, ahead, stop⟩ := d
  obtain ⟨past', ahead', stop'⟩ := c
  simp_all

theorem eq_of_leadsTo (h : c.Consumes ls d) (h' : c.LeadsTo d') (hl : d'.lexemes = d.lexemes) :
    d' = d := by
  obtain ⟨ts, rfl, ha, hp, hs⟩ := h
  obtain ⟨us, ha', hp', hs'⟩ := h'
  have hlen : d'.ahead.length = d.ahead.length := by
    simpa [Cursor.lexemes] using congrArg List.length hl
  obtain ⟨rfl, hahead⟩ := List.append_inj' (ha.symm.trans ha') hlen.symm
  obtain ⟨past, ahead, stop⟩ := d
  obtain ⟨past', ahead', stop'⟩ := d'
  simp_all

end Consumes

theorem consumes_advance (h : c.current.lexeme = l) (hl : l ≠ .endOfStatement) :
    c.Consumes [l] c.advance := by
  obtain ⟨past, loc, ts, stop, rfl⟩ := eq_of_current h hl
  rw [advance_cons hl]
  exact ⟨[⟨l, loc⟩], rfl, rfl, rfl, rfl⟩

theorem LeadsTo.ahead_length (h : c.LeadsTo d) : d.ahead.length ≤ c.ahead.length := by
  obtain ⟨ts, ha, _⟩ := h
  simp [ha]

end Cursor

namespace Expr

open TokenM

inductive Kind
  | term
  | sum

-- Sums associate to the left. A half has a selector for its name, and any identifier is a symbol,
-- the selectors too.
inductive Phrase : Kind → Type
  | integer (spelling : String) (value : Nat) : Phrase .term
  | symbol (name : String) : Phrase .term
  | plus (t : Phrase .term) : Phrase .term
  | minus (t : Phrase .term) : Phrase .term
  | paren (e : Phrase .sum) : Phrase .term
  | half (selector : String) (h : isHalfSelector selector) (e : Phrase .sum) : Phrase .term
  | single (t : Phrase .term) : Phrase .sum
  | add (e : Phrase .sum) (t : Phrase .term) : Phrase .sum
  | sub (e : Phrase .sum) (t : Phrase .term) : Phrase .sum

def halfBits (selector : String) (v : Int) : Nat :=
  if selector = "hi16" then ((BitVec.ofInt 32 v).extractLsb 31 16).toNat
  else ((BitVec.ofInt 32 v).extractLsb 15 0).toNat

namespace Phrase

variable {k : Kind}

def lexemes : {k : Kind} → Phrase k → List Lexeme
  | _, integer spelling v => [.integer spelling v]
  | _, symbol name        => [.identifier name]
  | _, plus t             => .punct .plus :: t.lexemes
  | _, minus t            => .punct .minus :: t.lexemes
  | _, paren e            => .punct .lparen :: (e.lexemes ++ [.punct .rparen])
  | _, half sel _ e       => .identifier sel :: .punct .lparen :: (e.lexemes ++ [.punct .rparen])
  | _, single t           => t.lexemes
  | _, add e t            => e.lexemes ++ .punct .plus :: t.lexemes
  | _, sub e t            => e.lexemes ++ .punct .minus :: t.lexemes

def value (env : String → Int) : {k : Kind} → Phrase k → Int
  | _, integer _ v  => v
  | _, symbol name  => env name
  | _, plus t       => t.value env
  | _, minus t      => -t.value env
  | _, paren e      => e.value env
  | _, half sel _ e => halfBits sel (e.value env)
  | _, single t     => t.value env
  | _, add e t      => e.value env + t.value env
  | _, sub e t      => e.value env - t.value env

def isConstant : {k : Kind} → Phrase k → Bool
  | _, integer _ _ => true
  | _, symbol _    => false
  | _, plus t      => t.isConstant
  | _, minus t     => t.isConstant
  | _, paren e     => e.isConstant
  | _, half _ _ _  => false
  | _, single t    => t.isConstant
  | _, add e t     => e.isConstant && t.isConstant
  | _, sub e t     => e.isConstant && t.isConstant

-- Each minus, with one side or with two, applies to a constant term.
def isRegular : {k : Kind} → Phrase k → Bool
  | _, integer _ _ => true
  | _, symbol _    => true
  | _, plus t      => t.isRegular
  | _, minus t     => t.isConstant && t.isRegular
  | _, paren e     => e.isRegular
  | _, half _ _ e  => e.isRegular
  | _, single t    => t.isRegular
  | _, add e t     => e.isRegular && t.isRegular
  | _, sub e t     => e.isRegular && (t.isConstant && t.isRegular)

def tree? : {k : Kind} → Phrase k → Option Expr
  | _, integer _ v  => some (.const v)
  | _, symbol name  => some (.symbol name)
  | _, plus t       => t.tree?
  | _, minus t      => do return .const (-(← (← t.tree?).constant?))
  | _, paren e      => e.tree?
  | _, half sel _ e => do return .half sel (← e.tree?)
  | _, single t     => t.tree?
  | _, add e t      => do return (← e.tree?).add (← t.tree?)
  | _, sub e t      => do return (← e.tree?).add (.const (-(← (← t.tree?).constant?)))

end Phrase

def assign (env : String → Int) : Expr → Expr
  | const v      => const v
  | symbol name  => const (env name)
  | nameless l   => nameless l
  | sum sign l r => sum sign (l.assign env) (r.assign env)
  | half sel sub => half sel (sub.assign env)

def isFolded : Expr → Bool
  | sum _ l r    => !(l.constant?.isSome && r.constant?.isSome) && l.isFolded && r.isFolded
  | half _ sub   => sub.isFolded
  | _            => true

theorem constant?_eq_some {e : Expr} {v : Int} : e.constant? = some v ↔ e = .const v := by
  cases e <;> simp [constant?]

theorem selectHalf_eq_halfBits (sel : String) (v : Int) : selectHalf sel v = halfBits sel v := by
  unfold selectHalf halfBits
  split
  · simp only [BitVec.extractLsb_toNat, BitVec.toNat_ofInt, Nat.shiftRight_eq_div_pow]
    omega
  · simp only [BitVec.extractLsb_toNat, BitVec.toNat_ofInt, Nat.shiftRight_zero]
    omega

section

variable {l r : Expr} {v : Int}

theorem add_eq_const : l.add r = .const v ↔ ∃ a b, l = .const a ∧ r = .const b ∧ a + b = v := by
  unfold add
  split
  case h_1 a b => simp
  case h_2 h   => simpa using fun a ha b hb => absurd hb (h a b ha)

theorem assign_add_value? {env : String → Int} {a b : Int} (hl : (l.assign env).value? = some a)
    (hr : (r.assign env).value? = some b) : ((l.add r).assign env).value? = some (a + b) := by
  unfold add
  split
  case h_1 a' b' => simp_all [assign, value?]
  case h_2       => simp [assign, value?, hl, hr]

theorem isFolded_add (hl : l.isFolded) (hr : r.isFolded) : (l.add r).isFolded := by
  unfold add
  split
  case h_1     => rfl
  case h_2 h   =>
    have hconst : ¬ (l.constant?.isSome ∧ r.constant?.isSome) := by
      simp only [Option.isSome_iff_exists, constant?_eq_some]
      exact fun ⟨⟨a, ha⟩, ⟨b, hb⟩⟩ => h a b ha hb
    simp only [isFolded, hl, hr, Bool.and_true, Bool.not_eq_true', ← Bool.not_eq_true,
      Bool.and_eq_true, hconst, not_false_eq_true]

end

namespace Phrase

variable {k : Kind} {p : Phrase k} {a : Phrase .sum} {t : Phrase .term} {e : Expr}

section

attribute [local simp] tree?

theorem tree?_minus : (minus t).tree? = some e ↔
    ∃ v, t.tree? = some (.const v) ∧ .const (-v) = e := by
  simp [Option.bind_eq_some_iff, constant?_eq_some]

theorem tree?_half {sel : String} {h : isHalfSelector sel} :
    (half sel h a).tree? = some e ↔ ∃ sub, a.tree? = some sub ∧ .half sel sub = e := by
  simp [Option.bind_eq_some_iff]

theorem tree?_add :
    (add a t).tree? = some e ↔ ∃ l r, a.tree? = some l ∧ t.tree? = some r ∧ l.add r = e := by
  simp [Option.bind_eq_some_iff]

theorem tree?_sub :
    (sub a t).tree? = some e ↔
      ∃ l v, a.tree? = some l ∧ t.tree? = some (.const v) ∧ l.add (.const (-v)) = e := by
  simp [Option.bind_eq_some_iff, constant?_eq_some]

end

theorem isConstant_iff : p.isConstant ↔ ∃ v, p.tree? = some (.const v) := by
  induction p
  case integer | symbol => simp [isConstant, tree?]
  case plus ih | paren ih | single ih => exact ih
  case half => simp [isConstant, tree?_half]
  case minus ih => simp [isConstant, ih, tree?_minus]
  case add ihe iht =>
    simp only [isConstant, Bool.and_eq_true, ihe, iht, tree?_add, add_eq_const]
    constructor
    · rintro ⟨⟨a, ha⟩, b, hb⟩
      exact ⟨a + b, _, _, ha, hb, a, b, rfl, rfl, rfl⟩
    · rintro ⟨_, _, _, ha, hb, a, b, rfl, rfl, -⟩
      exact ⟨⟨a, ha⟩, b, hb⟩
  case sub ihe iht =>
    simp only [isConstant, Bool.and_eq_true, ihe, iht, tree?_sub, add_eq_const]
    constructor
    · rintro ⟨⟨a, ha⟩, b, hb⟩
      exact ⟨a - b, _, b, ha, hb, a, -b, rfl, rfl, by omega⟩
    · rintro ⟨_, _, b, ha, hb, a, _, rfl, _, -⟩
      exact ⟨⟨a, ha⟩, b, hb⟩

theorem isRegular_iff : p.isRegular ↔ ∃ e, p.tree? = some e := by
  induction p
  case integer | symbol => simp [isRegular, tree?]
  case plus ih | paren ih | single ih => exact ih
  case half ih => simp [isRegular, ih, tree?_half]
  case minus ih =>
    simp only [isRegular, Bool.and_eq_true, isConstant_iff, ih, tree?_minus]
    constructor
    · exact fun ⟨⟨v, hv⟩, _⟩ => ⟨_, v, hv, rfl⟩
    · exact fun ⟨_, v, hv, _⟩ => ⟨⟨v, hv⟩, _, hv⟩
  case add ihe iht =>
    simp only [isRegular, Bool.and_eq_true, ihe, iht, tree?_add]
    constructor
    · exact fun ⟨⟨l, hl⟩, r, hr⟩ => ⟨_, l, r, hl, hr, rfl⟩
    · exact fun ⟨_, l, r, hl, hr, _⟩ => ⟨⟨l, hl⟩, r, hr⟩
  case sub ihe iht =>
    simp only [isRegular, Bool.and_eq_true, isConstant_iff, ihe, iht, tree?_sub]
    constructor
    · exact fun ⟨⟨l, hl⟩, ⟨v, hv⟩, _⟩ => ⟨_, l, v, hl, hv, rfl⟩
    · exact fun ⟨_, l, v, hl, hv, _⟩ => ⟨⟨l, hl⟩, ⟨v, hv⟩, _, hv⟩

theorem value_tree? (env : String → Int) (h : p.tree? = some e) :
    (e.assign env).value? = some (p.value env) := by
  induction p generalizing e
  case integer | symbol =>
    cases h
    rfl
  case plus ih | paren ih | single ih => exact ih h
  case minus ih =>
    obtain ⟨v, hv, rfl⟩ := tree?_minus.mp h
    have hvalue := ih hv
    simp only [assign, value?, Option.some.injEq] at hvalue ⊢
    simp only [value, hvalue]
  case half ih =>
    obtain ⟨sub, hsub, rfl⟩ := tree?_half.mp h
    simp only [assign, value?, ih hsub, Option.map_some, value, selectHalf_eq_halfBits]
  case add ihe iht =>
    obtain ⟨l, r, hl, hr, rfl⟩ := tree?_add.mp h
    exact assign_add_value? (ihe hl) (iht hr)
  case sub e t ihe iht =>
    obtain ⟨l, v, hl, hv, rfl⟩ := tree?_sub.mp h
    have hvalue : v = t.value env := Option.some.inj (iht hv)
    rw [value, ← hvalue]
    exact assign_add_value? (ihe hl) rfl

theorem isFolded_tree? (h : p.tree? = some e) : e.isFolded := by
  induction p generalizing e
  case integer | symbol =>
    cases h
    rfl
  case plus ih | paren ih | single ih => exact ih h
  case minus =>
    obtain ⟨v, _, rfl⟩ := tree?_minus.mp h
    rfl
  case half ih =>
    obtain ⟨sub, hsub, rfl⟩ := tree?_half.mp h
    rw [isFolded]
    exact ih hsub
  case add ihe iht =>
    obtain ⟨l, r, hl, hr, rfl⟩ := tree?_add.mp h
    exact isFolded_add (ihe hl) (iht hr)
  case sub ihe _ =>
    obtain ⟨l, v, hl, _, rfl⟩ := tree?_sub.mp h
    exact isFolded_add (ihe hl) rfl

end Phrase

-- A derivation goes from left to right, so that for the rest of a sum there is a phrase before it.
theorem Derives.exists_phrase {o : Option Expr} {ls : List Lexeme} {e : Expr} (h : Derives o ls e) :
    match o with
    | none   => ∃ p : Phrase .term, p.lexemes = ls ∧ p.tree? = some e
    | some t => ∀ q : Phrase .sum, q.tree? = some t →
      ∃ p : Phrase .sum, p.lexemes = q.lexemes ++ ls ∧ p.tree? = some e := by
  induction h <;> dsimp only
  case integer spelling v => exact ⟨.integer spelling v, rfl, rfl⟩
  case symbol name        => exact ⟨.symbol name, rfl, rfl⟩
  case plus ih =>
    obtain ⟨p, rfl, hp⟩ := ih
    exact ⟨.plus p, rfl, hp⟩
  case minus ih =>
    obtain ⟨p, rfl, hp⟩ := ih
    exact ⟨.minus p, rfl, Phrase.tree?_minus.mpr ⟨_, hp, rfl⟩⟩
  case paren iht ihe =>
    obtain ⟨p, rfl, hp⟩ := iht
    obtain ⟨q, hls, hq⟩ := ihe (.single p) hp
    exact ⟨.paren q, by simp [Phrase.lexemes, hls], hq⟩
  case half name _ _ _ _ hname _ _ iht ihe =>
    obtain ⟨p, rfl, hp⟩ := iht
    obtain ⟨q, hls, hq⟩ := ihe (.single p) hp
    exact ⟨.half name hname q, by simp [Phrase.lexemes, hls], Phrase.tree?_half.mpr ⟨_, hq, rfl⟩⟩
  case done =>
    intro q hq
    exact ⟨q, by simp, hq⟩
  case add iht ihr =>
    intro q hq
    obtain ⟨p, rfl, hp⟩ := iht
    obtain ⟨r, hls, hr⟩ := ihr (.add q p) (Phrase.tree?_add.mpr ⟨_, _, hq, hp, rfl⟩)
    exact ⟨r, by simp [Phrase.lexemes, hls], hr⟩
  case sub iht ihr =>
    intro q hq
    obtain ⟨p, rfl, hp⟩ := iht
    obtain ⟨r, hls, hr⟩ := ihr (.sub q p) (Phrase.tree?_sub.mpr ⟨_, _, hq, hp, rfl⟩)
    exact ⟨r, by simp [Phrase.lexemes, hls], hr⟩

theorem Written.exists_phrase {ls : List Lexeme} {e : Expr} (h : Written ls e) :
    ∃ p : Phrase .sum, p.lexemes = ls ∧ p.tree? = some e := by
  obtain ⟨ls₁, ls₂, t, rfl, ht, he⟩ := h
  obtain ⟨p, rfl, hp⟩ := ht.exists_phrase
  exact he.exists_phrase (.single p) hp

theorem Derives.trans {t e r : Expr} {ls ls' : List Lexeme} (h : Derives (some t) ls e)
    (hr : Derives (some e) ls' r) : Derives (some t) (ls ++ ls') r := by
  generalize ho : some t = o at h
  induction h generalizing t <;> cases ho
  case done          => exact hr
  case add ht _ _ ih => simpa using Derives.add ht (ih hr rfl)
  case sub ht _ _ ih => simpa using Derives.sub ht (ih hr rfl)

theorem Phrase.derives {k : Kind} {p : Phrase k} {e : Expr} (h : p.tree? = some e) :
    match k with
    | .term => Derives none p.lexemes e
    | .sum  => Written p.lexemes e := by
  induction p generalizing e <;> dsimp only
  case integer =>
    cases h
    exact .integer
  case symbol =>
    cases h
    exact .symbol
  case plus ih => exact .plus (ih h)
  case minus ih =>
    obtain ⟨v, hv, rfl⟩ := tree?_minus.mp h
    exact .minus (ih hv)
  case paren ih =>
    obtain ⟨ls₁, ls₂, t, hls, ht, he⟩ := ih h
    simpa [lexemes, hls] using Derives.paren ht he
  case half sel hsel _ ih =>
    obtain ⟨sub, hsub, rfl⟩ := tree?_half.mp h
    obtain ⟨ls₁, ls₂, t, hls, ht, he⟩ := ih hsub
    simpa [lexemes, hls] using Derives.half hsel ht he
  case single ih => exact ⟨_, [], e, by simp [lexemes], ih h, .done⟩
  case add ihe iht =>
    obtain ⟨l, r, hl, hr, rfl⟩ := tree?_add.mp h
    obtain ⟨ls₁, ls₂, t, hls, ht, he⟩ := ihe hl
    exact ⟨ls₁, _, t, by simp [lexemes, hls], ht, he.trans (.add (iht hr) .done)⟩
  case sub ihe iht =>
    obtain ⟨l, v, hl, hv, rfl⟩ := tree?_sub.mp h
    obtain ⟨ls₁, ls₂, t, hls, ht, he⟩ := ihe hl
    exact ⟨ls₁, _, t, by simp [lexemes, hls], ht, he.trans (.sub (iht hv) .done)⟩

section

variable {n : Nat} {c d : Cursor} {ls ls' : List Lexeme}

-- The term `e` stands between `c` and `d`, and the token at `d` does not belong to it.
def TermRead (c : Cursor) (e : Expr) (d : Cursor) : Prop :=
  ∃ ls, c.Consumes ls d ∧ Derives none ls e ∧ Apart ls d.current.lexeme

-- The rest of the sum that begins with `t`. If the bound is large enough, there is no more of it.
def RestRead (n : Nat) (t : Expr) (c : Cursor) (e : Expr) (d : Cursor) : Prop :=
  ∃ ls, c.Consumes ls d ∧ Derives (some t) ls e ∧ Apart ls d.current.lexeme ∧
    (c.ahead.length ≤ n → Stops ls d.current.lexeme)

def ParensRead (g : Expr → Expr) (c : Cursor) (r : Expr) (d : Cursor) : Prop :=
  ∃ ls ls' t e, c.Consumes (ls ++ (ls' ++ [.punct .rparen])) d ∧ Derives none ls t ∧
    Derives (some t) ls' e ∧ r = g e

def GrammarFault (e : Error) (_ : Cursor) : Prop :=
  e.fault.family = .grammar

theorem apart_nil (next : Lexeme) : Apart [] next := by
  simp [Apart]

theorem Apart.append (h : Apart ls c.current.lexeme) (hc : c.Consumes ls' d)
    (h' : Apart ls' d.current.lexeme) : Apart (ls ++ ls') d.current.lexeme := by
  cases ls'
  case nil =>
    obtain rfl := hc.eq_of_nil
    simpa using h
  case cons l ls' =>
    intro name hname hlast
    exact h' name hname (by simpa [List.getLast?_append] using hlast)

theorem Apart.cons_punct {s : Punct} {next : Lexeme} (h : Apart ls next) :
    Apart (.punct s :: ls) next := by
  cases ls
  case nil       => simp [Apart]
  case cons l ls => simpa [Apart] using h

theorem RestRead.done (h : c.current.lexeme ≠ .punct .plus) (h' : c.current.lexeme ≠ .punct .minus)
    (t : Expr) : RestRead n t c t c :=
  ⟨[], .nil c, .done, apart_nil _, fun _ => ⟨h, h', apart_nil _⟩⟩

theorem TermRead.rest {s : Punct} {t e x r : Expr} {c' : Cursor}
    (hs : c.current.lexeme = .punct s) (hx : TermRead c.advance x c') (hr : RestRead n e c' r d)
    (hd : ∀ {ls ls'}, Derives none ls x → Derives (some e) ls' r →
      Derives (some t) (.punct s :: (ls ++ ls')) r) : RestRead (n + 1) t c r d := by
  obtain ⟨ls, hc, hls, hapart⟩ := hx
  obtain ⟨ls', hc', hls', hapart', hstops⟩ := hr
  have happend : Apart (.punct s :: (ls ++ ls')) d.current.lexeme :=
    (hapart.append hc' hapart').cons_punct
  have hall : c.Consumes (.punct s :: (ls ++ ls')) d :=
    (Cursor.consumes_advance hs (by simp)).append (hc.append hc')
  refine ⟨_, hall, hd hls hls', happend, fun hn => ?_⟩
  have hlen := ((Cursor.consumes_advance hs (by simp)).append hc).ahead_length
  have hend := hstops (by simp at hlen; omega)
  exact ⟨hend.noPlus, hend.noMinus, happend⟩

theorem inParens_ensures (hterm : ∀ c, Ensures (parseTerm n) c (TermRead c) GrammarFault)
    (hsum : ∀ t c, Ensures (parseSum n t) c (RestRead n t c) GrammarFault) {f : Fault}
    (hf : f.family = .grammar) (g : Expr → Expr) :
    Ensures (do
      let e ← parseSum n (← parseTerm n)
      if (← get).sees .rparen then
        TokenM.skip
        return g e
      else TokenM.failHere f) c (ParensRead g c) GrammarFault := by
  refine (hterm c).bind (fun t c₁ ht => ?_) fun _ _ => id
  refine (hsum t c₁).bind (fun e c₂ he => ?_) fun _ _ => id
  obtain ⟨ls, hc, hls, _⟩ := ht
  obtain ⟨ls', hc', hls', _⟩ := he
  rw [ensures_bind, ensures_get]
  split
  case isTrue hs =>
    have hclose := Cursor.consumes_advance (of_decide_eq_true hs) (by simp)
    exact ⟨ls, ls', t, e, hc.append (hc'.append hclose), hls, hls', rfl⟩
  case isFalse => exact hf

theorem TermRead.signed {s : Punct} {e e' : Expr} (hs : c.current.lexeme = .punct s)
    (he : TermRead c.advance e d)
    (hd : ∀ {ls}, Derives none ls e → Derives none (.punct s :: ls) e') : TermRead c e' d := by
  obtain ⟨ls, hc, hls, hapart⟩ := he
  exact ⟨_, (Cursor.consumes_advance hs (by simp)).append hc, hd hls, hapart.cons_punct⟩

theorem ParensRead.term {g : Expr → Expr} {r : Expr} {c' : Cursor} (hc : c.Consumes ls c')
    (hr : ParensRead g c' r d)
    (hd : ∀ {ls₁ ls₂ t e}, Derives none ls₁ t → Derives (some t) ls₂ e →
      Derives none (ls ++ (ls₁ ++ (ls₂ ++ [.punct .rparen]))) (g e)) : TermRead c r d := by
  obtain ⟨ls₁, ls₂, t, e, hc', ht, he, rfl⟩ := hr
  refine ⟨_, hc.append hc', hd ht he, ?_⟩
  simp [Apart, ← List.append_assoc]

-- Terms and sums are shown at once, by induction on the bound.
theorem parseTerm_parseSum_ensures (n : Nat) :
    (∀ c, Ensures (parseTerm n) c (TermRead c) GrammarFault) ∧
    ∀ t c, Ensures (parseSum n t) c (RestRead n t c) GrammarFault := by
  induction n
  case zero =>
    constructor
    · intro c
      rw [parseTerm, ensures_failHere]
      rfl
    · intro t c
      rw [parseSum, ensures_pure]
      refine ⟨[], .nil c, .done, apart_nil _, fun hn => ?_⟩
      have hnil : c.ahead = [] := List.eq_nil_of_length_eq_zero (Nat.le_zero.mp hn)
      exact ⟨by simp [Cursor.current, hnil, Cursor.endToken],
        by simp [Cursor.current, hnil, Cursor.endToken], apart_nil _⟩
  case succ n ih =>
    obtain ⟨hterm, hsum⟩ := ih
    have hparen {c : Cursor} {f : Fault} (hf : f.family = .grammar) (g : Expr → Expr) :=
      inParens_ensures (c := c) hterm hsum hf g
    constructor
    · intro c
      rw [parseTerm, ensures_bind, ensures_get]
      dsimp only
      split
      case h_1 hl => exact ⟨_, Cursor.consumes_advance hl (by simp), .integer, by simp [Apart]⟩
      case h_2 hl =>
        rw [ensures_bind, ensures_skip]
        exact (hterm _).mono (fun e d he => he.signed hl .plus) fun _ _ => id
      case h_3 hl =>
        rw [ensures_bind, ensures_skip]
        refine (hterm _).bind (fun e d he => ?_) fun _ _ => id
        split
        case h_1 => exact he.signed hl .minus
        case h_2 => rfl
      case h_4 hl =>
        have hopen := Cursor.consumes_advance hl (by simp)
        rw [ensures_bind, ensures_skip, ensures_bind, ensures_get]
        split
        case isTrue  =>
          exact (hparen rfl id).mono (fun e d he => he.term hopen .paren) fun _ _ => id
        case isFalse => rfl
      case h_5 name hl =>
        have hname := Cursor.consumes_advance hl (by simp)
        rw [ensures_bind, ensures_skip, ensures_bind, ensures_get]
        split
        case isTrue hs =>
          obtain ⟨hsel, hsees⟩ := Bool.and_eq_true_iff.mp hs
          have hopen := hname.append (Cursor.consumes_advance (of_decide_eq_true hsees) (by simp))
          rw [ensures_bind, ensures_skip, ensures_bind, ensures_get]
          split
          case isTrue =>
            exact (hparen rfl _).mono (fun e d he => he.term hopen (.half hsel)) fun _ _ => id
          case isFalse => rfl
        case isFalse hs =>
          refine ⟨_, hname, .symbol, fun name' hname' hlast hnext => hs ?_⟩
          obtain rfl : name = name' := by simpa using hlast
          rw [hname', Cursor.sees, hnext]
          rfl
      case h_6 => rfl
    · intro t c
      rw [parseSum, ensures_bind, ensures_get]
      dsimp only
      split
      case h_1 hl =>
        rw [ensures_bind, ensures_skip]
        refine (hterm _).bind (fun x c' hx => ?_) fun _ _ => id
        exact (hsum _ c').mono (fun r d hr => hx.rest hl hr .add) fun _ _ => id
      case h_2 hl =>
        rw [ensures_bind, ensures_skip]
        refine (hterm _).bind (fun x c' hx => ?_) fun _ _ => id
        split
        case h_1 => exact (hsum _ c').mono (fun r d hr => hx.rest hl hr .sub) fun _ _ => id
        case h_2 => rfl
      case h_3 hplus hminus => exact .done hplus hminus t

theorem parse_ensures (c : Cursor) :
    Ensures parse c (fun o d => ∀ e ∈ o,
        ∃ ls, c.Consumes ls d ∧ Written ls e ∧ Stops ls d.current.lexeme)
      GrammarFault := by
  rw [parse, ensures_bind, ensures_get]
  split
  case isFalse => nofun
  case isTrue =>
    obtain ⟨hterm, hsum⟩ := parseTerm_parseSum_ensures c.ahead.length
    refine (hterm c).bind (fun t c' ht => ?_) fun _ _ => id
    refine (hsum t c').bind (fun e d he => ?_) fun _ _ => id
    obtain ⟨ls, hc, hls, hapart⟩ := ht
    obtain ⟨ls', hc', hls', hapart', hstops⟩ := he
    rintro _ ⟨⟩
    have hend := hstops (by simp [hc.ahead_length])
    exact ⟨ls ++ ls', hc.append hc', ⟨ls, ls', t, rfl, hls, hls'⟩, hend.noPlus, hend.noMinus,
      hapart.append hc' hapart'⟩

section

variable {α β : Type}

theorem get_bind_apply (f : Cursor → TokenM α) : (get >>= f) c = f c c :=
  rfl

theorem skip_congr {f g : Unit → TokenM α} (h : f () c.advance = g () c.advance) :
    (TokenM.skip >>= f) c = (TokenM.skip >>= g) c :=
  h

theorem bind_congr {p q : TokenM α} {f g : α → TokenM β} (hq : forward.Obeys q) (h : p c = q c)
    (hf : ∀ a d, c.LeadsTo d → f a d = g a d) : (p >>= f) c = (q >>= g) c := by
  have hleads := hq c trivial
  simp only [bind, EStateM.bind, h]
  cases hqc : q c
  case error  => rfl
  case ok a d => exact hf a d (hleads.ok hqc)

end

-- A bound of the number of tokens ahead is as good as the next one. Each call with a smaller bound
-- has a token less ahead of it.
theorem parseTerm_parseSum_bound (n : Nat) :
    (∀ c : Cursor, c.ahead.length ≤ n → parseTerm (n + 1) c = parseTerm n c) ∧
    ∀ (e : Expr) (c : Cursor), c.ahead.length ≤ n → parseSum (n + 1) e c = parseSum n e c := by
  induction n
  case zero =>
    have hend {c : Cursor} (hc : c.ahead.length ≤ 0) : c.current.lexeme = .endOfStatement := by
      have hnil : c.ahead = [] := List.eq_nil_of_length_eq_zero (Nat.le_zero.mp hc)
      simp [Cursor.current, hnil, Cursor.endToken]
    constructor
    · intro c hc
      rw [parseTerm, parseTerm, get_bind_apply]
      simp only [hend hc]
    · intro e c hc
      rw [parseSum, parseSum, get_bind_apply]
      simp only [hend hc]
  case succ n ih =>
    obtain ⟨hterm, hsum⟩ := ih
    obtain ⟨fterm, fsum⟩ := parseTerm_parseSum_forward n
    have hshort {c d : Cursor} (hc : c.ahead.length ≤ n) (hd : c.LeadsTo d) : d.ahead.length ≤ n :=
      Nat.le_trans hd.ahead_length hc
    have hadvance {c : Cursor} {l : Lexeme} (hc : c.ahead.length ≤ n + 1)
        (hl : c.current.lexeme = l) (hend : l ≠ .endOfStatement) : c.advance.ahead.length ≤ n := by
      have hlen := (Cursor.consumes_advance hl hend).ahead_length
      rw [List.length_singleton] at hlen
      omega
    have hsumTerm {α : Type} {c : Cursor} (hc : c.ahead.length ≤ n) (f : Expr → TokenM α) :
        (do f (← parseSum (n + 1) (← parseTerm (n + 1)))) c =
          (do f (← parseSum n (← parseTerm n))) c := by
      refine bind_congr fterm (hterm c hc) fun t d hd => ?_
      exact bind_congr (fsum t) (hsum t d (hshort hc hd)) fun _ _ _ => rfl
    constructor
    · intro c hc
      conv_lhs => rw [parseTerm, get_bind_apply]
      conv_rhs => rw [parseTerm, get_bind_apply]
      cases hl : c.current.lexeme
      case identifier name =>
        have hc' := hadvance hc hl (by simp)
        refine skip_congr ?_
        rw [get_bind_apply, get_bind_apply]
        split
        case isFalse => rfl
        case isTrue =>
          refine skip_congr ?_
          rw [get_bind_apply, get_bind_apply]
          split
          case isFalse => rfl
          case isTrue  => exact hsumTerm (hshort hc' (Cursor.leadsTo_advance _)) _
      case punct p =>
        have hc' := hadvance hc hl (by simp)
        cases p
        case plus  => exact skip_congr (hterm _ hc')
        case minus => exact skip_congr (bind_congr fterm (hterm _ hc') fun _ _ _ => rfl)
        case lparen =>
          refine skip_congr ?_
          rw [get_bind_apply, get_bind_apply]
          split
          case isFalse => rfl
          case isTrue  => exact hsumTerm hc' _
        all_goals rfl
      all_goals rfl
    · intro e c hc
      conv_lhs => rw [parseSum, get_bind_apply]
      conv_rhs => rw [parseSum, get_bind_apply]
      cases hl : c.current.lexeme
      case punct p =>
        have hc' := hadvance hc hl (by simp)
        cases p
        case plus =>
          refine skip_congr (bind_congr fterm (hterm _ hc') fun t d hd => ?_)
          exact hsum _ d (hshort hc' hd)
        case minus =>
          refine skip_congr (bind_congr fterm (hterm _ hc') fun t d hd => ?_)
          split
          case h_1 => exact hsum _ d (hshort hc' hd)
          case h_2 => rfl
        all_goals rfl
      all_goals rfl

theorem parseTerm_bound (h : c.ahead.length ≤ n) : parseTerm n c = parseTerm c.ahead.length c := by
  induction h
  case refl      => rfl
  case step h ih => exact ((parseTerm_parseSum_bound _).left c h).trans ih

theorem parseSum_bound {e : Expr} (h : c.ahead.length ≤ n) :
    parseSum n e c = parseSum c.ahead.length e c := by
  induction h
  case refl      => rfl
  case step h ih => exact ((parseTerm_parseSum_bound _).right e c h).trans ih

theorem parse_bound (hs : c.current.lexeme.startsExpr) (hn : c.ahead.length ≤ n) :
    parse c = (do return some (← parseSum n (← parseTerm n))) c := by
  obtain ⟨fterm, fsum⟩ := parseTerm_parseSum_forward n
  rw [parse, get_bind_apply, if_pos hs]
  refine bind_congr fterm (parseTerm_bound hn).symm fun t d hd => ?_
  have hlen := hd.ahead_length
  refine bind_congr (fsum t) ?_ fun _ _ _ => rfl
  rw [parseSum_bound hlen, parseSum_bound (Nat.le_trans hlen hn)]

end

-- The phrase `p` stands between `c` and `d`, and the token at `d` does not go on with it.
structure Phrase.Spans (p : Phrase .sum) (c d : Cursor) : Prop where
  regular  : p.isRegular
  consumes : c.Consumes p.lexemes d
  stops    : Stops p.lexemes d.current.lexeme

theorem Phrase.Spans.parse_eq_ok {p : Phrase .sum} {c d : Cursor} (h : p.Spans c d) :
    ∃ e, parse c = .ok (some e) d := by
  obtain ⟨e, he⟩ := isRegular_iff.mp h.regular
  have hwritten : Written p.lexemes e := Phrase.derives he
  have hreads := hwritten.parse_reads (Cursor.current_lexeme d ▸ h.stops) c h.consumes.lexemes
  obtain ⟨o, d', hparse, rfl, hlexemes⟩ := hreads.exists_ok
  have hleads : c.LeadsTo d' := (parse_forward c trivial).ok hparse
  obtain rfl := h.consumes.eq_of_leadsTo hleads hlexemes
  exact ⟨e, hparse⟩

-- Where no expression begins, nothing is read. Where one begins, the result is the tree of the
-- phrase that stands there, or the failure if none does, and it does not depend on the bound.
theorem parse_meets_grammar (c : Cursor) :
    (∀ d, parse c = .ok none d ↔ d = c ∧ ¬ c.current.lexeme.startsExpr) ∧
    (∀ e d, parse c = .ok (some e) d → ∃ p : Phrase .sum, p.Spans c d ∧
      (∀ env, (e.assign env).value? = some (p.value env)) ∧ e.isFolded) ∧
    (∀ (p : Phrase .sum) d, p.Spans c d → ∃ e, parse c = .ok (some e) d) ∧
    (c.current.lexeme.startsExpr → (¬ ∃ (p : Phrase .sum) (d : Cursor), p.Spans c d) →
      ∃ e d, parse c = .error e d ∧ e.fault.family = .grammar) ∧
    (c.current.lexeme.startsExpr → ∀ n, c.ahead.length ≤ n →
      parse c = (do return some (← parseSum n (← parseTerm n))) c) := by
  have hsome (e d) (h : parse c = .ok (some e) d) : ∃ p : Phrase .sum, p.Spans c d ∧
      (∀ env, (e.assign env).value? = some (p.value env)) ∧ e.isFolded := by
    obtain ⟨ls, hc, hls, hstops⟩ := (parse_ensures c).ok h e rfl
    obtain ⟨p, rfl, hp⟩ := hls.exists_phrase
    exact ⟨p, ⟨Phrase.isRegular_iff.mpr ⟨e, hp⟩, hc, hstops⟩, fun env => Phrase.value_tree? env hp,
      Phrase.isFolded_tree? hp⟩
  refine ⟨fun d => ⟨fun h => ?_, ?_⟩, hsome, fun p d hp => hp.parse_eq_ok, fun hs hnone => ?_,
    fun hs n hn => parse_bound hs hn⟩
  · obtain ⟨hstarts, hd⟩ := parse_eq_ok h
    exact ⟨hd rfl, by simpa using hstarts.symm⟩
  · rintro ⟨rfl, hs⟩
    rw [parse, get_bind_apply, if_neg hs]
    rfl
  · cases h : parse c
    case error e d => exact ⟨e, d, rfl, (parse_ensures c).error h⟩
    case ok o d =>
      cases o
      case none   => simpa [hs] using (parse_eq_ok h).left
      case some e =>
        obtain ⟨p, hp, _⟩ := hsome e d h
        exact absurd ⟨p, d, hp⟩ hnone

end Expr
end Asm88000
