import Mathlib.Data.List.Forall2
import Asm88000.Proofs.Cursor
import Asm88000.Proofs.Lexer

namespace Asm88000

structure Pairing (ε σ : Type) where
  state  : σ → σ → Prop
  failed : ε → σ → ε → σ → Prop

namespace Pairing

variable {ε σ α β : Type} {P : Pairing ε σ} {A : α → α → Prop} {B : β → β → Prop}

inductive Results (P : Pairing ε σ) (A : α → α → Prop) :
    EStateM.Result ε σ α → EStateM.Result ε σ α → Prop
  | ok {a b s t} : A a b → P.state s t → Results P A (.ok a s) (.ok b t)
  | error {e f s t} : P.failed e s f t → Results P A (.error e s) (.error f t)

-- Started in `s`, the program `p` comes to what `q` comes to if it is started in `t`.
def Meets (P : Pairing ε σ) (A : α → α → Prop) (p : EStateM ε σ α) (s : σ) (q : EStateM ε σ α)
    (t : σ) : Prop :=
  P.Results A (p s) (q t)

def Agrees (P : Pairing ε σ) (A : α → α → Prop) (p q : EStateM ε σ α) : Prop :=
  ∀ s t, P.state s t → P.Meets A p s q t

section

variable {p q : EStateM ε σ α} {f g : α → EStateM ε σ β} {s t : σ} {a b : α}

theorem Meets.seq {P' : Pairing ε σ} (h : P'.Meets A p s q t)
    (hf : ∀ a b s' t', A a b → P'.state s' t' → P.Meets B (f a) s' (g b) t')
    (he : ∀ e s' e' t', P'.failed e s' e' t' → P.failed e s' e' t') :
    P.Meets B (p >>= f) s (q >>= g) t := by
  unfold Meets at h
  simp only [Meets, Bind.bind, EStateM.bind]
  generalize p s = x at h
  generalize q t = y at h
  cases h
  case ok ha hs     => exact hf _ _ _ _ ha hs
  case error hfails => exact .error (he _ _ _ _ hfails)

theorem Meets.bind (h : P.Meets A p s q t) (hf : ∀ a b, A a b → P.Agrees B (f a) (g b)) :
    P.Meets B (p >>= f) s (q >>= g) t :=
  h.seq (fun a b s' t' ha hs => hf a b ha s' t' hs) fun _ _ _ _ => id

theorem Meets.pure (h : A a b) (hs : P.state s t) : P.Meets A (Pure.pure a) s (Pure.pure b) t :=
  .ok h hs

theorem meets_get {f g : σ → EStateM ε σ α} :
    P.Meets A (get >>= f) s (get >>= g) t ↔ P.Meets A (f s) s (g t) t :=
  .rfl

theorem Agrees.pure (h : A a b) : P.Agrees A (Pure.pure a) (Pure.pure b) :=
  fun _ _ hs => .ok h hs

theorem Agrees.bind (h : P.Agrees A p q) (hf : ∀ a b, A a b → P.Agrees B (f a) (g b)) :
    P.Agrees B (p >>= f) (q >>= g) :=
  fun s t hs => (h s t hs).bind hf

theorem Agrees.bind_eq (h : P.Agrees Eq p q) (hf : ∀ a, P.Agrees B (f a) (g a)) :
    P.Agrees B (p >>= f) (q >>= g) :=
  h.bind fun a _ hab => hab ▸ hf a

end

end Pairing

inductive Outcomes {ε α : Type} (E : ε → ε → Prop) (A : α → α → Prop) :
    Except ε α → Except ε α → Prop
  | ok {a b : α} : A a b → Outcomes E A (.ok a) (.ok b)
  | error {e f : ε} : E e f → Outcomes E A (.error e) (.error f)

theorem Outcomes.imp {ε α : Type} {E : ε → ε → Prop} {A B : α → α → Prop} {x y : Except ε α}
    (h : Outcomes E A x y) (hb : ∀ a b, x = .ok a → y = .ok b → A a b → B a b) :
    Outcomes E B x y := by
  cases h
  case ok h    => exact .ok (hb _ _ rfl rfl h)
  case error h => exact .error h

variable {L : Loc → Loc → Prop}

inductive Placed (L : Loc → Loc → Prop) : Option Loc → Option Loc → Prop
  | mk {l m : Loc} : L l m → Placed L (some l) (some m)

structure Error.Alike (L : Loc → Loc → Prop) (e f : Error) : Prop where
  fault : e.fault = f.fault
  loc   : Placed L e.loc f.loc

theorem Error.alike_place {l m : Loc} (h : L l m) (f : Fault) :
    Error.Alike L (f.place l) (f.place m) :=
  ⟨rfl, .mk h⟩

structure Diagnostic.Alike (L : Loc → Loc → Prop) (d e : Diagnostic) : Prop where
  severity : d.severity = e.severity
  message  : d.message = e.message
  loc      : Placed L d.loc e.loc

theorem Error.Alike.diagnostic {e f : Error} (h : e.Alike L f) :
    Diagnostic.Alike L (.ofError e) (.ofError f) :=
  ⟨rfl, congrArg Fault.message h.fault, h.loc⟩

inductive Lexeme.Same : Lexeme → Lexeme → Prop
  | integer {spelling spelling' : String} {v : Nat} :
    Same (.integer spelling v) (.integer spelling' v)
  | other {l : Lexeme} : (∀ spelling v, l ≠ .integer spelling v) → Same l l

namespace Lexeme.Same

variable {l m : Lexeme}

theorem refl (l : Lexeme) : Same l l := by
  cases l
  case integer => exact .integer
  all_goals exact .other (by simp)

theorem eq_iff (h : Same l m) {k : Lexeme} (hk : ∀ s v, k ≠ .integer s v) : l = k ↔ m = k := by
  cases h
  case integer => exact ⟨fun h => (hk _ _ h.symm).elim, fun h => (hk _ _ h.symm).elim⟩
  case other   => exact Iff.rfl

theorem symm (h : Same l m) : Same m l := by
  cases h
  case integer => exact .integer
  case other h => exact .other h

theorem startsExpr (h : Same l m) : l.startsExpr = m.startsExpr := by
  cases h <;> rfl

end Lexeme.Same

-- Token lists that differ in places, in the spelling of integers, and in the name after a percent
-- sign if both names are the same register's or no register's.
inductive AlikeTokens (L : Loc → Loc → Prop) : List Token → List Token → Prop
  | nil : AlikeTokens L [] []
  | cons {t u : Token} {ts us : List Token} :
    t.lexeme.Same u.lexeme → L t.loc u.loc → AlikeTokens L ts us → AlikeTokens L (t :: ts) (u :: us)
  | register {l l' m m' : Loc} {a b : String} {ts us : List Token} :
    Register.named? a = Register.named? b → L l l' → L m m' → AlikeTokens L ts us →
    AlikeTokens L (⟨.punct .percent, l⟩ :: ⟨.identifier a, m⟩ :: ts)
      (⟨.punct .percent, l'⟩ :: ⟨.identifier b, m'⟩ :: us)

theorem AlikeTokens.refl {ts : List Token} (h : ∀ t ∈ ts, L t.loc t.loc) : AlikeTokens L ts ts := by
  induction ts
  case nil => exact .nil
  case cons t ts ih =>
    obtain ⟨ht, hts⟩ := List.forall_mem_cons.mp h
    exact .cons (.refl _) ht (ih hts)

theorem AlikeTokens.length_eq {ts us : List Token} (h : AlikeTokens L ts us) :
    ts.length = us.length := by
  induction h <;> simp_all

theorem AlikeTokens.symm {ts us : List Token} (h : AlikeTokens L ts us) :
    AlikeTokens (fun l m => L m l) us ts := by
  induction h
  case nil                         => exact .nil
  case cons hl hloc _ ih           => exact .cons hl.symm hloc ih
  case register hname hl hm _ ih   => exact .register hname.symm hl hm ih

namespace Cursor

variable {c d : Cursor}

structure Alike (L : Loc → Loc → Prop) (c d : Cursor) : Prop where
  past  : List.Forall₂ (fun t u => L t.loc u.loc) c.past d.past
  ahead : AlikeTokens L c.ahead d.ahead
  stop  : L c.stop d.stop

namespace Alike

theorem current (h : c.Alike L d) :
    c.current.lexeme.Same d.current.lexeme ∧ L c.current.loc d.current.loc := by
  obtain ⟨past, ahead, stop⟩ := c
  obtain ⟨past', ahead', stop'⟩ := d
  cases h.ahead
  case nil               => exact ⟨.refl _, h.stop⟩
  case cons hl hloc _    => exact ⟨hl, hloc⟩
  case register hloc _ _ => exact ⟨.refl _, hloc⟩

theorem loc (h : c.Alike L d) : L c.loc d.loc :=
  h.current.right

theorem lastLoc (h : c.Alike L d) : L c.lastLoc d.lastLoc := by
  have hloc := h.loc
  have hpast := h.past
  unfold Cursor.lastLoc
  generalize c.past = past at hpast
  generalize d.past = past' at hpast
  cases hpast
  case nil         => exact hloc
  case cons hlast _ => exact hlast

theorem sees (h : c.Alike L d) (p : Punct) : c.sees p = d.sees p := by
  simp only [Cursor.sees, h.current.left.eq_iff (k := .punct p) (by simp)]

theorem atEnd (h : c.Alike L d) : c.atEnd = d.atEnd := by
  simp only [Cursor.atEnd, h.current.left.eq_iff (k := .endOfStatement) (by simp)]

theorem ahead_length (h : c.Alike L d) : c.ahead.length = d.ahead.length :=
  h.ahead.length_eq

theorem advance (h : c.Alike L d) (hp : c.sees .percent = false) : c.advance.Alike L d.advance := by
  obtain ⟨past, ahead, stop⟩ := c
  obtain ⟨past', ahead', stop'⟩ := d
  obtain ⟨hpast, hahead, hstop⟩ := h
  cases hahead
  case nil => exact ⟨hpast, .nil, hstop⟩
  case register => cases hp
  case cons t u ts us hl hloc hts =>
    have hend : t.lexeme = .endOfStatement ↔ u.lexeme = .endOfStatement := hl.eq_iff (by simp)
    by_cases ht : t.lexeme = .endOfStatement
    case pos =>
      simp only [Cursor.advance, ht, hend.mp ht, ↓reduceIte]
      exact ⟨hpast, .cons hl hloc hts, hstop⟩
    case neg =>
      have hu : u.lexeme ≠ .endOfStatement := fun h => ht (hend.mpr h)
      simp only [Cursor.advance, ht, hu, ↓reduceIte]
      exact ⟨.cons (R := fun t u : Token => L t.loc u.loc) hloc hpast, hts, hstop⟩

end Alike
end Cursor

structure Loc.Across (m n : Int) (l k : Loc) : Prop where
  left   : l.line = m
  right  : k.line = n
  column : l.column = k.column

structure Token.Across (m n : Int) (t u : Token) : Prop where
  lexeme : t.lexeme = u.lexeme
  loc    : t.loc.Across m n u.loc

theorem Lexer.scan_agrees {m n : Int} {stop stop' : Loc} (hstop : stop.Across m n stop')
    (bound col : Nat) (cs : List Char) :
    Outcomes (Error.Alike (Loc.Across m n)) (List.Forall₂ (Token.Across m n))
      (scan m stop bound col cs) (scan n stop' bound col cs) := by
  have hend : List.Forall₂ (Token.Across m n) [⟨.endOfStatement, stop⟩]
    [⟨.endOfStatement, stop'⟩] :=
    .cons ⟨rfl, hstop⟩ .nil
  induction bound generalizing col cs
  case zero => exact .ok hend
  case succ bound ih =>
    cases cs
    case nil => exact .ok hend
    case cons c cs =>
      have hcol : Loc.Across m n ⟨m, col⟩ ⟨n, col⟩ := ⟨rfl, rfl, rfl⟩
      -- A token in front of what the rest of the line is split into.
      have hcons (l : Lexeme) (col' : Nat) (cs' : List Char) :
          Outcomes (Error.Alike (Loc.Across m n)) (List.Forall₂ (Token.Across m n))
            (do return ⟨l, ⟨m, col⟩⟩ :: (← scan m stop bound col' cs'))
            (do return ⟨l, ⟨n, col⟩⟩ :: (← scan n stop' bound col' cs')) := by
        have hrest := ih col' cs'
        generalize scan m stop bound col' cs' = x at hrest
        generalize scan n stop' bound col' cs' = y at hrest
        cases hrest
        case ok hts   => exact .ok (.cons ⟨rfl, hcol⟩ hts)
        case error he => exact .error he
      simp only [scan]
      split
      · exact ih _ _
      split
      · exact .ok hend
      split
      · split
        · split
          · exact .error (Error.alike_place hcol _)
          · exact hcons _ _ _
        · exact .ok (.cons ⟨rfl, hcol⟩ hend)
      split
      · exact hcons _ _ _
      split
      · exact hcons _ _ _
      · exact .error (Error.alike_place hcol _)

theorem tokenize_agrees (m n : Int) (text : String) :
    Outcomes (Error.Alike (Loc.Across m n)) (List.Forall₂ (Token.Across m n)) (tokenize m text)
      (tokenize n text) := by
  have hstop : Loc.Across m n ⟨m, text.toList.length + 1⟩ ⟨n, text.toList.length + 1⟩ :=
    ⟨rfl, rfl, rfl⟩
  exact Lexer.scan_agrees hstop _ _ _

-- The lexemes of a line without the end of the statement. They are the same whatever the number of
-- the line is.
def lexemes (text : String) : Except Error (List Lexeme) :=
  (tokenize 1 text).map fun ts => ts.dropLast.map Token.lexeme

inductive TokensOn (n : Int) : List Token → List Lexeme → Prop
  | nil : TokensOn n [] []
  | cons {l : Lexeme} {column : Int} {ts : List Token} {ls : List Lexeme} :
    TokensOn n ts ls → TokensOn n (⟨l, n, column⟩ :: ts) (l :: ls)

section

variable {n : Int} {ts : List Token} {ls : List Lexeme}

theorem TokensOn.of_cons {l : Lexeme} (h : TokensOn n ts (l :: ls)) :
    ∃ column rest, ts = ⟨l, n, column⟩ :: rest ∧ TokensOn n rest ls := by
  cases h
  case cons column rest h => exact ⟨column, rest, rfl, h⟩

theorem tokensOn_map (h : ∀ t ∈ ts, t.loc.line = n) : TokensOn n ts (ts.map Token.lexeme) := by
  induction ts
  case nil => exact .nil
  case cons t ts ih =>
    obtain ⟨ht, hts⟩ := List.forall_mem_cons.mp h
    obtain ⟨lexeme, line, column⟩ := t
    obtain rfl : line = n := ht
    exact .cons (ih hts)

theorem tokenize_line {text : String} (h : tokenize n text = .ok ts) :
    ∀ t ∈ ts, t.loc.line = n := by
  have hagrees := tokenize_agrees n n text
  rw [h] at hagrees
  cases hagrees
  case ok hts => exact fun t ht => (List.forall₂_same.mp hts t ht).loc.left

theorem tokenize_of_lexemes {text : String} (h : lexemes text = .ok ls) (n : Int) :
    ∃ ts stop, tokenize n text = .ok (ts ++ [⟨.endOfStatement, stop⟩]) ∧ TokensOn n ts ls ∧
      stop.line = n := by
  have hagrees := tokenize_agrees 1 n text
  unfold lexemes at h
  generalize tokenize 1 text = x at h hagrees
  generalize htok : tokenize n text = y at hagrees
  cases hagrees
  case error => cases h
  case ok us vs hus =>
    have hline := tokenize_line htok
    obtain ⟨ts, stop, rfl, _⟩ := tokenize_ok htok
    have hlexemes : us.map Token.lexeme =
        (ts ++ [(⟨.endOfStatement, stop⟩ : Token)]).map Token.lexeme := by
      rw [← List.forall₂_eq_eq_eq]
      exact List.rel_map (R := Token.Across 1 n) (fun _ _ ht => ht.lexeme) hus
    have hls : ls = ts.map Token.lexeme := by
      cases h
      simp only [List.map_dropLast, hlexemes, List.map_append, List.map_cons, List.map_nil,
        List.dropLast_concat]
    refine ⟨ts, stop, rfl, ?_, hline ⟨.endOfStatement, stop⟩ (by simp)⟩
    rw [hls]
    exact tokensOn_map fun t ht => hline t (List.mem_append_left _ ht)

theorem TokensOn.map_lexeme (h : TokensOn n ts ls) : ts.map Token.lexeme = ls := by
  induction h
  case nil     => rfl
  case cons ih => rw [List.map_cons, ih]

theorem tokenize_of_lexemes_error {text : String} {e : Error} (h : lexemes text = .error e)
    (n : Int) :
    ∃ e', tokenize n text = .error e' := by
  have hagrees := tokenize_agrees 1 n text
  unfold lexemes at h
  generalize tokenize 1 text = x at h hagrees
  generalize tokenize n text = y at hagrees
  cases hagrees
  case ok         => cases h
  case error e' _ => exact ⟨e', rfl⟩

theorem lexemes_of_tokenize {text : String} {stop : Loc}
    (h : tokenize n text = .ok (ts ++ [⟨.endOfStatement, stop⟩])) :
    lexemes text = .ok (ts.map Token.lexeme) := by
  cases hls : lexemes text
  case error e =>
    obtain ⟨e', he'⟩ := tokenize_of_lexemes_error hls n
    cases h.symm.trans he'
  case ok ls =>
    obtain ⟨us, stop', hus, hon, _⟩ := tokenize_of_lexemes hls n
    obtain ⟨rfl, _⟩ := List.append_inj' (Except.ok.inj (h.symm.trans hus)) rfl
    rw [hon.map_lexeme]

end

namespace TokenM

def alike (L : Loc → Loc → Prop) : Pairing Error Cursor where
  state  := Cursor.Alike L
  failed := fun e _ f _ => e.Alike L f

variable {α : Type} {A : α → α → Prop} {c d : Cursor} {f g : Unit → TokenM α}

theorem meets_skip (h : c.Alike L d) (hp : c.sees .percent = false)
    (hf : (alike L).Agrees A (f ()) (g ())) : (alike L).Meets A (skip >>= f) c (skip >>= g) d :=
  hf _ _ (h.advance hp)

theorem meets_failHere (h : c.Alike L d) (f : Fault) :
    (alike L).Meets A (failHere f) c (failHere f) d :=
  .error (Error.alike_place h.loc f)

end TokenM

namespace Cursor

theorem sees_percent_eq_false {c : Cursor} {l : Lexeme} (h : c.current.lexeme = l)
    (hl : l ≠ .punct .percent) : c.sees .percent = false := by
  simp [sees, h, hl]

theorem sees_percent_of_sees {c : Cursor} {p : Punct} (h : c.sees p) (hp : p ≠ .percent) :
    c.sees .percent = false := by
  simp_all [sees]

end Cursor

namespace Expr

open TokenM Pairing

theorem parseTerm_parseSum_agree (n : Nat) :
    (alike L).Agrees Eq (parseTerm n) (parseTerm n) ∧
    ∀ e, (alike L).Agrees Eq (parseSum n e) (parseSum n e) := by
  induction n
  case zero =>
    simp only [parseTerm, parseSum]
    exact ⟨fun c d h => meets_failHere h _, fun e => .pure rfl⟩
  case succ n ih =>
    obtain ⟨hterm, hsum⟩ := ih
    have hparen (f : Fault) (g : Expr → Expr) : (alike L).Agrees Eq (do
        let e ← parseSum n (← parseTerm n)
        if (← get).sees .rparen then
          skip
          return g e
        else failHere f) (do
        let e ← parseSum n (← parseTerm n)
        if (← get).sees .rparen then
          skip
          return g e
        else failHere f) := by
      refine hterm.bind_eq fun t => (hsum t).bind_eq fun e c d h => ?_
      rw [meets_get, ← h.sees]
      split
      case isTrue hs => exact meets_skip h (Cursor.sees_percent_of_sees hs (by simp)) (.pure rfl)
      case isFalse   => exact meets_failHere h f
    constructor
    · intro c d h
      obtain ⟨hl, hloc⟩ := h.current
      rw [parseTerm, meets_get]
      dsimp only
      generalize hlc : c.current.lexeme = l at hl
      generalize hld : d.current.lexeme = m at hl
      cases hl
      case integer => exact meets_skip h (Cursor.sees_percent_eq_false hlc (by simp)) (.pure rfl)
      case other hother =>
        have hskip (hl : l ≠ .punct .percent) := Cursor.sees_percent_eq_false hlc hl
        split
        case h_1 => exact (hother _ _ rfl).elim
        case h_2 => exact meets_skip h (hskip (by simp)) hterm
        case h_3 =>
          refine meets_skip h (hskip (by simp)) (hterm.bind_eq fun e => ?_)
          split
          case h_1 => exact .pure rfl
          case h_2 => exact fun _ _ _ => .error (Error.alike_place hloc _)
        case h_4 =>
          refine meets_skip h (hskip (by simp)) fun c d h => ?_
          rw [meets_get, ← h.current.left.startsExpr]
          split
          case isTrue  => exact hparen _ id c d h
          case isFalse => exact meets_failHere h _
        case h_5 name =>
          refine meets_skip h (hskip (by simp)) fun c d h => ?_
          rw [meets_get, ← h.sees]
          split
          case isFalse => exact .pure rfl h
          case isTrue hs =>
            have hs := Cursor.sees_percent_of_sees (Bool.and_eq_true_iff.mp hs).right (by simp)
            refine meets_skip h hs fun c d h => ?_
            rw [meets_get, ← h.current.left.startsExpr]
            split
            case isTrue  => exact hparen _ _ c d h
            case isFalse => exact meets_failHere h _
        case h_6 => exact meets_failHere h _
    · intro e c d h
      obtain ⟨hl, hloc⟩ := h.current
      rw [parseSum, meets_get]
      dsimp only
      generalize hlc : c.current.lexeme = l at hl
      generalize hld : d.current.lexeme = m at hl
      cases hl
      case integer => exact .pure rfl h
      case other =>
        have hskip (hl : l ≠ .punct .percent) := Cursor.sees_percent_eq_false hlc hl
        split
        case h_1 => exact meets_skip h (hskip (by simp)) (hterm.bind_eq fun t => hsum _)
        case h_2 =>
          refine meets_skip h (hskip (by simp)) (hterm.bind_eq fun t => ?_)
          split
          case h_1 => exact hsum _
          case h_2 => exact fun _ _ _ => .error (Error.alike_place hloc _)
        case h_3 => exact .pure rfl h

theorem parse_agrees : (alike L).Agrees Eq parse parse := by
  intro c d h
  rw [parse, meets_get, ← h.current.left.startsExpr, ← h.ahead_length]
  split
  case isFalse => exact .pure rfl h
  case isTrue =>
    obtain ⟨hterm, hsum⟩ := parseTerm_parseSum_agree (L := L) c.ahead.length
    exact (hterm.bind_eq fun t => (hsum t).bind_eq fun e => .pure rfl) c d h

end Expr

namespace RegisterRef

open TokenM Pairing

structure Alike (L : Loc → Loc → Prop) (r q : RegisterRef) : Prop where
  register : r.register = q.register
  first    : L r.first q.first
  last     : L r.last q.last

inductive Seen (L : Loc → Loc → Prop) (c d : Cursor) : Prop
  | some {r q : RegisterRef} :
    at? c = some r → at? d = some q → r.Alike L q → c.advance.advance.Alike L d.advance.advance →
    Seen L c d
  | none : at? c = none → at? d = none → Seen L c d

theorem at?_percent {past ts : List Token} {l m stop : Loc} {name : String} :
    at? ⟨past, ⟨.punct .percent, l⟩ :: ⟨.identifier name, m⟩ :: ts, stop⟩ =
      (Register.named? name).map (⟨·, l, m⟩) :=
  rfl

theorem seen_name {past past' ts us : List Token} {l l' m m' stop stop' : Loc} {a b : String}
    (hname : Register.named? a = Register.named? b) (hl : L l l') (hm : L m m')
    (hpast : List.Forall₂ (fun t u => L t.loc u.loc) past past') (hts : AlikeTokens L ts us)
    (hstop : L stop stop') :
    Seen L ⟨past, ⟨.punct .percent, l⟩ :: ⟨.identifier a, m⟩ :: ts, stop⟩
      ⟨past', ⟨.punct .percent, l'⟩ :: ⟨.identifier b, m'⟩ :: us, stop'⟩ := by
  cases hr : Register.named? a
  case none => exact .none (by rw [at?_percent, hr]; rfl) (by rw [at?_percent, ← hname, hr]; rfl)
  case some r =>
    have hfirst : at? ⟨past, ⟨.punct .percent, l⟩ :: ⟨.identifier a, m⟩ :: ts, stop⟩ =
        some ⟨r, l, m⟩ := by rw [at?_percent, hr, Option.map_some]
    have hsecond : at? ⟨past', ⟨.punct .percent, l'⟩ :: ⟨.identifier b, m'⟩ :: us, stop'⟩ =
        some ⟨r, l', m'⟩ := by rw [at?_percent, ← hname, hr, Option.map_some]
    exact .some hfirst hsecond ⟨rfl, hl, hm⟩ ⟨.cons hm (.cons hl hpast), hts, hstop⟩

theorem at?_eq_none {c : Cursor} (h : c.sees .percent = false) : at? c = none := by
  rw [at?, h]
  rfl

theorem seen {c d : Cursor} (h : c.Alike L d) : Seen L c d := by
  by_cases hp : c.sees .percent
  case neg =>
    have hp : c.sees .percent = false := by simpa using hp
    exact .none (at?_eq_none hp) (at?_eq_none (h.sees _ ▸ hp))
  case pos =>
    obtain ⟨past, ahead, stop⟩ := c
    obtain ⟨past', ahead', stop'⟩ := d
    obtain ⟨hpast, hahead, hstop⟩ := h
    cases hahead
    case nil => cases hp
    case register hname hl hm hts => exact seen_name hname hl hm hpast hts hstop
    case cons t u ts us hl hloc hts =>
      obtain ⟨lexeme, l⟩ := t
      obtain ⟨lexeme', l'⟩ := u
      obtain rfl : lexeme = .punct .percent := of_decide_eq_true hp
      cases hl
      -- Both have a percent sign, and what follows is the same.
      cases hts
      case nil      => exact .none rfl rfl
      case register => exact .none rfl rfl
      case cons t u ts us hl hm hts =>
        obtain ⟨lexeme, m⟩ := t
        obtain ⟨lexeme', m'⟩ := u
        cases hl
        case integer => exact .none rfl rfl
        case other =>
          cases lexeme
          case identifier => exact seen_name rfl hloc hm hpast hts hstop
          all_goals exact .none rfl rfl

theorem parse?_agrees : (alike L).Agrees (Option.Rel (Alike L)) parse? parse? := by
  intro c d h
  unfold Meets
  cases seen h
  case some hr hq halike hnext =>
    rw [parse?_of_some hr, parse?_of_some hq]
    exact .ok (.some halike) hnext
  case none hr hq =>
    rw [parse?_of_none hr, parse?_of_none hq]
    exact .ok .none h

theorem parse_agrees : (alike L).Agrees (Alike L) parse parse := by
  intro c d h
  unfold Meets parse
  cases seen h
  case some hr hq halike hnext =>
    rw [hr, hq]
    exact .ok halike hnext
  case none hr hq =>
    rw [hr, hq, ← h.sees]
    dsimp only
    split
    · exact .error (Error.alike_place h.loc _)
    · exact .error (Error.alike_place h.loc _)

end RegisterRef

end Asm88000
