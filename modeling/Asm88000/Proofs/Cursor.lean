import Asm88000.Operand.Parser
import Asm88000.Proofs.Ensures

namespace Asm88000

namespace Cursor

variable {c d : Cursor} {l : Lexeme} {ls : List Lexeme}

-- `d` is `c` after some of the tokens ahead have been consumed.
def LeadsTo (c d : Cursor) : Prop :=
  ∃ ts, c.ahead = ts ++ d.ahead ∧ d.past = ts.reverse ++ c.past ∧ d.stop = c.stop

namespace LeadsTo

theorem refl (c : Cursor) : c.LeadsTo c :=
  ⟨[], rfl, rfl, rfl⟩

theorem trans {c₁ c₂ c₃ : Cursor} : c₁.LeadsTo c₂ → c₂.LeadsTo c₃ → c₁.LeadsTo c₃
  | ⟨ts, h₁, h₂, h₃⟩, ⟨us, h₄, h₅, h₆⟩ =>
    ⟨ts ++ us, by simp [h₁, h₄], by simp [h₂, h₅], h₆.trans h₃⟩

theorem tokens (h : c.LeadsTo d) : d.tokens = c.tokens := by
  obtain ⟨ts, hahead, hpast, hstop⟩ := h
  simp [Cursor.tokens, endToken, hahead, hpast, hstop]

end LeadsTo

theorem leadsTo_advance (c : Cursor) : c.LeadsTo c.advance := by
  unfold advance
  split
  · exact .refl c
  case _ t ts h =>
    split
    · exact .refl c
    · exact ⟨[t], by simp [h], by simp, rfl⟩

def Plain (c : Cursor) : Prop :=
  ∀ t ∈ c.ahead, t.lexeme ≠ .endOfStatement

theorem Plain.leadsTo (h : c.Plain) : c.LeadsTo d → d.Plain
  | ⟨_, ha, _, _⟩ => fun t ht => h t (ha ▸ List.mem_append_right _ ht)

theorem Plain.atEnd_iff (h : c.Plain) : c.atEnd ↔ c.ahead = [] := by
  cases ha : c.ahead
  case nil       => simp [atEnd, current, ha, endToken]
  case cons t ts => simpa [atEnd, current, ha] using h t (by simp [ha])

theorem current_mem (c : Cursor) : c.current ∈ c.tokens := by
  cases h : c.ahead <;> simp [tokens, current, h]

theorem eq_of_current (h : c.current.lexeme = l) (hl : l ≠ .endOfStatement) :
    ∃ past loc ts stop, c = ⟨past, ⟨l, loc⟩ :: ts, stop⟩ := by
  obtain ⟨past, ahead, stop⟩ := c
  cases ahead
  case nil       => simp [current, endToken, hl.symm] at h
  case cons t ts => exact ⟨past, t.loc, ts, stop, by simp [← h, current]⟩

@[simp]
theorem loc_cons {past ts : List Token} {stop : Loc} {t : Token} :
    loc ⟨past, t :: ts, stop⟩ = t.loc :=
  rfl

@[simp]
theorem advance_cons {past ts : List Token} {stop loc : Loc} (hl : l ≠ .endOfStatement) :
    advance ⟨past, ⟨l, loc⟩ :: ts, stop⟩ = ⟨⟨l, loc⟩ :: past, ts, stop⟩ := by
  simp [advance, hl]

theorem pushBack_advance (h : c.current.lexeme ≠ .endOfStatement) :
    c.advance.pushBack c.current = c := by
  generalize hl : c.current.lexeme = l at h
  obtain ⟨past, loc, ts, stop, rfl⟩ := eq_of_current hl h
  rw [advance_cons h]
  exact if_pos rfl

theorem Plain.tail {past ts : List Token} {stop : Loc} {t : Token}
    (h : Plain ⟨past, t :: ts, stop⟩) : Plain ⟨t :: past, ts, stop⟩ :=
  fun u hu => h u (List.mem_cons_of_mem t hu)

def lexemes (c : Cursor) : List Lexeme :=
  c.ahead.map Token.lexeme

theorem current_lexeme (c : Cursor) : c.current.lexeme = c.lexemes.headD .endOfStatement := by
  cases ha : c.ahead <;> simp [current, lexemes, ha, endToken]

theorem peek_lexeme (c : Cursor) (n : Nat) :
    (c.peek n).lexeme = c.lexemes.getD n .endOfStatement := by
  simp only [peek, lexemes, List.getD_eq_getElem?_getD, List.getElem?_map]
  cases c.ahead[n]? <;> simp [endToken]

theorem sees_eq (c : Cursor) (p : Punct) :
    c.sees p = decide (c.lexemes.headD .endOfStatement = .punct p) := by
  rw [sees, current_lexeme]

theorem atEnd_eq (c : Cursor) :
    c.atEnd = decide (c.lexemes.headD .endOfStatement = .endOfStatement) := by
  rw [atEnd, current_lexeme]

theorem advance_lexemes (h : c.lexemes = l :: ls) (hl : l ≠ .endOfStatement) :
    c.advance.lexemes = ls := by
  cases ha : c.ahead
  case nil       => simp [lexemes, ha] at h
  case cons t ts =>
    simp only [lexemes, ha, List.map_cons, List.cons.injEq] at h
    simp [advance, ha, h.left, hl, lexemes, h.right]

end Cursor

namespace TokenM

def forward : Discipline Error Cursor where
  valid _ := True
  rel     := Cursor.LeadsTo
  fails e := e.fault.family ≠ .general
  refl    := .refl
  trans   := .trans
  keeps   := fun _ _ => trivial

section

variable {c : Cursor} {α : Type} {f : Fault} {E : Error → Cursor → Prop}

@[simp]
theorem ensures_skip {Q : Unit → Cursor → Prop} : Ensures skip c Q E ↔ Q () c.advance :=
  .rfl

@[simp]
theorem ensures_failHere {Q : α → Cursor → Prop} :
    Ensures (failHere f) c Q E ↔ E (f.place c.loc) c :=
  .rfl

end

theorem fails_place {f : Fault} (h : f.family ≠ .general) (loc : Loc) :
    forward.fails (f.place loc) :=
  h

theorem skip_forward : forward.Obeys skip :=
  fun c _ => c.leadsTo_advance

end TokenM

structure Discipline.Passes (D : Discipline Error Cursor) : Prop where
  skip : D.Obeys TokenM.skip
  fail : ∀ {f : Fault}, f.family ≠ .general → ∀ loc, D.fails (f.place loc)

theorem Discipline.Passes.failHere {D : Discipline Error Cursor} {α : Type} (h : D.Passes)
    {f : Fault} (hf : f.family ≠ .general) : D.Obeys (TokenM.failHere (α := α) f) :=
  fun c _ => ⟨D.refl c, h.fail hf c.loc⟩

theorem TokenM.passes_forward : forward.Passes :=
  ⟨skip_forward, fails_place⟩

namespace Expr

open Discipline TokenM

section

variable {D : Discipline Error Cursor} (h : D.Passes)

include h

-- Terms and sums call each other with a smaller bound, so that both are shown at once.
theorem parseTerm_parseSum_obeys (n : Nat) :
    D.Obeys (parseTerm n) ∧ ∀ e, D.Obeys (parseSum n e) := by
  induction n
  case zero =>
    refine ⟨?_, fun e => ?_⟩ <;> simp only [parseTerm, parseSum]
    · exact h.failHere (by decide)
    · exact .pure e
  case succ n ih =>
    obtain ⟨hterm, hsum⟩ := ih
    have hparen {f : Fault} (hf : f.family ≠ .general) (g : Expr → Expr) : D.Obeys (do
        let e ← parseSum n (← parseTerm n)
        if (← get).sees .rparen then
          skip
          return g e
        else failHere f) :=
      hterm.bind fun t => (hsum t).bind fun e => Obeys.get.bind fun _ =>
        .ite (h.skip.bind fun _ => .pure _) (h.failHere hf)
    have hhalf (name : String) : (Fault.halfArgument name).family ≠ .general :=
      show FaultFamily.grammar ≠ .general by decide
    refine ⟨?_, fun e => ?_⟩ <;> simp only [parseTerm, parseSum]
    · refine Obeys.get.bind fun c => ?_
      split
      · exact h.skip.bind fun _ => .pure _
      · exact h.skip.bind fun _ => hterm
      · refine h.skip.bind fun _ => hterm.bind fun e => ?_
        split
        · exact .pure _
        · exact .throw (h.fail (by decide) _)
      · exact h.skip.bind fun _ => Obeys.get.bind fun _ =>
          .ite (hparen (by decide) id) (h.failHere (by decide))
      · refine h.skip.bind fun _ => Obeys.get.bind fun _ => .ite ?_ (.pure _)
        exact h.skip.bind fun _ => Obeys.get.bind fun _ =>
          .ite (hparen (hhalf _) _) (h.failHere (hhalf _))
      · exact h.failHere (by decide)
    · refine Obeys.get.bind fun c => ?_
      split
      · exact h.skip.bind fun _ => hterm.bind fun _ => hsum _
      · refine h.skip.bind fun _ => hterm.bind fun e => ?_
        split
        · exact hsum _
        · exact .throw (h.fail (by decide) _)
      · exact .pure _

theorem parse_obeys : D.Obeys parse := by
  refine Obeys.get.bind fun c => .ite ?_ (.pure none)
  obtain ⟨hterm, hsum⟩ := parseTerm_parseSum_obeys h c.ahead.length
  exact hterm.bind fun t => (hsum t).bind fun e => .pure (some e)

end

theorem parseTerm_parseSum_forward (n : Nat) :
    forward.Obeys (parseTerm n) ∧ ∀ e, forward.Obeys (parseSum n e) :=
  parseTerm_parseSum_obeys passes_forward n

theorem parse_forward : forward.Obeys parse :=
  parse_obeys passes_forward

theorem parse_starts (c : Cursor) :
    Ensures parse c (fun o d => o.isSome = c.current.lexeme.startsExpr ∧ (o = none → d = c))
      fun _ _ => c.current.lexeme.startsExpr := by
  unfold parse
  rw [ensures_bind, ensures_get]
  split
  case isFalse hstart => exact ⟨by simpa using hstart, fun _ => rfl⟩
  case isTrue hstart  =>
    refine Ensures.mono (E := fun _ _ => True) ?_ (fun _ _ => id) fun _ _ _ => hstart
    exact .last fun t _ => .last fun e _ => by simp [hstart]

theorem parse_eq_ok {c d : Cursor} {o : Option Expr} (h : parse c = .ok o d) :
    o.isSome = c.current.lexeme.startsExpr ∧ (o = none → d = c) :=
  (parse_starts c).ok h

end Expr

namespace RegisterRef

open TokenM

theorem parse?_of_some {c : Cursor} {r : RegisterRef} (h : at? c = some r) :
    parse? c = .ok (some r) c.advance.advance := by
  simp only [parse?, h]

theorem parse?_of_none {c : Cursor} (h : at? c = none) : parse? c = .ok none c := by
  simp only [parse?, h]
  split
  case isTrue hpercent =>
    have hpercent : c.current.lexeme = .punct .percent := of_decide_eq_true hpercent
    rw [Cursor.pushBack_advance (by simp [hpercent])]
  case isFalse => rfl

theorem parse?_forward : forward.Obeys parse? := by
  intro c _
  cases h : at? c
  case none   => exact .of_ok (parse?_of_none h) (.refl c)
  case some r =>
    exact .of_ok (parse?_of_some h) (c.leadsTo_advance.trans c.advance.leadsTo_advance)

theorem parse_forward : forward.Obeys parse := by
  intro c _
  unfold parse
  cases h : at? c <;> simp only [Ensures, h]
  case some r => exact c.leadsTo_advance.trans c.advance.leadsTo_advance
  case none =>
    split
    case _ hs =>
      split at hs <;> cases hs
    case _ hs =>
      split at hs <;> cases hs
      · exact ⟨c.leadsTo_advance, fails_place (by decide) _⟩
      · exact ⟨.refl c, fails_place (by decide) _⟩

end RegisterRef
end Asm88000
