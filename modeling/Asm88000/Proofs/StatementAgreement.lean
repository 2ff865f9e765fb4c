import Asm88000.Proofs.OperandAgreement
import Asm88000.Proofs.Execution

namespace Asm88000

variable {L : Loc → Loc → Prop} {R : Session → Session → Prop}

-- A correspondence of sessions that every change keeps. The log and the source lines do not count.
structure Session.Simulation (L : Loc → Loc → Prop) (R : Session → Session → Prop) : Prop where
  note {s t level level' message message'} :
    R s t → R (s.note level message) (t.note level' message')
  source {s t line line' text text'} : R s t → R (s.addSource line text) (t.addSource line' text')
  report {s t d d'} : Diagnostic.Alike L d d' → R s t → R (s.report d) (t.report d')
  switch {s t} (sect : SectionName) : R s t → R (s.switch sect) (t.switch sect)
  global {s t} (name : String) : R s t → R (s.global name) (t.global name)
  require88110 {s t} : R s t → R s.require88110 t.require88110
  label {s t l l'} (name : String) : L l l' → R s t →
    Outcomes (Error.Alike L) R (s.label name l) (t.label name l')
  align {s t l l'} (alignment : Int) : L l l' → R s t →
    Outcomes (Error.Alike L) R (s.align alignment l) (t.align alignment l')
  word {s t l l'} (e : Expr) : L l l' → R s t →
    Outcomes (Error.Alike L) R (s.emitWord e l) (t.emitWord e l')
  operands {s t l l' ops ops'} : List.Forall₂ (Operand.Alike L) ops ops' → L l l' → R s t →
    Outcomes (Failure.Alike L) (fun x y => R x.2 y.2) (s.emitOperands ops l)
      (t.emitOperands ops' l')

theorem TokensOn.not_startsLabel {n : Int} {ts : List Token} {ls : List Lexeme} {name : String}
    {l : Loc} (h : TokensOn n ts ls) (hcolon : ls.head? ≠ some (.punct .colon)) :
    ¬ StartsLabel (⟨.identifier name, l⟩ :: ts) := by
  rintro ⟨_, _, _, _, heq⟩
  cases heq
  cases h
  exact hcolon rfl

inductive AlikeBody (L : Loc → Loc → Prop) : List Token → List Token → Prop
  | plain {ts us : List Token} : AlikeTokens L ts us → AlikeBody L ts us
  | mnemonic {a b : String} {l m : Loc} {ts us : List Token} :
    Text.lowerAscii a = Text.lowerAscii b → Statement.isDirectiveName a = false →
    Statement.isDirectiveName b = false → L l m → AlikeTokens L ts us →
    AlikeBody L (⟨.identifier a, l⟩ :: ts) (⟨.identifier b, m⟩ :: us)

inductive AlikeStatement (L : Loc → Loc → Prop) : List Token → List Token → Prop
  | body {ts us : List Token} :
    AlikeBody L ts us → ¬ StartsLabel ts → ¬ StartsLabel us → AlikeStatement L ts us
  | label {name : String} {l l' m m' : Loc} {ts us : List Token} :
    L l l' → L m m' → AlikeStatement L ts us →
    AlikeStatement L (⟨.identifier name, l⟩ :: ⟨.punct .colon, m⟩ :: ts)
      (⟨.identifier name, l'⟩ :: ⟨.punct .colon, m'⟩ :: us)

theorem AlikeBody.length_eq {ts us : List Token} (h : AlikeBody L ts us) :
    ts.length = us.length := by
  cases h
  case plain h      => exact h.length_eq
  case mnemonic _ h => simp [h.length_eq]

theorem AlikeStatement.length_eq {ts us : List Token} (h : AlikeStatement L ts us) :
    ts.length = us.length := by
  induction h
  case body h _ _ => exact h.length_eq
  case label ih   => simp [ih]

theorem AlikeTokens.label {name : String} {l m : Loc} {ts us : List Token}
    (h : AlikeTokens L (⟨.identifier name, l⟩ :: ⟨.punct .colon, m⟩ :: ts) us) :
    ∃ l' m' us', us = ⟨.identifier name, l'⟩ :: ⟨.punct .colon, m'⟩ :: us' ∧ L l l' ∧ L m m' ∧
      AlikeTokens L ts us' := by
  cases h
  case cons u us hname hl hrest =>
    cases hrest
    case cons v vs hcolon hm hts =>
      obtain ⟨lexeme, l'⟩ := u
      obtain ⟨lexeme', m'⟩ := v
      cases hname
      cases hcolon
      exact ⟨l', m', vs, rfl, hl, hm, hts⟩

theorem AlikeTokens.statement {ts us : List Token} (h : AlikeTokens L ts us) :
    AlikeStatement L ts us := by
  by_cases hts : StartsLabel ts
  case pos =>
    obtain ⟨name, l, m, ts, rfl⟩ := hts
    obtain ⟨l', m', us, rfl, hl, hm, hrest⟩ := h.label
    exact .label hl hm hrest.statement
  case neg =>
    refine .body (.plain h) hts fun hus => hts ?_
    obtain ⟨name, l, m, us, rfl⟩ := hus
    obtain ⟨l', m', ts, rfl, _⟩ := h.symm.label
    exact ⟨name, l', m', ts, rfl⟩
termination_by ts.length

namespace StatementM

open Pairing

def alike (L : Loc → Loc → Prop) (R : Session → Session → Prop) : Pairing Failure Run where
  state r q      := R r.session q.session ∧ r.cursor.Alike L q.cursor
  failed f r g q := f.Alike L g ∧ R r.session q.session

variable {α : Type} {A : α → α → Prop} {r q : Run}

theorem meets_cursor {P : Pairing Failure Run} {f g : Cursor → StatementM α} :
    P.Meets A (cursor >>= f) r (cursor >>= g) q ↔
      P.Meets A (f r.cursor) r (g q.cursor) q :=
  .rfl

theorem meets_skip {f g : Unit → StatementM α} (h : (alike L R).state r q)
    (hp : r.cursor.sees .percent = false) (hf : (alike L R).Agrees A (f ()) (g ())) :
    (alike L R).Meets A (skip >>= f) r (skip >>= g) q :=
  hf _ _ ⟨h.left, h.right.advance hp⟩

theorem fail_agrees {l l' : Loc} (h : L l l') (f : Fault) :
    (alike L R).Agrees A (fail f l) (fail f l') :=
  fun _ _ hr => .error ⟨.error (Error.alike_place h f), hr.left⟩

theorem failHere_agrees (f : Fault) : (alike L R).Agrees A (failHere f) (failHere f) :=
  fun r q hr => fail_agrees hr.right.loc f r q hr

theorem ofTokens_agrees {p q : TokenM α} (h : (TokenM.alike L).Agrees A p q) :
    (alike L R).Agrees A (ofTokens p) (ofTokens q) := by
  intro r r' hr
  have hresults : (TokenM.alike L).Results A (p r.cursor) (q r'.cursor) := h _ _ hr.right
  unfold Meets ofTokens
  generalize p r.cursor = x at hresults
  generalize q r'.cursor = y at hresults
  cases hresults
  case ok ha hc => exact .ok ha ⟨hr.left, hc⟩
  case error he => exact .error ⟨.error he, hr.left⟩

theorem change_agrees {f g : Session → Session} (h : ∀ {s t}, R s t → R (f s) (g t)) :
    (alike L R).Agrees Eq (change f) (change g) :=
  fun _ _ hr => .ok rfl ⟨h hr.left, hr.right⟩

theorem tryChange_agrees {f g : Session → Except Error Session}
    (h : ∀ {s t}, R s t → Outcomes (Error.Alike L) R (f s) (g t)) :
    (alike L R).Agrees Eq (tryChange f) (tryChange g) := by
  intro r q hr
  have houtcomes := h hr.left
  unfold Meets tryChange
  generalize f r.session = x at houtcomes
  generalize g q.session = y at houtcomes
  cases houtcomes
  case ok hs    => exact .ok rfl ⟨hs, hr.right⟩
  case error he => exact .error ⟨.error he, hr.left⟩

end StatementM

namespace Statement

open Pairing StatementM

variable (sim : Session.Simulation L R)

include sim

theorem words_agrees (n : Nat) : (alike L R).Agrees Eq (words n) (words n) := by
  induction n
  case zero => exact failHere_agrees _
  case succ n ih =>
    intro r q h
    have hloc := h.right.loc
    rw [words, meets_cursor]
    refine (ofTokens_agrees Expr.parse_agrees).bind_eq (fun o => ?_) r q h
    cases o
    case none => exact fail_agrees hloc _
    case some e =>
      refine (tryChange_agrees (sim.word e hloc)).bind_eq fun _ r q h => ?_
      rw [meets_cursor, ← h.right.sees]
      split
      case isTrue hs => exact meets_skip h (Cursor.sees_percent_of_sees hs (by simp)) ih
      case isFalse   => exact .pure rfl h

theorem directiveBody_agrees (d : Directive) (name : String) {l l' : Loc} (hloc : L l l') :
    (alike L R).Agrees Eq (directiveBody d name l) (directiveBody d name l') := by
  intro r q h
  obtain ⟨hl, _⟩ := h.right.current
  rw [directiveBody, directiveBody, meets_cursor]
  cases d <;> dsimp only
  case switch sect => exact change_agrees (sim.switch sect) r q h
  case word =>
    rw [← h.right.ahead_length]
    exact words_agrees sim _ r q h
  all_goals
    generalize hlr : r.cursor.current.lexeme = l at hl
    generalize hlq : q.cursor.current.lexeme = m at hl
    cases hl
  case global.integer => exact failHere_agrees _ r q h
  case global.other =>
    split
    case h_1 =>
      exact meets_skip h (Cursor.sees_percent_eq_false hlr (by simp)) (change_agrees (sim.global _))
    case h_2 => exact failHere_agrees _ r q h
  case align.integer =>
    exact meets_skip h (Cursor.sees_percent_eq_false hlr (by simp))
      (tryChange_agrees (sim.align _ hloc))
  case align.other hother =>
    split
    case h_1 => exact (hother _ _ rfl).elim
    case h_2 => exact failHere_agrees _ r q h

theorem targetDirective_agrees (name : String) :
    (alike L R).Agrees Eq (targetDirective name) (targetDirective name) := by
  unfold targetDirective
  split
  case isFalse => exact .pure rfl
  case isTrue =>
    intro r q h
    rw [meets_cursor, ← h.right.atEnd]
    split
    case isTrue => exact failHere_agrees _ r q h
    case isFalse =>
      exact (change_agrees sim.require88110).bind_eq (fun _ => .pure rfl) r q h

theorem directive_agrees (name : String) {l l' : Loc} (hloc : L l l') :
    (alike L R).Agrees Eq (directive name l) (directive name l') := by
  refine (targetDirective_agrees sim name).bind_eq fun b => ?_
  split
  case isFalse => exact .pure rfl
  case isTrue =>
    split
    case h_1 => exact fail_agrees hloc _
    case h_2 d _ =>
      refine (directiveBody_agrees sim d _ hloc).bind_eq fun _ r q h => ?_
      rw [meets_cursor, ← h.right.atEnd]
      split
      case isTrue  => exact failHere_agrees _ r q h
      case isFalse => exact .pure rfl h

theorem reportAll_alike {ws ws' : List Diagnostic}
    (h : List.Forall₂ (Diagnostic.Alike L) ws ws') {s t : Session} (hs : R s t) :
    R (s.reportAll ws) (t.reportAll ws') := by
  unfold Session.reportAll
  induction h generalizing s t
  case nil          => exact hs
  case cons hw _ ih => exact ih (sim.report hw hs)

omit sim in
theorem describe_alike {ops ops' : List Operand} (h : List.Forall₂ (Operand.Alike L) ops ops') :
    ops.mapM Operand.describe = ops'.mapM Operand.describe := by
  induction h
  case nil => rfl
  case cons hop _ ih => simp only [List.mapM_cons, Operand.describe, hop.value, ih]

theorem operands_agrees (mnemonic : String) {l l' : Loc} (hloc : L l l') :
    (alike L R).Agrees (List.Forall₂ (Operand.Alike L)) (operands mnemonic l)
      (operands mnemonic l') := by
  intro r q h
  have hresults : (OperandM.alike L).Results Eq
      (Operand.parseAll mnemonic (Scan.start mnemonic l r.cursor))
      (Operand.parseAll mnemonic (Scan.start mnemonic l' q.cursor)) :=
    Operand.parseAll_agrees mnemonic _ _ (Scan.alike_start h.right hloc mnemonic)
  unfold Meets operands
  generalize Operand.parseAll mnemonic (Scan.start mnemonic l r.cursor) = x at hresults
  generalize Operand.parseAll mnemonic (Scan.start mnemonic l' q.cursor) = y at hresults
  cases hresults
  case error hfail => exact .error ⟨hfail.left, reportAll_alike sim hfail.right h.left⟩
  case ok scan scan' _ hscan =>
    have hreport := reportAll_alike sim hscan.warnings h.left
    have hdescribe := describe_alike (List.forall₂_drop 1 hscan.operands)
    dsimp only
    rw [← hdescribe]
    split
    case h_1 => exact .error ⟨.breach, hreport⟩
    case h_2 => exact .ok hscan.operands ⟨sim.note hreport, hscan.cursor⟩

theorem emit_agrees {ops ops' : List Operand} (hops : List.Forall₂ (Operand.Alike L) ops ops')
    {l l' : Loc} (hloc : L l l') :
    (alike L R).Agrees (fun _ _ => True) (emit ops l) (emit ops' l') := by
  intro r q h
  have houtcomes := sim.operands hops hloc h.left
  unfold Meets emit
  generalize r.session.emitOperands ops l = x at houtcomes
  generalize q.session.emitOperands ops' l' = y at houtcomes
  cases houtcomes
  case ok hs    => exact .ok trivial ⟨hs, h.right⟩
  case error hf => exact .error ⟨hf, h.left⟩

theorem instruction_agrees (mnemonic : String) {l l' : Loc} (hloc : L l l') :
    (alike L R).Agrees Eq
      (do
        let ops ← operands mnemonic l
        let _ ← emit ops l)
      (do
        let ops ← operands mnemonic l'
        let _ ← emit ops l') :=
  (operands_agrees sim mnemonic hloc).bind fun _ _ hops =>
    (emit_agrees sim hops hloc).bind fun _ _ _ => .pure rfl

omit sim

def behindLabels (L : Loc → Loc → Prop) (R : Session → Session → Prop) : Pairing Failure Run where
  state r q := R r.session q.session ∧
    List.Forall₂ (fun t u : Token => L t.loc u.loc) r.cursor.past q.cursor.past ∧
    AlikeBody L r.cursor.ahead q.cursor.ahead ∧ L r.cursor.stop q.cursor.stop
  failed := (alike L R).failed

theorem labels_step (n : Nat) {s : Session} {past ts : List Token} {l m stop : Loc}
    {name : String} :
    labels (n + 1) ⟨s, ⟨past, ⟨.identifier name, l⟩ :: ⟨.punct .colon, m⟩ :: ts, stop⟩⟩ =
      (do
        tryChange (Session.label · name l)
        labels n) ⟨s, ⟨⟨.punct .colon, m⟩ :: ⟨.identifier name, l⟩ :: past, ts, stop⟩⟩ :=
  rfl

include sim

-- The induction is on the statement. The bound is at least the number of tokens ahead.
theorem labels_meets {ts us : List Token} (hts : AlikeStatement L ts us) {n : Nat}
    (hn : ts.length ≤ n) {s t : Session} {past past' : List Token} {stop stop' : Loc} (hs : R s t)
    (hpast : List.Forall₂ (fun t u : Token => L t.loc u.loc) past past') (hstop : L stop stop') :
    (behindLabels L R).Meets Eq (labels n) ⟨s, ⟨past, ts, stop⟩⟩ (labels n)
      ⟨t, ⟨past', us, stop'⟩⟩ := by
  induction hts generalizing n s t past past'
  case body hbody hfirst hsecond =>
    unfold Meets
    rw [labels_stop n hfirst, labels_stop n hsecond]
    exact .ok rfl ⟨hs, hpast, hbody, hstop⟩
  case label name l l' m m' ts us hl hm _ ih =>
    obtain ⟨n, rfl⟩ : ∃ k, n = k + 1 := ⟨n - 1, by simp at hn; omega⟩
    have houtcomes := sim.label name hl hs
    unfold Meets
    rw [labels_step, labels_step]
    simp only [bind, EStateM.bind, tryChange]
    generalize s.label name l = x at houtcomes
    generalize t.label name l' = y at houtcomes
    cases houtcomes
    case ok hs'   => exact ih (by simp at hn; omega) hs' (.cons hm (.cons hl hpast))
    case error he => exact .error ⟨.error he, hs⟩

theorem run_meets {ts us : List Token} (hts : AlikeStatement L ts us) {s t : Session}
    {stop stop' : Loc} (hs : R s t) (hstop : L stop stop') :
    (alike L R).Meets Eq run ⟨s, ⟨[], ts, stop⟩⟩ run ⟨t, ⟨[], us, stop'⟩⟩ := by
  rw [run, meets_cursor]
  dsimp only
  rw [← hts.length_eq]
  refine (labels_meets sim hts (Nat.le_refl _) hs .nil hstop).seq (fun _ _ r q _ h => ?_)
    fun _ _ _ _ => id
  obtain ⟨s, past, ahead, stop⟩ := r
  obtain ⟨t, past', ahead', stop'⟩ := q
  obtain ⟨hs, hpast, hbody, hstop⟩ := h
  rw [meets_cursor]
  cases hbody
  case mnemonic a b l m ts us hlower ha hb hl hts =>
    have hrest : (alike L R).state ⟨s, ⟨⟨.identifier a, l⟩ :: past, ts, stop⟩⟩
        ⟨t, ⟨⟨.identifier b, m⟩ :: past', us, stop'⟩⟩ := ⟨hs, .cons hl hpast, hts, hstop⟩
    have hinst := instruction_agrees sim (Text.lowerAscii a) hl _ _ hrest
    dsimp only [Cursor.current, List.headD]
    simp only [ha, hb, ← hlower, Bool.false_eq_true, ↓reduceIte]
    exact hinst
  case plain hahead =>
    have h : (alike L R).state ⟨s, ⟨past, ahead, stop⟩⟩ ⟨t, ⟨past', ahead', stop'⟩⟩ :=
      ⟨hs, hpast, hahead, hstop⟩
    obtain ⟨hl, hloc⟩ := h.right.current
    generalize hlr : (Cursor.current ⟨past, ahead, stop⟩).lexeme = l at hl
    generalize hlq : (Cursor.current ⟨past', ahead', stop'⟩).lexeme = m at hl
    cases hl
    case integer => exact failHere_agrees _ _ _ h
    case other =>
      split
      case h_1 => exact .pure rfl h
      case h_2 name _ =>
        refine meets_skip h (Cursor.sees_percent_eq_false hlr (by simp)) ?_
        split
        case isTrue  => exact directive_agrees sim _ hloc
        case isFalse => exact instruction_agrees sim _ hloc
      case h_3 => exact failHere_agrees _ _ _ h

end Statement

theorem Session.assembleLine_agrees (sim : Session.Simulation L R) {ts us : List Token}
    {stop stop' : Loc} {line line' : Int} {text text' : String} {s t : Session} (hs : R s t)
    (htok : tokenize line text = .ok (ts ++ [⟨.endOfStatement, stop⟩]))
    (htok' : tokenize line' text' = .ok (us ++ [⟨.endOfStatement, stop'⟩]))
    (hts : AlikeStatement L ts us) (hstop : L stop stop') :
    ∃ s' t', s.assembleLine line text = .ok s' ∧ t.assembleLine line' text' = .ok t' ∧ R s' t' := by
  have hresults : (StatementM.alike L R).Results Eq
      (Statement.run ⟨s.addSource line (Text.trim text), ⟨[], ts, stop⟩⟩)
      (Statement.run ⟨t.addSource line' (Text.trim text'), ⟨[], us, stop'⟩⟩) :=
    Statement.run_meets sim hts (sim.source hs) hstop
  simp only [assembleLine, htok, htok', Cursor.ofTokens_append_stop]
  have horderly := Statement.run_orderly ⟨s.addSource line (Text.trim text), ⟨[], ts, stop⟩⟩ trivial
  unfold Ensures at horderly
  generalize Statement.run ⟨s.addSource line (Text.trim text), ⟨[], ts, stop⟩⟩ = x at *
  generalize Statement.run ⟨t.addSource line' (Text.trim text'), ⟨[], us, stop'⟩⟩ = y at *
  cases hresults
  case ok h => exact ⟨_, _, rfl, rfl, h.left⟩
  case error h =>
    obtain ⟨hfail, hsessions⟩ := h
    cases hfail
    case error he => exact ⟨_, _, rfl, rfl, sim.report he.diagnostic hsessions⟩
    case breach =>
      obtain ⟨_, _, hbreach⟩ := horderly
      cases hbreach

end Asm88000
