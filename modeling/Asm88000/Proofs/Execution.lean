import Asm88000.Proofs.Statement

namespace Asm88000

namespace StatementM

variable {r : Run}

@[simp]
theorem ensures_cursor {Q : Cursor → Run → Prop} {E : Failure → Run → Prop} :
    Ensures cursor r Q E ↔ Q r.cursor r :=
  .rfl

@[simp]
theorem ensures_skip {Q : Unit → Run → Prop} {E : Failure → Run → Prop} :
    Ensures skip r Q E ↔ Q () { r with cursor := r.cursor.advance } :=
  .rfl

theorem ensures_tryChange {f : Session → Except Error Session} {Q : Unit → Run → Prop}
    {E : Failure → Run → Prop} (h : ∀ s, f r.session = .ok s → Q () { r with session := s })
    (he : ∀ e, f r.session = .error e → E (.error e) r) : Ensures (tryChange f) r Q E := by
  cases hf : f r.session <;> simp only [Ensures, tryChange, hf]
  case ok s    => exact h s hf
  case error e => exact he e hf

theorem ensures_ofTokens {α : Type} {p : TokenM α} {Q : α → Run → Prop}
    (h : ∀ a c, p r.cursor = .ok a c → Q a { r with cursor := c }) :
    Ensures (ofTokens p) r Q fun _ _ => True := by
  cases hp : p r.cursor <;> simp only [Ensures, ofTokens, hp]
  case ok a c => exact h a c hp

end StatementM

theorem toLower_eq_dot {c : Char} : c.toLower = '.' ↔ c = '.' := by
  constructor
  case mpr =>
    rintro rfl
    decide
  case mp =>
    intro h
    unfold Char.toLower at h
    split at h
    case isFalse => exact h
    case isTrue hupper =>
      have hval : (c.val + ('a'.val - 'A'.val)).toNat = 46 := congrArg Char.toNat h
      simp [UInt32.le_iff_toNat_le] at hval hupper
      omega

theorem isDirectiveName_lowerAscii (name : String) :
    Statement.isDirectiveName (Text.lowerAscii name) = Statement.isDirectiveName name := by
  unfold Statement.isDirectiveName Text.lowerAscii
  rw [String.toList_ofList, decide_eq_decide]
  cases name.toList <;> simp [toLower_eq_dot]

theorem isDirectiveName_congr {a b : String} (h : Text.lowerAscii a = Text.lowerAscii b) :
    Statement.isDirectiveName a = Statement.isDirectiveName b := by
  rw [← isDirectiveName_lowerAscii a, h, isDirectiveName_lowerAscii b]

theorem isDirectiveName_of_ofName? {name : String} {d : Directive}
    (h : Directive.ofName? name = some d) : Statement.isDirectiveName name := by
  have hnames : ∀ n ∈ [".text", ".data", ".globl", ".global", ".align", ".word"],
      Text.lowerAscii n = n ∧ Statement.isDirectiveName n := by
    decide +kernel
  have hname : Text.lowerAscii name ∈
      [".text", ".data", ".globl", ".global", ".align", ".word"] := by
    unfold Directive.ofName? at h
    split at h <;> simp_all
  obtain ⟨hlower, hdirective⟩ := hnames _ hname
  rwa [isDirectiveName_congr hlower] at hdirective

def StartsLabel (ts : List Token) : Prop :=
  ∃ name l m rest, ts = ⟨.identifier name, l⟩ :: ⟨.punct .colon, m⟩ :: rest

namespace Statement

open StatementM

inductive EmitsWords : Session → Cursor → Session → Prop
  | last {s t c d e} :
    Expr.parse c = .ok (some e) d → d.ahead = [] → s.emitWord e c.loc = .ok t → EmitsWords s c t
  | more {s t u c d e loc ts} :
    Expr.parse c = .ok (some e) d → d.ahead = ⟨.punct .comma, loc⟩ :: ts →
    s.emitWord e c.loc = .ok t →
    EmitsWords t ⟨⟨.punct .comma, loc⟩ :: d.past, ts, d.stop⟩ u → EmitsWords s c u

-- The statement ahead has been carried out up to its end.
inductive Executes : Session → Cursor → Session → Prop
  | nothing {s past stop} : Executes s ⟨past, [], stop⟩ s
  | label {s t u past ts stop name loc loc'} :
    s.label name loc = .ok t →
    Executes t ⟨⟨.punct .colon, loc'⟩ :: ⟨.identifier name, loc⟩ :: past, ts, stop⟩ u →
    Executes s ⟨past, ⟨.identifier name, loc⟩ :: ⟨.punct .colon, loc'⟩ :: ts, stop⟩ u
  | require88110 {s past stop loc} :
    Executes s ⟨past, [⟨.identifier ".requires_88110", loc⟩], stop⟩ s.require88110
  | switch {s past stop name loc sect} :
    Directive.ofName? name = some (.switch sect) →
    Executes s ⟨past, [⟨.identifier name, loc⟩], stop⟩ (s.switch sect)
  | global {s past stop name loc symbol loc'} :
    Directive.ofName? name = some .global →
    Executes s ⟨past, [⟨.identifier name, loc⟩, ⟨.identifier symbol, loc'⟩], stop⟩ (s.global symbol)
  | align {s t past stop name loc spelling v loc'} :
    Directive.ofName? name = some .align → s.align (v : Nat) loc = .ok t →
    Executes s ⟨past, [⟨.identifier name, loc⟩, ⟨.integer spelling v, loc'⟩], stop⟩ t
  | word {s t past ts stop name loc} :
    Directive.ofName? name = some .word →
    EmitsWords s ⟨⟨.identifier name, loc⟩ :: past, ts, stop⟩ t →
    Executes s ⟨past, ⟨.identifier name, loc⟩ :: ts, stop⟩ t
  | instruction {s t past ts stop name loc scan message inst} :
    isDirectiveName name = false →
    Operand.parseAll (Text.lowerAscii name) (Scan.start (Text.lowerAscii name) loc
      ⟨⟨.identifier name, loc⟩ :: past, ts, stop⟩) = .ok () scan →
    scan.cursor.ahead = [] →
    ((s.reportAll scan.warnings).note .debug message).emitOperands scan.operands loc =
      .ok (inst, t) →
    Executes s ⟨past, ⟨.identifier name, loc⟩ :: ts, stop⟩ t

theorem labels_executes (n : Nat) {r : Run} (h : r.cursor.Plain) :
    Ensures (labels n) r
      (fun _ q => q.cursor.Plain ∧
        ∀ t, Executes q.session q.cursor t → Executes r.session r.cursor t)
      fun _ _ => True := by
  induction n generalizing r
  case zero => exact ⟨h, fun _ => id⟩
  case succ n ih =>
    obtain ⟨s, c⟩ := r
    simp only [labels, ensures_bind, ensures_cursor]
    split
    case h_2 => exact ⟨h, fun _ => id⟩
    case h_1 name hname hcolon =>
      obtain ⟨past, loc, ts, stop, rfl⟩ := Cursor.eq_of_current hname (by simp)
      cases ts
      case nil => simp [Cursor.peek, Cursor.endToken] at hcolon
      case cons tok ts =>
        obtain ⟨l, loc'⟩ := tok
        obtain rfl : l = .punct .colon := hcolon
        simp only [ensures_bind, ensures_skip, Cursor.loc_cons]
        refine ensures_tryChange (fun t ht => ?_) fun _ _ => trivial
        simp only [Cursor.advance_cons, ne_eq, reduceCtorEq, not_false_eq_true] at ht ⊢
        refine (ih h.tail.tail).mono (fun _ q hq => ⟨hq.left, fun u hu => ?_⟩) fun _ _ => id
        exact .label ht (hq.right u hu)

theorem words_executes (n : Nat) {r : Run} (h : r.cursor.Plain) :
    Ensures (words n) r
      (fun _ q => q.cursor.Plain ∧ (q.cursor.ahead = [] → EmitsWords r.session r.cursor q.session))
      fun _ _ => True := by
  induction n generalizing r
  case zero => exact trivial
  case succ n ih =>
    obtain ⟨s, c⟩ := r
    simp only [words, ensures_bind, ensures_cursor]
    refine ensures_ofTokens fun o d hparse => ?_
    have hd : d.Plain := h.leadsTo ((Expr.parse_forward c trivial).ok hparse)
    cases o
    case none => exact trivial
    case some e =>
      simp only [ensures_bind]
      refine ensures_tryChange (fun t ht => ?_) fun _ _ => trivial
      simp only [ensures_cursor]
      split
      case isFalse => exact ⟨hd, fun hend => .last hparse hend ht⟩
      case isTrue hcomma =>
        obtain ⟨past, loc, ts, stop, rfl⟩ :=
          Cursor.eq_of_current (of_decide_eq_true hcomma) (by simp)
        simp only [ensures_bind, ensures_skip, Cursor.advance_cons, ne_eq, reduceCtorEq,
          not_false_eq_true]
        refine (ih hd.tail).mono (fun _ q hq => ⟨hq.left, fun hend => ?_⟩) fun _ _ => id
        exact .more hparse rfl ht (hq.right hend)

theorem ensures_atEnd {r : Run} {f : Fault} {Q : Unit → Run → Prop} {E : Failure → Run → Prop}
    (h : r.cursor.Plain) (hq : r.cursor.ahead = [] → Q () r)
    (he : r.cursor.ahead ≠ [] → ∀ e, E e r) :
    Ensures (do if !(← cursor).atEnd then failHere f) r Q E := by
  simp only [ensures_bind, ensures_cursor]
  split
  case isTrue hmore => exact he (fun hend => by simp [h.atEnd_iff.mpr hend] at hmore) _
  case isFalse hend => exact hq (h.atEnd_iff.mp (by simpa using hend))

section

variable {s : Session} {past ts : List Token} {stop loc : Loc} {name : String}

theorem directiveBody_executes {d : Directive}
    (h : Cursor.Plain ⟨⟨.identifier name, loc⟩ :: past, ts, stop⟩)
    (hd : Directive.ofName? name = some d) (shown : String) :
    Ensures (directiveBody d shown loc) ⟨s, ⟨⟨.identifier name, loc⟩ :: past, ts, stop⟩⟩
      (fun _ q => q.cursor.Plain ∧ (q.cursor.ahead = [] →
        Executes s ⟨past, ⟨.identifier name, loc⟩ :: ts, stop⟩ q.session))
      fun _ _ => True := by
  simp only [directiveBody, ensures_bind, ensures_cursor]
  cases d
  case switch sect =>
    refine ⟨h, fun hend => ?_⟩
    simp only at hend
    subst hend
    exact .switch hd
  case word =>
    refine (words_executes ts.length h).mono (fun _ q hq => ⟨hq.left, fun hend => ?_⟩) fun _ _ => id
    exact .word hd (hq.right hend)
  case global =>
    dsimp only
    split
    case h_2 => exact trivial
    case h_1 symbol hsymbol =>
      obtain ⟨_, loc', ts, _, hc⟩ := Cursor.eq_of_current hsymbol (by simp)
      cases hc
      refine ⟨by simpa using h.tail, fun hend => ?_⟩
      simp only [Cursor.advance_cons, ne_eq, reduceCtorEq, not_false_eq_true] at hend
      subst hend
      exact .global hd
  case align =>
    dsimp only
    split
    case h_2 => exact trivial
    case h_1 spelling v hv =>
      obtain ⟨_, loc', ts, _, hc⟩ := Cursor.eq_of_current hv (by simp)
      cases hc
      simp only [ensures_bind, ensures_skip]
      refine ensures_tryChange (fun t ht => ⟨by simpa using h.tail, fun hend => ?_⟩)
        fun _ _ => trivial
      simp only [Cursor.advance_cons, ne_eq, reduceCtorEq, not_false_eq_true] at hend
      subst hend
      exact .align hd ht

theorem directive_executes (h : Cursor.Plain ⟨⟨.identifier name, loc⟩ :: past, ts, stop⟩) :
    Ensures (directive name loc) ⟨s, ⟨⟨.identifier name, loc⟩ :: past, ts, stop⟩⟩
      (fun _ q => q.cursor.ahead = [] ∧
        Executes s ⟨past, ⟨.identifier name, loc⟩ :: ts, stop⟩ q.session)
      fun _ _ => True := by
  unfold directive targetDirective
  by_cases hname : name = ".requires_88110"
  case pos =>
    subst hname
    simp only [↓reduceIte, ensures_bind, ensures_cursor]
    split
    · exact trivial
    case isFalse hend =>
      have hend := h.atEnd_iff.mp (by simpa using hend)
      simp only at hend
      subst hend
      exact ⟨rfl, .require88110⟩
  case neg =>
    simp only [hname, ↓reduceIte, ensures_bind, ensures_pure, Bool.not_false]
    split
    case h_1 => exact trivial
    case h_2 d hd =>
      refine (directiveBody_executes h hd _).bind (fun _ q hq => ?_) fun _ _ => id
      exact ensures_atEnd hq.left (fun hend => ⟨hend, hq.right hend⟩) fun _ _ => trivial

theorem instruction_executes (h : Cursor.Plain ⟨⟨.identifier name, loc⟩ :: past, ts, stop⟩)
    (hname : isDirectiveName name = false) :
    Ensures (do
        let ops ← operands (Text.lowerAscii name) loc
        let _ ← emit ops loc)
      ⟨s, ⟨⟨.identifier name, loc⟩ :: past, ts, stop⟩⟩
      (fun _ q => q.cursor.ahead = [] ∧
        Executes s ⟨past, ⟨.identifier name, loc⟩ :: ts, stop⟩ q.session)
      fun _ _ => True := by
  refine (operands_ensures _ _ _).bind (fun ops q hq => ?_) fun _ _ _ => trivial
  obtain ⟨scan, message, hparse, rfl, rfl⟩ := hq
  have hend : scan.cursor.ahead = [] := by
    have hplain := h.leadsTo (start_extends hparse).cursor
    exact hplain.atEnd_iff.mp ((Operand.parseAll_atEnd _ _).ok hparse)
  simp only [ensures_bind, ensures_pure]
  cases he : ((s.reportAll scan.warnings).note .debug message).emitOperands scan.operands loc <;>
    simp only [Ensures, emit, he]
  case ok p => exact ⟨hend, .instruction hname hparse hend he⟩

end

theorem run_executes {r : Run} (h : r.cursor.Plain) :
    Ensures run r
      (fun _ q => q.cursor.ahead = [] ∧ Executes r.session r.cursor q.session)
      fun _ _ => True := by
  unfold run
  rw [ensures_bind, ensures_cursor]
  refine (labels_executes _ h).bind (fun _ q ⟨hq, hlabels⟩ => ?_) fun _ _ => id
  rw [ensures_bind, ensures_cursor]
  obtain ⟨s, c⟩ := q
  split
  case h_1 hend =>
    have hend := hq.atEnd_iff.mp (decide_eq_true hend)
    obtain ⟨past, ahead, stop⟩ := c
    simp only at hend
    subst hend
    exact ⟨rfl, hlabels s .nothing⟩
  case h_2 name hname =>
    obtain ⟨past, loc, ts, stop, rfl⟩ := Cursor.eq_of_current hname (by simp)
    simp only [ensures_bind, ensures_skip, Cursor.advance_cons, ne_eq, reduceCtorEq,
      not_false_eq_true, Cursor.loc_cons]
    split
    case isTrue hname =>
      exact (directive_executes hq.tail).mono (fun _ _ hq => ⟨hq.left, hlabels _ hq.right⟩)
        fun _ _ => id
    case isFalse hname =>
      refine (instruction_executes hq.tail (by simpa using hname)).mono ?_ fun _ _ => id
      exact fun _ _ hq => ⟨hq.left, hlabels _ hq.right⟩
  case h_3 => exact trivial

theorem labels_stop (n : Nat) {r : Run} (h : ¬ StartsLabel r.cursor.ahead) :
    labels n r = .ok () r := by
  cases n
  case zero => rfl
  case succ n =>
    have hlabels : Ensures (labels (n + 1)) r (fun _ q => q = r) fun _ _ => False := by
      rw [labels, ensures_bind, ensures_cursor]
      split
      case h_2 => exact rfl
      case h_1 name hname hcolon =>
        obtain ⟨s, past, ahead, stop⟩ := r
        obtain ⟨past', l, ts, stop', hcursor⟩ := Cursor.eq_of_current hname (by simp)
        cases hcursor
        cases ts
        case nil       => cases hcolon
        case cons t ts =>
          obtain ⟨lexeme, m⟩ := t
          cases hcolon
          exact (h ⟨name, l, m, ts, rfl⟩).elim
    obtain ⟨_, q, heq, rfl⟩ := hlabels.exists_ok
    exact heq

section

variable {name : String} {loc : Loc} {ts : List Token}

theorem run_of_labels {r : Run} {s : Session} {past : List Token} {stop : Loc}
    (h : labels r.cursor.ahead.length r =
      .ok () ⟨s, ⟨past, ⟨.identifier name, loc⟩ :: ts, stop⟩⟩) :
    run r =
      (if isDirectiveName name then directive name loc
      else do
        let ops ← operands (Text.lowerAscii name) loc
        let _ ← emit ops loc : StatementM Unit)
        ⟨s, ⟨⟨.identifier name, loc⟩ :: past, ts, stop⟩⟩ := by
  have hstart : cursor r = .ok r.cursor r := rfl
  have hcursor : cursor ⟨s, ⟨past, ⟨.identifier name, loc⟩ :: ts, stop⟩⟩ =
      .ok ⟨past, ⟨.identifier name, loc⟩ :: ts, stop⟩
        ⟨s, ⟨past, ⟨.identifier name, loc⟩ :: ts, stop⟩⟩ := rfl
  have hskip : skip ⟨s, ⟨past, ⟨.identifier name, loc⟩ :: ts, stop⟩⟩ =
      .ok () ⟨s, ⟨⟨.identifier name, loc⟩ :: past, ts, stop⟩⟩ := rfl
  rw [run, bind_apply_of_ok hstart, bind_apply_of_ok h, bind_apply_of_ok hcursor]
  dsimp only [Cursor.current, List.headD]
  rw [bind_apply_of_ok hskip]
  rfl

theorem run_directive (hname : isDirectiveName name)
    (h : ¬ StartsLabel (⟨.identifier name, loc⟩ :: ts)) (s : Session) (past : List Token)
    (stop : Loc) :
    run ⟨s, ⟨past, ⟨.identifier name, loc⟩ :: ts, stop⟩⟩ =
      directive name loc ⟨s, ⟨⟨.identifier name, loc⟩ :: past, ts, stop⟩⟩ := by
  rw [run_of_labels (labels_stop _ h), if_pos hname]

theorem run_instruction (hname : isDirectiveName name = false)
    (h : ¬ StartsLabel (⟨.identifier name, loc⟩ :: ts)) (s : Session) (past : List Token)
    (stop : Loc) :
    run ⟨s, ⟨past, ⟨.identifier name, loc⟩ :: ts, stop⟩⟩ =
      (do
        let ops ← operands (Text.lowerAscii name) loc
        let _ ← emit ops loc : StatementM Unit)
        ⟨s, ⟨⟨.identifier name, loc⟩ :: past, ts, stop⟩⟩ := by
  rw [run_of_labels (labels_stop _ h), if_neg (by simp [hname])]

end

end Statement

theorem Cursor.ofTokens_append_stop (ts : List Token) (stop : Loc) :
    ofTokens (ts ++ [⟨.endOfStatement, stop⟩]) = ⟨[], ts, stop⟩ := by
  simp [ofTokens]

namespace Session

open Statement

-- What a line does to a session: it is carried out as a whole and adds no error, or it is abandoned
-- with one.
inductive Processes (s : Session) (line : Int) (text : String) (t : Session) : Prop
  | done {ts stop} :
    tokenize line text = .ok (ts ++ [⟨.endOfStatement, stop⟩]) →
    run ⟨s.addSource line (Text.trim text), ⟨[], ts, stop⟩⟩ = .ok () ⟨t, ⟨ts.reverse, [], stop⟩⟩ →
    Executes (s.addSource line (Text.trim text)) ⟨[], ts, stop⟩ t →
    t.errors = s.errors → Processes s line text t
  | abandoned {d} : d.isError → t.errors = s.errors ++ [d] → Processes s line text t

inductive ProcessesAll : Nat → Session → List String → Session → Prop
  | nil {n s} : ProcessesAll n s [] s
  | cons {n : Nat} {s t u l ls} :
    s.assembleLine n (dropLineEnds l) = .ok t → Processes s n (dropLineEnds l) t →
    ProcessesAll (n + 1) t ls u → ProcessesAll n s (l :: ls) u

theorem errors_report_ofError (s : Session) (e : Error) :
    (s.report (.ofError e)).errors = s.errors ++ [.ofError e] := by
  simp [errors, report, Diagnostic.isError, Diagnostic.ofError]

theorem assembleLine_invalid {line : Int} {text : String} {e : Error}
    (h : tokenize line text = .error e) (s : Session) :
    s.assembleLine line text = .ok ((s.addSource line (Text.trim text)).report (.ofError e)) := by
  simp only [assembleLine, h]
  rfl

theorem assembleLine_ensures {s : Session} {line : Int} {text : String} {ts : List Token}
    {stop : Loc}
    {Q : Unit → Run → Prop} {E : Failure → Run → Prop}
    (htok : tokenize line text = .ok (ts ++ [⟨.endOfStatement, stop⟩]))
    (h : Ensures run ⟨s.addSource line (Text.trim text), ⟨[], ts, stop⟩⟩ Q E) :
    ∃ t, s.assembleLine line text = .ok t ∧
      ((t.errors = s.errors ∧ ∃ c, Q () ⟨t, c⟩) ∨
        ∃ e q, t = q.session.report (.ofError e) ∧ t.errors = s.errors ++ [.ofError e] ∧
          E (.error e) q) := by
  have horderly := run_orderly ⟨s.addSource line (Text.trim text), ⟨[], ts, stop⟩⟩ trivial
  simp only [assembleLine, htok, Cursor.ofTokens_append_stop]
  cases hrun : run ⟨s.addSource line (Text.trim text), ⟨[], ts, stop⟩⟩
  case ok r =>
    obtain ⟨hsteps, _⟩ := horderly.ok hrun
    exact ⟨r.session, rfl, .inl ⟨hsteps.errors_eq, r.cursor, h.ok hrun⟩⟩
  case error f r =>
    obtain ⟨⟨hsteps, _⟩, e, rfl⟩ := horderly.error hrun
    have herrors : r.session.errors = s.errors := hsteps.errors_eq
    refine ⟨r.session.report (.ofError e), rfl, .inr ⟨e, r, rfl, ?_, h.error hrun⟩⟩
    rw [errors_report_ofError, herrors]

theorem assembleLine_ok (s : Session) (line : Int) (text : String) :
    ∃ t, s.assembleLine line text = .ok t ∧ Processes s line text t := by
  cases htok : tokenize line text
  case error e =>
    exact ⟨_, assembleLine_invalid htok s, .abandoned rfl (errors_report_ofError _ e)⟩
  case ok ts =>
    obtain ⟨ts, stop, rfl, hplain⟩ := tokenize_ok htok
    simp only [assembleLine, htok, Cursor.ofTokens_append_stop]
    have horderly := run_orderly ⟨s.addSource line (Text.trim text), ⟨[], ts, stop⟩⟩ trivial
    cases hrun : run ⟨s.addSource line (Text.trim text), ⟨[], ts, stop⟩⟩
    case error f r =>
      have ⟨⟨hsteps, _⟩, e, hf⟩ := horderly.error hrun
      subst hf
      have herrors : r.session.errors = s.errors := hsteps.errors_eq
      refine ⟨r.session.report (.ofError e), rfl, .abandoned (d := .ofError e) rfl ?_⟩
      rw [errors_report_ofError, herrors]
    case ok r =>
      have ⟨hsteps, us, hus, hpast, hstop⟩ := horderly.ok hrun
      have ⟨hend, hexec⟩ := (run_executes (r := ⟨_, ⟨[], ts, stop⟩⟩) hplain).ok hrun
      obtain ⟨t, past, ahead, stop'⟩ := r
      simp only [List.append_nil] at hend hus hpast hstop
      subst hend hpast hstop
      simp only [List.append_nil] at hus
      subst hus
      have herrors : t.errors = s.errors := hsteps.errors_eq
      exact ⟨t, rfl, .done htok hrun hexec herrors⟩

theorem assembleFrom_cons {n : Nat} {s t : Session} {l : String}
    (h : s.assembleLine n (dropLineEnds l) = .ok t) (ls : List String) :
    s.assembleFrom n (l :: ls) = t.assembleFrom (n + 1) ls := by
  rw [assembleFrom, h]
  rfl

theorem assembleFrom_append (n : Nat) (s : Session) (ls ls' : List String) :
    s.assembleFrom n (ls ++ ls') = (do
      (← s.assembleFrom n ls).assembleFrom (n + ls.length) ls') := by
  induction ls generalizing n s
  case nil => rfl
  case cons l ls ih =>
    obtain ⟨t, ht, _⟩ := s.assembleLine_ok n (dropLineEnds l)
    rw [List.cons_append, assembleFrom_cons ht, assembleFrom_cons ht, ih, List.length_cons,
      Nat.add_right_comm, Nat.add_assoc]

theorem assembleFrom_ok (n : Nat) (s : Session) (lines : List String) :
    ∃ t, s.assembleFrom n lines = .ok t ∧ ProcessesAll n s lines t := by
  induction lines generalizing n s
  case nil => exact ⟨s, rfl, .nil⟩
  case cons l ls ih =>
    have ⟨t, hline, ht⟩ := s.assembleLine_ok n (dropLineEnds l)
    have ⟨u, hfrom, hu⟩ := ih (n + 1) t
    exact ⟨u, by rw [assembleFrom, hline]; exact hfrom, .cons hline ht hu⟩

-- The line with an index, and the sessions before and after it.
structure Passes (s : Session) (lines : List String) (n : Nat) (l : String) (u v : Session) :
    Prop where
  line   : lines[n]? = some l
  before : s.assemble (lines.take n) = .ok u
  after  : u.assembleLine (n + 1 : Nat) (dropLineEnds l) = .ok v

section

variable {s u v : Session} {lines : List String} {n : Nat} {l : String}

theorem exists_passes (hl : lines[n]? = some l) (hu : s.assemble (lines.take n) = .ok u) :
    ∃ v, s.Passes lines n l u v := by
  obtain ⟨v, hv, _⟩ := u.assembleLine_ok (n + 1 : Nat) (dropLineEnds l)
  exact ⟨v, hl, hu, hv⟩

theorem Passes.next (h : s.Passes lines n l u v) : s.assemble (lines.take (n + 1)) = .ok v := by
  obtain ⟨hn, _⟩ := List.getElem?_eq_some_iff.mp h.line
  have hlength : (lines.take n).length = n := List.length_take_of_le (Nat.le_of_lt hn)
  rw [List.take_add_one, h.line, Option.toList_some, assemble, assembleFrom_append, hlength]
  refine bind_eq_ok.mpr ⟨u, h.before, ?_⟩
  rw [Nat.add_comm 1 n, assembleFrom_cons h.after]
  rfl

variable {P : Nat → Session → Prop} (hstart : P 0 s)
variable (hnext : ∀ n l u v, s.Passes lines n l u v → P n u → P (n + 1) v)

include hstart hnext

theorem take_invariant (hn : n ≤ lines.length) :
    ∃ u, s.assemble (lines.take n) = .ok u ∧ P n u := by
  induction n
  case zero => exact ⟨s, rfl, hstart⟩
  case succ n ih =>
    obtain ⟨u, hu, hbefore⟩ := ih (Nat.le_of_succ_le hn)
    obtain ⟨v, hpasses⟩ := exists_passes (List.getElem?_eq_getElem hn) hu
    exact ⟨v, hpasses.next, hnext n _ u v hpasses hbefore⟩

-- What every line preserves holds before each of the lines, and behind the last one.
theorem assemble_invariant :
    (∃ t, s.assemble lines = .ok t ∧ P lines.length t) ∧
      ∀ n l, lines[n]? = some l → ∃ u v, s.Passes lines n l u v ∧ P n u := by
  refine ⟨?_, fun n l hl => ?_⟩
  · have hwhole := take_invariant hstart hnext (Nat.le_refl _)
    rwa [List.take_length] at hwhole
  · obtain ⟨hn, _⟩ := List.getElem?_eq_some_iff.mp hl
    obtain ⟨u, hu, hbefore⟩ := take_invariant hstart hnext (Nat.le_of_lt hn)
    obtain ⟨v, hpasses⟩ := exists_passes hl hu
    exact ⟨u, v, hpasses, hbefore⟩

end

-- Assembling a program gets through every line of it, whatever the lines are.
theorem assemble_processes_every_line (cpu : Cpu) (codeStart dataStart : Int)
    (lines : List String) :
    ∃ t, (new cpu codeStart dataStart).assemble lines = .ok t ∧
      ProcessesAll 1 (new cpu codeStart dataStart) lines t :=
  assembleFrom_ok 1 _ lines

end Session
end Asm88000
