import Asm88000.Proofs.Displacement
import Asm88000.Proofs.InstructionLine

namespace Asm88000

namespace Expr

-- An expression stands at the beginning of `ls` and goes as far as it can. `rest` is left.
def Leads (ls : List Lexeme) (e : Expr) (rest : List Lexeme) : Prop :=
  ∃ front, ls = front ++ rest ∧ Written front e ∧ Stops front (rest.headD .endOfStatement)

def IsWord (e : Expr) : Prop :=
  ∀ v, e.value? = some v → -0x80000000 ≤ v ∧ v ≤ 0xFFFFFFFF

-- The expressions of a list in front of the first one that is missing, malformed, or no word.
inductive WordsIn : List Lexeme → List Expr → Prop
  | none {ls} : (∀ e rest, Leads ls e rest → ¬e.IsWord) → WordsIn ls []
  | last {ls e rest} :
    Leads ls e rest → e.IsWord → rest.head? ≠ some (.punct .comma) → WordsIn ls [e]
  | more {ls e rest es} :
    Leads ls e (.punct .comma :: rest) → e.IsWord → WordsIn rest es → WordsIn ls (e :: es)

inductive WordList : List Lexeme → Prop
  | single {ls e} : Written ls e → e.IsWord → WordList ls
  | cons {ls e rest} :
    Written ls e → e.IsWord → WordList rest → WordList (ls ++ .punct .comma :: rest)

section

variable {c d : Cursor} {ls rest rest' : List Lexeme} {e e' : Expr}

theorem Written.leads_nil (h : Written ls e) : Leads ls e [] :=
  ⟨ls, by simp, h, Operand.closes_nil.stops ls⟩

theorem Written.leads_comma (h : Written ls e) (rest : List Lexeme) :
    Leads (ls ++ .punct .comma :: rest) e (.punct .comma :: rest) :=
  ⟨ls, rfl, h, Operand.closes_comma.stops ls⟩

theorem Leads.parse_ensures (h : Leads c.lexemes e rest) :
    Ensures parse c (fun o d => o = some e ∧ d.lexemes = rest) fun _ _ => False := by
  obtain ⟨front, hfront, hwritten, hstops⟩ := h
  exact hwritten.parse_reads hstops c hfront

theorem leads_of_parse (h : parse c = .ok (some e) d) : Leads c.lexemes e d.lexemes := by
  obtain ⟨ls, hconsumes, hwritten, hstops⟩ := (Expr.parse_ensures c).ok h e rfl
  rw [Cursor.current_lexeme] at hstops
  exact ⟨ls, hconsumes.lexemes, hwritten, hstops⟩

theorem Leads.unique (h : Leads ls e rest) (h' : Leads ls e' rest') : e = e' ∧ rest = rest' := by
  obtain ⟨c, rfl⟩ : ∃ c : Cursor, c.lexemes = ls :=
    ⟨⟨[], ls.map (⟨·, ⟨0, 0⟩⟩), ⟨0, 0⟩⟩, by simp [Cursor.lexemes, Function.comp_def]⟩
  obtain ⟨_, d, hparse, rfl, rfl⟩ := h.parse_ensures.exists_ok
  obtain ⟨he, hrest⟩ := h'.parse_ensures.ok hparse
  exact ⟨Option.some.inj he, hrest⟩

theorem WordsIn.unique {es es' : List Expr} (h : WordsIn ls es) (h' : WordsIn ls es') :
    es = es' := by
  induction h generalizing es'
  case none hnone =>
    cases h'
    case none                => rfl
    case last hword _ hleads => exact (hnone _ _ hleads hword).elim
    case more hword _ hleads => exact (hnone _ _ hleads hword).elim
  case last hleads hword hcomma =>
    cases h'
    case none hnone       => exact (hnone _ _ hleads hword).elim
    case last _ _ hleads' => rw [(hleads.unique hleads').left]
    case more _ _ hleads' => exact (hcomma (by rw [(hleads.unique hleads').right]; rfl)).elim
  case more hleads hword _ ih =>
    cases h'
    case none hnone            => exact (hnone _ _ hleads hword).elim
    case last _ hcomma hleads' => exact (hcomma (by rw [← (hleads.unique hleads').right]; rfl)).elim
    case more _ hmore hleads'  =>
      obtain ⟨rfl, hrest⟩ := hleads.unique hleads'
      cases hrest
      rw [ih hmore]

theorem Leads.wordList_iff (h : Leads ls e rest) :
    WordList ls ↔
      e.IsWord ∧ (rest = [] ∨ ∃ rest', rest = .punct .comma :: rest' ∧ WordList rest') := by
  constructor
  · intro hlist
    cases hlist
    case single hword hwritten =>
      obtain ⟨rfl, hrest⟩ := h.unique hwritten.leads_nil
      exact ⟨hword, .inl hrest⟩
    case cons ls _ rest' hwritten hword hlist =>
      obtain ⟨rfl, hrest⟩ := h.unique (hwritten.leads_comma rest')
      exact ⟨hword, .inr ⟨rest', hrest, hlist⟩⟩
  · rintro ⟨hword, rfl | ⟨rest', rfl, hlist⟩⟩
    all_goals obtain ⟨front, rfl, hwritten, _⟩ := h
    · exact (List.append_nil front).symm ▸ .single hwritten hword
    · exact .cons hwritten hword hlist

theorem WordList.exists_leads (h : WordList ls) : ∃ e rest, Leads ls e rest ∧ e.IsWord := by
  cases h
  case single hword hwritten => exact ⟨_, _, hwritten.leads_nil, hword⟩
  case cons hwritten hword _ => exact ⟨_, _, hwritten.leads_comma _, hword⟩

end

end Expr

-- A data word with the value of an expression. With a symbol, that is left to a fixup.
structure Record.Holds (r : Record) (e : Expr) : Prop where
  type     : r.type = .data
  inst     : r.inst = none
  symbolic : e.hasSymbol → r.word = 0 ∧ r.fixups = [⟨.abs32, e, 0⟩]
  constant : ∀ v, e.value? = some v → (r.word : Int) = v % 0x100000000 ∧ r.fixups = []

inductive Record.Lays (sect : SectionName) : Int → List Expr → List Record → Prop
  | nil {a} : Lays sect a [] []
  | cons {a e es} {r : Record} {rs} :
    r.sect = sect → r.address = a → r.Holds e → Lays sect (a + 4) es rs →
    Lays sect a (e :: es) (r :: rs)

namespace Object

variable {o o' : Object} {e : Expr} {r : Record} {loc : Option Loc}

theorem holds_wordRecord (h : o.wordRecord e loc = .ok r) :
    r.sect = o.current ∧ r.address = o.address ∧ r.Holds e := by
  unfold wordRecord at h
  split at h
  case h_1 hnone =>
    cases h
    exact ⟨rfl, rfl, rfl, rfl, fun _ => ⟨rfl, rfl⟩, fun v hv => by rw [hnone] at hv; cases hv⟩
  case h_2 v hv =>
    split at h
    case isFalse => cases h
    case isTrue =>
      cases h
      refine ⟨rfl, rfl, rfl, rfl, fun hsymbol => ?_, fun v' hv' => ?_⟩
      · rw [Expr.value?_eq_none_iff.mpr hsymbol] at hv
        cases hv
      · obtain rfl := Option.some.inj (hv.symm.trans hv')
        exact ⟨Int.toNat_of_nonneg (Int.emod_nonneg v (by decide)), rfl⟩

theorem exists_wordRecord_iff : (∃ r, o.wordRecord e loc = .ok r) ↔ e.IsWord := by
  unfold wordRecord Expr.IsWord
  split
  case h_1 hnone => exact iff_of_true ⟨_, rfl⟩ (by simp [hnone])
  case h_2 v hv =>
    simp only [hv, Option.some.injEq, forall_eq']
    split
    case isTrue hrange  => exact iff_of_true ⟨_, rfl⟩ (by omega)
    case isFalse hrange =>
      refine iff_of_false ?_ (by omega)
      rintro ⟨_, h⟩
      cases h

theorem Labels.current_address {names : List String} (h : o.Labels names o') :
    o'.current = o.current ∧ o'.address = o.address := by
  induction h
  case nil => exact ⟨rfl, rfl⟩
  case cons hlabel _ ih =>
    obtain ⟨_, rfl⟩ := label_eq_ok (hlabel none)
    exact ih

end Object

structure Session.AddsWords (s : Session) (es : List Expr) (rs : List Record) (t : Session) :
    Prop where
  lays        : Record.Lays s.object.current s.object.address es rs
  object      : t.object = rs.foldl Object.append s.object
  diagnostics : t.diagnostics = s.diagnostics

namespace Session.AddsWords

variable {s t u : Session} {e : Expr} {es : List Expr} {r : Record} {rs : List Record} {loc : Loc}

theorem nil (s : Session) : s.AddsWords [] [] s :=
  ⟨.nil, rfl, rfl⟩

theorem cons (hr : s.object.wordRecord e (some loc) = .ok r) (h : (s.append r).AddsWords es rs t) :
    s.AddsWords (e :: es) (r :: rs) t := by
  obtain ⟨hlays, hobject, hdiagnostics⟩ := h
  obtain ⟨hsect, haddress, hholds⟩ := Object.holds_wordRecord hr
  rw [object_append, Object.current_append, Object.address_append] at hlays
  refine ⟨.cons hsect haddress hholds hlays, ?_, ?_⟩
  · rw [hobject, object_append, List.foldl_cons]
  · rw [hdiagnostics, diagnostics_append]

end Session.AddsWords

theorem StatementM.ensures_ofTokens_iff {α : Type} {p : TokenM α} {r : Run} {Q : α → Run → Prop}
    {E : Failure → Run → Prop} :
    Ensures (ofTokens p) r Q E ↔
      Ensures p r.cursor (fun a c => Q a { r with cursor := c })
        fun e c => E (.error e) { r with cursor := c } := by
  cases hp : p r.cursor <;> simp only [Ensures, ofTokens, hp]

namespace Statement

open StatementM Asm88000.Expr

variable {s t : Session} {c d : Cursor} {ls rest : List Lexeme} {e : Expr}

def LeavesWords (s : Session) (ls : List Lexeme) (t : Session) : Prop :=
  ∃ es rs, WordsIn ls es ∧ s.AddsWords es rs t

theorem leavesWords_none (h : ∀ e rest, Leads ls e rest → ¬e.IsWord) (s : Session) :
    LeavesWords s ls s ∧ ¬WordList ls := by
  refine ⟨⟨[], [], .none h, .nil s⟩, fun hlist => ?_⟩
  obtain ⟨e, rest, hleads, hword⟩ := hlist.exists_leads
  exact h e rest hleads hword

theorem isWord_of_emitWord {loc : Loc} (h : s.emitWord e loc = .ok t) : e.IsWord := by
  obtain ⟨r, hr, _⟩ := Session.emitWord_eq_ok h
  exact Object.exists_wordRecord_iff.mp ⟨r, hr⟩

theorem not_isWord_of_emitWord {loc : Loc} {err : Error} (h : s.emitWord e loc = .error err) :
    ¬e.IsWord := by
  intro hword
  obtain ⟨r, hr⟩ := Object.exists_wordRecord_iff.mpr hword
  cases h.symm.trans (bind_eq_ok.mpr ⟨r, hr, rfl⟩)

theorem leavesWords_last {loc : Loc} (hleads : Leads ls e rest) (h : s.emitWord e loc = .ok t)
    (hcomma : rest.head? ≠ some (.punct .comma)) :
    LeavesWords s ls t ∧ (rest = [] ↔ WordList ls) := by
  have hword := isWord_of_emitWord h
  obtain ⟨r, hr, rfl⟩ := Session.emitWord_eq_ok h
  refine ⟨⟨[e], [r], .last hleads hword hcomma, .cons hr (.nil _)⟩, ?_⟩
  rw [hleads.wordList_iff]
  constructor
  · exact fun hend => ⟨hword, .inl hend⟩
  · rintro ⟨_, hend | ⟨rest', rfl, _⟩⟩
    · exact hend
    · exact absurd rfl hcomma

theorem leavesWords_more {loc : Loc} {u : Session} (hleads : Leads ls e (.punct .comma :: rest))
    (h : s.emitWord e loc = .ok t) (hmore : LeavesWords t rest u) : LeavesWords s ls u := by
  have hword := isWord_of_emitWord h
  obtain ⟨r, hr, rfl⟩ := Session.emitWord_eq_ok h
  obtain ⟨es, rs, hes, hrs⟩ := hmore
  exact ⟨e :: es, r :: rs, .more hleads hword hes, .cons hr hrs⟩

theorem wordList_more {loc : Loc} (hleads : Leads ls e (.punct .comma :: rest))
    (h : s.emitWord e loc = .ok t) : WordList ls ↔ WordList rest := by
  simp [hleads.wordList_iff, isWord_of_emitWord h]

-- The induction is on the bound, which is at least the number of tokens ahead.
theorem words_leaves {n : Nat} (hc : c.Plain) (hn : c.ahead.length ≤ n) :
    Ensures (words n) ⟨s, c⟩
      (fun _ q => q.cursor.Plain ∧ LeavesWords s c.lexemes q.session ∧
        (q.cursor.ahead = [] ↔ WordList c.lexemes))
      fun _ q => LeavesWords s c.lexemes q.session ∧ ¬WordList c.lexemes := by
  induction n generalizing s c
  case zero =>
    refine leavesWords_none (fun e rest hleads => ?_) s
    obtain ⟨_, d, hparse, rfl, _⟩ := hleads.parse_ensures.exists_ok
    have hstart := (parse_eq_ok hparse).left
    simp [Cursor.current, List.eq_nil_of_length_eq_zero (Nat.le_zero.mp hn), Cursor.endToken,
      Lexeme.startsExpr] at hstart
  case succ n ih =>
    simp only [words, ensures_bind, ensures_cursor, ensures_ofTokens_iff]
    cases hparse : Expr.parse c
    case error err d =>
      refine .of_error hparse (leavesWords_none (fun e rest hleads => ?_) s)
      exact (hleads.parse_ensures.error hparse).elim
    case ok o d =>
      have hd : d.Plain := hc.leadsTo ((Expr.parse_forward c trivial).ok hparse)
      refine .of_ok hparse ?_
      cases o
      case none =>
        refine leavesWords_none (fun e rest hleads => ?_) s
        cases (hleads.parse_ensures.ok hparse).left
      case some e =>
        have hleads := leads_of_parse hparse
        simp only [ensures_bind]
        refine ensures_tryChange (fun t ht => ?_) fun err herr => ?_
        · simp only [ensures_cursor]
          split
          case isFalse hcomma =>
            have hrest : d.lexemes.head? ≠ some (.punct .comma) := by
              intro hhead
              exact hcomma (by simp [Cursor.sees_eq, List.headD_eq_head?_getD, hhead])
            obtain ⟨hleaves, hlist⟩ := leavesWords_last hleads ht hrest
            exact ⟨hd, hleaves, by simpa [Cursor.lexemes] using hlist⟩
          case isTrue hcomma =>
            obtain ⟨past, loc, ts, stop, rfl⟩ :=
              Cursor.eq_of_current (of_decide_eq_true hcomma) (by simp)
            simp only [ensures_bind, ensures_skip, Cursor.advance_cons, ne_eq, reduceCtorEq,
              not_false_eq_true]
            have hlength := ((Expr.parse_forward c trivial).ok hparse).ahead_length
            have hts : ts.length ≤ n := by
              simp only [List.length_cons] at hlength
              omega
            rw [wordList_more hleads ht]
            refine (ih hd.tail hts).mono (fun _ q hq => ?_) fun _ q hq => ?_
            · exact ⟨hq.left, leavesWords_more hleads ht hq.right.left, hq.right.right⟩
            · exact ⟨leavesWords_more hleads ht hq.left, hq.right⟩
        · refine leavesWords_none (fun e' rest hleads' => ?_) s
          obtain ⟨rfl, _⟩ := hleads.unique hleads'
          exact not_isWord_of_emitWord herr

theorem word_leaves {name : String} {loc : Loc} (hname : Directive.ofName? name = some .word)
    (hc : c.Plain) :
    Ensures (directive name loc) ⟨s, c⟩
      (fun _ q => LeavesWords s c.lexemes q.session ∧ WordList c.lexemes)
      fun _ q => LeavesWords s c.lexemes q.session ∧ ¬WordList c.lexemes := by
  have hne : name ≠ ".requires_88110" := by
    rintro rfl
    revert hname
    decide +kernel
  unfold directive targetDirective
  simp only [hne, ↓reduceIte, pure_bind, Bool.not_false, hname]
  refine (words_leaves hc (Nat.le_refl _)).bind (fun _ q hq => ?_) fun _ _ => id
  obtain ⟨hplain, hleaves, hlist⟩ := hq
  exact ensures_atEnd hplain (fun hend => ⟨hleaves, hlist.mp hend⟩)
    fun hmore _ => ⟨hleaves, fun h => hmore (hlist.mpr h)⟩

end Statement

namespace Session

open Statement

variable {text name : String} {names : List String} {args : List Lexeme} {o : Object}

theorem run_labelled_directive
    (h : lexemes text = .ok (labelLexemes names ++ .identifier name :: args))
    (hname : isDirectiveName name) (hlabel : args.head? ≠ some (.punct .colon)) {s : Session}
    (ho : s.object.Labels names o) (n : Int) :
    ∃ ts stop u c loc, tokenize n text = .ok (ts ++ [⟨.endOfStatement, stop⟩]) ∧
      u.object = o ∧ u.diagnostics = s.diagnostics ∧ c.Plain ∧ c.lexemes = args ∧
      run ⟨s.addSource n (Text.trim text), ⟨[], ts, stop⟩⟩ = directive name loc ⟨u, c⟩ := by
  obtain ⟨ts, stop, htok, hts, _⟩ := tokenize_of_lexemes h n
  obtain ⟨us, _, rfl, hus, hrest⟩ := hts.of_append
  obtain ⟨column, vs, rfl, hvs⟩ := hrest.of_cons
  have hplain : Cursor.Plain ⟨[], us ++ ⟨.identifier name, n, column⟩ :: vs, stop⟩ := by
    obtain ⟨init, _, heq, hplain⟩ := tokenize_ok htok
    obtain ⟨rfl, _⟩ := List.append_inj' heq rfl
    exact hplain
  have hlength : names.length ≤ (us ++ ⟨.identifier name, n, column⟩ :: vs).length := by
    rw [List.length_append, hus.length_labels]
    omega
  have hstart : ¬StartsLabel (⟨.identifier name, n, column⟩ :: vs) := hvs.not_startsLabel hlabel
  have ho' : (s.addSource n (Text.trim text)).object.Labels names o := ho
  obtain ⟨u, hu, rfl, hlabels⟩ := labels_labelled ho' hus hstart hlength [] stop
  have hrun := run_of_labels (r := ⟨_, ⟨[], _, _⟩⟩) hlabels
  rw [if_pos hname] at hrun
  refine ⟨_, stop, u, ⟨_, vs, stop⟩, _, htok, rfl, hu.diagnostics, ?_, hvs.map_lexeme, hrun⟩
  exact fun t ht => hplain t (by simp [ht])

-- The words of a line are those of the expressions in front of the first that cannot be taken, and
-- the line has one error unless there is nothing but a list of words.
theorem word_directive_emits (hname : Directive.ofName? name = some .word)
    (h : lexemes text = .ok (labelLexemes names ++ .identifier name :: args))
    (hlabel : args.head? ≠ some (.punct .colon)) (s : Session) (ho : s.object.Labels names o)
    (n : Int) :
    ∃ t es rs, s.assembleLine n text = .ok t ∧
      (∀ es', Expr.WordsIn args es' ↔ es' = es) ∧
      Record.Lays s.object.current s.object.address es rs ∧
      t.object = rs.foldl Object.append o ∧ t.object.records = s.object.records ++ rs ∧
      (Expr.WordList args → t.diagnostics = s.diagnostics) ∧
      (¬Expr.WordList args → ∃ d, d.isError ∧ t.diagnostics = s.diagnostics ++ [d]) := by
  obtain ⟨ts, stop, u, c, loc, htok, rfl, hdiagnostics, hplain, rfl, hrun⟩ :=
    run_labelled_directive h (isDirectiveName_of_ofName? hname) hlabel ho n
  have hspec {t : Session} (ht : LeavesWords u c.lexemes t) : ∃ es rs,
      (∀ es', Expr.WordsIn c.lexemes es' ↔ es' = es) ∧
      Record.Lays s.object.current s.object.address es rs ∧
      t.object = rs.foldl Object.append u.object ∧ t.object.records = s.object.records ++ rs ∧
      t.diagnostics = s.diagnostics := by
    obtain ⟨es, rs, hes, hlays, hobject, hsame⟩ := ht
    rw [ho.current_address.left, ho.current_address.right] at hlays
    refine ⟨es, rs, fun es' => ⟨fun h => h.unique hes, ?_⟩, hlays, hobject, ?_, ?_⟩
    · rintro rfl
      exact hes
    · rw [hobject, Object.records_foldl_append, ho.records]
    · exact hsame.trans hdiagnostics
  obtain ⟨t, ht, ⟨_, _, hleaves, hlist⟩ | ⟨e, q, rfl, _, hleaves, hlist⟩⟩ :=
    assembleLine_ensures htok ((word_leaves hname hplain).of_eq hrun)
  · obtain ⟨es, rs, hes, hlays, hobject, hrecords, hsame⟩ := hspec hleaves
    exact ⟨t, es, rs, ht, hes, hlays, hobject, hrecords, fun _ => hsame,
      fun hnot => absurd hlist hnot⟩
  · obtain ⟨es, rs, hes, hlays, hobject, hrecords, hsame⟩ := hspec hleaves
    refine ⟨_, es, rs, ht, hes, hlays, hobject, hrecords, fun hyes => absurd hyes hlist,
      fun _ => ?_⟩
    exact ⟨.ofError e, rfl, congrArg (· ++ [Diagnostic.ofError e]) hsame⟩

theorem word_directive_emits_two :
    ∃ args, lexemes "tab: .WORD -1, sym+4, 0x100000000" =
        .ok (labelLexemes ["tab"] ++ .identifier ".WORD" :: args) ∧ ¬Expr.WordList args ∧
      ∃ t rs d, (new .mc88100 0 0x1000).assembleLine 1 "tab: .WORD -1, sym+4, 0x100000000" = .ok t ∧
        Record.Lays .text 0 [.const (-1), .sum "+" (.symbol "sym") (.const 4)] rs ∧
        t.object.records = rs ∧ t.diagnostics = [d] := by
  let last : List Lexeme := [.integer "0x100000000" 0x100000000]
  let more : List Lexeme :=
    [.identifier "sym", .punct .plus, .integer "4" 4] ++ .punct .comma :: last
  let args : List Lexeme := [.punct .minus, .integer "1" 1] ++ .punct .comma :: more
  have hlexemes : lexemes "tab: .WORD -1, sym+4, 0x100000000" =
      .ok (labelLexemes ["tab"] ++ .identifier ".WORD" :: args) := by decide +kernel
  have hargs : Expr.Leads args (.const (-1)) (.punct .comma :: more) :=
    Expr.Written.leads_comma ⟨_, [], _, rfl, .minus .integer, .done⟩ more
  have hmore : Expr.Leads more (.sum "+" (.symbol "sym") (.const 4)) (.punct .comma :: last) :=
    Expr.Written.leads_comma ⟨[_], [_, _], _, rfl, .symbol, .add .integer .done⟩ last
  have hlast : Expr.Leads last (.const 0x100000000) [] :=
    Expr.Written.leads_nil ⟨_, [], _, rfl, .integer, .done⟩
  have hnone : ¬Expr.IsWord (.const 0x100000000) := by simp [Expr.IsWord, Expr.value?]
  have hwords : Expr.WordsIn args [.const (-1), .sum "+" (.symbol "sym") (.const 4)] := by
    refine .more hargs (by simp [Expr.IsWord, Expr.value?]) (.more hmore ?_ (.none ?_))
    · simp [Expr.IsWord, Expr.value?]
    · intro e rest hleads
      exact (hlast.unique hleads).left ▸ hnone
  have hlist : ¬Expr.WordList args := by
    simp [hargs.wordList_iff, hmore.wordList_iff, hlast.wordList_iff, hnone]
  have hlabels : (new .mc88100 0 0x1000).object.Labels ["tab"]
      { Object.new 0 0x1000 with symbols := [⟨"tab", .text, 0⟩] } := .cons (fun _ => rfl) .nil
  obtain ⟨t, es, rs, ht, hes, hlays, _, hrecords, _, herror⟩ :=
    word_directive_emits (by decide +kernel) hlexemes (by decide) (new .mc88100 0 0x1000) hlabels 1
  obtain rfl := (hes _).mp hwords
  obtain ⟨d, _, hdiagnostics⟩ := herror hlist
  exact ⟨args, hlexemes, hlist, t, rs, d, ht, hlays, hrecords, hdiagnostics⟩

end Session
end Asm88000
