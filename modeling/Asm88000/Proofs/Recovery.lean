import Asm88000.Proofs.SessionAgreement

namespace Asm88000

def IsInstruction : List Lexeme → Bool
  | .identifier _ :: .punct .colon :: _ => false
  | .identifier name :: _               => !Statement.isDirectiveName name
  | _                                   => false

-- The object has one more instruction, at its current address, and has moved on behind it.
structure Object.Gains (o : Object) (r : Record) (o' : Object) : Prop where
  type          : r.type = .instruction
  sect          : r.sect = o.current
  address       : r.address = o.address
  records       : o'.records = o.records ++ [r]
  here          : o'.getSection o.current = ⟨(o.getSection o.current).start, o.address + 4⟩
  elsewhere     : ∀ sect, sect ≠ o.current → o'.getSection sect = o.getSection sect
  current       : o'.current = o.current
  symbols       : o'.symbols = o.symbols
  globals       : o'.globals = o.globals
  requires88110 : o'.requires88110 = o.requires88110

theorem Object.gains_append {o : Object} {inst : Inst} {r : Record}
    (h : o.instructionRecord inst = .ok r) : o.Gains r (o.append r) := by
  obtain ⟨_, word, fixups, _, rfl⟩ := instructionRecord_eq_ok h
  constructor
  case type      => rfl
  case sect      => rfl
  case address   => rfl
  case records   => simp
  case symbols   => simp
  case here      => simp [wordSize]
  case elsewhere =>
    intro sect hsect
    simp [hsect]
  all_goals
    unfold append setAddress
    split <;> rfl

namespace Session

-- The same session but for what there is to tell.
structure Twin (s t : Session) : Prop where
  object    : t.object = s.object
  cpu       : t.cpu = s.cpu
  available : t.available = s.available

variable {s t u : Session}

theorem Twin.symm (h : s.Twin t) : t.Twin s :=
  ⟨h.object.symm, h.cpu.symm, h.available.symm⟩

theorem Twin.trans (h : s.Twin t) (h' : t.Twin u) : s.Twin u :=
  ⟨h'.object.trans h.object, h'.cpu.trans h.cpu, h'.available.trans h.available⟩

theorem twin_reportAll (s : Session) (ds : List Diagnostic) : s.Twin (s.reportAll ds) :=
  ⟨s.object_reportAll ds, s.cpu_reportAll ds, s.available_reportAll ds⟩

def Grows (s t : Session) : Prop :=
  t.cpu = s.cpu ∧ t.available = s.available ∧ ∃ r, s.object.Gains r t.object

end Session

namespace Statement

open Session

theorem operands_twin (mnemonic : String) (loc : Loc) (r : Run) :
    Ensures (operands mnemonic loc) r (fun _ q => r.session.Twin q.session)
      fun _ q => r.session.Twin q.session := by
  unfold Ensures operands
  cases Operand.parseAll mnemonic (Scan.start mnemonic loc r.cursor)
  case error f scan => exact twin_reportAll _ _
  case ok scan =>
    dsimp only
    cases (scan.operands.drop 1).mapM Operand.describe
    case error => exact twin_reportAll _ _
    case ok    => exact .trans (twin_reportAll _ _) ⟨rfl, rfl, rfl⟩

theorem emit_grows (ops : List Operand) (loc : Loc) (r : Run) :
    Ensures (emit ops loc) r (fun _ q => r.session.Grows q.session) fun _ q => q = r := by
  unfold Ensures emit
  cases h : r.session.emitOperands ops loc
  case error => exact rfl
  case ok p =>
    obtain ⟨inst, t⟩ := p
    obtain ⟨_, _, record, _, _, hrecord, rfl⟩ := emitOperands_verdict h
    refine ⟨cpu_append _ _, available_append _ _, record, ?_⟩
    rw [object_append]
    exact Object.gains_append hrecord

theorem instruction_grows (mnemonic : String) (loc : Loc) (r : Run) :
    Ensures (do
        let ops ← operands mnemonic loc
        let _ ← emit ops loc)
      r (fun _ q => r.session.Grows q.session) fun _ q => r.session.Twin q.session := by
  refine (operands_twin mnemonic loc r).bind (fun ops q hq => ?_) fun _ _ => id
  refine (emit_grows ops loc q).bind (fun _ q' hq' => ?_) fun _ q' hq' => hq' ▸ hq
  obtain ⟨hcpu, havailable, r, hgains⟩ := hq'
  exact ⟨hcpu.trans hq.cpu, havailable.trans hq.available, r, hq.object ▸ hgains⟩

end Statement

section

variable {n : Int} {ts : List Token} {ls : List Lexeme}

theorem TokensOn.instruction (hts : TokensOn n ts ls) (h : IsInstruction ls) :
    ∃ name loc rest, ts = ⟨.identifier name, loc⟩ :: rest ∧
      Statement.isDirectiveName name = false ∧ ¬ StartsLabel ts := by
  unfold IsInstruction at h
  split at h
  case h_1 => cases h
  case h_3 => cases h
  case h_2 name ls hcolon =>
    obtain ⟨column, rest, rfl, hrest⟩ := hts.of_cons
    refine ⟨name, _, rest, rfl, by simpa using h, hrest.not_startsLabel fun hhead => ?_⟩
    obtain ⟨ls, rfl⟩ := List.head?_eq_some_iff.mp hhead
    exact hcolon _ rfl

end

namespace Session

open Statement

theorem assembleLine_instruction {text : String} {ls : List Lexeme} (h : lexemes text = .ok ls)
    (hls : IsInstruction ls) (n : Int) (s : Session) :
    ∃ t, s.assembleLine n text = .ok t ∧
      (t.errors = s.errors ∧ s.Grows t ∨ t.errors ≠ s.errors ∧ s.Twin t) := by
  obtain ⟨ts, stop, htok, hts, _⟩ := tokenize_of_lexemes h n
  obtain ⟨name, loc, rest, rfl, hname, hlabel⟩ := hts.instruction hls
  have hgrows := instruction_grows (Text.lowerAscii name) loc
    ⟨s.addSource n (Text.trim text), ⟨[⟨.identifier name, loc⟩], rest, stop⟩⟩
  have hrun := hgrows.of_eq (run_instruction hname hlabel _ [] stop)
  obtain ⟨t, ht, ⟨herrors, _, hq⟩ | ⟨e, q, rfl, herrors, hq⟩⟩ := assembleLine_ensures htok hrun
  · exact ⟨t, ht, .inl ⟨herrors, hq⟩⟩
  · exact ⟨_, ht, .inr ⟨by simp [herrors], hq.object, hq.cpu, hq.available⟩⟩

-- Lines that do something only if they are free of errors.
inductive IsIsolated (line : String) : Prop
  | invalid {e : Error} : lexemes (dropLineEnds line) = .error e → IsIsolated line
  | instruction {ls : List Lexeme} :
    lexemes (dropLineEnds line) = .ok ls → IsInstruction ls → IsIsolated line

theorem IsIsolated.twin {line : String} (h : IsIsolated line) {n : Int} {s t : Session}
    (ht : s.assembleLine n (dropLineEnds line) = .ok t) (herrors : t.errors ≠ s.errors) :
    s.Twin t := by
  cases h
  case invalid h =>
    obtain ⟨e, htok⟩ := tokenize_of_lexemes_error h n
    cases (assembleLine_invalid htok s).symm.trans ht
    exact ⟨rfl, rfl, rfl⟩
  case instruction h hls =>
    obtain ⟨t', ht', hcases⟩ := assembleLine_instruction h hls n s
    cases ht'.symm.trans ht
    rcases hcases with ⟨heq, _⟩ | ⟨_, htwin⟩
    · exact (herrors heq).elim
    · exact htwin

end Session

section

variable {n : Int}

theorem eq_of_placed (l m : Option Loc) (h : Placed (Loc.Across n n) l m) : l = m := by
  cases h
  case mk l m h =>
    obtain ⟨hl, hm, hcolumn⟩ := h
    rw [show l = ⟨l.line, l.column⟩ from rfl, hl, hcolumn, ← hm]

def Diagnostic.line? (d : Diagnostic) : Option Int :=
  d.loc.map Loc.line

theorem Diagnostic.Alike.line? {d e : Diagnostic} (h : Diagnostic.Alike (Loc.Across n n) d e) :
    d.line? = some n := by
  have hloc := h.loc
  unfold Diagnostic.line?
  generalize d.loc = l at hloc
  generalize e.loc = m at hloc
  cases hloc
  case mk h => exact congrArg some h.left

end

namespace Session

theorem assembleLine_twin (n : Int) (text : String) {s s' : Session} (h : s.Twin s') :
    ∃ t t' ds, s.assembleLine n text = .ok t ∧ s'.assembleLine n text = .ok t' ∧ t.Twin t' ∧
      t.diagnostics = s.diagnostics ++ ds ∧ t'.diagnostics = s'.diagnostics ++ ds ∧
      ∀ d ∈ ds, d.line? = some n := by
  cases htok : tokenize n text
  case error e =>
    have hagrees := tokenize_agrees n n text
    rw [htok] at hagrees
    obtain - | he := hagrees
    refine ⟨_, _, [.ofError e], assembleLine_invalid htok s, assembleLine_invalid htok s',
      ⟨h.object, h.cpu, h.available⟩, rfl, rfl, ?_⟩
    simpa using he.diagnostic.line?
  case ok ts =>
    have hline := tokenize_line htok
    obtain ⟨ts, stop, rfl, _⟩ := tokenize_ok htok
    have hts : AlikeTokens (Loc.Across n n) ts ts := .refl fun t ht =>
      have ht := hline t (List.mem_append_left _ ht)
      ⟨ht, ht, rfl⟩
    have hstop : stop.line = n := hline ⟨.endOfStatement, stop⟩ (by simp)
    have hs : Alike (Loc.Across n n) Eq s.diagnostics s'.diagnostics s s' :=
      ⟨h.cpu.symm, h.available.symm, h.object ▸ .refl (fun _ => rfl) _, [], [], by simp, by simp,
        .nil⟩
    obtain ⟨t, t', ht, ht', halike⟩ :=
      assembleLine_agrees (simulation_alike eq_of_placed _ _) hs htok htok
        hts.statement ⟨hstop, hstop, rfl⟩
    obtain ⟨ds, ds', hds, hds', hdiagnostics⟩ := halike.diagnostics
    obtain rfl : ds = ds' :=
      List.forall₂_eq_eq_eq ▸ hdiagnostics.imp fun _ _ hd => hd.mapLoc_eq (f := id) eq_of_placed
    have hobject : t.object = t'.object := by
      rw [← t.object.mapLoc_id, ← t'.object.mapLoc_id]
      exact halike.object.mapLoc_eq
    refine ⟨t, t', ds, ht, ht', ⟨hobject.symm, halike.cpu.symm, halike.available.symm⟩, hds, hds',
      ?_⟩
    exact fun d hd => (List.forall₂_same.mp hdiagnostics d hd).line?

def blank (chosen : Int → Bool) : Nat → List String → List String
  | _, []      => []
  | n, l :: ls => (if chosen n then "" else l) :: blank chosen (n + 1) ls

-- Each chosen line stands alone and has an error among the diagnostics.
def Fails (chosen : Int → Bool) (n : Nat) (lines : List String) (ds : List Diagnostic) : Prop :=
  ∀ i l, lines[i]? = some l → chosen (n + i : Nat) →
    IsIsolated l ∧ ∃ d ∈ ds, d.isError ∧ d.line? = some ((n + i : Nat) : Int)

def others (chosen : Int → Bool) (ds : List Diagnostic) : List Diagnostic :=
  ds.filter fun d => !d.line?.any chosen

theorem others_append (chosen : Int → Bool) (ds es : List Diagnostic) :
    others chosen (ds ++ es) = others chosen ds ++ others chosen es :=
  List.filter_append ..

theorem others_on {chosen : Int → Bool} {n : Int} {ds : List Diagnostic}
    (h : ∀ d ∈ ds, d.line? = some n) : others chosen ds = if chosen n then [] else ds := by
  split
  case isTrue hn  => exact List.filter_eq_nil_iff.mpr fun d hd => by simp [h d hd, hn]
  case isFalse hn => exact List.filter_eq_self.mpr fun d hd => by simp [h d hd, hn]

theorem Fails.head {chosen : Int → Bool} {n : Nat} {l : String} {ls : List String}
    {ds es : List Diagnostic} (h : Fails chosen n (l :: ls) (ds ++ es))
    (hes : ∀ d ∈ es, ∃ k, d.line? = some k ∧ (n : Int) < k) (hn : chosen n) :
    IsIsolated l ∧ ∃ d ∈ ds, d.isError := by
  obtain ⟨hl, d, hd, herror, hline⟩ := h 0 l rfl hn
  refine ⟨hl, d, ?_, herror⟩
  rcases List.mem_append.mp hd with hd | hd
  · exact hd
  · obtain ⟨k, hk, hlt⟩ := hes d hd
    cases hk.symm.trans hline
    exact (Int.lt_irrefl _ hlt).elim

theorem Fails.tail {chosen : Int → Bool} {n : Nat} {l : String} {ls : List String}
    {ds es : List Diagnostic} (h : Fails chosen n (l :: ls) (ds ++ es))
    (hds : ∀ d ∈ ds, d.line? = some (n : Int)) : Fails chosen (n + 1) ls es := by
  intro i l' hl' hchosen
  have hi : n + 1 + i = n + (i + 1) := by omega
  rw [hi] at hchosen ⊢
  obtain ⟨hisolated, d, hd, herror, hline⟩ := h (i + 1) l' hl' hchosen
  refine ⟨hisolated, d, ?_, herror, hline⟩
  rcases List.mem_append.mp hd with hd | hd
  · have heq := (hds d hd).symm.trans hline
    simp at heq
    omega
  · exact hd

theorem errors_ne_of_mem {s t : Session} {ds : List Diagnostic} {d : Diagnostic}
    (h : t.diagnostics = s.diagnostics ++ ds) (hd : d ∈ ds) (herror : d.isError) :
    t.errors ≠ s.errors := by
  have hmem : d ∈ ds.filter Diagnostic.isError := List.mem_filter.mpr ⟨hd, herror⟩
  intro heq
  rw [errors, h, List.filter_append, errors, List.append_right_eq_self] at heq
  rw [heq] at hmem
  cases hmem

theorem assembleLine_empty (s : Session) (n : Int) :
    s.assembleLine n (dropLineEnds "") = .ok (s.addSource n "") := by
  rfl

-- The induction is on the lines. The first session is the one of the program as it is, and the
-- other one has seen the chosen lines empty.
theorem assembleFrom_blank (chosen : Int → Bool) (lines : List String) (n : Nat) (s : Session) :
    ∃ t ds, s.assembleFrom n lines = .ok t ∧ t.diagnostics = s.diagnostics ++ ds ∧
      (∀ d ∈ ds, ∃ k, d.line? = some k ∧ (n : Int) ≤ k) ∧
      ∀ s', s.Twin s' → Fails chosen n lines ds →
        ∃ t', s'.assembleFrom n (blank chosen n lines) = .ok t' ∧ t.Twin t' ∧
          t'.diagnostics = s'.diagnostics ++ others chosen ds := by
  induction lines generalizing n s
  case nil => exact ⟨s, [], rfl, by simp, by simp, fun s' h _ => ⟨s', rfl, h, by simp [others]⟩⟩
  case cons l ls ih =>
    obtain ⟨t, _, ds, ht, _, _, hds, _, hon⟩ :=
      assembleLine_twin n (dropLineEnds l) (s := s) ⟨rfl, rfl, rfl⟩
    obtain ⟨u, es, hu, hes, hbehind, hrest⟩ := ih (n + 1) t
    have hlater : ∀ d ∈ es, ∃ k, d.line? = some k ∧ (n : Int) < k := fun d hd =>
      (hbehind d hd).imp fun k hk => ⟨hk.left, by have := hk.right; omega⟩
    refine ⟨u, ds ++ es, (assembleFrom_cons ht ls).trans hu, ?_, ?_, fun s' htwin hfails => ?_⟩
    case refine_1 => rw [hes, hds, List.append_assoc]
    case refine_2 =>
      intro d hd
      rcases List.mem_append.mp hd with hd | hd
      · exact ⟨n, hon d hd, Int.le_refl _⟩
      · exact (hlater d hd).imp fun k hk => ⟨hk.left, Int.le_of_lt hk.right⟩
    case refine_3 =>
      have htail := hfails.tail hon
      rw [others_append, others_on hon, blank]
      by_cases hchosen : chosen n
      case pos =>
        obtain ⟨hisolated, d, hd, herror⟩ := hfails.head hlater hchosen
        have hstays := hisolated.twin ht (errors_ne_of_mem hds hd herror)
        have hempty : t.Twin (s'.addSource n "") :=
          hstays.symm.trans ⟨htwin.object, htwin.cpu, htwin.available⟩
        obtain ⟨u', hu', hu'', hes'⟩ := hrest _ hempty htail
        simp only [hchosen, ↓reduceIte]
        exact ⟨u', (assembleFrom_cons (assembleLine_empty s' n) _).trans hu', hu'', hes'⟩
      case neg =>
        obtain ⟨v, t', ds', hv, ht', htwins, hds', hdst, _⟩ :=
          assembleLine_twin n (dropLineEnds l) htwin
        cases hv.symm.trans ht
        obtain rfl := List.append_cancel_left (hds'.symm.trans hds)
        obtain ⟨u', hu', hu'', hes'⟩ := hrest t' htwins htail
        simp only [hchosen, Bool.false_eq_true, ↓reduceIte]
        refine ⟨u', (assembleFrom_cons ht' _).trans hu', hu'', ?_⟩
        rw [hes', hdst, List.append_assoc]

-- Lines that fail might as well be empty, and an instruction that does not fail is one more record.
theorem errors_stay_on_their_lines (cpu : Cpu) (codeStart dataStart : Int) (lines : List String) :
    (∃ t, (new cpu codeStart dataStart).assemble lines = .ok t ∧
      ∀ chosen, Fails chosen 1 lines t.diagnostics →
        ∃ t', (new cpu codeStart dataStart).assemble (blank chosen 1 lines) = .ok t' ∧
          t'.object = t.object ∧ t'.cpu = t.cpu ∧ t'.available = t.available ∧
          t'.diagnostics = others chosen t.diagnostics) ∧
    ∀ (s : Session) (n : Int) (text : String) (ls : List Lexeme),
      lexemes text = .ok ls → IsInstruction ls →
      ∃ t, s.assembleLine n text = .ok t ∧
        (t.errors = s.errors →
          t.cpu = s.cpu ∧ t.available = s.available ∧ ∃ r, s.object.Gains r t.object) := by
  constructor
  case left =>
    obtain ⟨t, ht, _⟩ := assembleFrom_ok 1 (new cpu codeStart dataStart) lines
    refine ⟨t, ht, fun chosen hfails => ?_⟩
    obtain ⟨u, ds, hu, hds, _, hblank⟩ :=
      assembleFrom_blank chosen lines 1 (new cpu codeStart dataStart)
    cases hu.symm.trans ht
    obtain rfl : t.diagnostics = ds := hds
    obtain ⟨t', ht', htwin, hdiagnostics⟩ := hblank _ ⟨rfl, rfl, rfl⟩ hfails
    exact ⟨t', ht', htwin.object, htwin.cpu, htwin.available, hdiagnostics⟩
  case right =>
    intro s n text ls h hls
    obtain ⟨t, ht, hcases⟩ := assembleLine_instruction h hls n s
    refine ⟨t, ht, fun herrors => ?_⟩
    rcases hcases with ⟨_, hgrows⟩ | ⟨hne, _⟩
    · exact hgrows
    · exact (hne herrors).elim

theorem errors_stay_on_their_lines_add :
    ∃ t t', (new .mc88100 0 0).assemble ["rte", "add %r1", "rte 1x"] = .ok t ∧
      Fails (fun k => 1 < k) 1 ["rte", "add %r1", "rte 1x"] t.diagnostics ∧
      (new .mc88100 0 0).assemble ["rte", "", ""] = .ok t' ∧
      t'.object = t.object ∧ t'.cpu = t.cpu ∧ t'.available = t.available ∧
      t'.diagnostics = [] := by
  obtain ⟨⟨t, ht, h⟩, _⟩ := errors_stay_on_their_lines .mc88100 0 0 ["rte", "add %r1", "rte 1x"]
  have hdiagnostics : t.diagnostics =
      [⟨.error, "too few operands for instruction", some ⟨2, 1⟩⟩,
        ⟨.error, "invalid integer literal '1x'", some ⟨3, 5⟩⟩] := by
    have hmap : ((new .mc88100 0 0).assemble ["rte", "add %r1", "rte 1x"]).map diagnostics =
        .ok [⟨.error, "too few operands for instruction", some ⟨2, 1⟩⟩,
          ⟨.error, "invalid integer literal '1x'", some ⟨3, 5⟩⟩] := by decide +kernel
    rw [ht] at hmap
    exact Except.ok.inj hmap
  have hlexemes : lexemes (dropLineEnds "add %r1") =
      .ok [.identifier "add", .punct .percent, .identifier "r1"] := by decide +kernel
  have hadd : IsIsolated "add %r1" := .instruction hlexemes (by decide)
  have hinvalid : IsIsolated "rte 1x" :=
    .invalid (e := ⟨.invalidInteger "1" 'x', some ⟨1, 5⟩⟩) (by decide +kernel)
  have hfails : Fails (fun k => 1 < k) 1 ["rte", "add %r1", "rte 1x"] t.diagnostics := by
    rw [hdiagnostics]
    intro i l hl hchosen
    rcases i with _ | _ | _ | i
    · cases hchosen
    · cases hl
      exact ⟨hadd, by decide⟩
    · cases hl
      exact ⟨hinvalid, by decide⟩
    · cases hl
  obtain ⟨t', ht', hobject, hcpu, havailable, hothers⟩ := h _ hfails
  refine ⟨t, t', ht, hfails, ht', hobject, hcpu, havailable, ?_⟩
  rw [hothers, hdiagnostics]
  decide

end Session

end Asm88000
