import Asm88000.Proofs.LineOutcome

namespace Asm88000

namespace InstructionSet

def conditional : List String :=
  ["bcnd", "bcnd.n", "tcnd"]

variable {mnemonic : String}

theorem isTernary_conditional (h : mnemonic ∈ conditional) : IsTernary mnemonic := by
  have hname : ∀ m ∈ conditional, m ≠ "rot" := by decide
  have hlone : ∀ m ∈ conditional, ∀ i < 3, SlotReader.IsLone (slotReaders m i) := by decide +kernel
  have hforms : ∀ m ∈ conditional, ∀ e ∈ candidates m,
      e.classes.length = 3 ∧ e.argClasses = e.classes := by decide +kernel
  exact ⟨hname _ h, hlone _ h, hforms _ h⟩

theorem conditional_form (h : mnemonic ∈ conditional) :
    ∃ e, candidates mnemonic = [e] ∧ e.classes.head? = some .conditionCode ∧
      (.imm 0 0 5 21 .abs16, 21) ∈ e.slots := by
  have hforms : ∀ m ∈ conditional, (candidates m).length = 1 ∧ ∀ e ∈ candidates m,
      e.classes.head? = some .conditionCode ∧ (.imm 0 0 5 21 .abs16, 21) ∈ e.slots := by
    decide +kernel
  obtain ⟨hlength, he⟩ := hforms _ h
  obtain ⟨e, heq⟩ := List.length_eq_one_iff.mp hlength
  exact ⟨e, heq, he e (by simp [heq])⟩

theorem slotReaders_conditional (h : mnemonic ∈ conditional) :
    slotReaders mnemonic 0 = [.conditionCode] ∧ slotReaders mnemonic 1 = [] ∧
      (slotReaders mnemonic 2 = [] ∨ slotReaders mnemonic 2 = [.displacement16]) := by
  have hreaders : ∀ m ∈ conditional, slotReaders m 0 = [.conditionCode] ∧ slotReaders m 1 = [] ∧
      (slotReaders m 2 = [] ∨ slotReaders m 2 = [.displacement16]) := by decide +kernel
  exact hreaders _ h

end InstructionSet

namespace Operand

open OperandM

variable {mnemonic spelling : String} {n : Nat} {b c : Reading}

theorem parse_condition_moves {vs : List OperandValue} {rest : List Lexeme} {i : Nat}
    (hvs : vs.length = i + 1) (hrs : InstructionSet.slotReaders mnemonic i = [.conditionCode])
    (hrest : Expr.Closes rest) :
    Moves (parse mnemonic) vs (.integer spelling n :: rest) true
      (vs ++ [.immediate (.const (n % 0x100000000 : Nat))]) rest := by
  rcases Nat.lt_or_ge 31 n with hlarge | hsmall
  · refine parse_special_moves hvs ?_
    rw [hrs, SlotReader.readAny_singleton]
    exact SlotReader.readConditionCode_moves hlarge
  · have hwritten : Expr.Written [.integer spelling n] (.const n) :=
      ⟨[.integer spelling n], [], .const n, rfl, .integer, .done⟩
    have hrefuses : Moves (SlotReader.readAny (InstructionSet.slotReaders mnemonic i)) vs
        ([.integer spelling n] ++ rest) false vs ([.integer spelling n] ++ rest) := by
      rw [hrs, SlotReader.readAny_singleton]
      exact SlotReader.readConditionCode_refuses hsmall
    rw [Nat.mod_eq_of_lt (by omega)]
    exact parse_expr_moves hvs hrefuses hwritten hrest

theorem parseAll_condition_moves (hm : mnemonic ∈ InstructionSet.conditional)
    (hb : b.Stands (InstructionSet.slotReaders mnemonic 1))
    (hc : c.Stands (InstructionSet.slotReaders mnemonic 2)) :
    Moves (parseAll mnemonic) [.token mnemonic]
      (.integer spelling n :: .punct .comma :: (b.lexemes ++ .punct .comma :: c.lexemes)) ()
      [.token mnemonic, .immediate (.const (n % 0x100000000 : Nat)), b.operand.value,
        c.operand.value] [] := by
  obtain ⟨hreaders₀, hreaders₁, hreaders₂⟩ := InstructionSet.slotReaders_conditional hm
  have hplain : InstructionSet.slotReaders mnemonic 2 = [] ∨
      ∃ ρ : Reach, InstructionSet.slotReaders mnemonic 2 = [ρ.reader] :=
    hreaders₂.imp_right fun hreader => ⟨.near, hreader⟩
  have hrot := (InstructionSet.isTernary_conditional hm).noRotation
  refine parseAll_parses (fun c hc => by simp [Cursor.atEnd_eq, hc])
    (parse_condition_moves rfl hreaders₀ closes_comma)
    (parse_moves_of_notates rfl rfl (.inl hreaders₁) hb.notates closes_comma) ?_
  refine parseRest_comma (parseThird_parses (fun c _ => by simp [hrot]) ?_)
  rw [← List.append_nil c.lexemes]
  exact parse_moves_of_notates rfl rfl hplain hc.notates closes_nil

end Operand

theorem InstructionTokens.reads_condition {line : Int} {text : String} {names : List String}
    {mnemonic spelling : String} {n : Nat} {b c : Reading}
    (k : InstructionTokens line text names mnemonic
      (.integer spelling n :: .punct .comma :: (b.lexemes ++ .punct .comma :: c.lexemes)))
    (hm : mnemonic ∈ InstructionSet.conditional)
    (hb : b.Stands (InstructionSet.slotReaders mnemonic 1))
    (hc : c.Stands (InstructionSet.slotReaders mnemonic 2)) :
    ∃ x y z scan, Operand.parseAll mnemonic (Scan.start mnemonic k.loc k.cursor) = .ok () scan ∧
      (Scan.start mnemonic k.loc k.cursor).TakesThree mnemonic x y z scan ∧ scan.warnings = [] ∧
      [x, y, z].map (·.operand.value) =
        [.immediate (.const (n % 0x100000000 : Nat)), b.operand.value, c.operand.value] := by
  have hternary := InstructionSet.isTernary_conditional hm
  have hstart : (Scan.start mnemonic k.loc k.cursor).Shows [.token mnemonic]
      (.integer spelling n :: .punct .comma :: (b.lexemes ++ .punct .comma :: c.lexemes)) :=
    ⟨rfl, k.cursor_lexemes, rfl⟩
  obtain ⟨_, scan, hparse, _, hshows⟩ :=
    (Operand.parseAll_condition_moves hm hb hc _ hstart).exists_ok
  have htakes := (Operand.parseAll_takes (s := Scan.start mnemonic k.loc k.cursor) rfl
    hternary.noRotation hternary.lone).ok hparse
  have hvalues := hshows.values
  rcases htakes with ⟨x, y, z, hxyz⟩ | ⟨word, loc, htoken⟩ | hfew
  · rw [hxyz.operands] at hvalues
    exact ⟨x, y, z, scan, hparse, hxyz, hshows.warnings, List.tail_eq_of_cons_eq hvalues⟩
  · have hmem := List.mem_map_of_mem (f := Operand.value) htoken
    rw [List.map_tail, hvalues] at hmem
    simp only [List.tail_cons, List.mem_cons, List.not_mem_nil, or_false] at hmem
    rcases hmem with hmem | hmem | hmem
    · cases hmem
    · exact (SlotReader.Notates.not_token (hmem ▸ hb.notates)).elim
    · exact (SlotReader.Notates.not_token (hmem ▸ hc.notates)).elim
  · have hlength := congrArg List.length hvalues
    rw [List.length_map] at hlength
    exact absurd (hlength ▸ hfew) (by simp)

theorem Session.emitOperands_unfit {s : Session} {mnemonic : String} {e : Entry}
    {cls : OperandClass} {classes : List OperandClass} {op : Operand} {ops : List Operand}
    (he : InstructionSet.candidates mnemonic = [e]) (hclasses : e.classes = cls :: classes)
    (hreal : op.IsReal) (hop : ¬cls.shape.takes op.value) (loc : Loc) :
    s.emitOperands (.token mnemonic loc :: op :: ops) loc =
      .error (.error ⟨.unfitOperand (some 1) cls.fault, op.first⟩) := by
  have hmisfit : Verdict.misfit 1 e.classes (op :: ops) = .ok (some ⟨1, cls.fault⟩) :=
    hclasses ▸ Verdict.misfit_append .nil hreal hop
  have hverdict : Verdict.ofOperands s.available (.token mnemonic loc :: op :: ops) =
      .ok (.rejected cls.fault (some 1)) := by
    have hforms : InstructionSet.formsOf mnemonic InstructionSet.table = [e] := he
    rw [Verdict.ofOperands, Verdict.byForms_eq_select rfl (by simp [hforms]), hforms]
    simp [Verdict.select, hmisfit, Verdict.Misfit.worse, bind, Except.bind, pure, Except.pure]
  exact Session.emitOperands_rejected hverdict rfl loc

-- A statement whose operands have been read. All of them fit but for the condition in front, which
-- is yet to be checked.
structure ConditionStage (s : Session) {line : Int} {text : String} {names : List String}
    {mnemonic : String} {args : List Lexeme} (k : InstructionTokens line text names mnemonic args)
    (code : Nat) where
  session     : Session
  scan        : Scan
  condition   : Operand
  others      : List Operand
  entry       : Entry
  classes     : List OperandClass
  parsed      : Operand.parseAll mnemonic (Scan.start mnemonic k.loc k.cursor) = .ok () scan
  operands    : scan.operands = .token mnemonic k.loc :: condition :: others
  real        : ∀ op ∈ condition :: others, op.IsReal
  value       : condition.value = .immediate (.const code)
  first       : condition.first = some k.cursor.loc
  onlyForm    : InstructionSet.candidates mnemonic = [entry]
  form        : entry.classes = .conditionCode :: classes
  slot        : (.imm 0 0 5 21 .abs16, 21) ∈ entry.slots
  fits        : List.Forall₂ (fun cls op => cls.shape.takes op.value) classes others
  covered     : Feature.covers session.available entry.features
  aligned     : session.object.address % wordSize = 0
  records     : session.object.records = s.object.records
  diagnostics : session.diagnostics = s.diagnostics
  assembled   : s.assembleLine line text =
    session.conclude (session.emitOperands scan.operands k.loc)

namespace ConditionStage

variable {s : Session} {line : Int} {text : String} {names : List String} {mnemonic : String}
variable {args : List Lexeme} {k : InstructionTokens line text names mnemonic args} {code : Nat}

theorem accepted (x : ConditionStage s k code) (hm : mnemonic ∈ InstructionSet.conditional)
    (h : code ≤ 31) :
    ∃ t r, s.assembleLine line text = .ok t ∧ t.diagnostics = s.diagnostics ∧
      t.object.records = s.object.records ++ [r] ∧ r.word >>> 21 % 32 = code := by
  have htakes : OperandClass.conditionCode.shape.takes x.condition.value :=
    Shape.takes_constant.mpr ⟨code, x.value, Int.natCast_nonneg code, Int.ofNat_le.mpr h⟩
  have hfits : x.entry.Fits (x.condition :: x.others) := by
    rw [Entry.Fits, x.form]
    exact .cons htakes x.fits
  have he : x.entry ∈ InstructionSet.candidates mnemonic := by simp [x.onlyForm]
  obtain ⟨inst, r, hemit⟩ :=
    Session.emitOperands_of_candidate he x.real hfits x.covered k.loc
  have ht := x.assembled
  rw [x.operands, hemit, if_pos x.aligned] at ht
  have hdiagnostics : (x.session.append r).diagnostics = s.diagnostics :=
    (Session.diagnostics_append _ r).trans x.diagnostics
  obtain ⟨y⟩ := k.exists_emission ht (by rw [Session.errors, hdiagnostics, Session.errors])
  refine ⟨_, y.record, ht, hdiagnostics, y.records, ?_⟩
  -- The operands are read in one way, so the emission is that of the stage.
  have hentry : y.entry = x.entry := by simpa [x.onlyForm] using y.listed
  have hscan : y.scan = x.scan := by
    have heq := y.parsed.symm.trans x.parsed
    injection heq
  have hoperands : y.operands = x.condition :: x.others :=
    List.tail_eq_of_cons_eq (y.scanned.symm.trans (hscan ▸ x.operands))
  have hcls : y.entry.classes[0]? = some .conditionCode := by simp [hentry, x.form]
  have hop : y.operands[0]? = some x.condition := by simp [hoperands]
  have hternary := InstructionSet.isTernary_conditional hm
  have hfield := y.field hternary (hentry ▸ x.slot) hcls hop x.value
  exact Int.ofNat_inj.mp hfield

theorem rejected (x : ConditionStage s k code) (h : 31 < code) :
    ∃ t, s.assembleLine line text = .ok t ∧ t.object.records = s.object.records ∧
      t.diagnostics =
        s.diagnostics ++ [⟨.error, "invalid operand for instruction", some k.cursor.loc⟩] := by
  have hunfit : ¬OperandClass.conditionCode.shape.takes x.condition.value := by
    intro htakes
    obtain ⟨v, hv, _, hle⟩ := Shape.takes_constant.mp htakes
    cases x.value.symm.trans hv
    omega
  have hreal : x.condition.IsReal := x.real _ (by simp)
  have ht := x.assembled
  rw [x.operands, Session.emitOperands_unfit x.onlyForm x.form hreal hunfit, x.first] at ht
  refine ⟨_, ht, x.records, ?_⟩
  rw [Session.report, x.diagnostics]
  rfl

end ConditionStage

-- With some condition in front, the other operands make a statement without an error.
def Session.Completes (s : Session) (names : List String) (mnemonic : String) (back : List Lexeme) :
    Prop :=
  ∃ line text condition t, HasInstruction text names mnemonic (condition ++ .punct .comma :: back) ∧
    .punct .comma ∉ condition ∧ s.assembleLine line text = .ok t ∧ t.errors = s.errors

theorem Session.Completes.exists_stage {s : Session} {line : Int} {text : String}
    {names : List String} {mnemonic spelling : String} {n : Nat} {back : List Lexeme}
    (h : s.Completes names mnemonic back) (hm : mnemonic ∈ InstructionSet.conditional)
    (k : InstructionTokens line text names mnemonic
      (.integer spelling n :: .punct .comma :: back)) :
    Nonempty (ConditionStage s k (n % 0x100000000)) := by
  obtain ⟨line', text', condition, t, hline, hcomma, ht, herrors⟩ := h
  obtain ⟨k'⟩ := hline.tokens line'
  obtain ⟨x⟩ := k'.exists_emission ht herrors
  obtain ⟨a, b, c, habc⟩ := x.exists_three (InstructionSet.isTernary_conditional hm)
  obtain ⟨rfl, rfl⟩ :=
    append_cons_inj_front hcomma habc.one.notates.comma_notMem habc.lexemes
  obtain ⟨p, q, r, scan, hparse, hpqr, hwarnings, hvalues⟩ :=
    k.reads_condition hm habc.two habc.three
  obtain ⟨v, hobject, havailable, hdiagnostics, hassembled⟩ :=
    k.assembleLine_of_parse x.labels hparse
  obtain ⟨e, hforms, hhead, hslot⟩ := InstructionSet.conditional_form hm
  obtain rfl : x.entry = e := by simpa [hforms] using x.listed
  obtain ⟨classes, hclasses⟩ := List.head?_eq_some_iff.mp hhead
  obtain ⟨hp, hq, hr⟩ : p.operand.value = _ ∧ q.operand.value = _ ∧ r.operand.value = _ := by
    simpa using hvalues
  have hfits : List.Forall₂ (fun cls op => cls.shape.takes op.value) classes
      [q.operand, r.operand] := by
    have hfits := x.fits
    rw [Entry.Fits, hclasses, habc.operands] at hfits
    obtain _ | ⟨_, _ | ⟨hb, _ | ⟨hc, hnil⟩⟩⟩ := hfits
    cases hnil
    exact .cons (hq ▸ hb) (.cons (hr ▸ hc) .nil)
  obtain ⟨ops, hops, hreal⟩ := Statement.operands_real (Statement.start_extends hparse)
  obtain rfl : ops = [p.operand, q.operand, r.operand] :=
    List.tail_eq_of_cons_eq (hops.symm.trans hpqr.operands)
  obtain ⟨haligned, _⟩ := Object.instructionRecord_eq_ok x.recorded
  have hfirst : p.operand.first = some k.cursor.loc := by
    rw [hpqr.one.first, hpqr.loc]
    rfl
  have hdiagnostics : v.diagnostics = s.diagnostics := by
    rw [hdiagnostics, hwarnings, List.append_nil]
  exact ⟨⟨v, scan, p.operand, _, x.entry, classes, hparse, hops, hreal, hp, hfirst, hforms,
    hclasses, hslot, hfits, havailable ▸ x.covered, hobject ▸ haligned,
    hobject ▸ x.labels.records, hdiagnostics, hassembled⟩⟩

namespace Session

-- An integer is accepted for a condition just if its remainder is a condition code.
theorem condition_accepted_iff {s : Session} {line : Int} {text : String} {names : List String}
    {mnemonic spelling : String} {n : Nat} {back : List Lexeme}
    (hm : mnemonic ∈ InstructionSet.conditional)
    (h : HasInstruction text names mnemonic (.integer spelling n :: .punct .comma :: back))
    (hback : s.Completes names mnemonic back) :
    ∃ t, s.assembleLine line text = .ok t ∧ (t.errors = s.errors ↔ n % 0x100000000 ≤ 31) ∧
      (n % 0x100000000 ≤ 31 → ∃ r, t.object.records = s.object.records ++ [r] ∧
        r.word >>> 21 % 32 = n % 0x100000000) ∧
      (31 < n % 0x100000000 → t.object.records = s.object.records ∧
        ∃ us loc vs, tokenize line text = .ok (us ++ ⟨.integer spelling n, loc⟩ :: vs) ∧
          us.length = 2 * names.length + 1 ∧
          t.diagnostics =
            s.diagnostics ++ [⟨.error, "invalid operand for instruction", some loc⟩]) := by
  obtain ⟨k⟩ := h.tokens line
  obtain ⟨x⟩ := hback.exists_stage hm k
  rcases Nat.lt_or_ge 31 (n % 0x100000000) with hlarge | hsmall
  · obtain ⟨t, ht, hrecords, hdiagnostics⟩ := x.rejected hlarge
    obtain ⟨us, vs, htokens, hus⟩ := k.first_operand
    have herrors : t.errors ≠ s.errors := by simp [errors, hdiagnostics, Diagnostic.isError]
    exact ⟨t, ht, iff_of_false herrors (Nat.not_le.mpr hlarge),
      fun hsmall => absurd hsmall (Nat.not_le.mpr hlarge),
      fun _ => ⟨hrecords, us, _, vs, htokens, hus, hdiagnostics⟩⟩
  · obtain ⟨t, r, ht, hdiagnostics, hrecords, hfield⟩ := x.accepted hm hsmall
    have herrors : t.errors = s.errors := by rw [errors, hdiagnostics, errors]
    exact ⟨t, ht, iff_of_true herrors hsmall, fun _ => ⟨r, hrecords, hfield⟩,
      fun hlarge => absurd hsmall (Nat.not_le.mpr hlarge)⟩

theorem condition_accepted_iff_thirtyTwo :
    HasInstruction "x: tcnd 32, %r2, 8" ["x"] "tcnd" (.integer "32" 32 :: .punct .comma ::
      [.punct .percent, .identifier "r2", .punct .comma, .integer "8" 8]) ∧
    (new .mc88100 0 0x1000).Completes ["x"] "tcnd"
      [.punct .percent, .identifier "r2", .punct .comma, .integer "8" 8] ∧
    ∃ t, (new .mc88100 0 0x1000).assembleLine 1 "x: tcnd 32, %r2, 8" = .ok t ∧ t.errors ≠ [] ∧
      t.object.records = [] := by
  have hline : HasInstruction "x: tcnd 32, %r2, 8" ["x"] "tcnd"
    (.integer "32" 32 :: .punct .comma ::
      [.punct .percent, .identifier "r2", .punct .comma, .integer "8" 8]) :=
    ⟨⟨"tcnd", by decide +kernel, by decide +kernel⟩, by decide, by decide +kernel⟩
  have hback : (new .mc88100 0 0x1000).Completes ["x"] "tcnd"
      [.punct .percent, .identifier "r2", .punct .comma, .integer "8" 8] := by
    obtain ⟨t, ht, herrors⟩ :
        ∃ t, (new .mc88100 0 0x1000).assembleLine 1 "x: tcnd eq0, %r2, 8" = .ok t ∧
          t.errors = [] := by decide +kernel
    refine ⟨1, "x: tcnd eq0, %r2, 8", [.identifier "eq0"], t, ?_, by decide, ht, herrors⟩
    exact ⟨⟨"tcnd", by decide +kernel, by decide +kernel⟩, by decide, by decide +kernel⟩
  obtain ⟨t, ht, herrors, _, hrejected⟩ := condition_accepted_iff (by decide) hline hback
  obtain ⟨hrecords, _⟩ := hrejected (by decide)
  exact ⟨hline, hback, t, ht, fun hnone => absurd (herrors.mp hnone) (by decide), hrecords⟩

-- A condition far out of range is taken for another one.
theorem large_condition_wraps :
    ∃ t, (new .mc88100 0 0x1000).assembleLine 1 "bcnd 4294967298, %r2, 8" = .ok t ∧
      t.diagnostics = [] ∧ t.object.records.map (·.word >>> 21 % 32) = [2] := by
  decide +kernel

end Session
end Asm88000
