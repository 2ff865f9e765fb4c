import Mathlib.Logic.Relation
import Asm88000.Proofs.Encoding
import Asm88000.Proofs.Object
import Asm88000.Session

namespace Asm88000.Session

-- All that a statement does, the report of the error that it may end with excepted.
inductive Step : Session → Session → Prop
  | note {s} (level : Level) (message : String) : Step s (s.note level message)
  | warn {s} {d : Diagnostic} : d.isWarning → Step s (s.report d)
  | switch {s} (sect : SectionName) : Step s (s.switch sect)
  | global {s} (name : String) : Step s (s.global name)
  | require88110 {s} : Step s s.require88110
  | label {s t name loc} : s.label name loc = .ok t → Step s t
  | align {s t alignment loc} : s.align alignment loc = .ok t → Step s t
  | word {s t e loc} : s.emitWord e loc = .ok t → Step s t
  | instruction {s t ops loc inst} : s.emitOperands ops loc = .ok (inst, t) → Step s t

abbrev Steps : Session → Session → Prop :=
  Relation.ReflTransGen Step

variable {s t : Session} {loc : Loc} {ops : List Operand} {inst : Inst}

theorem label_eq_ok {name : String} (h : s.label name loc = .ok t) :
    ∃ o message, s.object.label name (some loc) = .ok o ∧
      t = (s.setObject o).note .debug message := by
  have ⟨o, ho, ht⟩ := bind_eq_ok.mp h
  exact ⟨o, _, ho, (pure_eq_ok.mp ht).symm⟩

theorem align_eq_ok {alignment : Int} (h : s.align alignment loc = .ok t) :
    ∃ o, s.object.align alignment (some loc) = .ok o ∧ t = s.setObject o := by
  have ⟨o, ho, ht⟩ := bind_eq_ok.mp h
  exact ⟨o, ho, (pure_eq_ok.mp ht).symm⟩

theorem emitWord_eq_ok {e : Expr} (h : s.emitWord e loc = .ok t) :
    ∃ r, s.object.wordRecord e (some loc) = .ok r ∧ t = s.append r := by
  have ⟨r, hr, ht⟩ := bind_eq_ok.mp h
  exact ⟨r, hr, (pure_eq_ok.mp ht).symm⟩

theorem label_eq_error {name : String} {e : Error} (h : s.label name loc = .error e) :
    e = (Fault.duplicateSymbol name).place loc := by
  rcases bind_eq_error.mp h with h | ⟨_, _, h⟩
  · unfold Object.label at h
    split at h <;> cases h
    rfl
  · cases h

theorem align_eq_error {alignment : Int} {e : Error} (h : s.align alignment loc = .error e) :
    ¬Object.isPowerOfTwo alignment ∧ e = (Fault.badAlignment alignment).place loc := by
  rcases bind_eq_error.mp h with h | ⟨_, _, h⟩
  · exact Object.align_eq_error_iff.mp h
  · cases h

theorem emitWord_eq_error {e : Expr} {err : Error} (h : s.emitWord e loc = .error err) :
    err = Fault.wordOutOfRange.place loc := by
  rcases bind_eq_error.mp h with h | ⟨_, _, h⟩
  · unfold Object.wordRecord at h
    split at h
    · cases h
    · split at h <;> cases h
      rfl
  · cases h

theorem resolve_eq_ok {v : Verdict} {available : List Feature}
    (h : v.resolve available ops loc = .ok inst) :
    ∃ e i, v = .success e i ∧ inst = { i with loc := some loc } := by
  cases v
  case success e i => exact ⟨e, i, rfl, (pure_eq_ok.mp h).symm⟩
  case missingFeature fs =>
    simp only [Verdict.resolve] at h
    split at h <;> cases h
  case unknownMnemonic =>
    obtain ⟨op, _, h⟩ := bind_eq_ok.mp h
    split at h <;> cases h
  case rejected reason index =>
    cases index
    case none =>
      simp only [Verdict.resolve] at h
      split at h <;> cases h
    case some i =>
      simp only [Verdict.resolve] at h
      split at h
      · cases h
      · obtain ⟨_, _, h⟩ := bind_eq_ok.mp h
        cases h

theorem emitOperands_verdict (h : s.emitOperands ops loc = .ok (inst, t)) :
    ∃ e i r, Verdict.ofOperands s.available ops = .ok (.success e i) ∧
      inst = { i with loc := some loc } ∧ s.object.instructionRecord inst = .ok r ∧
      t = s.append r := by
  unfold emitOperands at h
  split at h
  case h_2 => cases h
  case h_1 v hv =>
    have ⟨inst', hresolve, h⟩ := bind_eq_ok.mp h
    have ⟨t', hemit, h⟩ := bind_eq_ok.mp h
    have ⟨r, hr, h'⟩ := bind_eq_ok.mp hemit
    have ⟨hinst, ht⟩ := Prod.mk.inj (pure_eq_ok.mp h)
    have ⟨e, i, hv', hi⟩ := resolve_eq_ok hresolve
    refine ⟨e, i, r, hv' ▸ hv, hinst ▸ hi, hinst ▸ hr, ?_⟩
    rw [← ht, ← pure_eq_ok.mp h']

theorem emitOperands_eq_ok (h : s.emitOperands ops loc = .ok (inst, t)) :
    ∃ e r, e ∈ InstructionSet.table ∧ e.Fits ops.tail ∧ Feature.covers s.available e.features ∧
      inst = { e.inst ops.tail with loc := some loc } ∧
      s.object.instructionRecord inst = .ok r ∧ t = s.append r := by
  have ⟨e, i, r, hv, hinst, hr, ht⟩ := emitOperands_verdict h
  have ha := Verdict.of_ofOperands hv
  exact ⟨e, r, ha.listed, ha.fits, ha.covered, by rw [hinst, ha.inst_eq], hr, ht⟩

theorem encode_located (loc : Loc) {e : Entry} (he : e ∈ InstructionSet.table) (h : e.Fits ops) :
    ∃ word fixups, Inst.encode { e.inst ops with loc := some loc } = .ok (word, fixups) := by
  have ⟨parts, _, hencode⟩ := h.encode_ok he
  exact ⟨_, _, hencode⟩

theorem instructionRecord_ne_breach {o : Object} {e : Entry} (he : e ∈ InstructionSet.table)
    (h : e.Fits ops) (b : Breach) :
    o.instructionRecord { e.inst ops with loc := some loc } ≠ .error (.breach b) := by
  have ⟨word, fixups, hencode⟩ := encode_located loc he h
  unfold Object.instructionRecord
  split
  case isTrue hnone => simp [Entry.inst] at hnone
  split
  · simp [throw, throwThe, MonadExceptOf.throw]
  · rw [hencode]
    simp [pure, Except.pure]

theorem emitOperands_ne_breach {mnemonic : String} {at_ : Loc} (h : ∀ op ∈ ops, op.IsReal)
    (b : Breach) : s.emitOperands (.token mnemonic at_ :: ops) loc ≠ .error (.breach b) := by
  have ⟨v, hv, hapt⟩ := Verdict.ofOperands_ok s.available mnemonic at_ h
  simp only [emitOperands, hv]
  intro hb
  rcases bind_eq_error.mp hb with hb | ⟨inst, hresolve, hb⟩
  · exact Verdict.resolve_ne_breach hapt b hb
  have ⟨e, i, hv', hi⟩ := resolve_eq_ok hresolve
  have ha := Verdict.of_ofOperands (hv' ▸ hv)
  rcases bind_eq_error.mp hb with hb | ⟨_, _, hb⟩
  · rcases bind_eq_error.mp hb with hb | ⟨_, _, hb⟩
    · rw [hi, ha.inst_eq] at hb
      exact instructionRecord_ne_breach ha.listed ha.fits b hb
    · cases hb
  · cases hb

theorem emitOperands_of_fits (at_ loc : Loc) {e : Entry} (h : ∀ op ∈ ops, op.IsReal)
    (he : e ∈ InstructionSet.table) (hfits : e.Fits ops)
    (hs : Feature.covers s.available e.features) :
    s.emitOperands (.token e.mnemonic at_ :: ops) loc = (do
      let r ← s.object.instructionRecord { e.inst ops with loc := some loc }
      return ({ e.inst ops with loc := some loc }, s.append r)) := by
  have hv := Verdict.ofOperands_eq_success at_ h he hfits hs
  simp only [emitOperands, hv, settle, Verdict.resolve, emitInstruction, bind_assoc, pure_bind]

theorem errors_report_of_isWarning {d : Diagnostic} (h : d.isWarning) :
    (s.report d).errors = s.errors := by
  have : d.isError = false := by
    simp only [Diagnostic.isWarning, decide_eq_true_eq] at h
    simp [Diagnostic.isError, h]
  simp [errors, report, this]

theorem object_append (s : Session) (r : Record) : (s.append r).object = s.object.append r := by
  unfold append
  split <;> rfl

theorem object_note (s : Session) (level : Level) (message : String) :
    (s.note level message).object = s.object :=
  rfl

theorem object_reportAll (s : Session) (ds : List Diagnostic) :
    (s.reportAll ds).object = s.object := by
  unfold reportAll
  induction ds generalizing s
  case nil          => rfl
  case cons d ds ih => exact ih (s.report d)

theorem cpu_reportAll (s : Session) (ds : List Diagnostic) : (s.reportAll ds).cpu = s.cpu := by
  unfold reportAll
  induction ds generalizing s
  case nil          => rfl
  case cons d ds ih => exact ih (s.report d)

theorem available_reportAll (s : Session) (ds : List Diagnostic) :
    (s.reportAll ds).available = s.available := by
  unfold reportAll
  induction ds generalizing s
  case nil          => rfl
  case cons d ds ih => exact ih (s.report d)

theorem diagnostics_reportAll (s : Session) (ds : List Diagnostic) :
    (s.reportAll ds).diagnostics = s.diagnostics ++ ds := by
  unfold reportAll
  induction ds generalizing s
  case nil          => simp
  case cons d ds ih => simp [ih, report]

theorem cpu_append (s : Session) (r : Record) : (s.append r).cpu = s.cpu := by
  unfold append
  split <;> rfl

theorem available_append (s : Session) (r : Record) : (s.append r).available = s.available := by
  unfold append
  split <;> rfl

theorem diagnostics_append (s : Session) (r : Record) :
    (s.append r).diagnostics = s.diagnostics := by
  unfold append
  split <;> rfl

theorem errors_append (s : Session) (r : Record) : (s.append r).errors = s.errors := by
  rw [errors, diagnostics_append, errors]

theorem Step.errors_eq (h : Step s t) : t.errors = s.errors := by
  cases h
  case note         => rfl
  case warn d hd    => exact errors_report_of_isWarning hd
  case switch       => rfl
  case global       => rfl
  case require88110 => rfl
  case label h =>
    have ⟨o, message, _, ht⟩ := label_eq_ok h
    exact ht ▸ rfl
  case align h =>
    have ⟨o, _, ht⟩ := align_eq_ok h
    exact ht ▸ rfl
  case word h =>
    have ⟨r, _, ht⟩ := emitWord_eq_ok h
    exact ht ▸ errors_append s r
  case instruction h =>
    have ⟨_, r, _, _, _, _, _, ht⟩ := emitOperands_eq_ok h
    exact ht ▸ errors_append s r

theorem Steps.errors_eq (h : Steps s t) : t.errors = s.errors := by
  induction h
  case refl             => rfl
  case tail _ hstep ih  => exact hstep.errors_eq.trans ih

theorem Step.object_steps (h : Step s t) : s.object.Steps t.object := by
  cases h
  case note         => exact .refl
  case warn         => exact .refl
  case switch sect  => exact .single (.switch sect)
  case global name  => exact .single (.global name)
  case require88110 => exact .single .require88110
  case label h =>
    have ⟨o, message, ho, ht⟩ := label_eq_ok h
    exact ht ▸ .single (.label ho)
  case align h =>
    have ⟨o, ho, ht⟩ := align_eq_ok h
    exact ht ▸ .single (.align ho)
  case word h =>
    have ⟨r, hr, ht⟩ := emitWord_eq_ok h
    rw [ht, object_append]
    exact .single (.append (Object.receives_wordRecord hr))
  case instruction h =>
    have ⟨_, r, _, _, _, _, hr, ht⟩ := emitOperands_eq_ok h
    rw [ht, object_append]
    exact .single (.append (Object.receives_instructionRecord hr))

theorem Steps.object_steps (h : Steps s t) : s.object.Steps t.object := by
  induction h
  case refl            => exact .refl
  case tail _ hstep ih => exact ih.trans hstep.object_steps

theorem steps_reportAll {ws : List Diagnostic} (h : ∀ w ∈ ws, w.isWarning) :
    Steps s (s.reportAll ws) := by
  induction ws generalizing s
  case nil => exact .refl
  case cons w ws ih =>
    have ⟨hw, hws⟩ := List.forall_mem_cons.mp h
    exact .head (.warn hw) (ih hws)

end Asm88000.Session
