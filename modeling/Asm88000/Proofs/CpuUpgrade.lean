import Asm88000.Proofs.CanonicalLine

namespace Asm88000

namespace Session

def upgrade (s : Session) : Session :=
  { s with cpu := .mc88110, available := Cpu.features .mc88110 }

variable {s t : Session} {loc : Loc}

theorem append_upgrade (s : Session) (r : Record) : s.upgrade.append r = (s.append r).upgrade := by
  unfold append
  split <;> rfl

theorem reportAll_upgrade (s : Session) (ds : List Diagnostic) :
    s.upgrade.reportAll ds = (s.reportAll ds).upgrade := by
  unfold reportAll
  induction ds generalizing s
  case nil          => rfl
  case cons d ds ih => exact ih (s.report d)

theorem label_upgrade {name : String} (h : s.label name loc = .ok t) :
    s.upgrade.label name loc = .ok t.upgrade := by
  obtain ⟨o, ho, ht⟩ := bind_eq_ok.mp h
  cases ht
  exact bind_eq_ok.mpr ⟨o, ho, rfl⟩

theorem align_upgrade {alignment : Int} (h : s.align alignment loc = .ok t) :
    s.upgrade.align alignment loc = .ok t.upgrade := by
  obtain ⟨o, ho, ht⟩ := bind_eq_ok.mp h
  cases ht
  exact bind_eq_ok.mpr ⟨o, ho, rfl⟩

theorem emitWord_upgrade {e : Expr} (h : s.emitWord e loc = .ok t) :
    s.upgrade.emitWord e loc = .ok t.upgrade := by
  obtain ⟨r, hr, ht⟩ := bind_eq_ok.mp h
  cases ht
  exact bind_eq_ok.mpr ⟨r, hr, congrArg Except.ok (append_upgrade s r)⟩

-- No more than one form fits, so that a form which only the mc88110 has is in no other form's way.
theorem emitOperands_upgrade {mnemonic : String} {at_ : Loc} {ops : List Operand} {inst : Inst}
    (hreal : ∀ op ∈ ops, op.IsReal)
    (h : s.emitOperands (.token mnemonic at_ :: ops) loc = .ok (inst, t)) :
    s.upgrade.emitOperands (.token mnemonic at_ :: ops) loc = .ok (inst, t.upgrade) := by
  obtain ⟨e, i, r, hv, rfl, hr, rfl⟩ := emitOperands_verdict h
  obtain ⟨_, hmnemonic, he, hfits, _, rfl⟩ := Verdict.of_ofOperands_cons hv
  cases hmnemonic
  obtain ⟨hlisted, rfl⟩ := Verdict.mem_candidates.mp he
  have hcovers := InstructionSet.covered_by_mc88110 e hlisted
  rw [emitOperands_of_fits at_ loc hreal hlisted hfits hcovers, ← append_upgrade]
  exact bind_eq_ok.mpr ⟨r, hr, rfl⟩

end Session

def Run.upgrade (r : Run) : Run :=
  { r with session := r.session.upgrade }

namespace StatementM

variable {α β : Type}

def Lifts (p : StatementM α) : Prop :=
  ∀ r a q, p r = .ok a q → p r.upgrade = .ok a q.upgrade

theorem Lifts.pure (a : α) : Lifts (Pure.pure a) := by
  rintro r _ _ ⟨⟩
  rfl

theorem Lifts.bind {p : StatementM α} {f : α → StatementM β} (hp : Lifts p)
    (hf : ∀ {r a t}, p r = .ok a t → Lifts (f a)) : Lifts (p >>= f) := by
  intro r b q h
  cases hr : p r
  case error e t =>
    simp only [Bind.bind, EStateM.bind, hr] at h
    cases h
  case ok a t =>
    rw [bind_apply_of_ok hr] at h
    rw [bind_apply_of_ok (hp r a t hr)]
    exact hf hr t b q h

theorem ofTokens_lifts (p : TokenM α) : Lifts (ofTokens p) := by
  intro r a q h
  cases hc : p r.cursor <;> simp only [ofTokens, hc] at h <;> cases h
  simp only [ofTokens, Run.upgrade, hc]

theorem change_lifts {f : Session → Session} (hf : ∀ s, f s.upgrade = (f s).upgrade) :
    Lifts (change f) := by
  rintro r _ _ ⟨⟩
  exact congrArg (fun s => EStateM.Result.ok () { r with session := s }) (hf r.session)

theorem tryChange_lifts {f : Session → Except Error Session}
    (hf : ∀ {s t}, f s = .ok t → f s.upgrade = .ok t.upgrade) : Lifts (tryChange f) := by
  intro r a q h
  cases hs : f r.session <;> simp only [tryChange, hs] at h <;> cases h
  simp only [tryChange, Run.upgrade, hf hs]

end StatementM

namespace Statement

open StatementM

theorem operands_lifts (mnemonic : String) (loc : Loc) : Lifts (operands mnemonic loc) := by
  intro r ops q h
  unfold operands at h ⊢
  dsimp only [Run.upgrade]
  cases hparse : Operand.parseAll mnemonic (Scan.start mnemonic loc r.cursor) <;>
    simp only [hparse] at h ⊢
  case error => cases h
  case ok scan =>
    cases htexts : (scan.operands.drop 1).mapM Operand.describe <;>
      simp only [htexts] at h ⊢ <;> cases h
    rw [Session.reportAll_upgrade]
    rfl

theorem emit_lifts {mnemonic : String} {rest : List Operand} (h : ∀ op ∈ rest, op.IsReal)
    (at_ loc : Loc) : Lifts (emit (.token mnemonic at_ :: rest) loc) := by
  intro r inst q hr
  unfold emit at hr ⊢
  split at hr <;> cases hr
  case h_1 t he => simp only [Run.upgrade, Session.emitOperands_upgrade h he]

-- What is emitted has been read, and therefore it is real.
theorem instruction_lifts (mnemonic : String) (loc : Loc) : Lifts (do
    let ops ← operands mnemonic loc
    let _ ← emit ops loc) := by
  refine (operands_lifts mnemonic loc).bind fun hops => ?_
  obtain ⟨scan, _, hparse, rfl, _⟩ := (operands_ensures mnemonic loc _).ok hops
  obtain ⟨rest, hrest, hreal⟩ := operands_real (start_extends hparse)
  rw [hrest]
  exact (emit_lifts hreal loc loc).bind fun _ => .pure ()

theorem run_lifts : Lifts run := by
  refine AllParts.run (T := fun _ => True) (E := fun _ => True) (P := fun _ p => Lifts p) ?_
  constructor
  case toParts =>
    constructor
    case pure => exact .pure
    case bind => exact fun hp hf => hp.bind fun _ => hf _
    case cursor =>
      have hcursor : Lifts cursor := by
        rintro r _ _ ⟨⟩
        rfl
      intro _ _ hf
      exact hcursor.bind fun _ => hf _ fun _ _ => trivial
    case skip =>
      rintro r _ _ ⟨⟩
      rfl
    case expr =>
      intro _ _ hf
      exact (ofTokens_lifts _).bind fun _ => hf _ fun _ _ => trivial
    case fail   => rintro _ _ _ _ r _ _ ⟨⟩
    case label  => exact fun _ => tryChange_lifts Session.label_upgrade
    case switch => exact fun _ => change_lifts fun _ => rfl
    case global => exact fun _ => change_lifts fun _ => rfl
    case align  => exact fun _ _ => tryChange_lifts Session.align_upgrade
    case word   => exact fun _ _ => tryChange_lifts Session.emitWord_upgrade
  case require88110 => exact change_lifts fun _ => rfl
  case instruction  => exact fun _ => instruction_lifts _ _

end Statement

namespace Session

open Statement

theorem assembleLine_upgrade {s t : Session} {line : Int} {text : String}
    (h : Processes s line text t) (ht : t.errors = []) :
    s.upgrade.assembleLine line text = .ok t.upgrade := by
  cases h
  case abandoned herrors => simp [ht] at herrors
  case done ts stop htok hrun _ _ =>
    have hrun : run ⟨s.upgrade.addSource line (Text.trim text), ⟨[], ts, stop⟩⟩ =
        .ok () ⟨t.upgrade, ⟨ts.reverse, [], stop⟩⟩ := run_lifts _ _ _ hrun
    simp only [assembleLine, htok, Cursor.ofTokens_append_stop, hrun]
    rfl

theorem ProcessesAll.errors_prefix {n : Nat} {s t : Session} {lines : List String}
    (h : ProcessesAll n s lines t) : s.errors <+: t.errors := by
  induction h
  case nil => exact List.prefix_rfl
  case cons hline _ ih =>
    cases hline
    case done herrors      => exact herrors ▸ ih
    case abandoned herrors => exact (herrors ▸ List.prefix_append _ _).trans ih

theorem ProcessesAll.upgrade {n : Nat} {s t : Session} {lines : List String}
    (h : ProcessesAll n s lines t) (ht : t.errors = []) :
    s.upgrade.assembleFrom n lines = .ok t.upgrade := by
  induction h
  case nil => rfl
  case cons hprocesses hrest ih =>
    have herrors := List.prefix_nil.mp (ht ▸ hrest.errors_prefix)
    rw [assembleFrom_cons (assembleLine_upgrade hprocesses herrors)]
    exact ih ht

-- A program without errors is the same program on the mc88110, its warnings included.
theorem assemble_on_mc88110 (cpu : Cpu) (codeStart dataStart : Int) (lines : List String) :
    ∃ t, (new cpu codeStart dataStart).assemble lines = .ok t ∧
      (t.errors = [] →
        (new .mc88110 codeStart dataStart).assemble lines =
          .ok { t with cpu := .mc88110, available := Cpu.features .mc88110 }) := by
  obtain ⟨t, ht, hprocesses⟩ := assembleFrom_ok 1 (new cpu codeStart dataStart) lines
  exact ⟨t, ht, hprocesses.upgrade⟩

-- The rotation is only there once the mc88110 is asked for, and part of it is dropped with a
-- warning.
theorem assemble_on_mc88110_warned :
    ∃ t, (new .mc88100 0 0x1000).assemble
        ["a: br a", ".requires_88110", "prot %r2, %r4, <6>", ".data", ".word a"] = .ok t ∧
      t.errors = [] ∧ t.warnings.length = 1 ∧ t.object.records.length = 3 ∧
      (new .mc88110 0 0x1000).assemble
        ["a: br a", ".requires_88110", "prot %r2, %r4, <6>", ".data", ".word a"] =
          .ok { t with cpu := .mc88110, available := Cpu.features .mc88110 } := by
  obtain ⟨t, ht, hupgrade⟩ := assemble_on_mc88110 .mc88100 0 0x1000
    ["a: br a", ".requires_88110", "prot %r2, %r4, <6>", ".data", ".word a"]
  have h : ((new .mc88100 0 0x1000).assemble
      ["a: br a", ".requires_88110", "prot %r2, %r4, <6>", ".data", ".word a"]).map
      (fun t => (t.errors, t.warnings.length, t.object.records.length)) = .ok ([], 1, 3) := by
    decide +kernel
  rw [ht] at h
  obtain ⟨herrors, hcounts⟩ := Prod.mk.inj (Except.ok.inj h)
  obtain ⟨hwarnings, hrecords⟩ := Prod.mk.inj hcounts
  exact ⟨t, ht, herrors, hwarnings, hrecords, hupgrade herrors⟩

end Session
end Asm88000
