import Asm88000.Proofs.CanonicalLine
import Asm88000.Proofs.InstructionLine

namespace Asm88000

theorem Verdict.misfit_append {i : Nat} {cls : OperandClass} {classes classes' : List OperandClass}
    {op : Operand} {ops ops' : List Operand}
    (h : List.Forall₂ (fun cls op => cls.shape.takes op.value) classes ops) (hreal : op.IsReal)
    (hop : ¬cls.shape.takes op.value) :
    misfit i (classes ++ cls :: classes') (ops ++ op :: ops') =
      .ok (some ⟨i + ops.length, cls.fault⟩) := by
  induction h generalizing i
  case nil =>
    rw [List.nil_append, List.nil_append, misfit, OperandClass.fits_eq_takes cls hreal,
      Bool.eq_false_iff.mpr hop]
    rfl
  case cons htakes _ ih =>
    rw [List.cons_append, List.cons_append, misfit, OperandClass.fits_eq_ok_true_iff.mpr htakes]
    refine (ih (i := i + 1)).trans ?_
    rw [List.length_cons, Nat.add_right_comm, Nat.add_assoc]

namespace Session

variable {s : Session} {mnemonic : String} {e : Entry} {ops : List Operand}

theorem emitOperands_rejected {op : Operand} {i : Nat} {reason : OperandFault}
    (h : Verdict.ofOperands s.available ops = .ok (.rejected reason (some i)))
    (hop : ops[i]? = some op)
    (loc : Loc) :
    s.emitOperands ops loc = .error (.error ⟨.unfitOperand (some i) reason, op.first⟩) := by
  obtain ⟨hi, _⟩ := List.getElem?_eq_some_iff.mp hop
  have hlength : ¬(ops.length : Int) ≤ i := by omega
  have hat : Verdict.operandAt ops i = .ok op := by
    simp only [Verdict.operandAt, show ¬(i : Int) < 0 by omega, ↓reduceIte, Int.toNat_natCast, hop]
    rfl
  simp only [emitOperands, h, settle, Verdict.resolve, hlength, hat]
  rfl

theorem emitOperands_of_candidate (he : e ∈ InstructionSet.candidates mnemonic)
    (hreal : ∀ op ∈ ops, op.IsReal) (hfits : e.Fits ops)
    (hs : Feature.covers s.available e.features)
    (loc : Loc) :
    ∃ inst r, s.emitOperands (.token mnemonic loc :: ops) loc =
      if s.object.address % wordSize = 0 then .ok (inst, s.append r)
      else .error (.error ⟨.unalignedInstruction s.object.address, some loc⟩) := by
  obtain ⟨hlisted, rfl⟩ := Verdict.mem_candidates.mp he
  obtain ⟨word, fixups, hencode⟩ := Session.encode_located loc hlisted hfits
  have hrecord := Object.instructionRecord_of_encode (o := s.object) rfl hencode
  rw [Session.emitOperands_of_fits loc loc hreal hlisted hfits hs, hrecord]
  refine ⟨{ e.inst ops with loc := some loc },
    ⟨.instruction, s.object.current, s.object.address, word,
    fixups, some loc, some { e.inst ops with loc := some loc }⟩, ?_⟩
  split <;> rfl

end Session

section

variable {line : Int} {text : String} {names : List String} {mnemonic : String} {args : List Lexeme}
variable {s t : Session} {o : Object} {e : Entry} {vs : List OperandValue}
variable {k : InstructionTokens line text names mnemonic args}

namespace Session.Emission

variable (x : s.Emission k t)

theorem number {f : Field} {place : Nat} (hf : (f, place) ∈ x.entry.slots) :
    x.record.word >>> place % (1 <<< x.entry.width f) =
      (f.part (x.entry.inst x.operands).args).1 := by
  have hlaid := InstructionSet.isLaidOut x.entry x.listed_table
  rw [x.word, hlaid.number_slot (x.fits.holds x.listed_table) hf]

theorem fixups :
    x.record.fixups =
      x.entry.opcode.format.filterMap fun f => (f.part (x.entry.inst x.operands).args).2 := by
  obtain ⟨_, word, fixups, hencode, hrecord⟩ := Object.instructionRecord_eq_ok x.recorded
  have hencode' := x.fits.encode_eq x.listed_table
  cases hencode.symm.trans hencode'
  rw [hrecord]

theorem inst :
    x.record.inst = some ⟨some x.entry.opcode.name, (x.entry.inst x.operands).args,
      some k.loc⟩ := by
  obtain ⟨_, word, fixups, _, hrecord⟩ := Object.instructionRecord_eq_ok x.recorded
  rw [hrecord]
  rfl

theorem encode (loc : Option Loc) :
    Inst.encode ⟨some x.entry.opcode.name, (x.entry.inst x.operands).args, loc⟩ =
      .ok (x.record.word, x.record.fixups) := by
  obtain ⟨_, word, fixups, hencode, hrecord⟩ := Object.instructionRecord_eq_ok x.recorded
  rw [hrecord]
  exact hencode

end Session.Emission

def twoRegisters (a b : String) (third : List Lexeme) : List Lexeme :=
  .punct .percent :: .identifier a :: .punct .comma ::
    .punct .percent :: .identifier b :: .punct .comma :: third

theorem takes_gpr (i : Fin 32) : OperandClass.gpr.shape.takes (.register (Register.gpr i).id) :=
  (OperandClass.Admits.gpr i).takes

open OperandM Operand in
theorem parseAll_twoRegisters {a b : String} {d r : Register} {ls : List Lexeme}
    {vs₁ : List OperandValue} (hd : Register.named? a = some d) (hr : Register.named? b = some r)
    (h : Moves (parseThird mnemonic)
      [.token mnemonic, .register d.id, .register r.id] ls () vs₁ []) :
    Moves (parseAll mnemonic) [.token mnemonic] (twoRegisters a b ls) () vs₁ [] :=
  parseAll_parses (fun c hc => by simp [Cursor.atEnd_eq, hc, twoRegisters])
    (parse_register_moves (i := 0) rfl hd) (parse_register_moves (i := 1) rfl hr)
      (parseRest_comma h)

structure InstructionTokens.ReadsAs (k : InstructionTokens line text names mnemonic args)
    (vs : List OperandValue) (scan : Scan) (ops : List Operand) : Prop where
  parsed   : Operand.parseAll mnemonic (Scan.start mnemonic k.loc k.cursor) = .ok () scan
  operands : scan.operands = .token mnemonic k.loc :: ops
  values   : ops.map Operand.value = vs
  real     : ∀ op ∈ ops, op.IsReal
  warnings : scan.warnings = []

theorem InstructionTokens.exists_readsAs (k : InstructionTokens line text names mnemonic args)
    (h : OperandM.Moves (Operand.parseAll mnemonic) [.token mnemonic] args ()
      (.token mnemonic :: vs) []) :
    ∃ scan ops, k.ReadsAs vs scan ops := by
  have hstart : (Scan.start mnemonic k.loc k.cursor).Shows [.token mnemonic] args :=
    ⟨rfl, k.cursor_lexemes, rfl⟩
  obtain ⟨_, scan, hparse, _, hshows⟩ := (h _ hstart).exists_ok
  obtain ⟨ops, hops, hreal⟩ := Statement.operands_real (Statement.start_extends hparse)
  have hvalues := hshows.values
  rw [hops, List.map_cons] at hvalues
  exact ⟨scan, ops, hparse, hops, List.tail_eq_of_cons_eq hvalues, hreal, hshows.warnings⟩

namespace InstructionTokens.ReadsAs

variable {scan : Scan} {ops : List Operand}

theorem misfit (h : k.ReadsAs vs scan ops) {v : OperandValue} {front back : List OperandValue}
    {cls : OperandClass} {classes classes' : List OperandClass}
    (hfits : List.Forall₂ (fun cls v => cls.shape.takes v) classes front)
    (hvs : vs = front ++ v :: back) (he : e.classes = classes ++ cls :: classes')
    (hv : ¬cls.shape.takes v) :
    ∃ op, ops[front.length]? = some op ∧
      Verdict.misfit 1 e.classes ops = .ok (some ⟨1 + front.length, cls.fault⟩) := by
  obtain ⟨us, _, rfl, rfl, hrest⟩ := List.map_eq_append_iff.mp (h.values.trans hvs)
  obtain ⟨op, us', rfl, rfl, _⟩ := List.map_eq_cons_iff.mp hrest
  rw [List.length_map, he]
  have hfits := List.forall₂_map_right_iff.mp hfits
  exact ⟨op, by simp, Verdict.misfit_append hfits (h.real op (by simp)) hv⟩

theorem fits (h : k.ReadsAs vs scan ops)
    (hvs : List.Forall₂ (fun cls v => cls.shape.takes v) e.classes vs) : e.Fits ops := by
  rw [← h.values] at hvs
  exact List.forall₂_map_right_iff.mp hvs

theorem emits (h : k.ReadsAs vs scan ops) (ho : s.object.Labels names o)
    (he : e ∈ InstructionSet.candidates mnemonic)
    (hvs : List.Forall₂ (fun cls v => cls.shape.takes v) e.classes vs)
    (hs : Feature.covers s.available e.features) (ha : o.address % wordSize = 0) :
    ∃ t, ∃ x : s.Emission k t, s.assembleLine line text = .ok t ∧ t.diagnostics = s.diagnostics ∧
      x.entry = e ∧ (e.inst x.operands).args = vs.filterMap OperandValue.arg? := by
  obtain ⟨u, rfl, havailable, hdiagnostics, hassembled⟩ := k.assembleLine_of_parse ho h.parsed
  rw [h.warnings, List.append_nil] at hdiagnostics
  have hfits := h.fits hvs
  obtain ⟨inst, r, hemit⟩ :=
    Session.emitOperands_of_candidate he h.real hfits (havailable ▸ hs) k.loc
  rw [h.operands, hemit, if_pos ha] at hassembled
  have hsame : (u.append r).diagnostics = s.diagnostics :=
    (Session.diagnostics_append u r).trans hdiagnostics
  obtain ⟨x⟩ := k.exists_emission hassembled (by rw [Session.errors, hsame, Session.errors])
  -- The operands are read in one way and fit one form, so the emission is that of `e`.
  have hscan : x.scan = scan := by
    have heq := x.parsed.symm.trans h.parsed
    injection heq
  have hops : x.operands = ops :=
    List.tail_eq_of_cons_eq (x.scanned.symm.trans (hscan ▸ h.operands))
  obtain ⟨hlisted, rfl⟩ := Verdict.mem_candidates.mp he
  have hentry : x.entry = e := Entry.Fits.unique hlisted x.listed hfits (hops ▸ x.fits)
  exact ⟨_, x, hassembled, hsame, hentry, Entry.args_inst (hops ▸ h.values)⟩

theorem unaligned (h : k.ReadsAs vs scan ops) (ho : s.object.Labels names o)
    (he : e ∈ InstructionSet.candidates mnemonic)
    (hvs : List.Forall₂ (fun cls v => cls.shape.takes v) e.classes vs)
    (hs : Feature.covers s.available e.features) (ha : o.address % wordSize ≠ 0) :
    ∃ t, s.assembleLine line text = .ok t ∧ t.object = o ∧
      t.diagnostics =
        s.diagnostics ++ [.ofError ⟨.unalignedInstruction o.address, some k.loc⟩] := by
  obtain ⟨u, rfl, havailable, hdiagnostics, hassembled⟩ := k.assembleLine_of_parse ho h.parsed
  rw [h.warnings, List.append_nil] at hdiagnostics
  obtain ⟨inst, r, hemit⟩ :=
    Session.emitOperands_of_candidate he h.real (h.fits hvs) (havailable ▸ hs) k.loc
  rw [h.operands, hemit, if_neg ha] at hassembled
  refine ⟨_, hassembled, rfl, ?_⟩
  rw [Session.report, hdiagnostics]

theorem rejects (h : k.ReadsAs vs scan ops) (ho : s.object.Labels names o) {i : Nat}
    {reason : OperandFault} {op : Operand}
    (hv : Verdict.ofOperands s.available (.token mnemonic k.loc :: ops) =
      .ok (.rejected reason (some (i + 1 : Nat))))
    (hop : ops[i]? = some op) :
    ∃ t, s.assembleLine line text = .ok t ∧ t.object = o ∧
      t.diagnostics =
        s.diagnostics ++ [.ofError ⟨.unfitOperand (some (i + 1 : Nat)) reason, op.first⟩] := by
  obtain ⟨u, rfl, havailable, hdiagnostics, hassembled⟩ := k.assembleLine_of_parse ho h.parsed
  rw [h.warnings, List.append_nil] at hdiagnostics
  rw [← havailable] at hv
  rw [h.operands, Session.emitOperands_rejected hv hop] at hassembled
  refine ⟨_, hassembled, rfl, ?_⟩
  rw [Session.report, hdiagnostics]

end InstructionTokens.ReadsAs

end
end Asm88000
