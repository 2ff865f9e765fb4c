import Asm88000.Proofs.Execution
import Asm88000.Proofs.OperandLayout

namespace Asm88000

namespace InstructionSet

theorem mnemonic_plain : ∀ e ∈ table, Lexer.isIdentifier e.mnemonic.toList ∧
    Text.lowerAscii e.mnemonic = e.mnemonic ∧ Statement.isDirectiveName e.mnemonic = false := by
  decide +kernel

theorem covered_by_mc88110 : ∀ e ∈ table, Feature.covers (Cpu.features .mc88110) e.features := by
  decide +kernel

end InstructionSet

def OperandValue.arg? : OperandValue → Option Arg
  | token _              => none
  | register id          => some (.reg id)
  | immediate (.const v) => some (.imm v)
  | immediate e          => some (.expr e)

theorem Operand.toArg?_eq (op : Operand) : op.toArg? = op.value.arg? := by
  obtain ⟨value, _, _⟩ := op
  cases value
  case token       => rfl
  case register    => rfl
  case immediate e => cases e <;> rfl

theorem OperandClass.Admits.takes {cls : OperandClass} {v : OperandValue} (h : cls.Admits v) :
    cls.shape.takes v := by
  cases h
  case gpr | gpr64 | cr | fcr => simp [shape, Shape.takes, Register.ofId?_id, Register.regClass]
  case half | displacement16 | displacement26 => rfl
  case less | greater | lbrack | rbrack => simp [shape, Shape.takes]
  all_goals
    simp only [shape, Shape.takes, Bool.and_eq_true, decide_eq_true_eq]
    omega

namespace Entry

variable {e : Entry} {vs : List OperandValue} {ops : List Operand}

theorem fits_of_admits (h : List.Forall₂ OperandClass.Admits e.classes vs)
    (hops : ops.map Operand.value = vs) : e.Fits ops := by
  subst hops
  unfold Fits
  exact (List.forall₂_map_right_iff.mp h).imp fun _ _ => OperandClass.Admits.takes

theorem args_inst (hops : ops.map Operand.value = vs) :
    (e.inst ops).args = vs.filterMap OperandValue.arg? := by
  subst hops
  simp [inst, List.filterMap_map, Operand.toArg?_eq]

def instOf (e : Entry) (vs : List OperandValue) (loc : Option Loc) : Inst :=
  ⟨some e.opcode.name, vs.filterMap OperandValue.arg?, loc⟩

theorem encode_instOf (he : e ∈ InstructionSet.table)
    (hvs : List.Forall₂ OperandClass.Admits e.classes vs) :
    ∃ word fixups, (∀ loc, (e.instOf vs loc).encode = .ok (word, fixups)) ∧
      ∀ fixup ∈ fixups, .expr fixup.expr ∈ vs.filterMap OperandValue.arg? := by
  -- Encoding looks at no place, so the operands may stand anywhere.
  let ops : List Operand := vs.map (⟨·, none, none⟩)
  have hops : ops.map Operand.value = vs := by simp [ops, Function.comp_def]
  have hargs : (e.inst ops).args = vs.filterMap OperandValue.arg? := args_inst hops
  obtain ⟨parts, hparts, hencode⟩ := (fits_of_admits hvs hops).encode_ok he
  have hlocated (loc : Option Loc) : (e.instOf vs loc).encode = (e.inst ops).encode := by
    rw [instOf, ← hargs]
    rfl
  refine ⟨_, _, fun loc => (hlocated loc).trans hencode, fun fixup hfixup => ?_⟩
  obtain ⟨part, hpart, hsnd⟩ := List.mem_filterMap.mp hfixup
  obtain ⟨f, _, hread⟩ := forall₂_exists_left hparts hpart
  rw [← hargs]
  exact Field.read_fixup (n := part.fst) (by rw [hread, ← hsnd])

end Entry

namespace Statement

open StatementM

section

variable {e : Entry} {vs : List OperandValue} {s : Session} {ts : List Token}
variable (past : List Token) (loc stop : Loc)

def Settles (e : Entry) (vs : List OperandValue) (loc : Loc) (s t : Session) : Prop :=
  ∃ message r, s.object.instructionRecord (e.instOf vs (some loc)) = .ok r ∧
    t = (s.note .debug message).append r

def Refuses (e : Entry) (vs : List OperandValue) (loc : Loc) (s : Session) (f : Failure)
    (t : Session) : Prop :=
  s.object.instructionRecord (e.instOf vs (some loc)) = .error f ∧
    ∃ message, t = s.note .debug message

theorem instruction_settles (he : e ∈ InstructionSet.table)
    (hvs : List.Forall₂ OperandClass.Admits e.classes vs)
    (hts : ts.map Token.lexeme = e.operandLexemes vs)
    (hs : Feature.covers s.available e.features) :
    Ensures (do
        let ops ← operands e.mnemonic loc
        let _ ← emit ops loc)
      ⟨s, ⟨past, ts, stop⟩⟩ (fun _ q => Settles e vs loc s q.session)
      fun f q => Refuses e vs loc s f q.session := by
  -- The operands are those that were written, and there is nothing to warn about.
  have hstart : (Scan.start e.mnemonic loc ⟨past, ts, stop⟩).Shows [.token e.mnemonic]
      (e.operandLexemes vs) := ⟨rfl, hts, rfl⟩
  have ⟨_, scan, hscan, _, hshows⟩ := (e.parseAll_moves he hvs _ hstart).exists_ok
  have ⟨ops, hops, hreal⟩ := operands_real (start_extends hscan)
  have hvalues : ops.map Operand.value = vs := by
    have hvalues := hshows.values
    rw [hops] at hvalues
    exact (List.cons.inj hvalues).right
  have ⟨message, hoperands⟩ := operands_eq_ok (r := ⟨s, ⟨past, ts, stop⟩⟩) hscan
  rw [hshows.warnings, hops] at hoperands
  rw [ensures_bind]
  refine .of_ok hoperands ?_
  have hinst : { e.inst ops with loc := some loc } = e.instOf vs (some loc) := by
    rw [Entry.instOf, ← Entry.args_inst hvalues]
    rfl
  have hemit := Session.emitOperands_of_fits (s := s.note .debug message) loc loc hreal he
    (Entry.fits_of_admits hvs hvalues) hs
  rw [hinst, Session.object_note] at hemit
  rw [ensures_bind]
  simp only [Ensures, emit, Session.reportAll, List.foldl_nil, hemit]
  cases hr : s.object.instructionRecord (e.instOf vs (some loc))
  case ok r    => exact ⟨message, r, hr, rfl⟩
  case error f => exact ⟨hr, message, rfl⟩

theorem run_settles (he : e ∈ InstructionSet.table)
    (hvs : List.Forall₂ OperandClass.Admits e.classes vs)
    (hts : ts.map Token.lexeme = e.operandLexemes vs)
    (hs : Feature.covers s.available e.features) :
    Ensures run ⟨s, ⟨past, ⟨.identifier e.mnemonic, loc⟩ :: ts, stop⟩⟩
      (fun _ q => Settles e vs loc s q.session) fun f q => Refuses e vs loc s f q.session := by
  have ⟨_, hlower, hdirective⟩ := InstructionSet.mnemonic_plain e he
  have hlabel : ¬ StartsLabel (⟨.identifier e.mnemonic, loc⟩ :: ts) := by
    rintro ⟨_, _, _, _, heq⟩
    cases heq
    have hhead := e.operandLexemes_head he hvs
    rw [← hts] at hhead
    exact hhead rfl
  unfold Ensures
  rw [run_instruction hdirective hlabel, hlower]
  exact instruction_settles _ loc stop he hvs hts hs

def Emits (e : Entry) (vs : List OperandValue) (s t : Session) : Prop :=
  ∃ message r inst, t = (s.note .debug message).append r ∧ r.inst = some inst ∧
    inst.opcode = some e.opcode.name ∧ inst.args = vs.filterMap OperandValue.arg?

theorem run_emits (he : e ∈ InstructionSet.table)
    (hvs : List.Forall₂ OperandClass.Admits e.classes vs)
    (hts : ts.map Token.lexeme = e.operandLexemes vs)
    (hcpu : s.available = Cpu.features .mc88110) (ha : s.object.address % wordSize = 0) :
    Ensures run ⟨s, ⟨past, ⟨.identifier e.mnemonic, loc⟩ :: ts, stop⟩⟩
      (fun _ q => Emits e vs s q.session) fun _ _ => False := by
  have hs : Feature.covers s.available e.features := by
    rw [hcpu]
    exact InstructionSet.covered_by_mc88110 e he
  have ⟨word, fixups, hencode, _⟩ := Entry.encode_instOf he hvs
  have hrecord := Object.instructionRecord_of_encode (o := s.object) rfl (hencode (some loc))
  rw [if_pos ha] at hrecord
  refine (run_settles past loc stop he hvs hts hs).mono ?_ ?_
  · rintro _ q ⟨message, r, hr, hq⟩
    cases hrecord.symm.trans hr
    exact ⟨message, _, _, hq, rfl, rfl, rfl⟩
  · rintro f q ⟨hr, _⟩
    cases hrecord.symm.trans hr

end

end Statement

namespace Session

-- On the processor with all features, the line of a form is assembled to the form's instruction.
theorem assembleLine_write (s : Session) (line : Int) {e : Entry} {vs : List OperandValue}
    (hcpu : s.available = Cpu.features .mc88110) (ha : s.object.address % wordSize = 0)
    (he : e ∈ InstructionSet.table) (hvs : List.Forall₂ OperandClass.Admits e.classes vs) :
    ∃ t r inst, s.assembleLine line (e.write vs) = .ok t ∧
      t.diagnostics = s.diagnostics ∧ t.object.records = s.object.records ++ [r] ∧
      r.inst = some inst ∧ inst.opcode = some e.opcode.name ∧
      inst.args = vs.filterMap OperandValue.arg? := by
  have hspells := (e.writes hvs (InstructionSet.mnemonic_plain e he).left).spells
  have ⟨ts, stop, htok, hts⟩ := tokenize_of_spells hspells line
  have ⟨loc, ts, hcons, hts⟩ : ∃ loc ts', ts = ⟨.identifier e.mnemonic, loc⟩ :: ts' ∧
      ts'.map Token.lexeme = e.operandLexemes vs := by
    have ⟨t, ts', ht, hl, hts⟩ := List.map_eq_cons_iff.mp hts
    exact ⟨t.loc, ts', by rw [ht, ← hl], hts⟩
  have hrun := Statement.run_emits (s := s.addSource line (Text.trim (e.write vs))) [] loc stop
    he hvs hts hcpu ha
  have ⟨_, q, hrun, message, r, inst, hq, hr, hopcode, hargs⟩ := hrun.exists_ok
  refine ⟨q.session, r, inst, ?_, ?_, ?_, hr, hopcode, hargs⟩
  · simp only [assembleLine, htok, Cursor.ofTokens_append_stop, hcons, hrun]
    rfl
  · rw [hq, diagnostics_append]
    rfl
  · rw [hq, object_append, Object.records_append]
    rfl

theorem assembleLine_write_bcnd :
    ∃ t r inst, (new .mc88110 0 0x1000).assembleLine 7 "bcnd.n 2, %r5, loop-8" = .ok t ∧
      t.diagnostics = [] ∧ t.object.records = [r] ∧ r.inst = some inst ∧
      inst.opcode = some "BCNDn" ∧
      inst.args =
        [.imm 2, .reg (Register.gpr 5).id, .expr (.sum "+" (.symbol "loop") (.const (-8)))] := by
  have hvs : List.Forall₂ OperandClass.Admits [.conditionCode, .gpr, .displacement16]
      [.immediate (.const (2 : Nat)), .register (Register.gpr 5).id,
        .immediate (.sum "+" (.symbol "loop") (.const (-8)))] := by
    refine .cons (.conditionCode (by decide)) (.cons (.gpr 5) (.cons (.displacement16 ?_) .nil))
    exact .offset (by decide) (by decide) (by decide) (by decide) (by decide)
  have h := assembleLine_write (new .mc88110 0 0x1000) 7
    (e := ⟨"bcnd.n", _, ⟨"BCNDn", 0xEC000000, Format.branch16⟩, []⟩) rfl rfl (by decide +kernel) hvs
  exact h

end Session
end Asm88000
