import Asm88000.Lowering
import Asm88000.Proofs.CanonicalLine
import Asm88000.Proofs.ExprPrinting

namespace Asm88000

namespace InstructionSet

theorem rri16_classes : ∀ e ∈ table, e.opcode.format = Format.rri16 →
    e.features = [] ∧ (e.classes = [.gpr, .gpr, .u16] ∨ e.classes = [.gpr64, .gpr, .u16]) := by
  decide +kernel

theorem branch26_classes : ∀ e ∈ table, e.opcode.format = Format.branch26 →
    e.features = [] ∧ e.classes = [.displacement26] := by
  decide +kernel

theorem branch16_classes : ∀ e ∈ table, e.opcode.format = Format.branch16 →
    e.features = [] ∧ (e.classes = [.u5, .gpr, .displacement16] ∨
      e.classes = [.conditionCode, .gpr, .displacement16]) := by
  decide +kernel

end InstructionSet

namespace Expr

theorem IsAddress.isNamed {x : Expr} (h : x.IsAddress) : x.isNamed := by
  cases h <;> rfl

theorem parse_toText {x : Expr} (hw : Lexer.Writes x.toText.toList x.lexemes)
    (hx : Written x.lexemes x) (line : Int) :
    ∃ ts c, tokenize line x.toText = .ok ts ∧ parse (Cursor.ofTokens ts) = .ok (some x) c ∧
      c.ahead = [] :=
  parse_of_writes hw hx line

end Expr

namespace Lowering

open Lexer

def IsGeneral (r : Register) : Prop :=
  r.regClass = .gpr ∨ r.regClass = .gpr64

def written (r : Register) : Register :=
  r.high?.getD r

def IsNameable (n : SymbolNamer) (ref : Referent) : Prop :=
  ∃ name n', symbolName ref n = .ok (.text name) n' ∧ isIdentifier name.toList

def halfFlags : List Atom :=
  [.int 1, .int 2]

-- The operands of the instructions that can have a symbol, by the format of the opcode.
inductive HasSymbol (n : SymbolNamer) : Format → List MachineOperand → Prop
  | half {d s : Register} {ref : Referent} {offset : Int} {flags : Atom} :
    IsGeneral d → IsGeneral s → IsNameable n ref → flags ∈ halfFlags →
    HasSymbol n Format.rri16
      [.register (.int d.id) 0 false, .register (.int s.id) 0 false, .symbol ref offset flags]
  | branch26 {ref : Referent} {offset : Int} :
    IsNameable n ref → (takesOffset ref → offset = 0) →
    HasSymbol n Format.branch26 [.symbol ref offset (.int 0)]
  | branch16 {v : Nat} {r : Register} {ref : Referent} {offset : Int} :
    v ≤ 31 → IsGeneral r → IsNameable n ref → (takesOffset ref → offset = 0) →
    HasSymbol n Format.branch16
      [.immediate (.int v), .register (.int r.id) 0 false, .symbol ref offset (.int 0)]

def operandText (symbol : String) : MachineOperand → String
  | .register reg _ _ => "%" ++ (Register.ofAtom? reg).elim "" (fun r => (written r).name)
  | .immediate v      => v.toText
  | .symbol _ _ _     => symbol
  | _                 => ""

def ownOperands (mi : MachineInstr) : List MachineOperand :=
  mi.operands.filter (fun op => !op.isDropped)

def lineText (mnemonic symbol : String) (mi : MachineInstr) : String :=
  mnemonic ++ " " ++ String.intercalate ", " ((ownOperands mi).map (operandText symbol))

section

variable {n n' n'' : SymbolNamer} {r : Register} {ref : Referent} {offset : Int} {name : String}
variable {flags : Atom} {op : MachineOperand} {ops : List MachineOperand} {a : Arg} {as : List Arg}

theorem IsGeneral.written_eq (h : IsGeneral r) : ∃ m, written r = .gpr m := by
  cases r
  case gpr m  => exact ⟨m, rfl⟩
  case pair m => exact ⟨_, rfl⟩
  all_goals simp [IsGeneral, Register.regClass] at h

theorem lowerOperand_register :
    lowerOperand (.register (.int r.id) 0 false) n = .ok (.reg (written r).id) n := by
  simp [lowerOperand, lowerRegister, Register.ofAtom?, Register.ofId?_id, written]
  rfl

theorem symbolExpr_isAddress (h : isIdentifier name.toList) :
    (symbolExpr ref offset (.text name)).IsAddress := by
  unfold symbolExpr
  split
  case isTrue hoffset =>
    simp only [Bool.and_eq_true, decide_eq_true_eq] at hoffset
    exact .offset h hoffset.right
  case isFalse => exact .symbol h

theorem symbolExpr_noOffset (h : takesOffset ref → offset = 0) :
    symbolExpr ref offset (.text name) = .symbol name := by
  unfold symbolExpr
  rw [if_neg (by simpa using h)]
  rfl

theorem lowerOperand_symbol (offset : Int) {flags : Atom} {sel : Option String}
    (hsel : selector flags = .ok sel) (h : symbolName ref n = .ok (.text name) n') :
    lowerOperand (.symbol ref offset flags) n =
      .ok (.expr (selectHalf sel (symbolExpr ref offset (.text name)))) n' := by
  simp only [lowerOperand, lowerSymbol, hsel, bind, EStateM.bind, h]
  rfl

theorem selector_none : selector (.int 0) = .ok none :=
  rfl

theorem selector_known : (∃ sel, selector flags = .ok sel) ↔ flags ∈ [.int 0, .int 1, .int 2] := by
  simp only [List.mem_cons, List.not_mem_nil, or_false]
  unfold selector
  split
  case isTrue h => exact iff_of_true ⟨_, rfl⟩ (.inl h)
  split
  case isTrue h => exact iff_of_true ⟨_, rfl⟩ (.inr (.inl h))
  split
  case isTrue h => exact iff_of_true ⟨_, rfl⟩ (.inr (.inr h))
  case isFalse h₀ h₁ h₂ =>
    refine iff_of_false ?_ (by simp [h₀, h₁, h₂])
    rintro ⟨_, h⟩
    cases h

theorem selector_halfFlags {flags : Atom} (h : flags ∈ halfFlags) :
    ∃ sel, selector flags = .ok (some sel) ∧ Expr.isHalfSelector sel := by
  simp only [halfFlags, List.mem_cons, List.not_mem_nil, or_false] at h
  rcases h with rfl | rfl
  · exact ⟨"hi16", rfl, rfl⟩
  · exact ⟨"lo16", rfl, rfl⟩

theorem mapM_lowerOperand_cons (h : lowerOperand op n = .ok a n')
    (hs : ops.mapM lowerOperand n' = .ok as n'') :
    (op :: ops).mapM lowerOperand n = .ok (a :: as) n'' := by
  simp only [List.mapM_cons, bind, EStateM.bind, h, hs]
  rfl

end

section

variable {e : Entry} {c₁ c₂ c₃ : OperandClass} {v₁ v₂ v₃ : OperandValue}

theorem write_one (h : e.classes = [c₁]) :
    e.write [v₁] = e.mnemonic ++ " " ++ String.intercalate ", " [c₁.write v₁] := by
  simp [Entry.write, h, OperandClass.writeTail, String.append_assoc]

theorem write_three (h : e.classes = [c₁, c₂, c₃]) (h₂ : c₁.touches c₂ = false)
    (h₃ : c₂.touches c₃ = false) :
    e.write [v₁, v₂, v₃] =
      e.mnemonic ++ " " ++ String.intercalate ", " [c₁.write v₁, c₂.write v₂, c₃.write v₃] := by
  simp [Entry.write, h, OperandClass.writeTail, h₂, h₃, String.append_assoc]

end

theorem write_register (cls : OperandClass) (r : Register) (symbol : String) :
    cls.write (.register (written r).id) = operandText symbol (.register (.int r.id) 0 false) := by
  simp [OperandClass.write, operandText, Register.ofAtom?, Register.ofId?_id]

-- The instruction `mi` and the line of the form `e` with operands `vs` are the same thing; `x` is
-- their symbolic operand.
structure Denotes (n : SymbolNamer) (mi : MachineInstr) (e : Entry) (vs : List OperandValue)
    (x : Expr) (n' : SymbolNamer) : Prop where
  lowers   : (ownOperands mi).mapM lowerOperand n = .ok (vs.filterMap OperandValue.arg?) n'
  admitted : List.Forall₂ OperandClass.Admits e.classes vs
  text     : e.write vs = lineText e.mnemonic x.toText mi
  symbolic : (vs.filterMap OperandValue.arg?).getLast? = some (.expr x)
  named    : ∀ a ∈ vs.filterMap OperandValue.arg?, a.isNamed
  basic    : e.features = []
  writes   : Writes x.toText.toList x.lexemes
  written  : Expr.Written x.lexemes x

theorem HasSymbol.denotes {n : SymbolNamer} {mi : MachineInstr} {e : Entry}
    (he : e ∈ InstructionSet.table) (h : HasSymbol n e.opcode.format (ownOperands mi)) :
    ∃ vs x n', Denotes n mi e vs x n' := by
  generalize hformat : e.opcode.format = format at h
  generalize hops : ownOperands mi = ops at h
  cases h
  case half d s ref offset flags hd hs hname hflags =>
    obtain ⟨name, n', hname, hident⟩ := hname
    obtain ⟨sel, hsel, hhalf⟩ := selector_halfFlags hflags
    obtain ⟨hbasic, hclasses⟩ := InstructionSet.rri16_classes e he hformat
    have hsymbol := lowerOperand_symbol offset hsel hname
    have haddress : (symbolExpr ref offset (.text name)).IsAddress := symbolExpr_isAddress hident
    generalize symbolExpr ref offset (.text name) = sub at hsymbol haddress
    obtain ⟨i, hi⟩ := hd.written_eq
    obtain ⟨j, hj⟩ := hs.written_eq
    refine ⟨[.register (written d).id, .register (written s).id, .immediate (.half sel sub)],
      .half sel sub, n', ?_, ?_, ?_, rfl, ?_, hbasic, Expr.writes_half hhalf haddress,
      Expr.written_half hhalf haddress⟩
    · rw [hops]
      exact mapM_lowerOperand_cons lowerOperand_register
        (mapM_lowerOperand_cons lowerOperand_register (mapM_lowerOperand_cons hsymbol rfl))
    · rw [hi, hj]
      rcases hclasses with hclasses | hclasses <;> rw [hclasses]
      · exact .cons (.gpr i) (.cons (.gpr j) (.cons (.half hhalf haddress) .nil))
      · exact .cons (.gpr64 i) (.cons (.gpr j) (.cons (.half hhalf haddress) .nil))
    · rw [lineText, hops]
      rcases hclasses with hclasses | hclasses
      all_goals
        rw [write_three hclasses rfl rfl, write_register _ d, write_register _ s]
        rfl
    · simpa [OperandValue.arg?, Arg.isNamed, Expr.isNamed] using haddress.isNamed
  case branch26 ref offset hname hoffset =>
    obtain ⟨name, n', hname, hident⟩ := hname
    obtain ⟨hbasic, hclasses⟩ := InstructionSet.branch26_classes e he hformat
    have hsymbol := lowerOperand_symbol offset selector_none hname
    rw [symbolExpr_noOffset hoffset] at hsymbol
    refine ⟨[.immediate (.symbol name)], .symbol name, n', ?_, ?_, ?_, rfl, ?_, hbasic,
      Expr.writes_symbol hident, Expr.written_symbol name⟩
    · rw [hops]
      exact mapM_lowerOperand_cons hsymbol rfl
    · rw [hclasses]
      exact .cons (.displacement26 (.symbol hident)) .nil
    · rw [lineText, hops, write_one hclasses]
      rfl
    · simp [OperandValue.arg?, Arg.isNamed, Expr.isNamed]
  case branch16 v r ref offset hv hr hname hoffset =>
    obtain ⟨name, n', hname, hident⟩ := hname
    obtain ⟨hbasic, hclasses⟩ := InstructionSet.branch16_classes e he hformat
    have hsymbol := lowerOperand_symbol offset selector_none hname
    rw [symbolExpr_noOffset hoffset] at hsymbol
    obtain ⟨i, hi⟩ := hr.written_eq
    refine ⟨[.immediate (.const v), .register (written r).id, .immediate (.symbol name)],
      .symbol name, n', ?_, ?_, ?_, rfl, ?_, hbasic, Expr.writes_symbol hident,
      Expr.written_symbol name⟩
    · rw [hops]
      exact mapM_lowerOperand_cons rfl
        (mapM_lowerOperand_cons lowerOperand_register (mapM_lowerOperand_cons hsymbol rfl))
    · rw [hi]
      rcases hclasses with hclasses | hclasses <;> rw [hclasses]
      · exact .cons (.u5 hv) (.cons (.gpr i) (.cons (.displacement16 (.symbol hident)) .nil))
      · exact .cons (.conditionCode hv) (.cons (.gpr i)
          (.cons (.displacement16 (.symbol hident)) .nil))
    · rw [lineText, hops]
      rcases hclasses with hclasses | hclasses
      all_goals
        rw [write_three hclasses rfl rfl, write_register _ r]
        rfl
    · simp [OperandValue.arg?, Arg.isNamed, Expr.isNamed]

section

variable {n n' : SymbolNamer} {mi : MachineInstr} {e : Entry} {vs : List OperandValue} {x : Expr}
variable {word : Nat} {fixups : List Fixup}

theorem Denotes.lowerInstr_eq (h : Denotes n mi e vs x n') (hop : mi.opcode = some e.opcode.name) :
    lowerInstr mi n = .ok (e.instOf vs none) n' := by
  have hlowers := h.lowers
  unfold ownOperands at hlowers
  simp only [lowerInstr, bind, EStateM.bind, hlowers, hop]
  rfl

theorem Denotes.lower_eq (h : Denotes n mi e vs x n') (hop : mi.opcode = some e.opcode.name)
    (s : Session) :
    ∃ message, lower mi ⟨n, s⟩ = .ok (e.instOf vs none) ⟨n', s.note .debug message⟩ := by
  have hlower : Ensures (lower mi) ⟨n, s⟩
      (fun inst st => inst = e.instOf vs none ∧ ∃ message, st = ⟨n', s.note .debug message⟩)
      fun _ _ => False := by
    have hnaming : naming (lowerInstr mi) ⟨n, s⟩ = .ok (e.instOf vs none) ⟨n', s⟩ := by
      simp only [naming, h.lowerInstr_eq hop]
    rw [lower, ensures_bind]
    refine .of_ok hnaming ?_
    rw [ensures_bind, ensures_modify, ensures_pure]
    exact ⟨rfl, _, rfl⟩
  obtain ⟨_, _, hok, rfl, message, rfl⟩ := hlower.exists_ok
  exact ⟨message, hok⟩

theorem naming_ensures {α : Type} {p : NamingM α} {st : State} {Q : α → SymbolNamer → Prop}
    {E : SymbolNamer → Prop} (h : Ensures p st.namer Q fun _ n => E n) :
    Ensures (naming p) st (fun a st' => st'.session = st.session ∧ Q a st'.namer)
      fun _ st' => st'.session = st.session ∧ E st'.namer := by
  cases hp : p st.namer <;> simp only [Ensures, naming, hp, true_and]
  case ok    => exact h.ok hp
  case error => exact h.error hp

theorem emit_of_error {st : State} {inst : Inst} {f : Failure}
    (h : st.session.object.instructionRecord inst = .error f) : emit inst st = .error f st := by
  simp only [emit, h]

theorem emit_of_ok {st : State} {inst : Inst} {r : Record}
    (h : st.session.object.instructionRecord inst = .ok r) (hr : r.isNamed) :
    emit inst st = .ok () { st with session := st.session.append r } := by
  simp only [emit, h, hr, ↓reduceIte]

def recordIn (s : Session) (inst : Inst) (word : Nat) (fixups : List Fixup) : Record :=
  ⟨.instruction, s.object.current, s.object.address, word, fixups, inst.loc, some inst⟩

theorem Denotes.lowerAll_ensures (h : Denotes n mi e vs x n')
    (hop : mi.opcode = some e.opcode.name)
    (hencode : (e.instOf vs none).encode = .ok (word, fixups))
    (hnamed : ∀ fixup ∈ fixups, fixup.expr.isNamed) (s : Session) :
    Ensures (lowerAll [mi]) ⟨n, s⟩
      (fun insts st => s.object.address % wordSize = 0 ∧ insts = [e.instOf vs none] ∧
        st.namer = n' ∧ st.session.diagnostics = s.diagnostics ∧
        st.session.object = s.object.append (recordIn s (e.instOf vs none) word fixups))
      fun f st => ¬ s.object.address % wordSize = 0 ∧
        f = .error ⟨.unalignedInstruction s.object.address, none⟩ ∧
        st.session.diagnostics = s.diagnostics ∧ st.session.object = s.object := by
  have hrecord := Object.instructionRecord_of_encode (o := s.object) rfl hencode
  obtain ⟨message, hlower⟩ := h.lower_eq hop s
  rw [lowerAll, ensures_bind]
  refine .of_ok hlower ?_
  rw [ensures_bind]
  by_cases ha : s.object.address % wordSize = 0
  case pos =>
    have hr : (recordIn s (e.instOf vs none) word fixups).isNamed := List.all_eq_true.mpr hnamed
    refine .of_ok (emit_of_ok (hrecord.trans (if_pos ha)) hr) ?_
    refine ⟨ha, rfl, rfl, Session.diagnostics_append _ _, ?_⟩
    rw [Session.object_append]
    rfl
  case neg =>
    refine .of_error (emit_of_error (hrecord.trans (if_neg ha))) ?_
    exact ⟨ha, rfl, rfl, rfl⟩

theorem tokenize_write (he : e ∈ InstructionSet.table)
    (hvs : List.Forall₂ OperandClass.Admits e.classes vs) (line : Int) :
    ∃ loc ts stop, tokenize line (e.write vs) =
        .ok (⟨.identifier e.mnemonic, loc⟩ :: ts ++ [⟨.endOfStatement, stop⟩]) ∧
      ts.map Token.lexeme = e.operandLexemes vs := by
  have hspells := (e.writes hvs (InstructionSet.mnemonic_plain e he).left).spells
  obtain ⟨ts, stop, htok, hts⟩ := tokenize_of_spells hspells line
  obtain ⟨t, ts, rfl, hl, hts⟩ := List.map_eq_cons_iff.mp hts
  exact ⟨t.loc, ts, stop, by rw [htok, ← hl], hts⟩

theorem Denotes.assembleLine_ensures (h : Denotes n mi e vs x n') (he : e ∈ InstructionSet.table)
    (hencode : ∀ loc, (e.instOf vs loc).encode = .ok (word, fixups)) (s : Session) (line : Int) :
    ∃ t loc, s.assembleLine line (lineText e.mnemonic x.toText mi) = .ok t ∧
      (s.object.address % wordSize = 0 → t.diagnostics = s.diagnostics ∧
        t.object = s.object.append (recordIn s (e.instOf vs (some loc)) word fixups)) ∧
      (¬ s.object.address % wordSize = 0 → t.object = s.object ∧ t.diagnostics =
        s.diagnostics ++ [.ofError ⟨.unalignedInstruction s.object.address, some loc⟩]) := by
  have hs : Feature.covers (s.addSource line (Text.trim (e.write vs))).available e.features := by
    rw [h.basic]
    rfl
  obtain ⟨loc, ts, stop, htok, hts⟩ := tokenize_write he h.admitted line
  have hrun := Statement.run_settles [] loc stop he h.admitted hts hs
  have hrecord := Object.instructionRecord_of_encode (o := s.object) rfl (hencode (some loc))
  rw [← h.text]
  simp only [Session.assembleLine, htok, Cursor.ofTokens_append_stop]
  cases hq : Statement.run ⟨s.addSource line (Text.trim (e.write vs)),
    ⟨[], ⟨.identifier e.mnemonic, loc⟩ :: ts, stop⟩⟩
  case ok q =>
    obtain ⟨message, r, hr, hsession⟩ := hrun.ok hq
    have hr : s.object.instructionRecord (e.instOf vs (some loc)) = .ok r := hr
    refine ⟨q.session, loc, rfl, fun ha => ?_, fun ha => ?_⟩
    · rw [hrecord, if_pos ha] at hr
      cases hr
      rw [hsession, Session.diagnostics_append, Session.object_append]
      exact ⟨rfl, rfl⟩
    · rw [hrecord, if_neg ha] at hr
      cases hr
  case error f q =>
    obtain ⟨hr, message, hsession⟩ := hrun.error hq
    have hr : s.object.instructionRecord (e.instOf vs (some loc)) = .error f := hr
    by_cases ha : s.object.address % wordSize = 0
    · rw [hrecord, if_pos ha] at hr
      cases hr
    · rw [hrecord, if_neg ha] at hr
      cases hr
      refine ⟨_, loc, rfl, fun ha' => absurd ha' ha, fun _ => ?_⟩
      rw [hsession]
      exact ⟨rfl, rfl⟩

end

-- Lowering and writing down come to the same. At an address that is no word's, both refuse.
theorem lowering_agrees_with_text (n : SymbolNamer) (mi : MachineInstr) {e : Entry}
    (he : e ∈ InstructionSet.table) (hop : mi.opcode = some e.opcode.name)
    (h : HasSymbol n e.opcode.format (ownOperands mi)) :
    ∃ x inst n', lowerInstr mi n = .ok inst n' ∧ inst.args.getLast? = some (.expr x) ∧
      (∀ line, ∃ ts c, tokenize line x.toText = .ok ts ∧
        Expr.parse (Cursor.ofTokens ts) = .ok (some x) c ∧ c.ahead = []) ∧
      ∀ (s : Session) (line : Int),
        ∃ t loc, s.assembleLine line (lineText e.mnemonic x.toText mi) = .ok t ∧
          (s.object.address % wordSize = 0 →
            ∃ word fixups st, lowerAll [mi] ⟨n, s⟩ = .ok [inst] st ∧ st.namer = n' ∧
              t.diagnostics = s.diagnostics ∧ st.session.diagnostics = s.diagnostics ∧
              t.object = s.object.append
                (recordIn s { inst with loc := some loc } word fixups) ∧
              st.session.object = s.object.append (recordIn s inst word fixups)) ∧
          (¬ s.object.address % wordSize = 0 →
            ∃ st, lowerAll [mi] ⟨n, s⟩ =
                .error (.error ⟨.unalignedInstruction s.object.address, none⟩) st ∧
              st.session.object = s.object ∧ t.object = s.object ∧
              t.diagnostics = s.diagnostics ++
                [.ofError ⟨.unalignedInstruction s.object.address, some loc⟩]) := by
  obtain ⟨vs, x, n', hdenotes⟩ := h.denotes he
  obtain ⟨word, fixups, hencode, hfixups⟩ := Entry.encode_instOf he hdenotes.admitted
  have hnamed : ∀ fixup ∈ fixups, fixup.expr.isNamed :=
    fun fixup hf => hdenotes.named _ (hfixups fixup hf)
  refine ⟨x, e.instOf vs none, n', hdenotes.lowerInstr_eq hop, hdenotes.symbolic,
    Expr.parse_toText hdenotes.writes hdenotes.written, fun s line => ?_⟩
  have hlower := hdenotes.lowerAll_ensures hop (hencode none) hnamed s
  obtain ⟨t, loc, ht, haligned, hunaligned⟩ := hdenotes.assembleLine_ensures he hencode s line
  refine ⟨t, loc, ht, fun ha => ?_, fun ha => ?_⟩
  all_goals cases hall : lowerAll [mi] ⟨n, s⟩
  case refine_1.ok insts st =>
    obtain ⟨_, rfl, hn, hdiagnostics, hobject⟩ := hlower.ok hall
    obtain ⟨hdiagnostics', hobject'⟩ := haligned ha
    exact ⟨word, fixups, st, rfl, hn, hdiagnostics', hdiagnostics, hobject', hobject⟩
  case refine_1.error => exact absurd ha (hlower.error hall).left
  case refine_2.ok => exact absurd (hlower.ok hall).left ha
  case refine_2.error f st =>
    obtain ⟨_, rfl, _, hobject⟩ := hlower.error hall
    exact ⟨st, rfl, hobject, hunaligned ha⟩

theorem lowering_agrees_with_text_pair :
    ∃ t st r r',
      (Session.new .mc88100 0 0x1000).assembleLine 1 "ld.d %r4, %r3, lo16(.Ltmp0-8)" = .ok t ∧
      lowerAll [⟨some "LDDri", [.register (.int 35) 0 false, .register (.int 4) 0 false,
          .symbol (.blockAddress ⟨.text "f", .int 7⟩) (-8) (.int 2), .registerMask]⟩]
        ⟨.new (.int 0) ".L", Session.new .mc88100 0 0x1000⟩ = .ok [⟨some "LDDri", [.reg 5, .reg 4,
          .expr (.half "lo16" (.sum "+" (.symbol ".Ltmp0") (.const (-8))))], none⟩] st ∧
      t.diagnostics = [] ∧ t.object.records = [r] ∧ st.session.object.records = [r'] ∧
      r.word = r'.word ∧ r.fixups = r'.fixups := by
  obtain ⟨x, inst, n', hlower, hlast, _, hall⟩ := lowering_agrees_with_text
    (.new (.int 0) ".L")
    ⟨some "LDDri", [.register (.int 35) 0 false, .register (.int 4) 0 false,
      .symbol (.blockAddress ⟨.text "f", .int 7⟩) (-8) (.int 2), .registerMask]⟩
    (e := ⟨"ld.d", [.gpr64, .gpr, .u16], ⟨"LDDri", 0x10000000, Format.rri16⟩, []⟩)
    (by decide +kernel) rfl
    (.half (d := .pair 2) (s := .gpr 3) (.inr rfl) (.inl rfl) ⟨_, _, rfl, by decide⟩ (by decide))
  cases hlower
  cases hlast
  obtain ⟨t, loc, ht, haligned, _⟩ := hall (Session.new .mc88100 0 0x1000) 1
  obtain ⟨word, fixups, st, hst, _, hdiagnostics, _, hobject, hobject'⟩ := haligned rfl
  exact ⟨t, st, _, _, ht, hst, hdiagnostics, congrArg Object.records hobject,
    congrArg Object.records hobject', rfl, rfl⟩

end Lowering
end Asm88000
