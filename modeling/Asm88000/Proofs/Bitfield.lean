import Asm88000.Proofs.LineOutcome

namespace Asm88000

namespace InstructionSet

def bitfield : List String :=
  ["clr", "set", "ext", "extu", "mak"]

theorem bitfield_forms {mnemonic : String} (h : mnemonic ∈ bitfield) :
    ∃ e e', candidates mnemonic = [e, e'] ∧ mnemonic ≠ "rot" ∧
      e.classes = [.gpr, .gpr, .bitfieldWidth, .less, .bitfieldOffset, .greater] ∧
      e'.classes = [.gpr, .gpr, .gpr] ∧ e.features = [] ∧ e.opcode.format = Format.bitfield := by
  have hforms : ∀ m ∈ bitfield, m ≠ "rot" ∧
      (candidates m).map (fun e => (e.classes, e.features, e.opcode.format)) =
        [([.gpr, .gpr, .bitfieldWidth, .less, .bitfieldOffset, .greater], [], Format.bitfield),
          ([.gpr, .gpr, .gpr], [], Format.rrr)] := by
    decide +kernel
  obtain ⟨hrot, hmap⟩ := hforms _ h
  obtain ⟨e, _, hcandidates, he, hrest⟩ := List.map_eq_cons_iff.mp hmap
  obtain ⟨e', _, rfl, he', hnil⟩ := List.map_eq_cons_iff.mp hrest
  obtain rfl := List.map_eq_nil_iff.mp hnil
  simp only [Prod.mk.injEq] at he he'
  exact ⟨e, e', hcandidates, hrot, he.left, he'.left, he.right.left, he.right.right⟩

end InstructionSet

-- How a bitfield with a width and an offset may be written.
inductive Bitfield : List Lexeme → Nat → Nat → Prop
  | full {a b : String} {w n : Nat} :
    Bitfield [.integer a w, .punct .less, .integer b n, .punct .greater] w n
  | noWidth {b : String} {n : Nat} : Bitfield [.punct .less, .integer b n, .punct .greater] 0 n
  | bare {b : String} {n : Nat} : Bitfield [.integer b n] 0 n

namespace SlotReader

open OperandM

variable {vs : List OperandValue} {rest : List Lexeme}

theorem readBitfieldWidth_noWidth :
    Moves readBitfieldWidth vs (.punct .less :: rest) true (vs ++ [.immediate (.const 0)])
      (.punct .less :: rest) := by
  refine .cursor fun c hc => ?_
  simp only [Expr.current_lexeme_cons hc]
  exact (moves_push _).bind (.pure _ _ true)

theorem readBitfieldWidth_bare {spelling : String} {n : Nat} :
    Moves readBitfieldWidth vs [.integer spelling n] true
      (vs ++ [.immediate (.const 0)] ++ [.token "<"] ++ [.immediate (.const n)] ++ [.token ">"])
      [] := by
  refine .cursor fun c hc => ?_
  simp only [Expr.current_lexeme_cons hc]
  refine (moves_skip (by simp)).bind (.cursor fun c hc => ?_)
  have hsees : c.sees .less = false := by simp [Cursor.sees_eq, hc]
  simp only [hsees, Bool.false_eq_true, ↓reduceIte]
  refine (moves_push _).bind ((moves_push _).bind ((moves_push _).bind ((moves_push _).bind ?_)))
  exact .pure _ _ true

end SlotReader

def Bitfield.values (w n : Nat) : List OperandValue :=
  [.immediate (.const w), .token "<", .immediate (.const n), .token ">"]

def Bitfield.inst (e : Entry) (d r : Fin 32) (w n : Nat) (loc : Option Loc) : Inst :=
  ⟨some e.opcode.name, [.reg (Register.gpr d).id, .reg (Register.gpr r).id, .imm w, .imm n], loc⟩

namespace Bitfield

open OperandM Operand

variable {e : Entry} {ls : List Lexeme} {w n : Nat} {vs : List OperandValue}

theorem parseThird_moves (h : Bitfield ls w n) (he : e ∈ InstructionSet.table)
    (hwidth : e.classes[2]? = some .bitfieldWidth) (hoffset : e.classes[4]? = some .bitfieldOffset)
    (hrot : e.mnemonic ≠ "rot") (hvs : vs.length = 3) :
    Moves (parseThird e.mnemonic) vs ls () (vs ++ values w n) [] := by
  have hvalues : vs ++ values w n = vs ++ [.immediate (.const w)] ++ [.token "<"] ++
      [.immediate (.const n)] ++ [.token ">"] := by simp [values]
  rw [hvalues]
  cases h
  case full => exact parseThird_bitfield he hwidth hoffset hvs
  case bare =>
    refine parseThird_parses (fun c _ => by simp [hrot]) ?_
    exact Entry.parse_moves_of_reader he hwidth rfl hvs SlotReader.readBitfieldWidth_bare
  case noWidth =>
    refine .cursor fun c hc => ?_
    simp only [hrot, decide_false, Bool.and_false, Bool.false_eq_true, ↓reduceIte]
    refine (expect_moves (Entry.parse_moves_of_reader he hwidth rfl hvs
      SlotReader.readBitfieldWidth_noWidth)).bind (.cursor fun c hc => ?_)
    have hless : c.sees .less := by simp [Cursor.sees_eq, hc]
    simp only [hless, ↓reduceIte]
    refine (moves_push _).bind (expect_moves ?_)
    exact Entry.parse_moves_of_reader he hoffset rfl (by simp [hvs])
      SlotReader.readBitfieldOffset_moves

theorem parseAll_moves {mnemonic a b : String} {d r : Register}
    (hm : mnemonic ∈ InstructionSet.bitfield) (hd : Register.named? a = some d)
    (hr : Register.named? b = some r) (h : Bitfield ls w n) :
    Moves (parseAll mnemonic) [.token mnemonic] (twoRegisters a b ls) ()
      (.token mnemonic :: .register d.id :: .register r.id :: values w n) [] := by
  obtain ⟨e, _, hforms, hrot, hclasses, _⟩ := InstructionSet.bitfield_forms hm
  obtain ⟨he, rfl⟩ : e ∈ InstructionSet.table ∧ e.mnemonic = mnemonic :=
    Verdict.mem_candidates.mp (by simp [hforms])
  refine parseAll_twoRegisters hd hr ?_
  exact h.parseThird_moves he (by simp [hclasses]) (by simp [hclasses]) hrot rfl

end Bitfield

theorem Verdict.ofOperands_neither {available : List Feature} {mnemonic : String} {e e' : Entry}
    {ops : List Operand} {loc : Loc} {m m' : Misfit}
    (hforms : InstructionSet.candidates mnemonic = [e, e'])
    (h : misfit 1 e.classes ops = .ok (some m)) (h' : misfit 1 e'.classes ops = .ok (some m'))
    (hworse : Misfit.worse (some m) m' = m) :
    ofOperands available (.token mnemonic loc :: ops) =
      .ok (.rejected m.reason (some m.index)) := by
  have hforms : InstructionSet.formsOf mnemonic InstructionSet.table = [e, e'] := hforms
  rw [ofOperands, byForms_eq_select rfl (by simp [hforms]), hforms]
  have hfirst : Misfit.worse none m = m := rfl
  simp only [select, h, h', bind, Except.bind, hfirst, hworse]
  rfl

section

variable {line : Int} {text : String} {names : List String} {mnemonic : String} {args : List Lexeme}
variable {k : InstructionTokens line text names mnemonic args} {s : Session} {o : Object}
variable {d r : Fin 32} {w n : Nat} {scan : Scan} {ops : List Operand}

theorem registers_fit (d r : Fin 32) :
    List.Forall₂ (fun (cls : OperandClass) v => cls.shape.takes v) [.gpr, .gpr]
      [.register (Register.gpr d).id, .register (Register.gpr r).id] :=
  .cons (takes_gpr d) (.cons (takes_gpr r) .nil)

theorem not_takes_constant {max i : Nat} (h : max < i) :
    ¬(Shape.constant max).takes (.immediate (.const i)) := by
  simp only [Shape.takes, Bool.and_eq_true, decide_eq_true_eq]
  omega

namespace InstructionTokens.ReadsAs

variable (h : k.ReadsAs (.register (Register.gpr d).id :: .register (Register.gpr r).id ::
  Bitfield.values w n) scan ops)
variable (hm : mnemonic ∈ InstructionSet.bitfield) (ho : s.object.Labels names o)

theorem bitfield_fits {e : Entry}
    (he : e.classes = [.gpr, .gpr, .bitfieldWidth, .less, .bitfieldOffset, .greater]) (hw : w ≤ 31)
    (hn : n ≤ 31) :
    List.Forall₂ (fun (cls : OperandClass) v => cls.shape.takes v) e.classes
      (.register (Register.gpr d).id :: .register (Register.gpr r).id :: Bitfield.values w n) := by
  rw [he]
  refine .cons (takes_gpr d) (.cons (takes_gpr r)
    (.cons ?_ (.cons rfl (.cons ?_ (.cons rfl .nil)))))
  · exact (OperandClass.Admits.bitfieldWidth hw).takes
  · exact (OperandClass.Admits.bitfieldOffset hn).takes

include h ho

include hm in
theorem bitfield_emits (ha : o.address % wordSize = 0) (hw : w ≤ 31) (hn : n ≤ 31) :
    ∃ t x e, s.assembleLine line text = .ok t ∧ t.diagnostics = s.diagnostics ∧
      t.object.records = s.object.records ++ [x] ∧
      (InstructionSet.candidates mnemonic).head? = some e ∧
      (∃ loc, x.inst = some (Bitfield.inst e d r w n loc)) ∧
      (∀ loc, (Bitfield.inst e d r w n loc).encode = .ok (x.word, x.fixups)) ∧
      x.word >>> 5 % 32 = w ∧ x.word % 32 = n := by
  obtain ⟨e, e', hforms, _, hclasses, _, hfeatures, hformat⟩ := InstructionSet.bitfield_forms hm
  obtain ⟨t, x, ht, hdiagnostics, rfl, hargs⟩ :=
    h.emits ho (by simp [hforms]) (bitfield_fits hclasses hw hn) (hfeatures ▸ rfl) ha
  have hclasses : x.entry.argClasses[2]? = some .bitfieldWidth ∧
      x.entry.argClasses[3]? = some .bitfieldOffset := by
    rw [Entry.argClasses, hclasses]
    exact ⟨rfl, rfl⟩
  have hwidth : (.imm 2 0 5 5 .abs16, 5) ∈ x.entry.slots := by
    simp [Entry.slots, hformat, Format.bitfield, Field.imm]
  have hoffset : (.imm 3 0 5 0 .abs16, 0) ∈ x.entry.slots := by
    simp [Entry.slots, hformat, Format.bitfield, Field.imm]
  have hinst := x.inst
  have hencode := x.encode
  rw [hargs] at hinst hencode
  refine ⟨t, x.record, x.entry, ht, hdiagnostics, x.records, by simp [hforms], ⟨_, hinst⟩, hencode,
    ?_, ?_⟩
  · have hfield := x.field_of_value hwidth hclasses.left (by rw [hargs]; rfl) (v := w) rfl
    exact Int.ofNat_inj.mp hfield
  · have hfield := x.field_of_value hoffset hclasses.right (by rw [hargs]; rfl) (v := n) rfl
    exact Int.ofNat_inj.mp hfield

include hm in
theorem bitfield_unaligned (ha : o.address % wordSize ≠ 0) (hw : w ≤ 31) (hn : n ≤ 31) :
    ∃ t loc, s.assembleLine line text = .ok t ∧ t.object = o ∧
      t.diagnostics = s.diagnostics ++ [.ofError ⟨.unalignedInstruction o.address, loc⟩] := by
  obtain ⟨e, e', hforms, _, hclasses, _, hfeatures, _⟩ := InstructionSet.bitfield_forms hm
  obtain ⟨t, ht⟩ :=
    h.unaligned ho (by simp [hforms]) (bitfield_fits hclasses hw hn) (hfeatures ▸ rfl) ha
  exact ⟨t, some k.loc, ht⟩

theorem bitfield_rejects {e e' : Entry} (hforms : InstructionSet.candidates mnemonic = [e, e'])
    (hclasses' : e'.classes = [.gpr, .gpr, .gpr]) {i : Nat} {reason : OperandFault} {op : Operand}
    (hi : 2 ≤ i) (hop : ops[i]? = some op)
    (hmisfit : Verdict.misfit 1 e.classes ops = .ok (some ⟨1 + i, reason⟩)) :
    ∃ t, s.assembleLine line text = .ok t ∧ t.object = o ∧
      t.diagnostics = s.diagnostics ++ [⟨.error, reason.message, op.first⟩] := by
  obtain ⟨_, _, hmisfit'⟩ := h.misfit (registers_fit d r) rfl hclasses'
    (by simp [OperandClass.shape, Shape.takes])
  have hworse : Verdict.Misfit.worse (some ⟨1 + i, reason⟩) ⟨1 + 2, .operand⟩ =
    ⟨1 + i, reason⟩ := by
    simp only [Verdict.Misfit.worse, show ¬1 + i < 1 + 2 by omega, ↓reduceIte, ne_eq,
      not_true_eq_false, decide_false, Bool.and_false, Bool.false_and, Bool.false_eq_true]
  rw [Nat.add_comm 1 i] at hmisfit hworse
  exact h.rejects ho (Verdict.ofOperands_neither hforms hmisfit hmisfit' hworse) hop

include hm in
theorem bitfield_rejects_offset (hw : w ≤ 31) (hn : 31 < n) :
    ∃ t loc, s.assembleLine line text = .ok t ∧ t.object = o ∧
      t.diagnostics = s.diagnostics ++ [⟨.error, OperandFault.bitfieldOffset.message, loc⟩] := by
  obtain ⟨e, e', hforms, _, hclasses, hclasses', _⟩ := InstructionSet.bitfield_forms hm
  have hfits : List.Forall₂ (fun (cls : OperandClass) v => cls.shape.takes v)
      [.gpr, .gpr, .bitfieldWidth, .less]
      [.register (Register.gpr d).id, .register (Register.gpr r).id, .immediate (.const w),
        .token "<"] :=
    .cons (takes_gpr d) (.cons (takes_gpr r)
      (.cons (OperandClass.Admits.bitfieldWidth hw).takes (.cons rfl .nil)))
  obtain ⟨op, hop, hmisfit⟩ := h.misfit hfits rfl hclasses (not_takes_constant hn)
  obtain ⟨t, ht⟩ := h.bitfield_rejects ho hforms hclasses' (by simp) hop hmisfit
  exact ⟨t, op.first, ht⟩

include hm in
theorem bitfield_rejects_width (hw : 31 < w) :
    ∃ t loc, s.assembleLine line text = .ok t ∧ t.object = o ∧
      t.diagnostics = s.diagnostics ++ [⟨.error, OperandFault.bitfieldWidth.message, loc⟩] := by
  obtain ⟨e, e', hforms, _, hclasses, hclasses', _⟩ := InstructionSet.bitfield_forms hm
  obtain ⟨op, hop, hmisfit⟩ := h.misfit (registers_fit d r) rfl hclasses (not_takes_constant hw)
  obtain ⟨t, ht⟩ := h.bitfield_rejects ho hforms hclasses' (by simp) hop hmisfit
  exact ⟨t, op.first, ht⟩

end InstructionTokens.ReadsAs

end

namespace Session

-- However a bitfield is written, the operands are the same. Then so is the instruction with its
-- word, or the message.
theorem bitfield_notations_agree {mnemonic a b : String} {d r : Fin 32} {ls : List Lexeme}
    {w n : Nat}
    (hm : mnemonic ∈ InstructionSet.bitfield) (hd : Register.named? a = some (.gpr d))
    (hr : Register.named? b = some (.gpr r)) (hls : Bitfield ls w n) {text : String}
    {names : List String} (h : HasInstruction text names mnemonic (twoRegisters a b ls))
    (s : Session) {o : Object} (ho : s.object.Labels names o) (line : Int) :
    (∀ k : InstructionTokens line text names mnemonic (twoRegisters a b ls), ∃ scan,
      Operand.parseAll mnemonic (Scan.start mnemonic k.loc k.cursor) = .ok () scan ∧
      scan.operands.map Operand.value =
        [.token mnemonic, .register (Register.gpr d).id, .register (Register.gpr r).id,
          .immediate (.const w), .token "<", .immediate (.const n), .token ">"]) ∧
    ∃ t, s.assembleLine line text = .ok t ∧
      (w ≤ 31 → n ≤ 31 → o.address % wordSize = 0 → t.diagnostics = s.diagnostics ∧
        ∃ x e, t.object.records = s.object.records ++ [x] ∧
          (InstructionSet.candidates mnemonic).head? = some e ∧
          (∃ loc, x.inst = some (Bitfield.inst e d r w n loc)) ∧
          (∀ loc, (Bitfield.inst e d r w n loc).encode = .ok (x.word, x.fixups)) ∧
          x.word >>> 5 % 32 = w ∧ x.word % 32 = n) ∧
      (w ≤ 31 → n ≤ 31 → o.address % wordSize ≠ 0 → t.object.records = s.object.records ∧
        ∃ loc, t.diagnostics = s.diagnostics ++ [.ofError ⟨.unalignedInstruction o.address, loc⟩]) ∧
      (w ≤ 31 → 31 < n → t.object.records = s.object.records ∧
        ∃ loc, t.diagnostics = s.diagnostics ++
          [⟨.error, "bitfield offset must be an immediate in the range [0, 31]", loc⟩]) ∧
      (31 < w → t.object.records = s.object.records ∧
        ∃ loc, t.diagnostics = s.diagnostics ++
          [⟨.error, "bitfield width must be an immediate in the range [0, 31]", loc⟩]) := by
  have hread (k : InstructionTokens line text names mnemonic (twoRegisters a b ls)) :=
    k.exists_readsAs (hls.parseAll_moves hm hd hr)
  refine ⟨fun k => ?_, ?_⟩
  · obtain ⟨scan, ops, hscan⟩ := hread k
    refine ⟨scan, hscan.parsed, ?_⟩
    rw [hscan.operands, List.map_cons, hscan.values]
    rfl
  · obtain ⟨k⟩ := h.tokens line
    obtain ⟨scan, ops, hscan⟩ := hread k
    rcases Nat.lt_or_ge 31 w with hlarge | hw
    · obtain ⟨t, loc, ht, rfl, hdiagnostics⟩ := hscan.bitfield_rejects_width hm ho hlarge
      exact ⟨t, ht, by omega, by omega, by omega, fun _ => ⟨ho.records, loc, hdiagnostics⟩⟩
    rcases Nat.lt_or_ge 31 n with hlarge | hn
    · obtain ⟨t, loc, ht, rfl, hdiagnostics⟩ := hscan.bitfield_rejects_offset hm ho hw hlarge
      exact ⟨t, ht, by omega, by omega, fun _ _ => ⟨ho.records, loc, hdiagnostics⟩, by omega⟩
    by_cases ha : o.address % wordSize = 0
    · obtain ⟨t, x, e, ht, hdiagnostics, hx⟩ := hscan.bitfield_emits hm ho ha hw hn
      exact ⟨t, ht, fun _ _ _ => ⟨hdiagnostics, x, e, hx⟩, fun _ _ hne => (hne ha).elim, by omega,
        by omega⟩
    · obtain ⟨t, loc, ht, rfl, hdiagnostics⟩ := hscan.bitfield_unaligned hm ho ha hw hn
      exact ⟨t, ht, fun _ _ heq => (ha heq).elim, fun _ _ _ => ⟨ho.records, loc, hdiagnostics⟩,
        by omega, by omega⟩

theorem bitfield_notations_agree_bare :
    Bitfield [.integer "0x1F" 31] 0 31 ∧
    HasInstruction "x: MAK %r2, %R31, 0x1F" ["x"] "mak"
      (twoRegisters "r2" "R31" [.integer "0x1F" 31]) ∧
    ∃ t x, (new .mc88100 0 0x1000).assembleLine 1 "x: MAK %r2, %R31, 0x1F" = .ok t ∧
      t.diagnostics = [] ∧ t.object.records = [x] ∧ x.word >>> 5 % 32 = 0 ∧ x.word % 32 = 31 := by
  have hline : HasInstruction "x: MAK %r2, %R31, 0x1F" ["x"] "mak"
      (twoRegisters "r2" "R31" [.integer "0x1F" 31]) :=
    ⟨⟨"MAK", by decide +kernel, by decide +kernel⟩, by decide, by decide +kernel⟩
  have hlabels : (new .mc88100 0 0x1000).object.Labels ["x"]
      { Object.new 0 0x1000 with symbols := [⟨"x", .text, 0⟩] } := .cons (fun _ => rfl) .nil
  obtain ⟨_, t, ht, haccepted, _⟩ := bitfield_notations_agree (d := 2) (r := 31) (by decide)
    (by decide +kernel) (by decide +kernel) .bare hline (new .mc88100 0 0x1000) hlabels 1
  obtain ⟨hdiagnostics, x, _, hrecords, _, _, _, hfields⟩ :=
    haccepted (by decide) (by decide) (by decide)
  exact ⟨.bare, hline, t, x, ht, hdiagnostics, hrecords, hfields⟩

end Session
end Asm88000
