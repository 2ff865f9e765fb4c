import Asm88000.Proofs.Encoding
import Asm88000.Proofs.OperandReading
import Asm88000.Proofs.Writing

namespace Asm88000

open OperandM

namespace InstructionSet

theorem slotReaders_eq : ∀ e ∈ table, ∀ p ∈ e.classes.zipIdx, p.1.shape.isImmediate →
    slotReaders e.mnemonic p.2 = p.1.reader?.toList := by
  decide +kernel

end InstructionSet

namespace OperandClass

def isSimple (cls : OperandClass) : Bool :=
  cls.punct?.isNone && cls ≠ bitfieldWidth && cls ≠ bitfieldOffset

variable {cls : OperandClass} {v : OperandValue} {c : Cursor} {rest : List Lexeme}

theorem lexemes_immediate (h : cls ≠ pixelRotation) (e : Expr) :
    cls.lexemes (.immediate e) = e.lexemes :=
  if_neg h

theorem Admits.head (h : cls.Admits v) (hs : cls.isSimple) (rest : List Lexeme) :
    (cls.lexemes v ++ rest).headD .endOfStatement = .punct .percent ∨
    ((cls.lexemes v ++ rest).headD .endOfStatement).startsExpr ∨
    cls = .pixelRotation ∧ (cls.lexemes v ++ rest).headD .endOfStatement = .punct .less := by
  cases v
  case token       => cases h <;> cases hs
  case register id => exact .inl rfl
  case immediate e =>
    by_cases hp : cls = .pixelRotation
    case pos => exact .inr (.inr ⟨hp, by simp [lexemes, hp]⟩)
    case neg =>
      rw [lexemes_immediate hp]
      exact .inr (.inl (h.written.headD_startsExpr rest _))

theorem Admits.current (h : cls.Admits v) (hs : cls.isSimple)
    (hc : c.lexemes = cls.lexemes v ++ rest) :
    c.atEnd = false ∧ (cls ≠ .pixelRotation → c.sees .less = false) := by
  have hhead := h.head hs rest
  rw [Cursor.atEnd_eq, Cursor.sees_eq, hc]
  generalize (cls.lexemes v ++ rest).headD .endOfStatement = l at hhead
  rcases hhead with rfl | hl | ⟨hp, rfl⟩
  · simp
  · refine ⟨decide_eq_false ?_, fun _ => decide_eq_false ?_⟩ <;> rintro rfl <;> cases hl
  · simp [hp]

end OperandClass

theorem badDisplacement_of_isTarget (bits : Nat) {max : Int} {e : Expr} (h : e.IsTarget max)
    (hmax : ((1 <<< bits : Nat) : Int) = max) : SlotReader.badDisplacement bits e = false := by
  have hconst {v : Int} (h₂ : v % 2 = 0) (hlo : -max ≤ v) (hhi : v < max) :
      SlotReader.outOfRange bits (.const v) = false := by
    simp only [SlotReader.outOfRange, hmax, h₂, ne_eq, not_true_eq_false, decide_false,
      Bool.false_or, Bool.or_eq_false_iff, decide_eq_false_iff_not]
    omega
  cases h
  case distance h₂ hlo hhi     => exact hconst h₂ hlo hhi
  case symbol                  => rfl
  case offset _ _ h₂ hlo hhi   => exact hconst h₂ hlo hhi

namespace Entry

variable {e : Entry} {cls : OperandClass} {v : OperandValue} {vs : List OperandValue}
variable {i : Nat} {rest : List Lexeme}

theorem slotReaders_of_isImmediate (he : e ∈ InstructionSet.table) (hcls : e.classes[i]? = some cls)
    (hs : cls.shape.isImmediate) :
    InstructionSet.slotReaders e.mnemonic i = cls.reader?.toList :=
  InstructionSet.slotReaders_eq e he (cls, i) (List.mem_zipIdx_iff_getElem?.mpr hcls) hs

theorem parse_moves_of_reader {r : SlotReader} {ls ls₁ : List Lexeme} {vs₁ : List OperandValue}
    (he : e ∈ InstructionSet.table) (hcls : e.classes[i]? = some cls) (hr : cls.reader? = some r)
    (hvs : vs.length = i + 1) (h : Moves r.read vs ls true vs₁ ls₁) :
    Moves (Operand.parse e.mnemonic) vs ls true vs₁ ls₁ := by
  have hs : cls.shape.isImmediate := by cases cls <;> cases hr <;> rfl
  refine Operand.parse_special_moves hvs ?_
  rw [slotReaders_of_isImmediate he hcls hs, hr]
  exact h.bind (.pure _ _ true)

open Operand in
theorem parse_moves_of_admits (he : e ∈ InstructionSet.table) (hcls : e.classes[i]? = some cls)
    (hv : cls.Admits v) (hs : cls.isSimple) (hvs : vs.length = i + 1) (hrest : Expr.Closes rest) :
    Moves (parse e.mnemonic) vs (cls.lexemes v ++ rest) true (vs ++ [v]) rest := by
  have hreaders := slotReaders_of_isImmediate he hcls
  cases hv' : hv
  case gpr | gpr64 | cr | fcr =>
    simp only [OperandClass.lexemes, Register.ofId?_id, Option.elim_some]
    exact parse_register_moves hvs (Register.named?_name rfl)
  case u5 | vec9 | u16 | half =>
    refine parse_expr_moves hvs ?_ hv.written hrest
    rw [hreaders rfl]
    exact .pure _ _ false
  case conditionCode v hle =>
    refine parse_expr_moves hvs ?_ hv.written hrest
    rw [hreaders rfl, OperandClass.lexemes_immediate (by decide), Expr.lexemes_natCast]
    exact (SlotReader.readConditionCode_refuses hle).bind (.pure _ _ false)
  case displacement16 h =>
    have hrange := badDisplacement_of_isTarget 18 h rfl
    exact parse_moves_of_reader he hcls rfl hvs
      (SlotReader.readDisplacement_moves h.written hrest hrange)
  case displacement26 h =>
    have hrange := badDisplacement_of_isTarget 28 h rfl
    exact parse_moves_of_reader he hcls rfl hvs
      (SlotReader.readDisplacement_moves h.written hrest hrange)
  case pixelRotation v _ h₄ =>
    rw [OperandClass.lexemes, Expr.lexemes_natCast]
    exact parse_moves_of_reader he hcls rfl hvs (SlotReader.readPixelRotation_moves h₄)
  case bitfieldWidth | bitfieldOffset | less | greater | lbrack | rbrack => cases hs

end Entry

inductive Laid (mnemonic : String) : List OperandClass → Prop
  | none : Laid mnemonic []
  | one {a} : a.isSimple → Laid mnemonic [a]
  | two {a b} : a.isSimple → b.isSimple → Laid mnemonic [a, b]
  | three {a b c} :
    a.isSimple → b.isSimple → c.isSimple → (c = .pixelRotation → mnemonic ≠ "rot") →
    Laid mnemonic [a, b, c]
  | scaled {a b} : a.isSimple → b.isSimple → Laid mnemonic [a, b, .lbrack, .gpr, .rbrack]
  | bitfield {a b} :
    a.isSimple → b.isSimple →
    Laid mnemonic [a, b, .bitfieldWidth, .less, .bitfieldOffset, .greater]
  | rotate {a b} :
    a.isSimple → b.isSimple → mnemonic = "rot" →
    Laid mnemonic [a, b, .less, .bitfieldOffset, .greater]

namespace Laid

def check (mnemonic : String) : List OperandClass → Bool
  | []        => true
  | [a]       => a.isSimple
  | [a, b]    => a.isSimple && b.isSimple
  | [a, b, c] => a.isSimple && b.isSimple && c.isSimple && (c ≠ .pixelRotation || mnemonic ≠ "rot")
  | [a, b, .lbrack, .gpr, .rbrack] => a.isSimple && b.isSimple
  | [a, b, .bitfieldWidth, .less, .bitfieldOffset, .greater] => a.isSimple && b.isSimple
  | [a, b, .less, .bitfieldOffset, .greater] => a.isSimple && b.isSimple && mnemonic = "rot"
  | _ => false

theorem of_check {mnemonic : String} {classes : List OperandClass} (h : check mnemonic classes) :
    Laid mnemonic classes := by
  unfold check at h
  split at h
  case h_1 => exact .none
  case h_2 => exact .one h
  case h_8 => cases h
  all_goals simp only [Bool.and_eq_true, Bool.or_eq_true, decide_eq_true_eq] at h
  case h_3 => exact .two h.left h.right
  case h_4 => exact .three h.left.left.left h.left.left.right h.left.right (by tauto)
  case h_5 => exact .scaled h.left h.right
  case h_6 => exact .bitfield h.left h.right
  case h_7 => exact .rotate h.left.left h.left.right h.right

theorem isSimple_of_cons {mnemonic : String} {a : OperandClass} {classes : List OperandClass}
    (h : Laid mnemonic (a :: classes)) : a.isSimple := by
  cases h <;> assumption

end Laid

theorem InstructionSet.laid : ∀ e ∈ table, Laid.check e.mnemonic e.classes := by
  decide +kernel

namespace OperandClass

variable {a b : OperandClass} {classes : List OperandClass} {w : OperandValue}
variable {vs : List OperandValue}

theorem touches_of_isSimple (ha : a.isSimple) :
    a.touches b = (b = greater || b = lbrack || b = rbrack) := by
  unfold touches
  split <;> simp_all [isSimple, punct?]

theorem lexemesTail_simple (ha : a.isSimple) (hb : b.isSimple) :
    a.lexemesTail (b :: classes) (w :: vs) =
      .punct .comma :: (b.lexemes w ++ b.lexemesTail classes vs) := by
  have ht : a.touches b = false := by
    rw [touches_of_isSimple ha]
    cases b <;> simp_all [isSimple, punct?]
  simp [lexemesTail, ht]

theorem lexemesTail_scaled (ha : a.isSimple) (n : Fin 32) :
    a.lexemesTail [lbrack, gpr, rbrack]
        [.token "[", .register (Register.gpr n).id, .token "]"] =
      [.punct .lbrack, .punct .percent, .identifier (Register.gpr n).name, .punct .rbrack] := by
  simp only [lexemesTail, touches_of_isSimple ha]
  simp [touches, lexemes, punct?, Register.ofId?_id]

theorem lexemesTail_bitfield (ha : a.isSimple) (m n : Nat) :
    a.lexemesTail [bitfieldWidth, less, bitfieldOffset, greater]
        [.immediate (.const m), .token "<", .immediate (.const n), .token ">"] =
      [.punct .comma, .number m, .punct .less, .number n, .punct .greater] := by
  simp only [lexemesTail, touches_of_isSimple ha]
  simp [touches, lexemes, punct?, Expr.lexemes_natCast]

theorem lexemesTail_rotate (ha : a.isSimple) (n : Nat) :
    a.lexemesTail [less, bitfieldOffset, greater]
        [.token "<", .immediate (.const n), .token ">"] =
      [.punct .comma, .punct .less, .number n, .punct .greater] := by
  simp only [lexemesTail, touches_of_isSimple ha]
  simp [touches, lexemes, punct?, Expr.lexemes_natCast]

end OperandClass

namespace Operand

variable {e : Entry} {a b : OperandClass} {v w : OperandValue} {vs vs₁ : List OperandValue}
variable {t : OperandValue} {ls ls₁ rest : List Lexeme} {mnemonic : String}

theorem atEnd_moves (f : Fault) :
    Moves (do if !(← cursor).atEnd then failHere f) vs [] () vs [] := by
  refine .cursor fun c hc => ?_
  have hend : c.atEnd := by simp [Cursor.atEnd_eq, hc]
  simp only [hend, Bool.not_true, Bool.false_eq_true, ↓reduceIte]
  exact .pure _ _ ()

theorem closes_nil : Expr.Closes [] := by
  simp [Expr.Closes]

theorem closes_comma : Expr.Closes (.punct .comma :: ls) := by
  simp [Expr.Closes]

theorem parseAll_none : Moves (parseAll e.mnemonic) vs [] () vs [] := by
  refine .cursor fun c hc => ?_
  have hend : c.atEnd := by simp [Cursor.atEnd_eq, hc]
  simp only [hend, Bool.not_true, Bool.false_eq_true, ↓reduceIte]
  exact .pure _ _ ()

theorem parseAll_one (he : e ∈ InstructionSet.table) (ha : e.classes[0]? = some a)
    (hs : a.isSimple) (hv : a.Admits v) :
    Moves (parseAll e.mnemonic) [t] (a.lexemes v) () [t, v] [] := by
  rw [← List.append_nil (a.lexemes v)]
  refine .cursor fun c hc => ?_
  simp only [(hv.current hs hc).left, Bool.not_false, ↓reduceIte]
  refine (expect_moves (Entry.parse_moves_of_admits he ha hv hs rfl closes_nil)).bind ?_
  refine .cursor fun c hc => ?_
  have hcomma : c.sees .comma = false := by simp [Cursor.sees_eq, hc]
  simp only [hcomma, Bool.false_eq_true, ↓reduceIte]
  exact atEnd_moves _

def parseRest (mnemonic : String) : OperandM Unit := do
  let c ← cursor
  if c.sees .comma then
    skip
    parseThird mnemonic
  else if c.sees .lbrack then
    if !(← parseScaled) then failHere .expectedScaledRegister
  if !(← cursor).atEnd then failHere .trailingOperand

theorem parseAll_parses (hls : ∀ c : Cursor, c.lexemes = ls → c.atEnd = false)
    (hv : Moves (parse mnemonic) [t] ls true [t, v] (.punct .comma :: ls₁))
    (hw : Moves (parse mnemonic) [t, v] ls₁ true [t, v, w] rest)
    (h : Moves (parseRest mnemonic) [t, v, w] rest () vs₁ []) :
    Moves (parseAll mnemonic) [t] ls () vs₁ [] := by
  refine .cursor fun c hc => ?_
  simp only [hls c hc, Bool.not_false, ↓reduceIte]
  refine (expect_moves hv).bind (.cursor fun c hc => ?_)
  have hcomma : c.sees .comma := by simp [Cursor.sees_eq, hc]
  simp only [hcomma, ↓reduceIte]
  exact (moves_skip (by simp)).bind ((expect_moves hw).bind h)

theorem parseAll_two (he : e ∈ InstructionSet.table) (ha : e.classes[0]? = some a)
    (hb : e.classes[1]? = some b) (has : a.isSimple) (hbs : b.isSimple) (hv : a.Admits v)
    (hw : b.Admits w) (hrest : Expr.Closes rest)
    (h : Moves (parseRest e.mnemonic) [t, v, w] rest () vs₁ []) :
    Moves (parseAll e.mnemonic) [t] (a.lexemes v ++ .punct .comma :: (b.lexemes w ++ rest)) () vs₁
      [] :=
  parseAll_parses (fun _ hc => (hv.current has hc).left)
    (Entry.parse_moves_of_admits he ha hv has rfl closes_comma)
    (Entry.parse_moves_of_admits he hb hw hbs rfl hrest) h

theorem parseThird_parses
    (hls : ∀ c : Cursor, c.lexemes = ls → (c.sees .less && decide (mnemonic = "rot")) = false)
    (h : Moves (parse mnemonic) vs ls true vs₁ []) :
    Moves (parseThird mnemonic) vs ls () vs₁ [] := by
  refine .cursor fun c hc => ?_
  simp only [hls c hc, Bool.false_eq_true, ↓reduceIte]
  refine (expect_moves h).bind (.cursor fun c hc => ?_)
  have hless : c.sees .less = false := by simp [Cursor.sees_eq, hc]
  simp only [hless, Bool.false_eq_true, ↓reduceIte]
  exact .pure _ _ ()

theorem parseThird_simple (he : e ∈ InstructionSet.table) (hb : e.classes[2]? = some b)
    (hbs : b.isSimple) (hw : b.Admits w) (hrot : b = .pixelRotation → e.mnemonic ≠ "rot")
    (hvs : vs.length = 3) :
    Moves (parseThird e.mnemonic) vs (b.lexemes w) () (vs ++ [w]) [] := by
  rw [← List.append_nil (b.lexemes w)]
  refine parseThird_parses (fun c hc => ?_)
    (Entry.parse_moves_of_admits he hb hw hbs hvs closes_nil)
  by_cases hp : b = .pixelRotation
  case pos => simp [hrot hp]
  case neg => simp [(hw.current hbs hc).right hp]

theorem parseThird_bitfield {m n : Nat} {spelling spelling' : String}
    (he : e ∈ InstructionSet.table) (hwidth : e.classes[2]? = some .bitfieldWidth)
    (hoffset : e.classes[4]? = some .bitfieldOffset) (hvs : vs.length = 3) :
    Moves (parseThird e.mnemonic) vs
      [.integer spelling m, .punct .less, .integer spelling' n, .punct .greater] ()
      (vs ++ [.immediate (.const m)] ++ [.token "<"] ++ [.immediate (.const n)] ++ [.token ">"])
      [] := by
  refine .cursor fun c hc => ?_
  have hless : c.sees .less = false := by simp [Cursor.sees_eq, hc]
  simp only [hless, Bool.false_and, Bool.false_eq_true, ↓reduceIte]
  refine (expect_moves (Entry.parse_moves_of_reader he hwidth rfl hvs
    SlotReader.readBitfieldWidth_moves)).bind (.cursor fun c hc => ?_)
  have hless : c.sees .less := by simp [Cursor.sees_eq, hc]
  simp only [hless, ↓reduceIte]
  refine (moves_push _).bind (expect_moves ?_)
  exact Entry.parse_moves_of_reader he hoffset rfl (by simp [hvs])
    SlotReader.readBitfieldOffset_moves

theorem parseThird_rotate {n : Nat} (he : e ∈ InstructionSet.table)
    (hoffset : e.classes[3]? = some .bitfieldOffset) (hrot : e.mnemonic = "rot")
    (hvs : vs.length = 3) :
    Moves (parseThird e.mnemonic) vs [.punct .less, .number n, .punct .greater] ()
      (vs ++ [.token "<"] ++ [.immediate (.const n)] ++ [.token ">"]) [] := by
  refine .cursor fun c hc => ?_
  have hless : (c.sees .less && decide (e.mnemonic = "rot")) = true := by
    simp [Cursor.sees_eq, hc, hrot]
  simp only [hless, ↓reduceIte]
  refine (moves_push _).bind ?_
  refine (expect_moves (Entry.parse_moves_of_reader he hoffset rfl (by simp [hvs])
    SlotReader.readBitfieldOffset_moves)).bind (.cursor fun c hc => ?_)
  have hless : c.sees .less = false := by simp [Cursor.sees_eq, hc]
  simp only [hless, Bool.false_eq_true, ↓reduceIte]
  exact .pure _ _ ()

theorem parseScaled_moves {r : Register} (hr : r.hasSpelling) :
    Moves parseScaled vs
      [.punct .lbrack, .punct .percent, .identifier r.name, .punct .rbrack] true
      (vs ++ [.token "["] ++ [.register r.id] ++ [.token "]"]) [] := by
  refine .cursor fun c hc => ?_
  have hopen : c.sees .lbrack := by simp [Cursor.sees_eq, hc]
  simp only [hopen, ↓reduceIte]
  refine (moves_skip (by simp)).bind
    (RegisterRef.parse_moves (Register.named?_name hr) fun ref href => ?_)
  refine .cursor fun c hc => ?_
  have hclose : c.sees .rbrack := by simp [Cursor.sees_eq, hc]
  simp only [hclose, ↓reduceIte]
  rw [← RegisterRef.operand_value href]
  refine (moves_skip (by simp)).bind ?_
  exact (moves_push _).bind ((moves_push _).bind ((moves_push _).bind (.pure _ _ true)))

theorem parseRest_nil : Moves (parseRest e.mnemonic) vs [] () vs [] := by
  refine .cursor fun c hc => ?_
  have hcomma : c.sees .comma = false := by simp [Cursor.sees_eq, hc]
  have hopen : c.sees .lbrack = false := by simp [Cursor.sees_eq, hc]
  simp only [hcomma, hopen, Bool.false_eq_true, ↓reduceIte]
  exact atEnd_moves _

theorem parseRest_comma (h : Moves (parseThird mnemonic) vs ls () vs₁ []) :
    Moves (parseRest mnemonic) vs (.punct .comma :: ls) () vs₁ [] := by
  refine .cursor fun c hc => ?_
  have hcomma : c.sees .comma := by simp [Cursor.sees_eq, hc]
  simp only [hcomma, ↓reduceIte]
  exact (moves_skip (by simp)).bind (h.bind (atEnd_moves _))

theorem parseAll_three (he : e ∈ InstructionSet.table) (ha : e.classes[0]? = some a)
    (hb : e.classes[1]? = some b) (has : a.isSimple) (hbs : b.isSimple) (hv : a.Admits v)
    (hw : b.Admits w) (h : Moves (parseThird e.mnemonic) [t, v, w] ls () vs₁ []) :
    Moves (parseAll e.mnemonic) [t]
      (a.lexemes v ++ .punct .comma :: (b.lexemes w ++ .punct .comma :: ls)) () vs₁ [] :=
  parseAll_two he ha hb has hbs hv hw closes_comma (parseRest_comma h)

theorem parseRest_scaled {r : Register} (hr : r.hasSpelling) :
    Moves (parseRest e.mnemonic) vs
      [.punct .lbrack, .punct .percent, .identifier r.name, .punct .rbrack] ()
      (vs ++ [.token "["] ++ [.register r.id] ++ [.token "]"]) [] := by
  refine .cursor fun c hc => ?_
  have hcomma : c.sees .comma = false := by simp [Cursor.sees_eq, hc]
  have hopen : c.sees .lbrack := by simp [Cursor.sees_eq, hc]
  simp only [hcomma, hopen, Bool.false_eq_true, ↓reduceIte]
  exact (parseScaled_moves hr).bind (atEnd_moves _)

end Operand

theorem Entry.operandLexemes_head {e : Entry} {vs : List OperandValue}
    (he : e ∈ InstructionSet.table) (h : List.Forall₂ OperandClass.Admits e.classes vs) :
    (e.operandLexemes vs).headD .endOfStatement ≠ .punct .colon := by
  have hlaid := Laid.of_check (InstructionSet.laid e he)
  unfold operandLexemes
  generalize e.classes = classes at h hlaid
  cases h
  case nil => simp
  case cons a v classes vs hv _ =>
    intro hcolon
    have hhead := hv.head hlaid.isSimple_of_cons (a.lexemesTail classes vs)
    rw [hcolon] at hhead
    simp [Lexeme.startsExpr] at hhead

open Operand OperandClass in
theorem Entry.parseAll_moves {e : Entry} {vs : List OperandValue} (he : e ∈ InstructionSet.table)
    (h : List.Forall₂ OperandClass.Admits e.classes vs) :
    Moves (parseAll e.mnemonic) [.token e.mnemonic] (e.operandLexemes vs) ()
      (.token e.mnemonic :: vs) [] := by
  have hlaid := Laid.of_check (InstructionSet.laid e he)
  unfold operandLexemes
  generalize hclasses : e.classes = classes at h hlaid
  cases hlaid
  case none =>
    cases h
    exact parseAll_none
  case one a ha =>
    obtain _ | ⟨hv, _ | _⟩ := h
    simpa [lexemesTail] using parseAll_one he (by simp [hclasses]) ha hv
  case two a b ha hb =>
    obtain _ | ⟨hv, _ | ⟨hw, _ | _⟩⟩ := h
    simp only [lexemesTail_simple ha hb]
    exact parseAll_two he (by simp [hclasses]) (by simp [hclasses]) ha hb hv hw closes_nil
      parseRest_nil
  case three a b c ha hb hc hrot =>
    obtain _ | ⟨hv, _ | ⟨hw, _ | ⟨hx, _ | _⟩⟩⟩ := h
    have hnil : c.lexemesTail [] [] = [] := rfl
    simp only [lexemesTail_simple ha hb, lexemesTail_simple hb hc, hnil, List.append_nil]
    refine parseAll_three he (by simp [hclasses]) (by simp [hclasses]) ha hb hv hw ?_
    exact parseThird_simple he (by simp [hclasses]) hc hx hrot rfl
  case scaled a b ha hb =>
    obtain _ | ⟨hv, _ | ⟨hw, _ | ⟨⟨⟩, _ | ⟨⟨n⟩, _ | ⟨⟨⟩, _ | _⟩⟩⟩⟩⟩ := h
    simp only [lexemesTail_simple ha hb, lexemesTail_scaled hb]
    refine parseAll_two he (by simp [hclasses]) (by simp [hclasses]) ha hb hv hw ?_ ?_
    · simp [Expr.Closes]
    · exact parseRest_scaled rfl
  case bitfield a b ha hb =>
    obtain _ | ⟨hv, _ | ⟨hw, _ | ⟨⟨⟩, _ | ⟨⟨⟩, _ | ⟨⟨⟩, _ | ⟨⟨⟩, _ | _⟩⟩⟩⟩⟩⟩ := h
    simp only [lexemesTail_simple ha hb, lexemesTail_bitfield hb]
    refine parseAll_three he (by simp [hclasses]) (by simp [hclasses]) ha hb hv hw ?_
    exact parseThird_bitfield he (by simp [hclasses]) (by simp [hclasses]) rfl
  case rotate a b ha hb hrot =>
    obtain _ | ⟨hv, _ | ⟨hw, _ | ⟨⟨⟩, _ | ⟨⟨⟩, _ | ⟨⟨⟩, _ | _⟩⟩⟩⟩⟩ := h
    simp only [lexemesTail_simple ha hb, lexemesTail_rotate hb]
    refine parseAll_three he (by simp [hclasses]) (by simp [hclasses]) ha hb hv hw ?_
    exact parseThird_rotate he (by simp [hclasses]) hrot rfl

end Asm88000
