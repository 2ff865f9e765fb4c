import Asm88000.Proofs.Branch
import Asm88000.Proofs.ExprGrammar
import Asm88000.Proofs.OperandLayout

namespace Asm88000

namespace Expr

variable {ls : List Lexeme} {e e' : Expr}

theorem Derives.comma_notMem {o : Option Expr} (h : Derives o ls e) : .punct .comma ∉ ls := by
  induction h <;> simp_all

theorem Written.comma_notMem (h : Written ls e) : .punct .comma ∉ ls := by
  obtain ⟨ls₁, ls₂, t, rfl, ht, he⟩ := h
  simp [ht.comma_notMem, he.comma_notMem]

-- There is one way to read an expression, since the parser reads it that way.
theorem Written.unique (h : Written ls e) (h' : Written ls e') : e = e' := by
  have hcursor : (Cursor.mk [] (ls.map (⟨·, ⟨0, 0⟩⟩)) ⟨0, 0⟩).lexemes = ls ++ [] := by
    simp [Cursor.lexemes, Function.comp_def]
  have hstops : Stops ls (([] : List Lexeme).headD .endOfStatement) :=
    Closes.stops (by simp [Closes]) ls
  obtain ⟨_, _, hparse, rfl, _⟩ := (h.parse_reads hstops _ hcursor).exists_ok
  obtain ⟨he, _⟩ := (h'.parse_reads hstops _ hcursor).ok hparse
  exact Option.some.inj he

end Expr

namespace SlotReader

-- How an operand that begins at `loc` may be written at a slot with some readers: its lexemes, its
-- value, and what there is to warn about.
inductive Notates (rs : List SlotReader) (loc : Loc) :
    List Lexeme → OperandValue → List Diagnostic → Prop
  | register {name : String} {r : Register} :
    Register.named? name = some r →
    Notates rs loc [.punct .percent, .identifier name] (.register r.id) []
  | expression {ls : List Lexeme} {e : Expr} :
    Expr.Written ls e → (∀ ρ : Reach, ρ.reader ∈ rs → badDisplacement ρ.bits e = false) →
    Notates rs loc ls (.immediate e) []
  | rotation {spelling : String} {v : Nat} :
    pixelRotation ∈ rs →
    Notates rs loc [.punct .less, .integer spelling v, .punct .greater]
      (.immediate (.const (v - v % 4 : Nat))) (if v % 4 = 0 then [] else [.droppedBits loc])
  | condition {l : Lexeme} {code : Nat} :
    conditionCode ∈ rs → conditionCode? l = some code →
    Notates rs loc [l] (.immediate (.const code)) []

theorem Notates.comma_notMem {rs : List SlotReader} {loc : Loc} {ls : List Lexeme}
    {v : OperandValue} {ws : List Diagnostic} (h : Notates rs loc ls v ws) :
    .punct .comma ∉ ls := by
  cases h
  case register              => simp
  case expression h          => exact h.comma_notMem
  case rotation              => simp
  case condition l code _ hl =>
    intro hcomma
    rw [List.mem_singleton] at hcomma
    simp [← hcomma, conditionCode?] at hl

theorem Notates.register_inv {rs : List SlotReader} {loc : Loc} {ls : List Lexeme} {id : Int}
    {ws : List Diagnostic} (h : Notates rs loc ls (.register id) ws) :
    ws = [] ∧ ∃ name r, ls = [.punct .percent, .identifier name] ∧ Register.named? name = some r ∧
      r.id = id := by
  cases h
  case register name r hr => exact ⟨rfl, name, r, rfl, hr, rfl⟩

theorem Notates.not_token {rs : List SlotReader} {loc : Loc} {ls : List Lexeme} {word : String}
    {ws : List Diagnostic} : ¬Notates rs loc ls (.token word) ws := by
  intro h
  cases h

def IsLone (rs : List SlotReader) : Prop :=
  isSingle rs ∨ rs = [pixelRotation]

instance (rs : List SlotReader) : Decidable (IsLone rs) :=
  inferInstanceAs (Decidable (_ ∨ _))

end SlotReader

structure Reading where
  operand  : Operand
  loc      : Loc
  lexemes  : List Lexeme
  warnings : List Diagnostic

structure Reading.Stands (x : Reading) (rs : List SlotReader) : Prop where
  notates : SlotReader.Notates rs x.loc x.lexemes x.operand.value x.warnings
  first   : x.operand.first = some x.loc

structure Scan.Takes (s : Scan) (rs : List SlotReader) (x : Reading) (t : Scan) : Prop where
  stands   : x.Stands rs
  loc      : x.loc = s.cursor.loc
  cursor   : s.cursor.Consumes x.lexemes t.cursor
  operands : t.operands = s.operands ++ [x.operand]
  warnings : t.warnings = s.warnings ++ x.warnings

theorem Scan.takes_immediate {s t : Scan} {rs : List SlotReader} {ls : List Lexeme} {e : Expr}
    {ws : List Diagnostic} (h : SlotReader.Notates rs s.cursor.loc ls (.immediate e) ws)
    (hcursor : s.cursor.Consumes ls t.cursor) (hoperands : t.operands = s.operands)
    (hwarnings : t.warnings = s.warnings ++ ws) (last : Loc) :
    s.Takes rs ⟨.immediate e s.cursor.loc last, s.cursor.loc, ls, ws⟩
      { t with operands := t.operands ++ [.immediate e s.cursor.loc last] } :=
  ⟨⟨h, rfl⟩, rfl, hcursor, by simp [hoperands], hwarnings⟩

namespace SlotReader

open OperandM

inductive Offers (rs : List SlotReader) (s : Scan) : Bool → Scan → Prop
  | taken {x : Reading} {t : Scan} : s.Takes rs x t → Offers rs s true t
  | left : (s.cursor.current.lexeme.startsExpr → ∀ ρ : Reach, ρ.reader ∉ rs) → Offers rs s false s

variable {s : Scan}

theorem readConditionCode_offers :
    Ensures readConditionCode s (Offers [conditionCode] s) fun _ _ => True := by
  simp only [readConditionCode, ensures_bind, OperandM.ensures_cursor]
  split
  case h_2 => exact .left fun _ ρ => by cases ρ <;> simp [Reach.reader]
  case h_1 code hcode =>
    have hlexeme : s.cursor.current.lexeme ≠ .endOfStatement := by
      intro hend
      rw [hend] at hcode
      cases hcode
    have hcursor := Cursor.consumes_advance rfl hlexeme
    exact .taken (Scan.takes_immediate (t := { s with cursor := s.cursor.advance })
      (.condition (by simp) hcode) hcursor rfl (by simp) _)

theorem readBracketed_consumes (h : s.cursor.sees .less) (missing unclosed : Fault) :
    Ensures (readBracketed missing unclosed) s
      (fun p t => ∃ spelling, s.cursor.Consumes
          [.punct .less, .integer spelling p.1, .punct .greater] t.cursor ∧
        t.operands = s.operands ∧ t.warnings = s.warnings)
      fun _ _ => True := by
  simp only [readBracketed, ensures_bind, OperandM.ensures_skip, OperandM.ensures_cursor]
  split
  case h_2 => exact trivial
  case h_1 spelling v hv =>
    simp only [ensures_bind, OperandM.ensures_skip, OperandM.ensures_cursor]
    split
    case isFalse => exact trivial
    case isTrue hclose =>
      have hless := Cursor.consumes_advance (of_decide_eq_true h) (by simp)
      have hinteger := Cursor.consumes_advance hv (by simp)
      have hgreater := Cursor.consumes_advance (of_decide_eq_true hclose) (by simp)
      exact ⟨spelling, hless.append (hinteger.append hgreater), rfl, rfl⟩

theorem readPixelRotation_offers :
    Ensures readPixelRotation s (Offers [pixelRotation] s) fun _ _ => True := by
  simp only [readPixelRotation, ensures_bind, OperandM.ensures_cursor]
  split
  case isFalse => exact .left fun _ ρ => by cases ρ <;> simp [Reach.reader]
  case isTrue hless =>
    rw [ensures_bind]
    refine (readBracketed_consumes hless _ _).mono (fun p t ht => ?_) fun _ _ => id
    obtain ⟨spelling, hcursor, hoperands, hwarnings⟩ := ht
    have hnotates : Notates [pixelRotation] s.cursor.loc
        [.punct .less, .integer spelling p.1, .punct .greater]
        (.immediate (.const (p.1 - p.1 % 4 : Nat)))
        (if p.1 % 4 = 0 then [] else [.droppedBits s.cursor.loc]) := .rotation (by simp)
    split
    case isTrue hodd =>
      rw [if_neg hodd] at hnotates
      exact .taken (Scan.takes_immediate
        (t := { t with warnings := t.warnings ++ [.droppedBits s.cursor.loc] })
        hnotates hcursor hoperands (by rw [hwarnings]) _)
    case isFalse heven =>
      rw [if_pos (by simpa using heven)] at hnotates
      exact .taken (Scan.takes_immediate hnotates hcursor hoperands (by simp [hwarnings]) _)

theorem readDisplacement_offers (ρ : Reach) :
    Ensures (readDisplacement ρ.bits) s (Offers [ρ.reader] s) fun _ _ => True := by
  simp only [readDisplacement, ensures_bind, OperandM.ensures_cursor]
  refine OperandM.ensures_ofTokens (fun o c hparse => ?_) fun _ _ => trivial
  cases o
  case none =>
    obtain ⟨hstart, hc⟩ := Expr.parse_eq_ok hparse
    obtain rfl := hc rfl
    exact .left fun hexpr => by simp [← hstart] at hexpr
  case some e =>
    obtain ⟨ls, hcursor, hwritten, _⟩ := (Expr.parse_ensures s.cursor).ok hparse e rfl
    dsimp only
    split
    case isTrue        => exact trivial
    case isFalse hgood =>
      have hchecked (ρ' : Reach) (hρ : ρ'.reader ∈ [ρ.reader]) :
          badDisplacement ρ'.bits e = false := by
        obtain rfl : ρ' = ρ := by cases ρ <;> cases ρ' <;> simp_all [Reach.reader]
        simpa using hgood
      exact .taken (Scan.takes_immediate (t := { s with cursor := c })
        (.expression hwritten hchecked) hcursor rfl (by simp) _)

theorem readAny_offers {rs : List SlotReader} (h : IsLone rs) :
    Ensures (readAny rs) s (Offers rs s) fun _ _ => True := by
  rcases h with h | rfl
  · rcases isSingle_cases h with rfl | rfl | ⟨ρ, rfl⟩
    · exact .left (by simp)
    · rw [readAny_singleton]
      exact readConditionCode_offers
    · rw [readAny_singleton, ρ.read_reader]
      exact readDisplacement_offers ρ
  · rw [readAny_singleton]
    exact readPixelRotation_offers

end SlotReader

namespace RegisterRef

theorem parse?_consumes {c d : Cursor} {r : RegisterRef} (h : parse? c = .ok (some r) d) :
    ∃ name, c.Consumes [.punct .percent, .identifier name] d ∧
      Register.named? name = some r.register ∧ r.first = c.loc := by
  cases hat : at? c
  case none => cases (parse?_of_none hat).symm.trans h
  case some ref =>
    cases (parse?_of_some hat).symm.trans h
    unfold at? at hat
    split at hat
    case isFalse => cases hat
    case isTrue hpercent =>
      split at hat
      case h_2 => cases hat
      case h_1 name hname =>
        obtain ⟨r, hr, rfl⟩ := Option.map_eq_some_iff.mp hat
        have hfirst := Cursor.consumes_advance (of_decide_eq_true hpercent) (by simp)
        have hsecond : c.advance.current.lexeme = .identifier name := by
          obtain ⟨past, loc, ts, stop, rfl⟩ :=
            Cursor.eq_of_current (of_decide_eq_true hpercent) (by simp)
          rw [Cursor.advance_cons (by simp)]
          cases ts <;> exact hname
        exact ⟨name, hfirst.append (Cursor.consumes_advance hsecond (by simp)), hr, rfl⟩

end RegisterRef

namespace Operand

open OperandM

variable {s : Scan} {rs : List SlotReader} {mnemonic : String}

theorem parseWith_takes (h : SlotReader.IsLone rs) :
    Ensures (parseWith rs) s (fun b t => b = true → ∃ x, s.Takes rs x t) fun _ _ => True := by
  refine (SlotReader.readAny_offers h).bind (fun b t hb => ?_) fun _ _ => id
  cases hb
  case taken x hx      => exact fun _ => ⟨x, hx⟩
  case left hexpr =>
    simp only [Bool.false_eq_true, ↓reduceIte, ensures_bind, OperandM.ensures_cursor]
    split
    case isTrue =>
      rw [ensures_bind]
      refine OperandM.ensures_ofTokens (fun o c hparse => ?_) fun _ _ => trivial
      cases o
      case none => exact trivial
      case some r =>
        obtain ⟨name, hcursor, hname, hfirst⟩ := RegisterRef.parse?_consumes hparse
        have hstands : Reading.Stands ⟨r.operand, s.cursor.loc, _, []⟩ rs :=
          ⟨.register hname, congrArg some hfirst⟩
        exact fun _ => ⟨_, hstands, rfl, hcursor, rfl, by simp⟩
    case isFalse =>
      split
      case isFalse => exact fun hfalse => by cases hfalse
      case isTrue hstart =>
        rw [ensures_bind]
        refine OperandM.ensures_ofTokens (fun o c hparse => ?_) fun _ _ => trivial
        cases o
        case none   => exact fun hfalse => by cases hfalse
        case some e =>
          obtain ⟨ls, hcursor, hwritten, _⟩ := (Expr.parse_ensures s.cursor).ok hparse e rfl
          exact fun _ => ⟨_, Scan.takes_immediate (t := { s with cursor := c })
            (.expression hwritten fun ρ hρ => absurd hρ (hexpr hstart ρ)) hcursor rfl (by simp) _⟩

theorem expect_takes {i : Nat} {f : Fault} (hs : s.operands.length = i + 1)
    (h : SlotReader.IsLone (InstructionSet.slotReaders mnemonic i)) :
    Ensures (expect mnemonic f) s
      (fun _ t => ∃ x, s.Takes (InstructionSet.slotReaders mnemonic i) x t) fun _ _ => True := by
  have hbegun : s.operands ≠ [] := by
    intro hnil
    simp [hnil] at hs
  have hi : s.operands.length - 1 = i := by omega
  unfold expect
  rw [ensures_bind, ensures_parse hbegun, hi]
  refine (parseWith_takes h).mono (fun b t hb => ?_) fun _ _ => id
  cases b
  case false => exact trivial
  case true  => exact hb rfl

theorem parse_moves_of_notates {vs : List OperandValue} {ls rest : List Lexeme} {v : OperandValue}
    {ws : List Diagnostic} {loc : Loc} {i : Nat} (hvs : vs.length = i + 1)
    (hrs : InstructionSet.slotReaders mnemonic i = rs)
    (hplain : rs = [] ∨ ∃ ρ : Reach, rs = [ρ.reader])
    (h : SlotReader.Notates rs loc ls v ws) (hrest : Expr.Closes rest) :
    Moves (parse mnemonic) vs (ls ++ rest) true (vs ++ [v]) rest := by
  have hreader {r : SlotReader} (hr : r ∈ rs) : ∃ ρ : Reach, r = ρ.reader := by
    rcases hplain with rfl | ⟨ρ, rfl⟩
    · cases hr
    · exact ⟨ρ, List.mem_singleton.mp hr⟩
  cases h
  case register hr => exact parse_register_moves hvs hr
  case rotation hr =>
    obtain ⟨ρ, hρ⟩ := hreader hr
    cases ρ <;> cases hρ
  case condition hr _ =>
    obtain ⟨ρ, hρ⟩ := hreader hr
    cases ρ <;> cases hρ
  case expression e hchecked hwritten =>
    rcases hplain with rfl | ⟨ρ, rfl⟩
    · refine parse_expr_moves hvs ?_ hwritten hrest
      rw [hrs]
      exact .pure _ _ false
    · refine parse_special_moves hvs ?_
      rw [hrs, SlotReader.readAny_singleton, ρ.read_reader]
      exact SlotReader.readDisplacement_moves hwritten hrest (hchecked ρ (by simp))

end Operand

def Scan.HasToken (s : Scan) : Prop :=
  ∃ text loc, .token text loc ∈ s.operands.tail

theorem Scan.HasToken.append {s t : Scan} {ops : List Operand} (h : s.HasToken)
    (ht : t.operands = s.operands ++ ops) : t.HasToken := by
  obtain ⟨text, loc, hmem⟩ := h
  have hs : s.operands ≠ [] := by
    intro hnil
    simp [hnil] at hmem
  refine ⟨text, loc, ?_⟩
  rw [ht, List.tail_append_of_ne_nil hs]
  exact List.mem_append_left ops hmem

theorem Scan.hasToken_push {s : Scan} (hs : s.operands ≠ []) (text : String) (loc : Loc) :
    HasToken { s with operands := s.operands ++ [.token text loc] } :=
  ⟨text, loc, List.tail_append_of_ne_nil hs ▸ by simp⟩

structure Scan.TakesThree (s : Scan) (mnemonic : String) (x y z : Reading) (t : Scan) : Prop where
  one      : x.Stands (InstructionSet.slotReaders mnemonic 0)
  two      : y.Stands (InstructionSet.slotReaders mnemonic 1)
  three    : z.Stands (InstructionSet.slotReaders mnemonic 2)
  loc      : x.loc = s.cursor.loc
  lexemes  : s.cursor.lexemes = x.lexemes ++ .punct .comma ::
    (y.lexemes ++ .punct .comma :: (z.lexemes ++ t.cursor.lexemes))
  operands : t.operands = s.operands ++ [x.operand, y.operand, z.operand]
  warnings : t.warnings = s.warnings ++ (x.warnings ++ y.warnings ++ z.warnings)

namespace Operand

open OperandM

variable {s : Scan} {mnemonic : String}

theorem atEnd_keeps (f : Fault) :
    Ensures (do if !(← cursor).atEnd then failHere f) s (fun _ t => t = s) fun _ _ => True := by
  simp only [ensures_bind, OperandM.ensures_cursor]
  split
  · exact trivial
  · exact rfl

theorem parseScaled_hasToken (hs : s.operands ≠ []) :
    Ensures parseScaled s (fun b t => b = true → t.HasToken) fun _ _ => True := by
  simp only [parseScaled, ensures_bind, OperandM.ensures_cursor]
  split
  case isFalse => exact fun hfalse => by cases hfalse
  case isTrue  =>
    simp only [ensures_bind, OperandM.ensures_skip]
    refine OperandM.ensures_ofTokens (fun r c _ => ?_) fun _ _ => trivial
    simp only [OperandM.ensures_cursor]
    split
    case isFalse => exact fun hfalse => by cases hfalse
    case isTrue  =>
      have hpush := Scan.hasToken_push hs "[" s.cursor.loc
      exact fun _ => hpush.append (List.append_assoc _ [r.operand] [.token "]" c.loc])

theorem parseThird_takes (hs : s.operands.length = 3) (hrot : mnemonic ≠ "rot")
    (h : SlotReader.IsLone (InstructionSet.slotReaders mnemonic 2)) :
    Ensures (parseThird mnemonic) s
      (fun _ t => (∃ z, s.Takes (InstructionSet.slotReaders mnemonic 2) z t) ∨ t.HasToken)
      fun _ _ => True := by
  have hnot : ∀ c : Cursor, (c.sees .less && decide (mnemonic = "rot")) = false := by simp [hrot]
  simp only [parseThird, ensures_bind, OperandM.ensures_cursor, hnot, Bool.false_eq_true,
    ↓reduceIte]
  refine (expect_takes hs h).mono (fun _ t hz => ?_) fun _ _ => id
  obtain ⟨z, hz⟩ := hz
  split
  case isFalse => exact .inl ⟨z, hz⟩
  case isTrue  =>
    have hpush := Scan.hasToken_push (s := t) (by simp [hz.operands]) "<" t.cursor.loc
    have hsteady := expect_obeys lets_steady (parse_steady mnemonic) (f := .expectedBitfieldOffset)
      (by decide) { t with operands := t.operands ++ [.token "<" t.cursor.loc] } (by simp [steady])
    rw [ensures_bind]
    refine hsteady.mono (fun _ u hu => .inr ?_) fun _ _ _ => trivial
    obtain ⟨ops, hops, _⟩ := hu.operands
    exact hpush.append hops

theorem parseRest_takes (hs : s.operands.length = 3) (hrot : mnemonic ≠ "rot")
    (h : SlotReader.IsLone (InstructionSet.slotReaders mnemonic 2)) :
    Ensures (parseRest mnemonic) s
      (fun _ t => s.cursor.sees .comma ∧ (∃ z, Scan.Takes { s with cursor := s.cursor.advance }
          (InstructionSet.slotReaders mnemonic 2) z t) ∨ t.HasToken ∨ t.operands.length < 4)
      fun _ _ => True := by
  unfold parseRest
  rw [ensures_bind, OperandM.ensures_cursor]
  split
  case isTrue hcomma =>
    rw [ensures_bind, OperandM.ensures_skip]
    refine (parseThird_takes (s := { s with cursor := s.cursor.advance }) hs hrot h).bind
      (fun _ t ht => ?_) fun _ _ => id
    refine (atEnd_keeps _).mono (fun _ u hu => ?_) fun _ _ => id
    subst hu
    exact ht.imp (fun hz => ⟨hcomma, hz⟩) .inl
  case isFalse =>
    split
    case isFalse =>
      refine (atEnd_keeps _).mono (fun _ t ht => .inr (.inr ?_)) fun _ _ => id
      simp [ht, hs]
    case isTrue =>
      have hbegun : s.operands ≠ [] := List.ne_nil_of_length_pos (by omega)
      refine (parseScaled_hasToken hbegun).bind (fun b t hb => ?_) fun _ _ => id
      cases b
      case false => exact .of_error rfl trivial
      case true =>
        refine (atEnd_keeps _).mono (fun _ u hu => .inr (.inl ?_)) fun _ _ => id
        exact hu ▸ hb rfl

theorem parseAll_takes (hs : s.operands.length = 1) (hrot : mnemonic ≠ "rot")
    (h : ∀ i < 3, SlotReader.IsLone (InstructionSet.slotReaders mnemonic i)) :
    Ensures (parseAll mnemonic) s
      (fun _ t => (∃ x y z, s.TakesThree mnemonic x y z t) ∨ t.HasToken ∨ t.operands.length < 4)
      fun _ _ => True := by
  unfold parseAll
  rw [ensures_bind, OperandM.ensures_cursor]
  split
  case isFalse => exact .inr (.inr (by simp [hs]))
  case isTrue =>
    refine (expect_takes hs (h 0 (by decide))).bind (fun _ s₁ hx => ?_) fun _ _ => id
    obtain ⟨x, hx⟩ := hx
    rw [ensures_bind, OperandM.ensures_cursor]
    split
    case isFalse =>
      refine (atEnd_keeps _).mono (fun _ t ht => .inr (.inr ?_)) fun _ _ => id
      simp [ht, hx.operands, hs]
    case isTrue hcomma =>
      have hskip := Cursor.consumes_advance (of_decide_eq_true hcomma) (by simp)
      rw [ensures_bind, OperandM.ensures_skip]
      refine (expect_takes (i := 1) (by simp [hx.operands, hs]) (h 1 (by decide))).bind
        (fun _ s₂ hy => ?_) fun _ _ => id
      obtain ⟨y, hy⟩ := hy
      have hlength : s₂.operands.length = 3 := by simp [hy.operands, hx.operands, hs]
      refine (parseRest_takes hlength hrot (h 2 (by decide))).mono (fun _ t ht => ?_) fun _ _ => id
      refine ht.imp (fun hz => ?_) id
      obtain ⟨hcomma', z, hz⟩ := hz
      have hskip' := Cursor.consumes_advance (of_decide_eq_true hcomma') (by simp)
      have hall := hx.cursor.append (hskip.append (hy.cursor.append (hskip'.append hz.cursor)))
      refine ⟨x, y, z, hx.stands, hy.stands, hz.stands, hx.loc, by simpa using hall.lexemes, ?_, ?_⟩
      · simp [hz.operands, hy.operands, hx.operands]
      · simp [hz.warnings, hy.warnings, hx.warnings]

end Operand
end Asm88000
