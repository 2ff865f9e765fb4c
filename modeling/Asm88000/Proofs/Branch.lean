import Asm88000.Proofs.Decoding
import Asm88000.Proofs.Execution
import Asm88000.Proofs.OperandReading

namespace Asm88000

-- How far a branch can go: as far as 16 or as 26 bits that count words.
inductive Reach
  | near
  | far
  deriving DecidableEq

namespace Reach

def mnemonics : Reach → List String
  | near => ["bb0", "bb0.n", "bb1", "bb1.n", "bcnd", "bcnd.n"]
  | far  => ["br", "br.n", "bsr", "bsr.n"]

def width : Reach → Nat
  | near => 16
  | far  => 26

def kind : Reach → FixupKind
  | near => .pc16
  | far  => .pc26

def bits : Reach → Nat
  | near => 18
  | far  => 28

def span : Reach → Int
  | near => 0x40000
  | far  => 0x10000000

structure Admits (ρ : Reach) (d : Int) : Prop where
  even  : d % 2 = 0
  lower : -ρ.span ≤ d
  upper : d ≤ ρ.span - 1

def reader : Reach → SlotReader
  | near => .displacement16
  | far  => .displacement26

theorem read_reader (ρ : Reach) : ρ.reader.read = SlotReader.readDisplacement ρ.bits := by
  cases ρ <;> rfl

theorem outOfRange_const {ρ : Reach} {d : Int} :
    SlotReader.outOfRange ρ.bits (.const d) = false ↔ ρ.Admits d := by
  have hspan : ((1 <<< ρ.bits : Nat) : Int) = ρ.span := by cases ρ <;> rfl
  simp only [SlotReader.outOfRange, hspan, Bool.or_eq_false_iff, decide_eq_false_iff_not]
  constructor
  · intro ⟨⟨heven, hlower⟩, hupper⟩
    exact ⟨by omega, by omega, by omega⟩
  · intro ⟨heven, hlower, hupper⟩
    omega

end Reach

def SlotReader.isSingle : List SlotReader → Bool
  | [] | [conditionCode] | [displacement16] | [displacement26] => true
  | _                                                          => false

namespace InstructionSet

theorem slotReaders_eq_nil {mnemonic : String} {i : Nat}
    (h : ∀ e ∈ candidates mnemonic, e.classes.length ≤ i) : slotReaders mnemonic i = [] := by
  have hnone : (candidates mnemonic).filterMap (·.classes[i]?.bind OperandClass.reader?) = [] := by
    rw [List.filterMap_eq_nil_iff]
    intro e he
    rw [List.getElem?_eq_none (h e he)]
    rfl
  rw [slotReaders, hnone]
  rfl

theorem slotReaders_isSingle {ρ : Reach} {mnemonic : String} (h : mnemonic ∈ ρ.mnemonics)
    (i : Nat) : SlotReader.isSingle (slotReaders mnemonic i) := by
  have hlength : ∀ m ∈ ρ.mnemonics, ∀ e ∈ candidates m, e.classes.length ≤ 3 := by
    cases ρ <;> decide +kernel
  have hslots : ∀ m ∈ ρ.mnemonics, ∀ i < 3, SlotReader.isSingle (slotReaders m i) := by
    cases ρ <;> decide +kernel
  by_cases hi : i < 3
  case pos => exact hslots mnemonic h i hi
  case neg =>
    rw [slotReaders_eq_nil fun e he => Nat.le_trans (hlength mnemonic h e he) (Nat.le_of_not_lt hi)]
    rfl

end InstructionSet

def Operand.Passes (op : Operand) (r : SlotReader) : Prop :=
  ∀ ρ : Reach, r = ρ.reader → ∀ e, op.value = .immediate e →
    SlotReader.badDisplacement ρ.bits e = false

theorem Operand.passes_token (text : String) (loc : Loc) (r : SlotReader) :
    (token text loc).Passes r :=
  fun _ _ _ he => nomatch he

theorem Operand.passes_register (ref : RegisterRef) (r : SlotReader) : ref.operand.Passes r :=
  fun _ _ _ he => nomatch he

-- Every operand so far has passed the readers of its slot. The first one is the mnemonic.
structure Scan.IsChecked (mnemonic : String) (s : Scan) : Prop where
  begun  : s.operands ≠ []
  passes : ∀ (i : Nat) (op : Operand), s.operands[i + 1]? = some op →
    ∀ r ∈ InstructionSet.slotReaders mnemonic i, op.Passes r

namespace Scan.IsChecked

variable {mnemonic : String} {s : Scan} {op : Operand}

theorem push (h : s.IsChecked mnemonic)
    (hop : ∀ r ∈ InstructionSet.slotReaders mnemonic (s.operands.length - 1), op.Passes r) :
    IsChecked mnemonic { s with operands := s.operands ++ [op] } where
  begun  := by simp
  passes := by
    intro i op' hop' r hr
    rcases Nat.lt_or_ge (i + 1) s.operands.length with hi | hi
    · exact h.passes i op' (by simpa [List.getElem?_append_left hi] using hop') r hr
    · have hlen : i + 1 = s.operands.length := by
        have ⟨hlt, _⟩ := List.getElem?_eq_some_iff.mp hop'
        simp at hlt
        omega
      have hlast : op = op' := by simpa [hlen] using hop'
      exact hlast ▸ hop r (by rwa [← hlen, Nat.add_sub_cancel])

theorem cursor (h : s.IsChecked mnemonic) (c : Cursor) :
    IsChecked mnemonic { s with cursor := c } :=
  ⟨h.begun, h.passes⟩

end Scan.IsChecked

namespace OperandM

open Discipline

variable {mnemonic : String} {s : Scan}

def checking (mnemonic : String) : Discipline Failure Scan where
  valid      := Scan.IsChecked mnemonic
  rel s t    := s.IsChecked mnemonic → t.IsChecked mnemonic
  fails _    := True
  refl _     := id
  trans h h' := h' ∘ h
  keeps h h' := h' h

theorem push_checking {op : Operand} (h : ∀ r, op.Passes r) : (checking mnemonic).Obeys (push op) :=
  .modify fun _ _ hs => hs.push fun r _ => h r

theorem ofTokens_checking {α : Type} (p : TokenM α) : (checking mnemonic).Obeys (ofTokens p) := by
  intro s _
  unfold ofTokens
  cases hp : p s.cursor <;> simp only [Ensures, hp]
  case ok a c    => exact fun hs => hs.cursor c
  case error e c => exact ⟨fun hs => hs.cursor c, trivial⟩

theorem lets_checking : (checking mnemonic).Lets where
  skip               := .modify fun _ _ hs => hs.cursor _
  pushToken text loc := push_checking (Operand.passes_token text loc)
  pushRegister r     := push_checking (Operand.passes_register r)
  parseRegister      := ofTokens_checking _
  fail _ _           := trivial

end OperandM

namespace SlotReader

open OperandM

variable {mnemonic : String} {s : Scan} {rs : List SlotReader}

theorem isSingle_cases (h : isSingle rs) :
    rs = [] ∨ rs = [conditionCode] ∨ ∃ ρ : Reach, rs = [ρ.reader] := by
  unfold isSingle at h
  split at h
  · exact .inl rfl
  · exact .inr (.inl rfl)
  · exact .inr (.inr ⟨.near, rfl⟩)
  · exact .inr (.inr ⟨.far, rfl⟩)
  · cases h

def LeftOver (rs : List SlotReader) (s : Scan) (b : Bool) (t : Scan) : Prop :=
  b = false → t.operands = s.operands ∧
    (t.cursor.current.lexeme.startsExpr → ∀ ρ : Reach, ρ.reader ∉ rs)

theorem readConditionCode_checks (hs : s.IsChecked mnemonic)
    (hrs : InstructionSet.slotReaders mnemonic (s.operands.length - 1) = [conditionCode]) :
    Ensures readConditionCode s
      (fun b t => t.IsChecked mnemonic ∧ LeftOver [conditionCode] s b t)
      (fun _ t => t.IsChecked mnemonic) := by
  have hreader (ρ : Reach) : ρ.reader ≠ conditionCode := by cases ρ <;> simp [Reach.reader]
  simp only [readConditionCode, ensures_bind, OperandM.ensures_cursor]
  split
  case h_1 code _ =>
    refine ⟨(hs.cursor _).push fun r hr => ?_, by simp [LeftOver]⟩
    obtain rfl : r = conditionCode := by simpa [hrs] using hr
    exact fun ρ hρ => absurd hρ.symm (hreader ρ)
  case h_2 => exact ⟨hs, fun _ => ⟨rfl, fun _ ρ => by simpa using hreader ρ⟩⟩

theorem readDisplacement_checks {ρ : Reach} (hs : s.IsChecked mnemonic)
    (hrs : InstructionSet.slotReaders mnemonic (s.operands.length - 1) = [ρ.reader]) :
    Ensures (readDisplacement ρ.bits) s
      (fun b t => t.IsChecked mnemonic ∧ LeftOver [ρ.reader] s b t)
      (fun _ t => t.IsChecked mnemonic) := by
  simp only [readDisplacement, ensures_bind, OperandM.ensures_cursor]
  refine OperandM.ensures_ofTokens (fun o c hparse => ?_) fun e c => hs.cursor c
  cases o
  case none =>
    obtain ⟨hstart, hc⟩ := Expr.parse_eq_ok hparse
    exact ⟨hs.cursor c, fun _ => ⟨rfl, by simp [hc rfl, ← hstart]⟩⟩
  case some e =>
    dsimp only
    split
    case isTrue => exact hs.cursor c
    case isFalse hgood =>
      refine ⟨(hs.cursor c).push fun r hr => ?_, by simp [LeftOver]⟩
      obtain rfl : r = ρ.reader := by simpa [hrs] using hr
      intro ρ' hρ e' he'
      obtain rfl : ρ = ρ' := by cases ρ <;> cases ρ' <;> simp_all [Reach.reader]
      cases he'
      simpa using hgood

theorem readAny_singleton (r : SlotReader) : readAny [r] = r.read := by
  have hanswer (b : Bool) : (if b then return true else readAny [] : OperandM Bool) = pure b := by
    cases b <;> rfl
  rw [readAny]
  simp only [hanswer, bind_pure]

theorem readAny_checks (hs : s.IsChecked mnemonic)
    (hrs : InstructionSet.slotReaders mnemonic (s.operands.length - 1) = rs)
    (hsingle : isSingle rs) :
    Ensures (readAny rs) s (fun b t => t.IsChecked mnemonic ∧ LeftOver rs s b t)
      (fun _ t => t.IsChecked mnemonic) := by
  rcases isSingle_cases hsingle with rfl | rfl | ⟨ρ, rfl⟩
  · exact ⟨hs, fun _ => ⟨rfl, by simp⟩⟩
  · rw [readAny_singleton]
    exact readConditionCode_checks hs hrs
  · rw [readAny_singleton, ρ.read_reader]
    exact readDisplacement_checks hs hrs

end SlotReader

namespace Operand

open Discipline OperandM

theorem parseWith_checks {mnemonic : String} {s : Scan} (hs : s.IsChecked mnemonic)
    (h : SlotReader.isSingle (InstructionSet.slotReaders mnemonic (s.operands.length - 1))) :
    Ensures (parseWith (InstructionSet.slotReaders mnemonic (s.operands.length - 1))) s
      (fun _ t => t.IsChecked mnemonic) (fun _ t => t.IsChecked mnemonic) := by
  refine (SlotReader.readAny_checks hs rfl h).bind (fun b t h => ?_) fun _ _ => id
  obtain ⟨ht, hleft⟩ := h
  cases b
  case true  => exact ht
  case false =>
    obtain ⟨hops, hexpr⟩ := hleft rfl
    simp only [Bool.false_eq_true, ↓reduceIte, ensures_bind, OperandM.ensures_cursor]
    split
    case isTrue =>
      rw [ensures_bind]
      refine OperandM.ensures_ofTokens (fun o c _ => ?_) fun _ c => ht.cursor c
      cases o
      case none     => exact ht.cursor c
      case some r _ => exact (ht.cursor c).push fun _ _ => passes_register r _
    case isFalse =>
      split
      case isFalse => exact ht
      case isTrue hstart =>
        rw [ensures_bind]
        refine OperandM.ensures_ofTokens (fun o c _ => ?_) fun _ c => ht.cursor c
        cases o
        case none => exact ht.cursor c
        case some =>
          refine (ht.cursor c).push fun r hr ρ hρ => ?_
          exact absurd (hρ ▸ hops ▸ hr) (hexpr hstart ρ)

theorem parse_checking {mnemonic : String}
    (h : ∀ i, SlotReader.isSingle (InstructionSet.slotReaders mnemonic i)) :
    (checking mnemonic).Obeys (parse mnemonic) := by
  intro s hs
  rw [ensures_parse hs.begun]
  exact (parseWith_checks hs (h _)).mono (fun _ _ ht _ => ht) fun _ _ ht => ⟨fun _ => ht, trivial⟩

theorem parseAll_checks {ρ : Reach} {mnemonic : String} {loc : Loc} {c : Cursor} {scan : Scan}
    (hm : mnemonic ∈ ρ.mnemonics)
    (h : parseAll mnemonic (Scan.start mnemonic loc c) = .ok () scan) :
    scan.IsChecked mnemonic := by
  have hstart : (Scan.start mnemonic loc c).IsChecked mnemonic :=
    ⟨by simp [Scan.start], by simp [Scan.start]⟩
  have hparse := parse_checking fun i => InstructionSet.slotReaders_isSingle hm i
  exact (parseAll_obeys lets_checking hparse _ hstart).ok h hstart

theorem parseAll_colon {mnemonic : String} {loc loc' stop : Loc} {past ts : List Token}
    {scan : Scan} :
    parseAll mnemonic (Scan.start mnemonic loc ⟨past, ⟨.punct .colon, loc'⟩ :: ts, stop⟩) ≠
      .ok () scan := by
  intro h
  have hshows : (Scan.start mnemonic loc ⟨past, ⟨.punct .colon, loc'⟩ :: ts, stop⟩).Shows
      [.token mnemonic] (.punct .colon :: ts.map Token.lexeme) := ⟨rfl, rfl, rfl⟩
  have hrefuses : Moves (parse mnemonic)
      [.token mnemonic] (.punct .colon :: ts.map Token.lexeme) false
      [.token mnemonic] (.punct .colon :: ts.map Token.lexeme) :=
    parse_refuses rfl rfl (by simp) (by simp)
  have hfails : Ensures (parseAll mnemonic)
      (Scan.start mnemonic loc ⟨past, ⟨.punct .colon, loc'⟩ :: ts, stop⟩) (fun _ _ => False)
      fun _ _ => True := by
    unfold parseAll expect
    simp only [ensures_bind, OperandM.ensures_cursor]
    rw [if_pos (by simp [Scan.start, Cursor.atEnd, Cursor.current])]
    simp only [ensures_bind]
    refine (hrefuses _ hshows).mono (fun b t hb => ?_) fun _ _ => False.elim
    rw [hb.left]
    exact trivial
  exact hfails.ok h

end Operand

namespace Statement

def mnemonic? : List Token → Option String
  | ⟨.identifier _, _⟩ :: ⟨.punct .colon, _⟩ :: ts => mnemonic? ts
  | ⟨.identifier name, _⟩ :: _                     => some (Text.lowerAscii name)
  | _                                              => none

section

variable {ρ : Reach} {name mnemonic : String} {ts : List Token} {loc : Loc} {s t : Session}
variable {c : Cursor}

theorem mnemonic?_cons (h : mnemonic? (⟨.identifier name, loc⟩ :: ts) = some mnemonic)
    (hcolon : ∀ loc' ts', ts ≠ ⟨.punct .colon, loc'⟩ :: ts') : Text.lowerAscii name = mnemonic := by
  unfold mnemonic? at h
  split at h
  case h_1 heq =>
    cases heq
    exact (hcolon _ _ rfl).elim
  case h_2 heq =>
    cases heq
    exact Option.some.inj h
  case h_3 => cases h

theorem ofName?_of_mem_mnemonics (h : Text.lowerAscii name ∈ ρ.mnemonics) :
    Directive.ofName? name = none := by
  have hnone : ∀ m ∈ ρ.mnemonics,
      m ∉ [".text", ".data", ".globl", ".global", ".align", ".word"] := by
    cases ρ <;> decide
  have hm := hnone _ h
  unfold Directive.ofName?
  split <;> simp_all

theorem EmitsWords.ne_colon (h : EmitsWords s c t) (loc' : Loc) (ts' : List Token) :
    c.ahead ≠ ⟨.punct .colon, loc'⟩ :: ts' := by
  intro hc
  have hstart : c.current.lexeme.startsExpr = false := by
    simp [Cursor.current, hc, Lexeme.startsExpr]
  rcases h with ⟨hparse, _, _⟩ | ⟨hparse, _, _, _⟩
  · simpa [hstart] using (Expr.parse_eq_ok hparse).left
  · simpa [hstart] using (Expr.parse_eq_ok hparse).left

theorem Executes.branch (h : Executes s c t) (hc : mnemonic? c.ahead = some mnemonic)
    (hm : mnemonic ∈ ρ.mnemonics) :
    ∃ (u : Session) (loc : Loc) (d : Cursor) (scan : Scan) (inst : Inst),
      u.object.records = s.object.records ∧
      Operand.parseAll mnemonic (Scan.start mnemonic loc d) = .ok () scan ∧
      u.emitOperands scan.operands loc = .ok (inst, t) := by
  have hdirective {name : String} {d : Directive} (hname : Text.lowerAscii name = mnemonic)
      (hd : Directive.ofName? name = some d) : False := by
    rw [← hname] at hm
    simp [ofName?_of_mem_mnemonics hm] at hd
  induction h
  case nothing => cases hc
  case label s t u past ts stop name loc loc' hlabel _ ih =>
    have ⟨u, loc, d, scan, inst, hrecords, hparse, hemit⟩ := ih hc
    have ⟨o, message, ho, ht⟩ := Session.label_eq_ok hlabel
    have ⟨_, ho'⟩ := Object.label_eq_ok ho
    refine ⟨u, loc, d, scan, inst, hrecords.trans ?_, hparse, hemit⟩
    rw [ht, ho']
    rfl
  case require88110 =>
    have hnot : ∀ m ∈ ρ.mnemonics, m ≠ Text.lowerAscii ".requires_88110" := by
      cases ρ <;> decide
    exact (hnot mnemonic hm (mnemonic?_cons hc (by simp)).symm).elim
  case switch hd => exact (hdirective (mnemonic?_cons hc (by simp)) hd).elim
  case global hd => exact (hdirective (mnemonic?_cons hc (by simp)) hd).elim
  case align hd _ => exact (hdirective (mnemonic?_cons hc (by simp)) hd).elim
  case word hd hwords => exact (hdirective (mnemonic?_cons hc hwords.ne_colon) hd).elim
  case instruction s t past ts stop name loc scan message inst _ hparse _ hemit =>
    have hname : Text.lowerAscii name = mnemonic := by
      refine mnemonic?_cons hc fun loc' ts' hts => ?_
      rw [hts] at hparse
      exact Operand.parseAll_colon hparse
    rw [hname] at hparse
    refine ⟨_, loc, _, scan, inst, ?_, hparse, hemit⟩
    rw [Session.object_note, Session.object_reportAll]

end
end Statement

def Expr.toArg : Expr → Arg
  | const v => .imm v
  | e       => .expr e

theorem Operand.toArg?_of_immediate {op : Operand} {e : Expr} (h : op.value = .immediate e) :
    op.toArg? = some e.toArg := by
  unfold toArg?
  rw [h]
  cases e <;> rfl

theorem Expr.toArg_injective : Function.Injective toArg := by
  intro e e' h
  cases e <;> cases e' <;> simp_all [toArg]

namespace Reach

def classes : Reach → List (List OperandClass)
  | near => [[.u5, .gpr, .displacement16], [.conditionCode, .gpr, .displacement16]]
  | far  => [[.displacement26]]

def fields : Reach → List Field
  | near => [.imm 0 0 5 21 .abs16, .reg 1 16]
  | far  => []

def field : Reach → Field
  | near => .imm 2 2 16 0 .pc16
  | far  => .imm 0 2 26 0 .pc26

inductive Others : Reach → List Arg → Prop
  | near {v : Int} {r : Register} : Others near [.imm v, .reg r.id]
  | far : Others far []

end Reach

structure Entry.IsBranch (e : Entry) (ρ : Reach) : Prop where
  classes : e.classes ∈ ρ.classes
  format  : e.opcode.format = ρ.fields ++ [ρ.field]

instance (e : Entry) (ρ : Reach) : Decidable (e.IsBranch ρ) :=
  decidable_of_iff (e.classes ∈ ρ.classes ∧ e.opcode.format = ρ.fields ++ [ρ.field])
    ⟨fun ⟨h, h'⟩ => ⟨h, h'⟩, fun ⟨h, h'⟩ => ⟨h, h'⟩⟩

namespace InstructionSet

variable {ρ : Reach} {mnemonic : String} {e e' : Entry}

theorem isBranch (hm : mnemonic ∈ ρ.mnemonics) (he : e ∈ candidates mnemonic) : e.IsBranch ρ := by
  have h : ∀ m ∈ ρ.mnemonics, ∀ e ∈ candidates m, e.IsBranch ρ := by
    cases ρ <;> decide +kernel
  exact h mnemonic hm e he

theorem branch_unique (hm : mnemonic ∈ ρ.mnemonics) (he : e ∈ candidates mnemonic)
    (he' : e' ∈ candidates mnemonic) : e = e' := by
  have h : ∀ m ∈ ρ.mnemonics, ∀ e ∈ candidates m, ∀ e' ∈ candidates m, e = e' := by
    cases ρ <;> decide +kernel
  exact h mnemonic hm e he e' he'

theorem reader_mem_slotReaders (hm : mnemonic ∈ ρ.mnemonics) (he : e ∈ candidates mnemonic) :
    ρ.reader ∈ slotReaders mnemonic (e.classes.length - 1) := by
  have h : ∀ m ∈ ρ.mnemonics, ∀ e ∈ candidates m,
      ρ.reader ∈ slotReaders m (e.classes.length - 1) := by
    cases ρ <;> decide +kernel
  exact h mnemonic hm e he

end InstructionSet

namespace Entry

variable {ρ : Reach} {e : Entry} {ops : List Operand}

theorem Fits.expression {op : Operand} (h : Shape.expression.takes op.value) :
    ∃ target, op.value = .immediate target := by
  unfold Shape.takes at h
  split at h <;> simp_all

theorem Fits.branch (h : e.Fits ops) (he : e.IsBranch ρ) :
    ∃ op others target, ops[e.classes.length - 1]? = some op ∧ op.value = .immediate target ∧
      ρ.Others others ∧ (e.inst ops).args = others ++ [target.toArg] := by
  unfold Fits at h
  cases ρ
  case far =>
    have hclasses : e.classes = [.displacement26] := by simpa [Reach.classes] using he.classes
    rw [hclasses] at h ⊢
    obtain _ | ⟨hop, hnil⟩ := h
    cases hnil
    obtain ⟨target, htarget⟩ := Fits.expression hop
    refine ⟨_, [], target, rfl, htarget, .far, ?_⟩
    simp [inst, Operand.toArg?_of_immediate htarget]
  case near =>
    have hfirst : ∃ cls : OperandClass, cls.shape = .constant 31 ∧
        e.classes = [cls, .gpr, .displacement16] := by
      rcases List.mem_pair.mp he.classes with hclasses | hclasses
      · exact ⟨.u5, rfl, hclasses⟩
      · exact ⟨.conditionCode, rfl, hclasses⟩
    obtain ⟨cls, hshape, hclasses⟩ := hfirst
    rw [hclasses] at h ⊢
    obtain _ | ⟨hop₁, _ | ⟨hop₂, _ | ⟨hop₃, hnil⟩⟩⟩ := h
    cases hnil
    rw [hshape] at hop₁
    obtain ⟨a₁, ha₁, hadmits₁⟩ := Shape.toArg?_admitted hop₁ (by simp [Shape.isToken])
    obtain ⟨a₂, ha₂, hadmits₂⟩ :=
      Shape.toArg?_admitted hop₂ (by simp [OperandClass.shape, Shape.isToken])
    obtain ⟨target, htarget⟩ := Fits.expression hop₃
    obtain ⟨v, rfl⟩ : ∃ v, a₁ = .imm v := by
      cases hadmits₁
      exact ⟨_, rfl⟩
    obtain ⟨r, rfl⟩ : ∃ r : Register, a₂ = .reg r.id := by
      cases hadmits₂
      exact ⟨_, rfl⟩
    refine ⟨_, [.imm v, .reg r.id], target, rfl, htarget, .near, ?_⟩
    simp [inst, ha₁, ha₂, Operand.toArg?_of_immediate htarget]

theorem IsBranch.field_mem (he : e.IsBranch ρ) : (ρ.field, 0) ∈ e.slots := by
  refine List.mem_flatMap.mpr ⟨ρ.field, by simp [he.format], ?_⟩
  cases ρ <;> simp [Reach.field, Field.imm]

theorem IsBranch.width_field (he : e.IsBranch ρ) : e.width ρ.field = ρ.width := by
  have hwidth : ∀ classes ∈ ρ.classes,
      (classes.filter (!·.shape.isToken))[ρ.field.arg]?.elim 0 (·.window.2) = ρ.width := by
    cases ρ <;> decide
  exact hwidth e.classes he.classes

end Entry

namespace Reach

variable {ρ : Reach} {others : List Arg} {target : Expr}

def part (ρ : Reach) (target : Expr) : Nat × Option Fixup :=
  match target.value? with
  | some v => (Field.cut 2 ρ.width v, none)
  | none   => (0, some (Field.fixupFor ρ.kind target))

theorem readArg_toArg {low bits : Nat} {kind : FixupKind} (target : Expr) :
    Field.readArg (.immediate low bits kind) target.toArg = .ok (match target.value? with
      | some v => (Field.cut low bits v, none)
      | none   => (0, some (Field.fixupFor kind target))) := by
  cases target
  case const v => rfl
  all_goals
    simp only [Expr.toArg, Field.readArg]
    split <;> simp_all [pure, Except.pure]

theorem part_field (h : ρ.Others others) :
    ρ.field.part (others ++ [target.toArg]) = ρ.part target := by
  refine Field.part_eq ?_
  cases h
  case near => exact readArg_toArg target
  case far  => exact readArg_toArg target

theorem filterMap_part {e : Entry} (he : e.IsBranch ρ) (h : ρ.Others others) :
    (e.opcode.format.filterMap fun f => (f.part (others ++ [target.toArg])).2) =
      (ρ.part target).2.toList := by
  have hfields : (ρ.fields.filterMap fun f => (f.part (others ++ [target.toArg])).2) = [] := by
    rw [List.filterMap_eq_nil_iff]
    intro f hf
    cases h
    case far => cases hf
    case near v r =>
      rcases List.mem_pair.mp hf with rfl | rfl
      · rfl
      · have hread : (Field.reg 1 16).read ([.imm v, .reg r.id] ++ [target.toArg]) =
            .ok (r.number, none) := Field.readArg_register r
        rw [Field.part_eq hread]
  rw [he.format, List.filterMap_append, hfields, List.nil_append, List.filterMap_cons, part_field h]
  cases (ρ.part target).2 <;> rfl

theorem word_part {e : Entry} (he : e.IsBranch ρ) (h : ρ.Others others) :
    (e.word fun f => (f.part (others ++ [target.toArg])).1) =
      e.word fun f => if f = ρ.field then (ρ.part target).1 else (f.part others).1 := by
  refine Entry.word_congr fun f hf => ?_
  rw [he.format] at hf
  rcases List.mem_append.mp hf with hf | hf
  · have hne : ∀ f ∈ ρ.fields, f ≠ ρ.field := by cases ρ <;> decide
    rw [if_neg (hne f hf)]
    cases h
    case far  => cases hf
    case near => rcases List.mem_pair.mp hf with rfl | rfl <;> rfl
  · rw [List.mem_singleton.mp hf, if_pos rfl, part_field h]

end Reach

def Reach.number (ρ : Reach) (word : Nat) : Nat :=
  word % (1 <<< ρ.width)

-- A branch in memory: its word, what is in the field for the target, and the fixup for it.
structure Reach.Encodes (ρ : Reach) (e : Entry) (others : List Arg) (target : Expr) (r : Record) :
    Prop where
  word   : r.word = e.word fun f => if f = ρ.field then (ρ.part target).1 else (f.part others).1
  field  : ρ.number r.word = (ρ.part target).1
  fixups : r.fixups = (ρ.part target).2.toList

namespace Session

structure Accepts (s : Session) (line : Int) (text mnemonic : String) (t : Session) : Prop where
  assembled : s.assembleLine line text = .ok t
  errors    : t.errors = s.errors
  tokens    : ∃ ts stop, tokenize line text = .ok (ts ++ [⟨.endOfStatement, stop⟩]) ∧
    Statement.mnemonic? ts = some mnemonic

structure Branches (s t : Session) (mnemonic : String) (others : List Arg) (target : Expr)
    (r : Record) : Prop where
  records : t.object.records = s.object.records ++ [r]
  inst    : ∃ opcode ∈ (InstructionSet.candidates mnemonic).map (·.opcode.name), ∃ loc,
    r.inst = some ⟨some opcode, others ++ [target.toArg], some loc⟩

variable {ρ : Reach} {s t : Session} {line : Int} {text mnemonic : String}
variable {others others' : List Arg} {target target' : Expr} {r r' : Record}

theorem Branches.unique (h : s.Branches t mnemonic others target r)
    (h' : s.Branches t mnemonic others' target' r') :
    others = others' ∧ target = target' ∧ r = r' := by
  have hr : [r] = [r'] := List.append_cancel_left (h.records.symm.trans h'.records)
  obtain rfl : r = r' := by simpa using hr
  have ⟨_, _, _, hinst⟩ := h.inst
  have ⟨_, _, _, hinst'⟩ := h'.inst
  have hargs : others ++ [target.toArg] = others' ++ [target'.toArg] := by
    simpa using congrArg (Option.map Inst.args) (hinst.symm.trans hinst')
  have ⟨hothers, htarget⟩ := List.append_inj' hargs rfl
  exact ⟨hothers, Expr.toArg_injective (by simpa using htarget), rfl⟩

theorem Accepts.executes (h : s.Accepts line text mnemonic t) :
    ∃ ts stop, Statement.mnemonic? ts = some mnemonic ∧
      Statement.Executes (s.addSource line (Text.trim text)) ⟨[], ts, stop⟩ t := by
  have ⟨t', ht', hprocesses⟩ := s.assembleLine_ok line text
  obtain rfl : t' = t := Except.ok.inj (ht'.symm.trans h.assembled)
  cases hprocesses
  case abandoned d _ herrors =>
    rw [h.errors] at herrors
    simp at herrors
  case done ts stop htokens _ hexecutes _ =>
    have ⟨ts', stop', htokens', hm⟩ := h.tokens
    have heq := Except.ok.inj (htokens.symm.trans htokens')
    obtain rfl : ts = ts' := (List.append_inj' heq rfl).left
    exact ⟨ts, stop, hm, hexecutes⟩

end Session

theorem Entry.Fits.encodes_branch {ρ : Reach} {e : Entry} {ops : List Operand} {others : List Arg}
    {target : Expr} {r : Record} (h : e.Fits ops) (hlisted : e ∈ InstructionSet.table)
    (he : e.IsBranch ρ) (hothers : ρ.Others others)
    (hargs : (e.inst ops).args = others ++ [target.toArg])
    (hencode : (e.inst ops).encode = .ok (r.word, r.fixups)) : ρ.Encodes e others target r := by
  have hparts := hencode.symm.trans (h.encode_eq hlisted)
  rw [hargs] at hparts
  have ⟨hword, hfixups⟩ := Prod.mk.inj (Except.ok.inj hparts)
  refine ⟨hword.trans (Reach.word_part he hothers), ?_,
    hfixups.trans (Reach.filterMap_part he hothers)⟩
  have hnumber := (InstructionSet.isLaidOut e hlisted).number_slot (h.holds hlisted) he.field_mem
  rw [hargs, Reach.part_field hothers, he.width_field, ← hword] at hnumber
  exact hnumber

namespace Session

variable {ρ : Reach} {s t : Session} {line : Int} {text mnemonic : String}

theorem Accepts.branches (h : s.Accepts line text mnemonic t) (hm : mnemonic ∈ ρ.mnemonics) :
    ∃ e others target r, e ∈ InstructionSet.candidates mnemonic ∧
      s.Branches t mnemonic others target r ∧
      SlotReader.badDisplacement ρ.bits target = false ∧ ρ.Encodes e others target r := by
  have ⟨ts, stop, hmnemonic, hexecutes⟩ := h.executes
  have ⟨u, loc, d, scan, inst, hrecords, hparse, hemit⟩ := hexecutes.branch hmnemonic hm
  have ⟨rest, hrest, _⟩ := Statement.operands_real (Statement.start_extends hparse)
  rw [hrest] at hemit
  obtain ⟨e, i, r, hv, rfl, hr, ht⟩ := emitOperands_verdict hemit
  obtain ⟨m, hmeq, he, hfits, _, rfl⟩ := Verdict.of_ofOperands_cons hv
  obtain rfl : mnemonic = m := Except.ok.inj hmeq
  have hbranch := InstructionSet.isBranch hm he
  have hlisted := (Verdict.mem_candidates.mp he).left
  have ⟨op, others, target, hop, hvalue, hothers, hargs⟩ := hfits.branch hbranch
  have ⟨_, word, fixups, hencode, hrecord⟩ := Object.instructionRecord_eq_ok hr
  have hencode : (e.inst rest).encode = .ok (r.word, r.fixups) := by
    rw [hrecord]
    exact hencode
  refine ⟨e, others, target, r, he, ⟨?_, _, List.mem_map_of_mem he, loc, ?_⟩, ?_, ?_⟩
  · rw [ht, object_append, Object.records_append, hrecords]
    rfl
  · rw [hrecord, ← hargs]
    rfl
  · have hchecked := Operand.parseAll_checks hm hparse
    have hreader := InstructionSet.reader_mem_slotReaders hm he
    exact hchecked.passes _ op (by rw [hrest]; exact hop) _ hreader ρ rfl target hvalue
  · exact hfits.encodes_branch hlisted hbranch hothers hargs hencode

end Session
end Asm88000
