import Mathlib.Data.List.TakeWhile
import Asm88000.Proofs.Displacement
import Asm88000.Proofs.ExprPrinting
import Asm88000.Proofs.LineOutcome
import Asm88000.Proofs.Tokenization

namespace Asm88000

def uncommented (text : String) : String :=
  String.ofList (text.toList.takeWhile (!Lexer.startsComment ·))

theorem uncommented_eq_self {text : String} (h : ∀ c ∈ text.toList, c ∉ Lexer.commentMarks) :
    uncommented text = text := by
  have hkeep : text.toList.takeWhile (!Lexer.startsComment ·) = text.toList := by
    rw [List.takeWhile_eq_self_iff]
    intro c hc
    simpa using fun hcomment => h c hc (Lexer.startsComment_iff.mp hcomment)
  rw [uncommented, hkeep, String.ofList_toList]

namespace Lexeme

open Lexer

variable {l : Lexeme}

theorem IsValid.not_startsComment (h : l.IsValid) :
    ∀ c ∈ l.text.toList, startsComment c = false := by
  intro c hc
  cases l
  case endOfStatement => exact h.elim
  case punct p =>
    rw [text, String.toList_singleton, List.mem_singleton] at hc
    exact hc ▸ (Punct.toChar_special p).right.left
  case integer =>
    obtain ⟨r, hr⟩ := h
    exact not_startsComment_of_isIdentifierChar (hr.isIdentifierChar c hc)
  case identifier name =>
    have hchars : ∀ c ∈ name.toList, isIdentifierChar c := by
      have hname : isIdentifier name.toList := h
      cases hcs : name.toList <;> simp_all [isIdentifier, isIdentifierChar_of_startsIdentifier]
    exact not_startsComment_of_isIdentifierChar (hchars c hc)

theorem Precedes.of_ends {rest rest' : List Char} (h : l.Precedes rest)
    (he : Ends rest → Ends rest') : l.Precedes rest' := by
  cases l
  case punct          => trivial
  case endOfStatement => exact h
  case identifier     => exact h.isValid.precedes (he h.right)
  case integer        => exact h.isValid.precedes (he h.right)

end Lexeme

namespace Lexer

variable {line : Int} {col : Nat} {c : Char} {cs rest : List Char} {ls : List Lexeme}

def Lexes (cs : List Char) (ls : List Lexeme) : Prop :=
  ∀ line col, ∃ ts, Splits line col cs ts ∧ ts.map Token.lexeme = ls

namespace Lexes

theorem nil : Lexes [] [] :=
  fun _ _ => ⟨[], .nil, rfl⟩

theorem blank (hc : c ∈ blanks) (h : Lexes cs ls) : Lexes (c :: cs) ls := by
  intro line col
  obtain ⟨ts, hts, hls⟩ := h line (col + 1)
  exact ⟨ts, hts.blank hc, hls⟩

theorem front {l : Lexeme} (hl : l.Precedes rest) (h : Lexes rest ls) :
    Lexes (l.text.toList ++ rest) (l :: ls) := by
  intro line col
  obtain ⟨ts, hts, hls⟩ := h line (col + l.text.length)
  exact ⟨_, hts.front hl, by rw [List.map_cons, hls]⟩

theorem identifier {name : String} (hname : isIdentifier name.toList) (he : Ends rest)
    (h : Lexes rest ls) : Lexes (name.toList ++ rest) (.identifier name :: ls) :=
  front (l := .identifier name) ⟨hname, he⟩ h

theorem punct (p : Punct) (h : Lexes rest ls) : Lexes (p.toChar :: rest) (.punct p :: ls) := by
  have hfront := front (l := .punct p) trivial h
  rwa [Lexeme.text, String.toList_singleton] at hfront

theorem gap {gap : List Char} (hgap : gap ⊆ blanks) (h : Lexes rest ls) :
    Lexes (gap ++ rest) ls := by
  induction gap
  case nil => exact h
  case cons c gap ih =>
    obtain ⟨hc, hgap⟩ := List.cons_subset.mp hgap
    exact blank hc (ih hgap)

theorem lexemes {text : String} (h : Lexes text.toList ls) : lexemes text = .ok ls := by
  obtain ⟨ts, hts, rfl⟩ := h 1 1
  exact lexemes_of_tokenize (tokenize_of_splits hts)

end Lexes

theorem Ends.takeWhile_uncommented (h : Ends cs) : Ends (cs.takeWhile (!startsComment ·)) := by
  cases cs
  case nil => exact h
  case cons c cs =>
    rw [List.takeWhile_cons]
    split
    · exact ends_cons.mpr (ends_cons.mp h)
    · exact ends_nil

theorem Splits.lexes_append {ts : List Token} (h : Splits line col cs ts) (he : Ends rest)
    (hls : Lexes rest ls) :
    Lexes (cs.takeWhile (!startsComment ·) ++ rest) (ts.map Token.lexeme ++ ls) := by
  have hblank {gap : List Char} (hgap : gap ⊆ blanks) : ∀ c ∈ gap, (!startsComment c) = true := by
    have hblanks : blanks.all (!startsComment ·) := by decide
    exact fun c hc => List.all_eq_true.mp hblanks c (hgap hc)
  induction h
  case done gap comment hgap hcomment =>
    rw [List.takeWhile_append_of_pos (hblank hgap)]
    have hnone : comment.takeWhile (!startsComment ·) = [] := by
      cases comment
      case nil       => rfl
      case cons c cs => simp [startsComment_iff.mpr (hcomment c rfl)]
    rw [hnone, List.append_nil]
    exact hls.gap hgap
  case token gap rest' l ts hgap hl _ ih =>
    have htext : ∀ c ∈ l.text.toList, (!startsComment c) = true := fun c hc => by
      simp [hl.isValid.not_startsComment c hc]
    rw [List.append_assoc, List.takeWhile_append_of_pos (hblank hgap),
      List.takeWhile_append_of_pos htext, List.append_assoc, List.append_assoc]
    exact .gap hgap (.front (hl.of_ends fun h => h.takeWhile_uncommented.append he) ih)

end Lexer

namespace Expr

variable {e : Expr} {text selector : String} {ls : List Lexeme}

-- The text is an expression from its beginning to its end.
def IsReadFrom (e : Expr) (text : String) : Prop :=
  ∃ ts c, tokenize 1 text = .ok ts ∧ parse (Cursor.ofTokens ts) = .ok (some e) c ∧ c.ahead = []

theorem IsReadFrom.splits (h : e.IsReadFrom text) :
    ∃ ts, Lexer.Splits 1 1 text.toList ts ∧ Written (ts.map Token.lexeme) e := by
  obtain ⟨ts, c, htok, hparse, hend⟩ := h
  obtain ⟨init, rfl, hexact⟩ := tokenize_eq_ok_iff.mp htok
  rw [Cursor.ofTokens_append_stop] at hparse
  obtain ⟨ls, hconsumes, hwritten, _⟩ := (parse_ensures _).ok hparse e rfl
  have hls : init.map Token.lexeme = ls := by
    have hlexemes := hconsumes.lexemes
    rwa [Cursor.lexemes, Cursor.lexemes, hend, List.map_nil, List.append_nil] at hlexemes
  exact ⟨init, hexact.splits, hls ▸ hwritten⟩

theorem isReadFrom_of_lexemes (h : Asm88000.lexemes text = .ok ls) (he : Written ls e) :
    e.IsReadFrom text := by
  obtain ⟨ts, stop, htok, hts, _⟩ := tokenize_of_lexemes h 1
  obtain ⟨c, hc⟩ := parse_of_written (hts.map_lexeme ▸ he) stop
  exact ⟨_, c, htok, hc⟩

def halfLexemes (selector : String) (ls : List Lexeme) : List Lexeme :=
  .identifier selector :: .punct .lparen :: (ls ++ [.punct .rparen])

theorem Written.half (h : Written ls e) (hs : isHalfSelector selector) :
    Written (halfLexemes selector ls) (.half selector e) := by
  obtain ⟨ls₁, ls₂, t, rfl, ht, he⟩ := h
  refine ⟨_, [], _, ?_, .half hs ht he, .done⟩
  rw [halfLexemes, List.append_nil, List.append_assoc]

end Expr

def halfLine (mnemonic : String) (d r : Fin 32) (selector text : String) : String :=
  mnemonic ++ " %" ++ (Register.gpr d).name ++ ", %" ++ (Register.gpr r).name ++ ", " ++ selector ++
    "(" ++ uncommented text ++ ")"

structure InstructionSet.TakesHalf (mnemonic : String) : Prop where
  identifier  : Lexer.isIdentifier mnemonic.toList
  small       : Text.lowerAscii mnemonic = mnemonic
  noDirective : Statement.isDirectiveName mnemonic = false
  noRotation  : mnemonic ≠ "rot"
  readers     : slotReaders mnemonic 2 = []
  form        : ∃ e ∈ candidates mnemonic,
    e.classes = [.gpr, .gpr, .u16] ∧ e.features = [] ∧ e.opcode.format = Format.rri16

theorem InstructionSet.takesHalf_or : TakesHalf "or" :=
  ⟨by decide +kernel, by decide +kernel, by decide +kernel, by decide, by decide +kernel,
    by decide +kernel⟩

theorem InstructionSet.takesHalf_or_u : TakesHalf "or.u" :=
  ⟨by decide +kernel, by decide +kernel, by decide +kernel, by decide, by decide +kernel,
    by decide +kernel⟩

theorem Register.isIdentifier_name_gpr : ∀ i : Fin 32,
    Lexer.isIdentifier (Register.gpr i).name.toList := by
  decide +kernel

section

variable {mnemonic selector text : String} {d r : Fin 32} {e : Expr} {ts : List Token}
variable (hm : InstructionSet.TakesHalf mnemonic) (hs : Expr.isHalfSelector selector)

open Lexer in
include hm hs in
theorem hasInstruction_halfLine (h : Splits 1 1 text.toList ts) :
    HasInstruction (halfLine mnemonic d r selector text) [] mnemonic
      (twoRegisters (Register.gpr d).name (Register.gpr r).name
        (Expr.halfLexemes selector (ts.map Token.lexeme))) := by
  have hselector : isIdentifier selector.toList := Expr.isIdentifier_of_isHalfSelector hs
  have hexpr := h.lexes_append (ends_punct .rparen []) (.punct .rparen .nil)
  have hthird := Lexes.identifier hselector (ends_punct .lparen _) (.punct .lparen hexpr)
  have hsecond := Lexes.identifier (Register.isIdentifier_name_gpr r) (ends_punct .comma _)
    (.punct .comma (.blank (c := ' ') (by decide) hthird))
  have hfirst := Lexes.identifier (Register.isIdentifier_name_gpr d) (ends_punct .comma _)
    (.punct .comma (.blank (c := ' ') (by decide) (.punct .percent hsecond)))
  have hline := Lexes.identifier hm.identifier (ends_cons.mpr (by decide))
    (.blank (c := ' ') (by decide) (.punct .percent hfirst))
  refine ⟨⟨mnemonic, hm.small, Lexes.lexemes (Eq.mpr ?_ hline)⟩, by simp [twoRegisters],
    hm.noDirective⟩
  simp [halfLine, uncommented, labelLexemes, twoRegisters, Expr.halfLexemes, Punct.toChar]

open OperandM Operand in
include hm hs in
theorem parseAll_half {ls : List Lexeme} (h : Expr.Written ls e) :
    Moves (parseAll mnemonic) [.token mnemonic]
      (twoRegisters (Register.gpr d).name (Register.gpr r).name (Expr.halfLexemes selector ls)) ()
      [.token mnemonic, .register (Register.gpr d).id, .register (Register.gpr r).id,
        .immediate (.half selector e)] [] := by
  refine parseAll_twoRegisters (Register.named?_name rfl) (Register.named?_name rfl) ?_
  refine parseThird_parses (fun c _ => by simp [hm.noRotation]) ?_
  rw [← List.append_nil (Expr.halfLexemes selector ls)]
  refine parse_expr_moves (i := 2) rfl ?_ (h.half hs) closes_nil
  rw [hm.readers]
  exact .pure _ _ false

end

structure Record.HoldsHalf (x : Record) (selector : String) (e : Expr) : Prop where
  symbolic : e.hasSymbol → x.word % 2 ^ 16 = 0 ∧
    x.fixups = [Field.fixupFor .abs16 (.half selector e)]
  constant : ∀ v, e.value? = some v →
    ((x.word % 2 ^ 16 : Nat) : Int) = Expr.selectHalf selector v ∧ x.fixups = []

namespace Field

variable {args : List Arg} {i low bits place : Nat} {kind : FixupKind} {e : Expr}

theorem part_reg {r : Register} (h : args[i]? = some (.reg r.id)) :
    (reg i place).part args = (r.number, none) := by
  refine part_eq ?_
  simp only [read, reg, h, readArg_register]

theorem part_imm_value {v : Int} (h : args[i]? = some (.expr e)) (hv : e.value? = some v) :
    (imm i low bits place kind).part args = (cut low bits v, none) := by
  refine part_eq ?_
  simp only [read, imm, h, readArg, hv]
  rfl

theorem part_imm_symbol (h : args[i]? = some (.expr e)) (hv : e.value? = none) :
    (imm i low bits place kind).part args = (0, some (fixupFor kind e)) := by
  refine part_eq ?_
  simp only [read, imm, h, readArg, hv]
  rfl

theorem natCast_cut_zero (v : Int) : (cut 0 16 v : Int) = v % 0x10000 := by
  rw [cut, Int.shiftRight_zero, Int.toNat_of_nonneg (Int.emod_nonneg v (by decide))]
  rfl

end Field

theorem Format.fixups_rri16 {args : List Arg} {d r : Register} (hd : args[0]? = some (.reg d.id))
    (hr : args[1]? = some (.reg r.id)) :
    rri16.filterMap (fun f => (f.part args).2) =
      ((Field.imm 2 0 16 0 .abs16).part args).2.toList := by
  rw [rri16, List.filterMap_cons_none (by rw [Field.part_reg hd]),
    List.filterMap_cons_none (by rw [Field.part_reg hr])]
  cases h : ((Field.imm 2 0 16 0 .abs16).part args).2 <;> simp [h]

theorem Expr.selectHalf_emod (selector : String) (v : Int) :
    selectHalf selector v % 0x10000 = selectHalf selector v := by
  unfold selectHalf
  split <;> exact Int.emod_emod_of_dvd _ (Int.dvd_refl _)

theorem Session.assembleLine_halfLine {mnemonic text : String} {e : Expr} {s : Session}
    (hm : InstructionSet.TakesHalf mnemonic) (selector : String) (hs : Expr.isHalfSelector selector)
    (h : e.IsReadFrom text) (ha : s.object.address % wordSize = 0) (d r : Fin 32) (line : Int) :
    ∃ t x, s.assembleLine line (halfLine mnemonic d r selector text) = .ok t ∧
      t.diagnostics = s.diagnostics ∧ t.object.records = s.object.records ++ [x] ∧
      x.HoldsHalf selector e := by
  obtain ⟨ts, hsplits, hwritten⟩ := h.splits
  obtain ⟨k⟩ := (hasInstruction_halfLine hm hs hsplits).tokens line
  obtain ⟨scan, ops, hscan⟩ := k.exists_readsAs (parseAll_half hm hs hwritten)
  obtain ⟨entry, hentry, hclasses, hfeatures, hformat⟩ := hm.form
  have hvs : List.Forall₂ (fun cls v => cls.shape.takes v) entry.classes
      [.register (Register.gpr d).id, .register (Register.gpr r).id,
        .immediate (.half selector e)] := by
    rw [hclasses]
    exact .cons (takes_gpr d) (.cons (takes_gpr r) (.cons rfl .nil))
  obtain ⟨t, x, ht, hdiagnostics, rfl, hargs⟩ :=
    hscan.emits .nil hentry hvs (hfeatures ▸ rfl) ha
  have hslot : (.imm 2 0 16 0 .abs16, 0) ∈ x.entry.slots := by
    simp [Entry.slots, hformat, Format.rri16, Field.imm]
  have hwidth : x.entry.width (.imm 2 0 16 0 .abs16) = 16 := by
    simp only [Entry.width, Entry.argClasses, hclasses]
    rfl
  have hargs : (x.entry.inst x.operands).args =
      [.reg (Register.gpr d).id, .reg (Register.gpr r).id, .expr (.half selector e)] := hargs
  have hnumber := x.number hslot
  have hfixups := x.fixups
  rw [hargs, hwidth] at hnumber
  rw [hargs, hformat, Format.fixups_rri16 rfl rfl] at hfixups
  refine ⟨t, x.record, ht, hdiagnostics, x.records, fun hsymbol => ?_, fun v hv => ?_⟩
  · have hnone : (Expr.half selector e).value? = none := by
      rw [Expr.value?, Expr.value?_eq_none_iff.mpr hsymbol]
      rfl
    rw [Field.part_imm_symbol rfl hnone] at hnumber hfixups
    exact ⟨hnumber, hfixups⟩
  · have hsome : (Expr.half selector e).value? = some (Expr.selectHalf selector v) := by
      rw [Expr.value?, hv]
      rfl
    rw [Field.part_imm_value rfl hsome] at hnumber hfixups
    refine ⟨?_, hfixups⟩
    rw [← Expr.selectHalf_emod selector v, ← Field.natCast_cut_zero]
    exact congrArg Nat.cast hnumber

namespace Session

-- Whatever expression the two instructions have in their parentheses, the lower halves of their
-- words together are its value, or each is left to a fixup with the tree.
theorem address_halves_recombine {text : String} {e : Expr} (h : e.IsReadFrom text) (d r : Fin 32)
    (s s' : Session) (ha : s.object.address % wordSize = 0) (ha' : s'.object.address % wordSize = 0)
    (line line' : Int) :
    ((∀ c ∈ text.toList, c ∉ Lexer.commentMarks) → uncommented text = text) ∧
    ∃ t t' x x',
      s.assembleLine line (halfLine "or.u" d 0 "hi16" text) = .ok t ∧
      t.diagnostics = s.diagnostics ∧ t.object.records = s.object.records ++ [x] ∧
      s'.assembleLine line' (halfLine "or" d r "lo16" text) = .ok t' ∧
      t'.diagnostics = s'.diagnostics ∧ t'.object.records = s'.object.records ++ [x'] ∧
      (¬e.hasSymbol → ∃ v, e.value? = some v ∧ x.fixups = [] ∧ x'.fixups = [] ∧
        ((x.word % 2 ^ 16 * 2 ^ 16 + x'.word % 2 ^ 16 : Nat) : Int) = v % 2 ^ 32) ∧
      (e.hasSymbol →
        x.word % 2 ^ 16 = 0 ∧ x.fixups = [⟨.hi16, .half "hi16" e, 0⟩] ∧
        x'.word % 2 ^ 16 = 0 ∧ x'.fixups = [⟨.lo16, .half "lo16" e, 0⟩]) := by
  refine ⟨uncommented_eq_self, ?_⟩
  obtain ⟨t, x, ht, hdiagnostics, hrecords, hhigh⟩ :=
    assembleLine_halfLine InstructionSet.takesHalf_or_u "hi16" rfl h ha d 0 line
  obtain ⟨t', x', ht', hdiagnostics', hrecords', hlow⟩ :=
    assembleLine_halfLine InstructionSet.takesHalf_or "lo16" rfl h ha' d r line'
  refine ⟨t, t', x, x', ht, hdiagnostics, hrecords, ht', hdiagnostics', hrecords',
    fun hsymbol => ?_, fun hsymbol => ?_⟩
  · obtain ⟨v, hv⟩ := Option.ne_none_iff_exists'.mp (mt Expr.value?_eq_none_iff.mp hsymbol)
    obtain ⟨hword, hfixups⟩ := hhigh.constant v hv
    obtain ⟨hword', hfixups'⟩ := hlow.constant v hv
    refine ⟨v, hv, hfixups, hfixups', ?_⟩
    have hhi : Expr.selectHalf "hi16" v = v / 0x10000 % 0x10000 := rfl
    have hlo : Expr.selectHalf "lo16" v = v % 0x10000 := rfl
    rw [Nat.cast_add, Nat.cast_mul, hword, hword', hhi, hlo]
    omega
  · obtain ⟨hword, hfixups⟩ := hhigh.symbolic hsymbol
    obtain ⟨hword', hfixups'⟩ := hlow.symbolic hsymbol
    exact ⟨hword, hfixups, hword', hfixups'⟩

theorem address_halves_recombine_negative :
    (Expr.const (-69995)).IsReadFrom "5 - 0x11170 ; far" ∧
    halfLine "or" 7 31 "lo16" "5 - 0x11170 ; far" = "or %r7, %r31, lo16(5 - 0x11170 )" ∧
    ∃ t t' x x',
      (new .mc88100 0 0x1000).assembleLine 1 (halfLine "or.u" 7 0 "hi16" "5 - 0x11170 ; far") =
        .ok t ∧
      t.object.records = [x] ∧
      (new .mc88100 4 0x1000).assembleLine 2 (halfLine "or" 7 31 "lo16" "5 - 0x11170 ; far") =
        .ok t' ∧
      t'.object.records = [x'] ∧ x.fixups = [] ∧ x'.fixups = [] ∧
      x.word % 2 ^ 16 * 2 ^ 16 + x'.word % 2 ^ 16 = 2 ^ 32 - 69995 := by
  have hlexemes : lexemes "5 - 0x11170 ; far" =
      .ok [.integer "5" 5, .punct .minus, .integer "0x11170" 70000] := by decide +kernel
  have hread : (Expr.const (-69995)).IsReadFrom "5 - 0x11170 ; far" :=
    Expr.isReadFrom_of_lexemes hlexemes ⟨[_], [_, _], _, rfl, .integer, .sub .integer .done⟩
  obtain ⟨_, t, t', x, x', ht, _, hrecords, ht', _, hrecords', hvalue, _⟩ :=
    address_halves_recombine hread 7 31 (new .mc88100 0 0x1000) (new .mc88100 4 0x1000) (by decide)
      (by decide) 1 2
  obtain ⟨v, hv, hfixups, hfixups', hword⟩ := hvalue (by decide)
  cases hv
  refine ⟨hread, by decide +kernel, t, t', x, x', ht, hrecords, ht', hrecords',
    hfixups, hfixups', ?_⟩
  omega

end Session
end Asm88000
