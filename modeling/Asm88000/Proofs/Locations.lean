import Asm88000.Proofs.ExprGrammar
import Asm88000.Proofs.SessionAgreement
import Asm88000.Proofs.Tokenization

namespace Asm88000

-- A place in a line. The end of the line has a place of its own.
structure Loc.InLine (line : Int) (text : String) (l : Loc) : Prop where
  line   : l.line = line
  column : 1 ≤ l.column ∧ l.column ≤ text.length + 1

def Diagnostic.LocatedIn (line : Int) (text : String) (d : Diagnostic) : Prop :=
  ∃ loc, d.loc = some loc ∧ loc.InLine line text

theorem Lexer.Reaches.append_eq {cs before rest : List Char} (h : Reaches cs before rest) :
    before ++ rest = cs := by
  induction h
  case start         => rfl
  case blank _ _ ih  => rw [List.cons_append, ih]
  case lexeme _ _ ih => rw [List.append_assoc, ih]

section

variable {line : Int} {text : String}

theorem inLine_of_append {before rest : List Char} (h : text.toList = before ++ rest) :
    Loc.InLine line text ⟨line, before.length + 1⟩ := by
  have hlength := congrArg List.length h
  rw [String.length_toList, List.length_append] at hlength
  exact ⟨rfl, by simp only; omega⟩

theorem tokenize_inLine {ts : List Token} (h : tokenize line text = .ok ts) :
    ∀ t ∈ ts, t.loc.InLine line text := by
  obtain ⟨init, rfl, hexact⟩ := tokenize_eq_ok_iff.mp h
  intro t ht
  rcases List.mem_append.mp ht with ht | ht
  · obtain ⟨before, after, htext, hloc, _⟩ := hexact.places t ht
    rw [List.append_assoc] at htext
    exact hloc ▸ inLine_of_append htext
  · obtain rfl := List.mem_singleton.mp ht
    exact inLine_of_append (List.append_nil _).symm

theorem tokenize_error_located {e : Error} (h : tokenize line text = .error e) :
    (Diagnostic.ofError e).LocatedIn line text := by
  obtain ⟨before, rest, f, hreaches, _, rfl⟩ := tokenize_eq_error_iff.mp h
  exact ⟨_, rfl, inLine_of_append hreaches.append_eq.symm⟩

theorem Session.assembleLine_located {s t : Session} (h : s.assembleLine line text = .ok t) :
    ∃ ds, t.diagnostics = s.diagnostics ++ ds ∧ ∀ d ∈ ds, d.LocatedIn line text := by
  cases htok : tokenize line text
  case error e =>
    cases (assembleLine_invalid htok s).symm.trans h
    refine ⟨[.ofError e], rfl, fun d hd => ?_⟩
    obtain rfl := List.mem_singleton.mp hd
    exact tokenize_error_located htok
  case ok ts =>
    obtain ⟨ts, stop, rfl, _⟩ := tokenize_ok htok
    have hinline := tokenize_inLine htok
    have hsimulation := simulation_alike (L := fun l _ => l.InLine line text)
      (K := fun _ _ => True) (fun _ _ _ => trivial) s.diagnostics s.diagnostics
    have htokens : AlikeTokens (fun l _ => l.InLine line text) ts ts :=
      .refl fun t ht => hinline t (List.mem_append_left _ ht)
    have hstop : stop.InLine line text := hinline ⟨.endOfStatement, stop⟩ (by simp)
    obtain ⟨s', t', hs', ht', halike⟩ := assembleLine_agrees hsimulation
      (.refl (fun _ => trivial) s) htok htok htokens.statement hstop
    cases hs'.symm.trans ht'
    cases hs'.symm.trans h
    obtain ⟨ds, ds', hds, hds', hplaced⟩ := halike.diagnostics
    obtain rfl := List.append_cancel_left (hds.symm.trans hds')
    refine ⟨ds, hds, fun d hd => ?_⟩
    have hloc := (List.forall₂_same.mp hplaced d hd).loc
    unfold Diagnostic.LocatedIn
    generalize d.loc = o at hloc
    cases hloc
    case mk loc hloc => exact ⟨loc, rfl, hloc⟩

end

def Between (ts : List Token) (a b : Loc) : Prop :=
  ∃ t ∈ ts, ∃ u ∈ ts, t.loc = a ∧ u.loc = b ∧ a.column ≤ b.column

def Operand.Spans (ts : List Token) (op : Operand) : Prop :=
  ∃ a b, op.first = some a ∧ op.last = some b ∧ Between ts a b

def InOrder (ts : List Token) : Prop :=
  ts.Pairwise fun t u => t.loc.column < u.loc.column

theorem tokenize_inOrder {line : Int} {text : String} {ts : List Token}
    (h : tokenize line text = .ok ts) : InOrder ts := by
  obtain ⟨init, rfl, hexact⟩ := tokenize_eq_ok_iff.mp h
  have hcolumns := hexact.columns
  rw [← List.map_singleton (f := fun t : Token => t.loc.column)
    (a := ⟨.endOfStatement, ⟨line, text.toList.length + 1⟩⟩), ← List.map_append,
    List.pairwise_map] at hcolumns
  exact hcolumns

namespace Cursor

variable {c d : Cursor}

theorem current_cons (c : Cursor) : ∃ rest, c.ahead ++ [c.endToken] = c.current :: rest := by
  cases h : c.ahead
  case nil       => exact ⟨[], by simp [current, h]⟩
  case cons t ts => exact ⟨ts ++ [c.endToken], by simp [current, h]⟩

theorem peek_mem (c : Cursor) (n : Nat) : c.peek n ∈ c.ahead ++ [c.endToken] := by
  rw [peek, List.getD_eq_getElem?_getD]
  cases h : c.ahead[n]?
  case none   => simp
  case some t => simpa using .inl (List.mem_of_getElem? h)

theorem between_of_mem (h : InOrder c.tokens) {u : Token} (hu : u ∈ c.ahead ++ [c.endToken]) :
    Between c.tokens c.loc u.loc := by
  obtain ⟨rest, hrest⟩ := c.current_cons
  have htokens : c.tokens = c.past.reverse ++ c.current :: rest := by
    rw [tokens, List.append_assoc, hrest]
  refine ⟨c.current, by simp [htokens], u, ?_, rfl, rfl, ?_⟩
  case refine_1 =>
    rw [tokens, List.append_assoc]
    exact List.mem_append_right _ hu
  case refine_2 =>
    rw [hrest] at hu
    rw [InOrder, htokens] at h
    rcases List.mem_cons.mp hu with rfl | hu
    · exact Int.le_refl _
    · exact Int.le_of_lt (List.rel_of_pairwise_cons (List.pairwise_append.mp h).right.left hu)

theorem LeadsTo.between (h : c.LeadsTo d) (ho : InOrder c.tokens) :
    Between c.tokens c.loc d.loc := by
  obtain ⟨ts, hahead, _, hstop⟩ := h
  obtain ⟨rest, hrest⟩ := d.current_cons
  refine between_of_mem ho ?_
  have hmem : d.current ∈ d.ahead ++ [d.endToken] := by simp [hrest]
  rw [hahead, List.append_assoc]
  refine List.mem_append_right _ ?_
  rwa [endToken, hstop] at hmem

theorem LeadsTo.between_lastLoc (h : c.LeadsTo d) (ho : InOrder c.tokens)
    (hlt : d.ahead.length < c.ahead.length) : Between c.tokens c.loc d.lastLoc := by
  obtain ⟨ts, hahead, hpast, _⟩ := h
  rcases ts.eq_nil_or_concat with rfl | ⟨us, u, rfl⟩
  case inl => simp [hahead] at hlt
  case inr =>
    have hlast : d.lastLoc = u.loc := by simp [lastLoc, hpast]
    rw [hlast]
    exact between_of_mem ho (by simp [hahead])

end Cursor

namespace Operand

variable {ts : List Token} {a b : Loc}

theorem spans_token (h : Between ts a a) (text : String) : (token text a).Spans ts :=
  ⟨a, a, rfl, rfl, h⟩

theorem spans_immediate (h : Between ts a b) (e : Expr) : (immediate e a b).Spans ts :=
  ⟨a, b, rfl, rfl, h⟩

end Operand

structure Scan.Within (ts : List Token) (s : Scan) : Prop where
  tokens   : s.cursor.tokens = ts
  operands : ∀ op ∈ s.operands, op.Spans ts

namespace Scan.Within

variable {ts : List Token} {s : Scan} {c : Cursor}

theorem move (h : s.Within ts) (hc : s.cursor.LeadsTo c) : Within ts { s with cursor := c } :=
  ⟨hc.tokens.trans h.tokens, h.operands⟩

theorem advance (h : s.Within ts) : Within ts { s with cursor := s.cursor.advance } :=
  h.move s.cursor.leadsTo_advance

theorem push (h : s.Within ts) {op : Operand} (hop : op.Spans ts) :
    Within ts { s with operands := s.operands ++ [op] } := by
  refine ⟨h.tokens, fun op' hop' => ?_⟩
  rcases List.mem_append.mp hop' with hop' | hop'
  · exact h.operands op' hop'
  · exact List.mem_singleton.mp hop' ▸ hop

theorem warn (h : s.Within ts) (w : Diagnostic) :
    Within ts { s with warnings := s.warnings ++ [w] } :=
  ⟨h.tokens, h.operands⟩

theorem between (h : s.Within ts) (hts : InOrder ts) (hc : s.cursor.LeadsTo c) :
    Between ts s.cursor.loc c.loc := by
  obtain rfl := h.tokens
  exact hc.between hts

theorem here (h : s.Within ts) (hts : InOrder ts) : Between ts s.cursor.loc s.cursor.loc :=
  h.between hts (.refl _)

end Scan.Within

namespace OperandM

variable {α : Type}

def Locates (ts : List Token) (p : OperandM α) : Prop :=
  ∀ s, s.Within ts → Ensures p s (fun _ t => t.Within ts) fun _ _ => True

namespace Locates

variable {β : Type} {ts : List Token} {p q : OperandM α} {f : α → OperandM β}

theorem bind (hp : Locates ts p) (hf : ∀ a, Locates ts (f a)) : Locates ts (p >>= f) :=
  fun s h => (hp s h).bind (fun a t ht => hf a t ht) fun _ _ => id

theorem ite {b : Prop} [Decidable b] (hp : Locates ts p) (hq : Locates ts q) :
    Locates ts (if b then p else q) := by
  split
  · exact hp
  · exact hq

end Locates

end OperandM

section

variable {ts : List Token} (hts : InOrder ts)

include hts

open OperandM

theorem parseExpr_locates {s : Scan} (h : s.Within ts) :
    Ensures (ofTokens Expr.parse) s
      (fun o t => t.Within ts ∧ ∀ e ∈ o, Between ts s.cursor.loc t.cursor.lastLoc)
      fun _ _ => True := by
  refine ensures_ofTokens (fun o d hparse => ?_) fun _ _ => trivial
  have hleads := (Expr.parse_forward s.cursor trivial).ok hparse
  refine ⟨h.move hleads, fun e he => ?_⟩
  obtain ⟨ls, hconsumes, hwritten, _⟩ := (Expr.parse_ensures s.cursor).ok hparse e he
  have hlt : d.ahead.length < s.cursor.ahead.length := by
    have hlength := hconsumes.ahead_length
    cases ls
    case nil       => cases hwritten.headD_startsExpr [] .endOfStatement
    case cons l ls =>
      rw [List.length_cons] at hlength
      omega
  obtain rfl := h.tokens
  exact hleads.between_lastLoc hts hlt

theorem spans_at? {c : Cursor} {r : RegisterRef} (hc : c.tokens = ts)
    (h : RegisterRef.at? c = some r) : r.operand.Spans ts := by
  obtain rfl := hc
  unfold RegisterRef.at? at h
  split at h
  case isFalse => cases h
  case isTrue =>
    split at h
    case h_2 => cases h
    case h_1 =>
      obtain ⟨register, _, rfl⟩ := Option.map_eq_some_iff.mp h
      exact ⟨_, _, rfl, rfl, Cursor.between_of_mem hts (c.peek_mem 1)⟩

theorem parseRegister?_locates {s : Scan} (h : s.Within ts) :
    Ensures (ofTokens RegisterRef.parse?) s
      (fun o t => t.Within ts ∧ ∀ r ∈ o, r.operand.Spans ts) fun _ _ => True := by
  refine ensures_ofTokens (fun o d hparse => ?_) fun _ _ => trivial
  refine ⟨h.move ((RegisterRef.parse?_forward s.cursor trivial).ok hparse), fun r hr => ?_⟩
  refine spans_at? hts h.tokens ?_
  cases hat : RegisterRef.at? s.cursor
  case none =>
    cases (RegisterRef.parse?_of_none hat).symm.trans hparse
    cases hr
  case some =>
    cases (RegisterRef.parse?_of_some hat).symm.trans hparse
    exact hr

theorem parseRegister_locates {s : Scan} (h : s.Within ts) :
    Ensures (ofTokens RegisterRef.parse) s
      (fun r t => t.Within ts ∧ r.operand.Spans ts) fun _ _ => True := by
  refine ensures_ofTokens (fun r d hparse => ?_) fun _ _ => trivial
  refine ⟨h.move ((RegisterRef.parse_forward s.cursor trivial).ok hparse), ?_⟩
  refine spans_at? hts h.tokens ?_
  cases hat : RegisterRef.at? s.cursor <;> simp only [RegisterRef.parse, hat] at hparse
  case none =>
    split at hparse <;> cases hparse
  case some r =>
    cases hparse
    rfl

namespace SlotReader

theorem readBitfieldWidth_locates : Locates ts readBitfieldWidth := by
  intro s h
  have hhere := h.here hts
  have hnext := h.advance.here hts
  rw [readBitfieldWidth, ensures_bind, ensures_cursor]
  dsimp only
  split
  case h_1 v _ _ =>
    simp only [ensures_bind, ensures_skip, ensures_cursor]
    split
    case isTrue => exact h.advance.push (Operand.spans_immediate hhere _)
    case isFalse =>
      exact (((h.advance.push (Operand.spans_immediate hhere _)).push
        (Operand.spans_token hnext _)).push (Operand.spans_immediate hhere _)).push
        (Operand.spans_token hnext _)
  case h_2 => exact h.push (Operand.spans_immediate hhere _)
  case h_3 => exact h

theorem readBracketed_locates {missing unclosed : Fault} {s : Scan} (h : s.Within ts) :
    Ensures (readBracketed missing unclosed) s
      (fun p t => t.Within ts ∧ Between ts s.cursor.loc p.2 ∧ Between ts p.2 p.2)
      fun _ _ => True := by
  simp only [readBracketed, ensures_bind, ensures_skip, ensures_cursor]
  split
  case h_2 => exact trivial
  case h_1 =>
    simp only [ensures_bind, ensures_skip, ensures_cursor]
    split
    case isFalse => exact trivial
    case isTrue =>
      have hleads := s.cursor.leadsTo_advance.trans s.cursor.advance.leadsTo_advance
      exact ⟨h.advance.advance.advance, h.between hts hleads, (h.move hleads).here hts⟩

theorem readBitfieldOffset_locates : Locates ts readBitfieldOffset := by
  intro s h
  rw [readBitfieldOffset, ensures_bind, ensures_cursor]
  split
  case isFalse => exact h
  case isTrue =>
    refine (readBracketed_locates hts h).bind (fun p t hp => ?_) fun _ _ => id
    obtain ⟨ht, hopen, hclose⟩ := hp
    exact (ht.push (Operand.spans_immediate hopen _)).push (Operand.spans_token hclose _)

theorem readPixelRotation_locates : Locates ts readPixelRotation := by
  intro s h
  rw [readPixelRotation, ensures_bind, ensures_cursor]
  split
  case isFalse => exact h
  case isTrue =>
    refine (readBracketed_locates hts h).bind (fun p t hp => ?_) fun _ _ => id
    obtain ⟨ht, hopen, _⟩ := hp
    dsimp only
    split
    case isTrue  => exact (ht.warn _).push (Operand.spans_immediate hopen _)
    case isFalse => exact ht.push (Operand.spans_immediate hopen _)

theorem readConditionCode_locates : Locates ts readConditionCode := by
  intro s h
  rw [readConditionCode, ensures_bind, ensures_cursor]
  dsimp only
  split
  case h_1 => exact h.advance.push (Operand.spans_immediate (h.here hts) _)
  case h_2 => exact h

theorem readDisplacement_locates (bits : Nat) : Locates ts (readDisplacement bits) := by
  intro s h
  rw [readDisplacement, ensures_bind, ensures_cursor]
  refine (parseExpr_locates hts h).bind (fun o t ht => ?_) fun _ _ => id
  obtain ⟨ht, hspan⟩ := ht
  cases o
  case none => exact ht
  case some e =>
    dsimp only
    split
    case isTrue  => exact trivial
    case isFalse => exact ht.push (Operand.spans_immediate (hspan e rfl) e)

theorem read_locates (r : SlotReader) : Locates ts r.read := by
  cases r
  case bitfieldWidth  => exact readBitfieldWidth_locates hts
  case bitfieldOffset => exact readBitfieldOffset_locates hts
  case pixelRotation  => exact readPixelRotation_locates hts
  case conditionCode  => exact readConditionCode_locates hts
  case displacement16 => exact readDisplacement_locates hts 18
  case displacement26 => exact readDisplacement_locates hts 28

theorem readAny_locates (rs : List SlotReader) : Locates ts (readAny rs) := by
  induction rs
  case nil => exact fun s h => h
  case cons r rs ih => exact (read_locates hts r).bind fun _ => .ite (fun _ => id) ih

end SlotReader

namespace Operand

theorem parse_locates (mnemonic : String) : Locates ts (parse mnemonic) := by
  intro s h
  rw [parse, ensures_bind, ensures_get]
  split
  case h_1 => exact trivial
  case h_2 readers _ =>
    refine (SlotReader.readAny_locates hts readers s h).bind (fun b t ht => ?_) fun _ _ => id
    split
    case isTrue => exact ht
    simp only [ensures_bind, ensures_cursor]
    split
    case isTrue =>
      refine (parseRegister?_locates hts ht).bind (fun o u hu => ?_) fun _ _ => id
      obtain ⟨hu, hspan⟩ := hu
      cases o
      case none   => exact trivial
      case some r => exact hu.push (hspan r rfl)
    split
    case isFalse => exact ht
    case isTrue =>
      refine (parseExpr_locates hts ht).bind (fun o u hu => ?_) fun _ _ => id
      obtain ⟨hu, hspan⟩ := hu
      cases o
      case none   => exact hu
      case some e => exact hu.push (spans_immediate (hspan e rfl) e)

theorem expect_locates (mnemonic : String) (f : Fault) : Locates ts (expect mnemonic f) :=
  (parse_locates hts mnemonic).bind fun _ => .ite (fun _ _ => trivial) fun _ => id

theorem parseScaled_locates : Locates ts parseScaled := by
  intro s h
  rw [parseScaled, ensures_bind, ensures_cursor]
  split
  case isFalse => exact h
  case isTrue =>
    rw [ensures_bind, ensures_skip]
    refine (parseRegister_locates hts h.advance).bind (fun r t ht => ?_) fun _ _ => id
    obtain ⟨ht, hspan⟩ := ht
    rw [ensures_bind, ensures_cursor]
    split
    case isFalse => exact ht
    case isTrue =>
      exact ((ht.advance.push (spans_token (h.here hts) _)).push hspan).push
        (spans_token (ht.here hts) _)

theorem parseThird_locates (mnemonic : String) : Locates ts (parseThird mnemonic) := by
  have hoffset : Locates ts (do
      expect mnemonic .expectedRegisterOrImmediate
      let c ← cursor
      if c.sees .less then
        push (.token "<" c.loc)
        expect mnemonic .expectedBitfieldOffset) := by
    refine (expect_locates hts mnemonic _).bind fun _ s h => ?_
    rw [ensures_bind, ensures_cursor]
    split
    case isTrue  => exact expect_locates hts mnemonic _ _ (h.push (spans_token (h.here hts) _))
    case isFalse => exact h
  intro s h
  rw [parseThird, ensures_bind, ensures_cursor]
  split
  case isTrue  => exact hoffset _ (h.push (spans_token (h.here hts) _))
  case isFalse => exact hoffset s h

theorem parseAll_locates (mnemonic : String) : Locates ts (parseAll mnemonic) := by
  have hskip : Locates ts skip := fun s h => h.advance
  have hcursor : Locates ts cursor := fun s h => h
  have hend : Locates ts (do if !(← cursor).atEnd then failHere .trailingOperand) :=
    hcursor.bind fun _ => .ite (fun _ _ => trivial) fun _ => id
  have hoperand := expect_locates hts mnemonic .expectedOperand
  refine hcursor.bind fun c => .ite ?_ fun _ => id
  refine hoperand.bind fun _ => hcursor.bind fun c => .ite ?_ hend
  refine hskip.bind fun _ => hoperand.bind fun _ => hcursor.bind fun c => .ite ?_ (.ite ?_ hend)
  · exact hskip.bind fun _ => (parseThird_locates hts mnemonic).bind fun _ => hend
  · exact (parseScaled_locates hts).bind fun b => .ite (fun _ _ => trivial) hend

end Operand

end

theorem Statement.operands_located {line : Int} {text : String} {ts past : List Token} {c : Cursor}
    {name : String} {loc : Loc} {s : Session} {ops : List Operand} {q : Run}
    (htok : tokenize line text = .ok ts) (hc : c.tokens = ts)
    (hpast : c.past = ⟨.identifier name, loc⟩ :: past)
    (h : operands (Text.lowerAscii name) loc ⟨s, c⟩ = .ok ops q) : ∀ op ∈ ops, op.Spans ts := by
  obtain ⟨scan, _, hparse, rfl, _⟩ := (operands_ensures _ _ _).ok h
  have hmem : (⟨.identifier name, loc⟩ : Token) ∈ ts := by
    rw [← hc, Cursor.tokens, hpast]
    simp
  have hstart : (Scan.start (Text.lowerAscii name) loc c).Within ts := by
    refine ⟨hc, fun op hop => ?_⟩
    obtain rfl := List.mem_singleton.mp hop
    exact Operand.spans_token ⟨_, hmem, _, hmem, rfl, rfl, Int.le_refl _⟩ _
  exact ((Operand.parseAll_locates (tokenize_inOrder htok) _ _ hstart).ok hparse).operands

namespace Session

def Located (lines : List String) (s : Session) : Prop :=
  ∀ d ∈ s.diagnostics, ∃ n l, lines[n]? = some l ∧ d.LocatedIn (n + 1 : Nat) (dropLineEnds l)

theorem Located.next {s u v : Session} {lines : List String} {n : Nat} {l : String}
    (h : u.Located lines) (hp : s.Passes lines n l u v) : v.Located lines := by
  obtain ⟨ds, hds, hlocated⟩ := assembleLine_located hp.after
  intro d hd
  rcases List.mem_append.mp (hds ▸ hd) with hd | hd
  · exact h d hd
  · exact ⟨n, l, hp.line, hlocated d hd⟩

-- In every program, a line's diagnostics point into the line, and so do the operands of what is
-- read as an instruction there, each from one of the tokens up to the same or a later one.
theorem assemble_locates (cpu : Cpu) (codeStart dataStart : Int) (lines : List String) :
    ∃ t, (new cpu codeStart dataStart).assemble lines = .ok t ∧
      (∀ d ∈ t.diagnostics, ∃ n l, lines[n]? = some l ∧
        d.LocatedIn (n + 1 : Nat) (dropLineEnds l)) ∧
      ∀ n l, lines[n]? = some l →
        (∃ u v ds, (new cpu codeStart dataStart).Passes lines n l u v ∧
          v.diagnostics = u.diagnostics ++ ds ∧
          ∀ d ∈ ds, d.LocatedIn (n + 1 : Nat) (dropLineEnds l)) ∧
        ∀ ts c past name loc s ops q, tokenize (n + 1 : Nat) (dropLineEnds l) = .ok ts →
          c.tokens = ts → c.past = ⟨.identifier name, loc⟩ :: past →
          Statement.operands (Text.lowerAscii name) loc ⟨s, c⟩ = .ok ops q →
          ∀ op ∈ ops, op.Spans ts := by
  obtain ⟨⟨t, ht, hlocated⟩, hlines⟩ := assemble_invariant (s := new cpu codeStart dataStart)
    (P := fun _ => Located lines) (by simp [Located, new]) fun _ _ _ _ hp h => h.next hp
  refine ⟨t, ht, hlocated, fun n l hl => ⟨?_, ?_⟩⟩
  · obtain ⟨u, v, hpasses, _⟩ := hlines n l hl
    obtain ⟨ds, hds, hlocated⟩ := assembleLine_located hpasses.after
    exact ⟨u, v, ds, hpasses, hds, hlocated⟩
  · intro ts c past name loc s ops q htok hc hpast h
    exact Statement.operands_located htok hc hpast h

theorem assemble_locates_register :
    ∃ t q, (new .mc88100 0 0x1000).assemble ["jmp %r1", "add %r1"] = .ok t ∧
      t.diagnostics.length = 1 ∧
      (∀ d ∈ t.diagnostics, ∃ n l, ["jmp %r1", "add %r1"][n]? = some l ∧
        d.LocatedIn (n + 1 : Nat) (dropLineEnds l)) ∧
      tokenize 1 "jmp %r1" = .ok [⟨.identifier "jmp", 1, 1⟩, ⟨.punct .percent, 1, 5⟩,
        ⟨.identifier "r1", 1, 6⟩, ⟨.endOfStatement, 1, 8⟩] ∧
      Statement.operands "jmp" ⟨1, 1⟩ ⟨new .mc88100 0 0x1000, ⟨[⟨.identifier "jmp", 1, 1⟩],
        [⟨.punct .percent, 1, 5⟩, ⟨.identifier "r1", 1, 6⟩], ⟨1, 8⟩⟩⟩ =
          .ok [.token "jmp" ⟨1, 1⟩, .register (.gpr 1) ⟨1, 5⟩ ⟨1, 6⟩] q ∧
      ∀ op ∈ [Operand.token "jmp" ⟨1, 1⟩, .register (.gpr 1) ⟨1, 5⟩ ⟨1, 6⟩],
        op.Spans [⟨.identifier "jmp", 1, 1⟩, ⟨.punct .percent, 1, 5⟩, ⟨.identifier "r1", 1, 6⟩,
          ⟨.endOfStatement, 1, 8⟩] := by
  obtain ⟨t, ht, hlocated, hlines⟩ := assemble_locates .mc88100 0 0x1000 ["jmp %r1", "add %r1"]
  have hlength : ((new .mc88100 0 0x1000).assemble ["jmp %r1", "add %r1"]).map
      (fun t => t.diagnostics.length) = .ok 1 := by
    decide +kernel
  have htok : tokenize 1 "jmp %r1" = .ok [⟨.identifier "jmp", 1, 1⟩, ⟨.punct .percent, 1, 5⟩,
      ⟨.identifier "r1", 1, 6⟩, ⟨.endOfStatement, 1, 8⟩] := by
    decide +kernel
  have hrun : EStateM.run' (Statement.operands "jmp" ⟨1, 1⟩) ⟨new .mc88100 0 0x1000,
      ⟨[⟨.identifier "jmp", 1, 1⟩], [⟨.punct .percent, 1, 5⟩, ⟨.identifier "r1", 1, 6⟩], ⟨1, 8⟩⟩⟩ =
        some [.token "jmp" ⟨1, 1⟩, .register (.gpr 1) ⟨1, 5⟩ ⟨1, 6⟩] := by
    decide +kernel
  have hdrop : dropLineEnds "jmp %r1" = "jmp %r1" := by decide +kernel
  have hlower : Text.lowerAscii "jmp" = "jmp" := by decide +kernel
  rw [ht] at hlength
  obtain ⟨q, hq⟩ := eq_ok_of_run' hrun
  refine ⟨t, q, ht, Except.ok.inj hlength, hlocated, htok, hq, ?_⟩
  refine (hlines 0 "jmp %r1" rfl).right _ _ [] "jmp" ⟨1, 1⟩ _ _ q ?_ rfl rfl (hlower.symm ▸ hq)
  rw [hdrop]
  exact htok

end Session
end Asm88000
