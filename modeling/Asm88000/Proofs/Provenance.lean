import Asm88000.Proofs.ExprPrinting
import Asm88000.Proofs.Fixups

namespace Asm88000

theorem Lexer.isIdentifierChar_of_mem {cs : List Char} {c : Char} (h : isIdentifier cs)
    (hc : c ∈ cs) : isIdentifierChar c := by
  cases cs
  case nil       => cases hc
  case cons d ds =>
    obtain ⟨hd, hds⟩ := Bool.and_eq_true_iff.mp h
    rcases List.mem_cons.mp hc with rfl | hc
    · exact isIdentifierChar_of_startsIdentifier hd
    · exact List.all_eq_true.mp hds c hc

def Text.IsLine (s : String) : Prop :=
  '\n' ∉ s.toList

instance (s : String) : Decidable (Text.IsLine s) :=
  inferInstanceAs (Decidable ('\n' ∉ s.toList))

namespace Text

@[simp]
theorem isLine_append {s t : String} : IsLine (s ++ t) ↔ IsLine s ∧ IsLine t := by
  simp [IsLine]

theorem isLine_intercalate {sep : String} {ss : List String} (hsep : IsLine sep)
    (h : ∀ s ∈ ss, IsLine s) : IsLine (String.intercalate sep ss) := by
  induction ss
  case nil          => simp [IsLine]
  case cons s ss ih =>
    obtain ⟨hs, hss⟩ := List.forall_mem_cons.mp h
    cases ss
    case nil       => simpa using hs
    case cons u us =>
      rw [String.intercalate_cons_cons, isLine_append, isLine_append]
      exact ⟨⟨hs, hsep⟩, ih hss⟩

theorem isLine_trim {s : String} (h : IsLine s) : IsLine (trim s) := by
  intro hmem
  rw [trim, String.toList_ofList, trimChars] at hmem
  have hdrop := (List.dropWhile_sublist isBlank).mem (List.mem_reverse.mp hmem)
  exact h ((List.dropWhile_sublist isBlank).mem (List.mem_reverse.mp hdrop))

theorem isLine_of_isIdentifier {s : String} (h : Lexer.isIdentifier s.toList) : IsLine s :=
  fun hc => absurd (Lexer.isIdentifierChar_of_mem h hc) (by decide)

end Text

theorem Numeral.isLine_render {f : Numeral} (hb : 1 < f.base) (hbase : f.base ≤ 16) (v : Int) :
    Text.IsLine (f.render v) := by
  have hdigit : ∀ d < 16, d.digitChar ≠ '\n' ∧ d.digitChar.toUpper ≠ '\n' := by decide
  have hsign : '\n' ∉ sign v := by
    unfold sign
    split <;> decide
  have hdigits : '\n' ∉ f.digits v.natAbs := by
    rw [digits_eq_map, List.mem_map]
    rintro ⟨c, hc, heq⟩
    obtain ⟨d, hd, rfl⟩ := mem_toDigits hb hc
    have hne := hdigit d (Nat.lt_of_lt_of_le hd hbase)
    split at heq
    case isTrue  => exact hne.right heq
    case isFalse => exact hne.left heq
  rw [Text.IsLine, render, String.toList_ofList, chars]
  simp only [List.mem_append, List.mem_replicate, hsign, hdigits, or_false, false_or, not_and]
  exact fun _ => by decide

namespace Expr.IsParsed

variable {e : Expr}

theorem isNamed (h : e.IsParsed) : e.isNamed := by
  induction h
  case const | symbol    => rfl
  case half ih           => exact ih
  case sum _ _ _ ihl ihr => simp [Expr.isNamed, ihl, ihr]

theorem isLine_toText (h : e.IsParsed) : Text.IsLine e.toText := by
  have hdecimal (v : Int) : Text.IsLine (decimal v) :=
    Numeral.isLine_render (f := .decimal) (by decide) (by decide) v
  induction h
  case const v      => exact hdecimal v
  case symbol hname => exact Text.isLine_of_isIdentifier hname
  case half sel sub hsel _ ih =>
    have hsel := Text.isLine_of_isIdentifier (s := sel) (isIdentifier_of_isHalfSelector hsel)
    simp only [toText, Text.isLine_append, hsel, ih]
    decide
  case sum l r _ _ _ ihl ihr =>
    cases hr : r.constant?
    case none =>
      simp only [toText_sum "+" hr, Text.isLine_append, ihl, ihr]
      decide
    case some v =>
      obtain rfl := constant?_eq_some.mp hr
      rw [toText]
      split <;> simp only [Text.isLine_append, ihl, hdecimal] <;> decide

end Expr.IsParsed

structure Token.IsIn (line : Int) (t : Token) : Prop where
  line : t.loc.line = line
  name : ∀ name, t.lexeme = .identifier name → Lexer.isIdentifier name.toList

theorem tokenize_isIn {line : Int} {text : String} {ts : List Token}
    (h : tokenize line text = .ok ts) : ∀ t ∈ ts, t.IsIn line := by
  obtain ⟨init, rfl, hexact⟩ := tokenize_eq_ok_iff.mp h
  intro t ht
  rcases List.mem_append.mp ht with ht | ht
  · obtain ⟨_, _, _, hloc, hprecedes⟩ := hexact.places t ht
    refine ⟨by rw [hloc], fun name hname => ?_⟩
    rw [hname] at hprecedes
    exact hprecedes.left
  · obtain rfl := List.mem_singleton.mp ht
    exact ⟨rfl, fun name hname => by cases hname⟩

theorem Expr.parse_isParsed {line : Int} {c d : Cursor} {o : Option Expr}
    (hc : ∀ t ∈ c.tokens, t.IsIn line) (h : parse c = .ok o d) : ∀ e ∈ o, e.IsParsed := by
  intro e he
  obtain ⟨ls, ⟨ts, rfl, hahead, _⟩, hwritten, _⟩ := (parse_ensures c).ok h e he
  refine hwritten.isParsed fun name hname => ?_
  obtain ⟨t, ht, htname⟩ := List.mem_map.mp hname
  exact (hc t (by simp [Cursor.tokens, hahead, ht])).name name htname

def Operand.IsParsed (op : Operand) : Prop :=
  ∀ e, op.value = .immediate e → e.IsParsed

structure Scan.IsIn (line : Int) (s : Scan) : Prop where
  begun    : s.operands ≠ []
  tokens   : ∀ t ∈ s.cursor.tokens, t.IsIn line
  operands : ∀ op ∈ s.operands, op.IsParsed

namespace Scan.IsIn

variable {line : Int} {s : Scan}

theorem move {c : Cursor} (h : s.IsIn line) (hc : s.cursor.LeadsTo c) :
    IsIn line { s with cursor := c } :=
  ⟨h.begun, hc.tokens ▸ h.tokens, h.operands⟩

theorem push {op : Operand} (h : s.IsIn line) (hop : op.IsParsed) :
    IsIn line { s with operands := s.operands ++ [op] } := by
  refine ⟨by simp, h.tokens, fun op' hop' => ?_⟩
  rcases List.mem_append.mp hop' with hop' | hop'
  · exact h.operands op' hop'
  · exact List.mem_singleton.mp hop' ▸ hop

end Scan.IsIn

namespace OperandM

open Discipline

variable {line : Int}

def reading (line : Int) : Discipline Failure Scan where
  valid      := Scan.IsIn line
  rel s t    := s.IsIn line → t.IsIn line
  fails _    := True
  refl _     := id
  trans h h' := h' ∘ h
  keeps h h' := h' h

theorem push_reading {op : Operand} (h : op.IsParsed) : (reading line).Obeys (push op) :=
  .modify fun _ _ hs => hs.push h

theorem ofTokens_reading {α : Type} {p : TokenM α} (h : TokenM.forward.Obeys p) :
    (reading line).Obeys (ofTokens p) := by
  intro s _
  have hforward := h s.cursor trivial
  cases hp : p s.cursor <;> simp only [Ensures, ofTokens, hp]
  case ok a c    => exact fun hs => hs.move (hforward.ok hp)
  case error e c => exact ⟨fun hs => hs.move (hforward.error hp).left, trivial⟩

theorem reads_reading : (reading line).Reads Expr.IsParsed where
  skip                 := .modify fun s _ hs => hs.move s.cursor.leadsTo_advance
  pushToken _ _        := push_reading fun _ he => by cases he
  pushRegister _       := push_reading fun _ he => by cases he
  parseRegister        := ofTokens_reading RegisterRef.parse_forward
  fail _ _             := trivial
  begun                := Scan.IsIn.begun
  const                := .const
  pushImmediate he _ _ := push_reading fun _ heq => by
    cases heq
    exact he
  warn _               := .modify fun _ _ hs => ⟨hs.begun, hs.tokens, hs.operands⟩
  parseRegister?       := ofTokens_reading RegisterRef.parse?_forward
  parseExpr s hs       := by
    have hforward := Expr.parse_forward s.cursor trivial
    cases hp : Expr.parse s.cursor <;> simp only [Ensures, ofTokens, hp]
    case ok o c =>
      exact ⟨fun hs => hs.move (hforward.ok hp), Expr.parse_isParsed hs.tokens hp⟩
    case error e c => exact ⟨fun hs => hs.move (hforward.error hp).left, trivial⟩

end OperandM

theorem Operand.parseAll_isParsed {line : Int} {mnemonic : String} {loc : Loc} {c : Cursor}
    {scan : Scan} (hc : ∀ t ∈ c.tokens, t.IsIn line)
    (h : parseAll mnemonic (Scan.start mnemonic loc c) = .ok () scan) :
    ∀ op ∈ scan.operands, op.IsParsed := by
  have hstart : (Scan.start mnemonic loc c).IsIn line := by
    refine ⟨by simp [Scan.start], hc, fun op hop => ?_⟩
    obtain rfl := List.mem_singleton.mp hop
    exact fun _ he => by cases he
  have hreads : (OperandM.reading line).Reads Expr.IsParsed := OperandM.reads_reading
  have hscan := (parseAll_obeys hreads.toLets (parse_obeys hreads mnemonic) _ hstart).ok h hstart
  exact hscan.operands

structure Fixup.IsParsed (x : Fixup) : Prop where
  kind : x.kind ∈ FixupKind.all
  expr : x.expr.IsParsed

def Content.kind? : Content → Option FixupKind
  | register           => none
  | immediate _ _ kind => some kind

theorem InstructionSet.kinds_known : ∀ e ∈ table, ∀ f ∈ e.opcode.format, ∀ k ∈ f.content.kind?,
    k ∈ FixupKind.all := by
  decide +kernel

theorem Field.fixupFor_kind {kind : FixupKind} (h : kind ∈ FixupKind.all) (e : Expr) :
    (fixupFor kind e).kind ∈ FixupKind.all := by
  cases e
  case half sel sub =>
    simp only [fixupFor]
    split <;> decide
  all_goals exact h

theorem Field.readArg_isParsed {content : Content} {a : Arg} {part : Nat × Option Fixup} {x : Fixup}
    (h : readArg content a = .ok part) (hx : part.2 = some x)
    (hkind : ∀ k ∈ content.kind?, k ∈ FixupKind.all)
    (ha : ∀ e, a.symbolic? = some e → e.IsParsed) : x.IsParsed := by
  obtain ⟨n, _⟩ := part
  cases hx
  cases content
  case register => cases (readArg_register_ok h).right.right
  case immediate low bits kind =>
    have hexpr : some x.expr = a.symbolic? := (readArg_immediate_ok h).right
    refine ⟨?_, ha x.expr hexpr.symm⟩
    cases a <;> simp only [readArg] at h
    case expr e =>
      split at h <;> cases h
      exact fixupFor_kind (hkind kind rfl) e
    all_goals cases h

structure Record.IsIn (line : Int) (r : Record) : Prop where
  loc    : ∃ loc, r.loc = some loc ∧ loc.line = line
  fixups : ∀ x ∈ r.fixups, x.IsParsed

theorem Record.IsIn.isNamed {line : Int} {r : Record} (h : r.IsIn line) : r.isNamed :=
  List.all_eq_true.mpr fun x hx => (h.fixups x hx).expr.isNamed

namespace Session

structure Gains (line : Int) (s t : Session) : Prop where
  sources : t.sources = s.sources
  records : ∃ rs, t.object.records = s.object.records ++ rs ∧ ∀ r ∈ rs, r.IsIn line
  symbols : ∃ ss, t.object.symbols = s.object.symbols ++ ss ∧
    ∀ x ∈ ss, Lexer.isIdentifier x.name.toList

variable {line : Int} {s t u : Session} {loc : Loc}

theorem Gains.of_eq (hsources : t.sources = s.sources)
    (hrecords : t.object.records = s.object.records)
    (hsymbols : t.object.symbols = s.object.symbols) : s.Gains line t where
  sources := hsources
  records := ⟨[], by simp [hrecords]⟩
  symbols := ⟨[], by simp [hsymbols]⟩

theorem Gains.refl (s : Session) : s.Gains line s :=
  .of_eq rfl rfl rfl

theorem Gains.trans (h : s.Gains line t) (h' : t.Gains line u) : s.Gains line u where
  sources := h'.sources.trans h.sources
  records := by
    obtain ⟨rs, hrs, hin⟩ := h.records
    obtain ⟨rs', hrs', hin'⟩ := h'.records
    exact ⟨rs ++ rs', by rw [hrs', hrs, List.append_assoc], List.forall_mem_append.mpr ⟨hin, hin'⟩⟩
  symbols := by
    obtain ⟨ss, hss, hname⟩ := h.symbols
    obtain ⟨ss', hss', hname'⟩ := h'.symbols
    exact ⟨ss ++ ss', by rw [hss', hss, List.append_assoc],
      List.forall_mem_append.mpr ⟨hname, hname'⟩⟩

theorem sources_append (s : Session) (r : Record) : (s.append r).sources = s.sources := by
  unfold append
  split <;> rfl

theorem gains_append {r : Record} (h : r.IsIn line) : s.Gains line (s.append r) where
  sources := s.sources_append r
  records := ⟨[r], by rw [object_append, Object.records_append], by simpa using h⟩
  symbols := ⟨[], by simp [object_append]⟩

theorem gains_reportAll (s : Session) (ds : List Diagnostic) : s.Gains line (s.reportAll ds) := by
  induction ds generalizing s
  case nil          => exact .refl s
  case cons d ds ih =>
    have hreport : s.Gains line (s.report d) := .of_eq rfl rfl rfl
    exact hreport.trans (ih (s.report d))

theorem gains_global (s : Session) (name : String) : s.Gains line (s.global name) := by
  unfold global Object.global
  split <;> exact .of_eq rfl rfl rfl

theorem gains_align {alignment : Int} (h : s.align alignment loc = .ok t) : s.Gains line t := by
  obtain ⟨o, ho, rfl⟩ := align_eq_ok h
  obtain ⟨a, -, rfl⟩ := Object.align_eq_ok ho
  exact .of_eq rfl (Object.records_setAddress _ _) (Object.symbols_setAddress _ _)

theorem gains_label {name : String} (hname : Lexer.isIdentifier name.toList)
    (h : s.label name loc = .ok t) : s.Gains line t := by
  obtain ⟨o, message, ho, rfl⟩ := label_eq_ok h
  obtain ⟨-, rfl⟩ := Object.label_eq_ok ho
  exact ⟨rfl, ⟨[], by simp [note, setObject]⟩, ⟨[_], rfl, by simpa using hname⟩⟩

theorem gains_emitWord {e : Expr} (he : e.IsParsed) (hloc : loc.line = line)
    (h : s.emitWord e loc = .ok t) : s.Gains line t := by
  obtain ⟨r, hr, rfl⟩ := emitWord_eq_ok h
  refine gains_append ?_
  unfold Object.wordRecord at hr
  split at hr
  case h_1 =>
    cases hr
    have hkind : FixupKind.abs32 ∈ FixupKind.all := by decide
    exact ⟨⟨loc, rfl, hloc⟩, by simpa using ⟨hkind, he⟩⟩
  case h_2 =>
    split at hr <;> cases hr
    exact ⟨⟨loc, rfl, hloc⟩, by simp⟩

theorem gains_emitOperands {ops : List Operand} {inst : Inst} (hops : ∀ op ∈ ops, op.IsParsed)
    (hloc : loc.line = line) (h : s.emitOperands ops loc = .ok (inst, t)) : s.Gains line t := by
  obtain ⟨e, r, he, hfits, -, rfl, hr, rfl⟩ := emitOperands_eq_ok h
  obtain ⟨-, word, fixups, hencode, rfl⟩ := Object.instructionRecord_eq_ok hr
  obtain ⟨hreads, -, rfl⟩ := Opcode.encode_eq_ok (Entry.Fits.encode_opcode he hencode)
  refine gains_append ⟨⟨loc, rfl, hloc⟩, fun x hx => ?_⟩
  obtain ⟨field, hfield, hx⟩ := List.mem_filterMap.mp hx
  obtain ⟨a, ha, hread⟩ := Field.read_eq_ok (hreads field hfield)
  obtain ⟨op, hop, harg⟩ := List.mem_filterMap.mp (List.mem_of_getElem? ha)
  have hkind := InstructionSet.kinds_known e he field hfield
  refine Field.readArg_isParsed hread hx hkind fun e' he' => ?_
  have hvalue := (op.symbolic?_toArg? e').mp (by rw [harg, Option.bind_some, he'])
  exact hops op (List.mem_of_mem_tail hop) e' hvalue.left

end Session

namespace StatementM

open Discipline

def gaining (line : Int) : Discipline Failure Run where
  valid r    := ∀ t ∈ r.cursor.tokens, t.IsIn line
  rel r q    := r.cursor.LeadsTo q.cursor ∧ r.session.Gains line q.session
  fails _    := True
  refl _     := ⟨.refl _, .refl _⟩
  trans h h' := ⟨h.left.trans h'.left, h.right.trans h'.right⟩
  keeps hr h := h.left.tokens ▸ hr

variable {line : Int}

theorem change_gaining {f : Session → Session} (h : ∀ s : Session, s.Gains line (f s)) :
    (gaining line).Obeys (change f) :=
  .modify fun r _ => ⟨.refl _, h r.session⟩

theorem tryChange_gaining {f : Session → Except Error Session}
    (h : ∀ {s t}, f s = .ok t → Session.Gains line s t) : (gaining line).Obeys (tryChange f) :=
  tryChange_obeys (fun _ ht => ⟨.refl _, h ht⟩) fun _ => trivial

theorem parseExpr_gaining :
    (gaining line).Answers (fun o => ∀ e ∈ o, e.IsParsed) (ofTokens Expr.parse) := by
  intro r hr
  have hforward := Expr.parse_forward r.cursor trivial
  cases hp : Expr.parse r.cursor <;> simp only [Ensures, ofTokens, hp]
  case ok o c    => exact ⟨⟨hforward.ok hp, .refl _⟩, Expr.parse_isParsed hr hp⟩
  case error e c => exact ⟨⟨(hforward.error hp).left, .refl _⟩, trivial⟩

end StatementM

namespace Statement

open Discipline StatementM

variable {line : Int}

theorem operands_gaining (mnemonic : String) (loc : Loc) :
    (gaining line).Answers (fun ops => ∀ op ∈ ops, op.IsParsed) (operands mnemonic loc) := by
  intro r hr
  have hsteady := Operand.parseAll_steady mnemonic (Scan.start mnemonic loc r.cursor)
    (by simp [Scan.start, OperandM.steady])
  have hwarnings (ws : List Diagnostic) : r.session.Gains line (r.session.reportAll ws) :=
    r.session.gains_reportAll ws
  unfold Ensures operands
  cases hparse : Operand.parseAll mnemonic (Scan.start mnemonic loc r.cursor)
  case error f scan => exact ⟨⟨(hsteady.error hparse).left.cursor, hwarnings _⟩, trivial⟩
  case ok scan =>
    have hleads := (hsteady.ok hparse).cursor
    dsimp only
    cases (scan.operands.drop 1).mapM Operand.describe
    case error => exact ⟨⟨hleads, hwarnings _⟩, trivial⟩
    case ok    =>
      exact ⟨⟨hleads, (hwarnings _).trans (.of_eq rfl rfl rfl)⟩,
        Operand.parseAll_isParsed hr hparse⟩

theorem emit_gaining {ops : List Operand} {loc : Loc} (hops : ∀ op ∈ ops, op.IsParsed)
    (hloc : loc.line = line) : (gaining line).Obeys (emit ops loc) := by
  intro r _
  cases h : r.session.emitOperands ops loc <;> simp only [Ensures, emit, h]
  case ok p    => exact ⟨.refl _, Session.gains_emitOperands hops hloc h⟩
  case error f => exact ⟨⟨.refl _, .refl _⟩, trivial⟩

theorem parts_gaining : AllParts (Token.IsIn line) Expr.IsParsed fun _ p =>
    (gaining line).Obeys p where
  pure           := .pure
  bind           := .bind
  cursor hf r hr := hf r.cursor hr r hr
  skip           := .modify fun r _ => ⟨r.cursor.leadsTo_advance, .refl _⟩
  expr hf        := parseExpr_gaining.bind hf
  fail _ _       := .throw trivial
  label ht       := tryChange_gaining (Session.gains_label (ht.name _ rfl))
  switch _       := change_gaining fun _ => .of_eq rfl rfl rfl
  global name    := change_gaining fun s => s.gains_global name
  align _ _      := tryChange_gaining Session.gains_align
  word he ht     := tryChange_gaining (Session.gains_emitWord he ht.line)
  require88110   := change_gaining fun _ => .of_eq rfl rfl rfl
  instruction ht := (operands_gaining _ _).bind fun _ hops =>
    (emit_gaining hops ht.line).bind fun _ => .pure ()

end Statement

namespace Session

theorem assembleLine_gains {line : Int} {text : String} {s t : Session}
    (h : s.assembleLine line text = .ok t) : (s.addSource line (Text.trim text)).Gains line t := by
  cases htok : tokenize line text
  case error e =>
    cases (assembleLine_invalid htok s).symm.trans h
    exact .of_eq rfl rfl rfl
  case ok ts =>
    obtain ⟨ts, stop, rfl, _⟩ := tokenize_ok htok
    have hrun := Statement.parts_gaining.run ⟨s.addSource line (Text.trim text), ⟨[], ts, stop⟩⟩
      (tokenize_isIn htok)
    obtain ⟨t', ht', hends⟩ := assembleLine_ensures htok hrun
    cases ht'.symm.trans h
    rcases hends with ⟨_, _, _, hgains⟩ | ⟨e, q, rfl, _, ⟨_, hgains⟩, _⟩
    · exact hgains
    · exact hgains.trans (.of_eq rfl rfl rfl)

theorem assemble_isNamed {cpu : Cpu} {codeStart dataStart : Int} {lines : List String} {t : Session}
    (h : (new cpu codeStart dataStart).assemble lines = .ok t) :
    t.object.records.all Record.isNamed := by
  have hnext (n : Nat) (l : String) (u v : Session)
      (hp : (new cpu codeStart dataStart).Passes lines n l u v)
      (hu : ∀ r ∈ u.object.records, r.isNamed) : ∀ r ∈ v.object.records, r.isNamed := by
    obtain ⟨rs, hrs, hin⟩ := (assembleLine_gains hp.after).records
    rw [hrs]
    exact List.forall_mem_append.mpr ⟨hu, fun r hr => (hin r hr).isNamed⟩
  obtain ⟨⟨t', ht', hnamed⟩, _⟩ := assemble_invariant
    (P := fun _ u => ∀ r ∈ u.object.records, r.isNamed) (by simp [new, Object.new]) hnext
  cases h.symm.trans ht'
  exact List.all_eq_true.mpr hnamed

end Session
end Asm88000
