import Asm88000.Proofs.OperandText
import Asm88000.Proofs.StatementAgreement

namespace Asm88000

def labelLexemes (names : List String) : List Lexeme :=
  names.flatMap fun name => [.identifier name, .punct .colon]

-- Symbols are defined, one after the other, wherever their labels stand.
inductive Object.Labels : Object → List String → Object → Prop
  | nil {o : Object} : Labels o [] o
  | cons {o o' o'' : Object} {name : String} {names : List String} :
    (∀ loc, o.label name loc = .ok o') → Labels o' names o'' → Labels o (name :: names) o''

theorem Object.label_anywhere {o o' : Object} {name : String} {loc : Option Loc}
    (h : o.label name loc = .ok o') (loc' : Option Loc) : o.label name loc' = .ok o' := by
  unfold label at h ⊢
  split at h
  case isTrue       => cases h
  case isFalse hnot => rwa [if_neg hnot]

theorem Object.Labels.records {o o' : Object} {names : List String} (h : o.Labels names o') :
    o'.records = o.records := by
  induction h
  case nil => rfl
  case cons hlabel _ ih =>
    obtain ⟨_, rfl⟩ := Object.label_eq_ok (hlabel none)
    exact ih

structure Session.Labelled (s : Session) (names : List String) (t : Session) : Prop where
  object      : s.object.Labels names t.object
  available   : t.available = s.available
  diagnostics : t.diagnostics = s.diagnostics

theorem TokensOn.of_append {n : Int} {ts : List Token} {ls ms : List Lexeme}
    (h : TokensOn n ts (ls ++ ms)) :
    ∃ us vs, ts = us ++ vs ∧ TokensOn n us ls ∧ TokensOn n vs ms := by
  induction ls generalizing ts
  case nil => exact ⟨[], ts, rfl, .nil, h⟩
  case cons l ls ih =>
    obtain ⟨column, ts, rfl, hrest⟩ := TokensOn.of_cons h
    obtain ⟨us, vs, rfl, hus, hvs⟩ := ih hrest
    exact ⟨_, vs, rfl, .cons hus, hvs⟩

theorem TokensOn.length_labels {n : Int} {ts : List Token} {names : List String}
    (h : TokensOn n ts (labelLexemes names)) : ts.length = 2 * names.length := by
  have hlength := congrArg List.length h.map_lexeme
  simpa [labelLexemes, Nat.mul_comm] using hlength

namespace Statement

open StatementM

variable {n : Int} {us vs : List Token} {names : List String} {s : Session} {past : List Token}
variable {stop : Loc}

theorem Executes.labelled {t : Session} (h : Executes s ⟨past, us ++ vs, stop⟩ t)
    (hus : TokensOn n us (labelLexemes names)) :
    ∃ u, s.Labelled names u ∧ Executes u ⟨us.reverse ++ past, vs, stop⟩ t := by
  induction names generalizing s past us
  case nil =>
    cases hus
    exact ⟨s, ⟨.nil, rfl, rfl⟩, h⟩
  case cons name names ih =>
    obtain ⟨column, _, rfl, hfirst⟩ := hus.of_cons
    obtain ⟨column', us, rfl, hrest⟩ := hfirst.of_cons
    cases h
    case word hwords          => exact (hwords.ne_colon _ _ rfl).elim
    case instruction hparse _ => exact (Operand.parseAll_colon hparse).elim
    case label hlabel h =>
      obtain ⟨o, message, ho, rfl⟩ := Session.label_eq_ok hlabel
      obtain ⟨u, hu, h⟩ := ih h hrest
      refine ⟨u, ⟨.cons (Object.label_anywhere ho) hu.object, hu.available, hu.diagnostics⟩, ?_⟩
      simpa using h

theorem labels_labelled {o : Object} (h : s.object.Labels names o)
    (hus : TokensOn n us (labelLexemes names)) (hvs : ¬StartsLabel vs) {k : Nat}
    (hk : names.length ≤ k) (past : List Token) (stop : Loc) :
    ∃ u, s.Labelled names u ∧ u.object = o ∧
      labels k ⟨s, ⟨past, us ++ vs, stop⟩⟩ = .ok () ⟨u, ⟨us.reverse ++ past, vs, stop⟩⟩ := by
  induction names generalizing s past us k
  case nil =>
    cases h
    cases hus
    exact ⟨s, ⟨.nil, rfl, rfl⟩, rfl, labels_stop k hvs⟩
  case cons name names ih =>
    obtain ⟨column, _, rfl, hfirst⟩ := hus.of_cons
    obtain ⟨column', us, rfl, hrest⟩ := hfirst.of_cons
    obtain ⟨k, rfl⟩ : ∃ j, k = j + 1 := ⟨k - 1, by simp at hk; omega⟩
    cases h
    case cons o' hlabel h =>
      obtain ⟨t, ht, rfl, havailable, hdiagnostics⟩ : ∃ t, s.label name ⟨n, column⟩ = .ok t ∧
          t.object = o' ∧ t.available = s.available ∧ t.diagnostics = s.diagnostics :=
        ⟨_, bind_eq_ok.mpr ⟨o', hlabel _, rfl⟩, rfl, rfl, rfl⟩
      have hchange (c : Cursor) :
          tryChange (Session.label · name ⟨n, column⟩) ⟨s, c⟩ = .ok () ⟨t, c⟩ := by
        simp only [tryChange, ht]
      obtain ⟨u, hu, ho, hlabels⟩ := ih h hrest (Nat.le_of_succ_le_succ hk) _
      refine ⟨u, ⟨.cons hlabel hu.object, hu.available.trans havailable, ?_⟩, ho, ?_⟩
      · exact hu.diagnostics.trans hdiagnostics
      · rw [List.cons_append, List.cons_append, labels_step, bind_apply_of_ok (hchange _), hlabels]
        simp

theorem Executes.emits {name : String} {loc : Loc} {ts : List Token} {t : Session}
    (h : Executes s ⟨past, ⟨.identifier name, loc⟩ :: ts, stop⟩ t)
    (hname : isDirectiveName name = false) (hlabel : ¬StartsLabel (⟨.identifier name, loc⟩ :: ts)) :
    ∃ scan message inst,
      Operand.parseAll (Text.lowerAscii name) (Scan.start (Text.lowerAscii name) loc
        ⟨⟨.identifier name, loc⟩ :: past, ts, stop⟩) = .ok () scan ∧
      scan.cursor.ahead = [] ∧
      ((s.reportAll scan.warnings).note .debug message).emitOperands scan.operands loc =
        .ok (inst, t) := by
  have hdirective {d : Directive} (hd : Directive.ofName? name = some d) : False := by
    simp [isDirectiveName_of_ofName? hd] at hname
  cases h
  case label        => exact (hlabel ⟨_, _, _, _, rfl⟩).elim
  case require88110 => simp [isDirectiveName] at hname
  case switch hd    => exact (hdirective hd).elim
  case global hd    => exact (hdirective hd).elim
  case align hd _   => exact (hdirective hd).elim
  case word hd _    => exact (hdirective hd).elim
  case instruction hend _ hparse hemit => exact ⟨_, _, _, hparse, hend, hemit⟩

end Statement

-- A line with an instruction: the names of its labels, the mnemonic, and the operands.
structure HasInstruction (text : String) (names : List String) (mnemonic : String)
    (args : List Lexeme) : Prop where
  lexemes     : ∃ name, Text.lowerAscii name = mnemonic ∧
    lexemes text = .ok (labelLexemes names ++ .identifier name :: args)
  noLabel     : args.head? ≠ some (.punct .colon)
  noDirective : Statement.isDirectiveName mnemonic = false

structure InstructionTokens (line : Int) (text : String) (names : List String) (mnemonic : String)
    (args : List Lexeme) where
  front       : List Token
  name        : String
  loc         : Loc
  back        : List Token
  stop        : Loc
  tokenized   : tokenize line text =
    .ok ((front ++ ⟨.identifier name, loc⟩ :: back) ++ [⟨.endOfStatement, stop⟩])
  labels      : TokensOn line front (labelLexemes names)
  operands    : TokensOn line back args
  mnemonic    : Text.lowerAscii name = mnemonic
  noLabel     : ¬StartsLabel (⟨.identifier name, loc⟩ :: back)
  noDirective : Statement.isDirectiveName name = false

def InstructionTokens.cursor {line : Int} {text : String} {names : List String} {mnemonic : String}
    {args : List Lexeme} (k : InstructionTokens line text names mnemonic args) : Cursor :=
  ⟨⟨.identifier k.name, k.loc⟩ :: k.front.reverse, k.back, k.stop⟩

-- An instruction that a session has carried out: its operands, the form that fits them, the object
-- behind the labels, and the record of the instruction.
structure Session.Emission (s : Session) {line : Int} {text : String} {names : List String}
    {mnemonic : String} {args : List Lexeme} (k : InstructionTokens line text names mnemonic args)
    (t : Session) where
  scan        : Scan
  operands    : List Operand
  entry       : Entry
  labelled    : Object
  record      : Record
  parsed      : Operand.parseAll mnemonic (Scan.start mnemonic k.loc k.cursor) = .ok () scan
  finished    : scan.cursor.ahead = []
  scanned     : scan.operands = .token mnemonic k.loc :: operands
  listed      : entry ∈ InstructionSet.candidates mnemonic
  fits        : entry.Fits operands
  covered     : Feature.covers s.available entry.features
  labels      : s.object.Labels names labelled
  recorded    : labelled.instructionRecord { entry.inst operands with loc := some k.loc } =
    .ok record
  object      : t.object = labelled.append record
  diagnostics : t.diagnostics = s.diagnostics ++ scan.warnings

def Session.conclude (s : Session) : Except Failure (Inst × Session) → Except Breach Session
  | .ok (_, t)         => .ok t
  | .error (.error e)  => .ok (s.report (.ofError e))
  | .error (.breach b) => .error b

section

variable {line : Int} {text : String} {names : List String} {mnemonic : String} {args : List Lexeme}
variable {s t : Session}

theorem HasInstruction.tokens (h : HasInstruction text names mnemonic args) (line : Int) :
    Nonempty (InstructionTokens line text names mnemonic args) := by
  obtain ⟨name, hname, hlexemes⟩ := h.lexemes
  obtain ⟨ts, stop, htok, hts, _⟩ := tokenize_of_lexemes hlexemes line
  obtain ⟨us, _, rfl, hus, hrest⟩ := hts.of_append
  obtain ⟨column, vs, rfl, hvs⟩ := hrest.of_cons
  have hdirective : Statement.isDirectiveName name = false := by
    rw [← isDirectiveName_lowerAscii, hname, h.noDirective]
  exact ⟨us, name, _, vs, stop, htok, hus, hvs, hname, hvs.not_startsLabel h.noLabel, hdirective⟩

namespace InstructionTokens

variable (k : InstructionTokens line text names mnemonic args)

theorem cursor_lexemes : k.cursor.lexemes = args :=
  k.operands.map_lexeme

theorem front_length : k.front.length = 2 * names.length :=
  k.labels.length_labels

theorem first_operand {l : Lexeme} {ls : List Lexeme}
    (k : InstructionTokens line text names mnemonic (l :: ls)) :
    ∃ us vs, tokenize line text = .ok (us ++ ⟨l, k.cursor.loc⟩ :: vs) ∧
      us.length = 2 * names.length + 1 := by
  obtain ⟨column, ts, hback, _⟩ := k.operands.of_cons
  refine ⟨k.front ++ [⟨.identifier k.name, k.loc⟩], ts ++ [⟨.endOfStatement, k.stop⟩], ?_, ?_⟩
  · rw [k.tokenized, cursor, hback, Cursor.loc_cons]
    simp
  · rw [List.length_append, k.front_length, List.length_singleton]

theorem exists_emission (ht : s.assembleLine line text = .ok t) (herrors : t.errors = s.errors) :
    Nonempty (s.Emission k t) := by
  obtain ⟨t', ht', hprocesses⟩ := s.assembleLine_ok line text
  obtain rfl : t' = t := Except.ok.inj (ht'.symm.trans ht)
  cases hprocesses
  case abandoned d _ herrors' =>
    rw [herrors] at herrors'
    simp at herrors'
  case done ts stop htok _ hexecutes _ =>
    have heq := Except.ok.inj (htok.symm.trans k.tokenized)
    obtain ⟨rfl, hstop⟩ := List.append_inj' heq rfl
    cases hstop
    obtain ⟨u, hu, hexecutes⟩ := hexecutes.labelled k.labels
    obtain ⟨scan, message, inst, hparse, hend, hemit⟩ :=
      hexecutes.emits k.noDirective k.noLabel
    rw [k.mnemonic, List.append_nil] at hparse
    obtain ⟨ops, hops, _⟩ := Statement.operands_real (Statement.start_extends hparse)
    rw [hops] at hemit
    obtain ⟨e, i, r, hv, rfl, hr, rfl⟩ := Session.emitOperands_verdict hemit
    obtain ⟨m, hm, he, hfits, hs, rfl⟩ := Verdict.of_ofOperands_cons hv
    obtain rfl : mnemonic = m := Except.ok.inj hm
    rw [Session.object_note, Session.object_reportAll] at hr
    refine ⟨scan, ops, e, u.object, r, hparse, hend, hops, he, hfits, ?_, hu.object, hr, ?_, ?_⟩
    · rwa [Session.note, Session.available_reportAll, hu.available] at hs
    · rw [Session.object_append, Session.object_note, Session.object_reportAll]
    · rw [Session.diagnostics_append, Session.note, Session.diagnostics_reportAll, hu.diagnostics]
      rfl

-- Behind labels that can be defined, a line whose operands can be read comes to what is emitted.
theorem assembleLine_of_parse {o : Object} {scan : Scan} (ho : s.object.Labels names o)
    (hparse : Operand.parseAll mnemonic (Scan.start mnemonic k.loc k.cursor) = .ok () scan) :
    ∃ v : Session, v.object = o ∧ v.available = s.available ∧
      v.diagnostics = s.diagnostics ++ scan.warnings ∧
      s.assembleLine line text = v.conclude (v.emitOperands scan.operands k.loc) := by
  have hlength : names.length ≤ (k.front ++ ⟨.identifier k.name, k.loc⟩ :: k.back).length := by
    rw [List.length_append, k.front_length]
    omega
  have ho' : (s.addSource line (Text.trim text)).object.Labels names o := ho
  obtain ⟨u, hu, rfl, hlabels⟩ :=
    Statement.labels_labelled ho' k.labels k.noLabel hlength [] k.stop
  obtain ⟨message, hoperands⟩ := Statement.operands_eq_ok (r := ⟨u, k.cursor⟩) hparse
  refine ⟨(u.reportAll scan.warnings).note .debug message, ?_, ?_, ?_, ?_⟩
  · rw [Session.object_note, Session.object_reportAll]
  · exact (Session.available_reportAll u _).trans hu.available
  · exact (Session.diagnostics_reportAll u _).trans (congrArg (· ++ _) hu.diagnostics)
  · rw [List.append_nil] at hlabels
    have hrun := Statement.run_of_labels (r := ⟨_, ⟨[], _, _⟩⟩) hlabels
    rw [if_neg (by simp [k.noDirective]), k.mnemonic] at hrun
    replace hrun := hrun.trans (bind_apply_of_ok hoperands)
    simp only [Session.assembleLine, k.tokenized, Cursor.ofTokens_append_stop, hrun]
    generalize (u.reportAll scan.warnings).note .debug message = v
    simp only [bind, EStateM.bind, Statement.emit]
    cases v.emitOperands scan.operands k.loc
    case ok p    => rfl
    case error f => cases f <;> rfl

end InstructionTokens

namespace Session.Emission

variable {k : InstructionTokens line text names mnemonic args} (x : s.Emission k t)

theorem listed_table : x.entry ∈ InstructionSet.table :=
  (Verdict.mem_candidates.mp x.listed).left

theorem records : t.object.records = s.object.records ++ [x.record] := by
  rw [x.object, Object.records_append, x.labels.records]

theorem word : x.record.word = x.entry.word fun f => (f.part (x.entry.inst x.operands).args).1 := by
  obtain ⟨_, word, fixups, hencode, hrecord⟩ := Object.instructionRecord_eq_ok x.recorded
  have hencode' := x.fits.encode_eq x.listed_table
  cases hencode.symm.trans hencode'
  rw [hrecord]

theorem field_of_value {f : Field} {place : Nat} {cls : OperandClass} {a : Arg} {v : Int}
    (hf : (f, place) ∈ x.entry.slots) (hcls : x.entry.argClasses[f.arg]? = some cls)
    (ha : (x.entry.inst x.operands).args[f.arg]? = some a) (hv : a.value? = some v) :
    ((x.record.word >>> place % (1 <<< cls.window.2) : Nat) : Int) = cls.kept v := by
  have hnumber := x.fits.number_of_value x.listed_table hf hcls ha hv
  simp only [Entry.width, hcls, Option.elim_some] at hnumber
  rw [x.word, hnumber]

end Session.Emission

structure InstructionSet.IsTernary (mnemonic : String) : Prop where
  noRotation : mnemonic ≠ "rot"
  lone       : ∀ i < 3, SlotReader.IsLone (slotReaders mnemonic i)
  forms      : ∀ e ∈ candidates mnemonic, e.classes.length = 3 ∧ e.argClasses = e.classes

theorem append_cons_inj_front {α : Type} {a : α} {xs ys us vs : List α} (hxs : a ∉ xs)
    (hus : a ∉ us) (h : xs ++ a :: ys = us ++ a :: vs) : xs = us ∧ ys = vs := by
  rcases List.append_eq_append_iff.mp h with ⟨ws, rfl, hws⟩ | ⟨ws, rfl, hws⟩
  all_goals cases ws <;> simp_all

theorem append_cons_inj_back {α : Type} {a : α} {xs ys us vs : List α} (hys : a ∉ ys)
    (hvs : a ∉ vs) (h : xs ++ a :: ys = us ++ a :: vs) : xs = us ∧ ys = vs := by
  rcases List.append_eq_append_iff.mp h with ⟨ws, rfl, hws⟩ | ⟨ws, rfl, hws⟩
  all_goals cases ws <;> simp_all

namespace Entry.Fits

variable {e : Entry} {ops : List Operand}

theorem token_notMem (h : e.Fits ops) (he : e.argClasses = e.classes) (word : String) (loc : Loc) :
    .token word loc ∉ ops := by
  intro hmem
  obtain ⟨i, hop⟩ := List.mem_iff_getElem?.mp hmem
  obtain ⟨cls, hcls, htakes⟩ := forall₂_getElem? h.flip hop
  have hplain := List.filter_eq_self.mp he cls (List.mem_of_getElem? hcls)
  cases cls <;> first | cases htakes | cases hplain

theorem getElem?_args (h : e.Fits ops) (he : e.argClasses = e.classes) {i : Nat} {op : Operand}
    (hop : ops[i]? = some op) : (e.inst ops).args[i]? = op.toArg? := by
  have hplain : ∀ cls ∈ e.classes, ¬cls.shape.isToken := by simpa [argClasses] using he
  unfold Fits at h
  simp only [inst]
  generalize e.classes = classes at h hplain
  induction h generalizing i
  case nil => cases hop
  case cons cls first _ rest htakes _ ih =>
    rw [List.forall_mem_cons] at hplain
    obtain ⟨arg, harg, _⟩ := Shape.toArg?_admitted htakes hplain.left
    rw [List.filterMap_cons_some harg]
    cases i
    case zero =>
      cases hop
      exact harg.symm
    case succ i => exact ih hop hplain.right

end Entry.Fits

namespace Session.Emission

variable {k : InstructionTokens line text names mnemonic args} (x : s.Emission k t)

structure Three (a b c : Reading) : Prop where
  one      : a.Stands (InstructionSet.slotReaders mnemonic 0)
  two      : b.Stands (InstructionSet.slotReaders mnemonic 1)
  three    : c.Stands (InstructionSet.slotReaders mnemonic 2)
  loc      : a.loc = k.cursor.loc
  lexemes  : args = a.lexemes ++ .punct .comma :: (b.lexemes ++ .punct .comma :: c.lexemes)
  operands : x.operands = [a.operand, b.operand, c.operand]
  warnings : x.scan.warnings = a.warnings ++ b.warnings ++ c.warnings

theorem exists_three (h : InstructionSet.IsTernary mnemonic) : ∃ a b c, x.Three a b c := by
  obtain ⟨hlength, hplain⟩ := h.forms x.entry x.listed
  have hops : x.operands.length = 3 := x.fits.length_eq ▸ hlength
  have htakes := (Operand.parseAll_takes (s := Scan.start mnemonic k.loc k.cursor) rfl h.noRotation
    h.lone).ok x.parsed
  rcases htakes with ⟨a, b, c, habc⟩ | ⟨word, loc, htoken⟩ | hfew
  · have hend : x.scan.cursor.lexemes = [] := congrArg (List.map Token.lexeme) x.finished
    have hlexemes := habc.lexemes
    have hoperands := x.scanned.symm.trans habc.operands
    rw [hend, List.append_nil] at hlexemes
    exact ⟨a, b, c, habc.one, habc.two, habc.three, habc.loc, k.cursor_lexemes.symm.trans hlexemes,
      List.tail_eq_of_cons_eq hoperands, habc.warnings⟩
  · rw [x.scanned] at htoken
    exact (x.fits.token_notMem hplain word loc htoken).elim
  · rw [x.scanned, List.length_cons] at hfew
    omega

theorem field (h : InstructionSet.IsTernary mnemonic) {f : Field} {place : Nat} {cls : OperandClass}
    {op : Operand} {v : Int} (hf : (f, place) ∈ x.entry.slots)
    (hcls : x.entry.classes[f.arg]? = some cls) (hop : x.operands[f.arg]? = some op)
    (hv : op.value = .immediate (.const v)) :
    ((x.record.word >>> place % (1 <<< cls.window.2) : Nat) : Int) = cls.kept v := by
  obtain ⟨_, hplain⟩ := h.forms x.entry x.listed
  rw [← hplain] at hcls
  have harg := (x.fits.getElem?_args hplain hop).trans (Operand.toArg?_of_immediate hv)
  exact x.field_of_value hf hcls harg rfl

end Session.Emission

end
end Asm88000
