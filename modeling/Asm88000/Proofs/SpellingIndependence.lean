import Asm88000.Proofs.Register
import Asm88000.Proofs.SessionAgreement

namespace Asm88000

def Register.SameName (a b : String) : Prop :=
  Text.lowerAscii a = Text.lowerAscii b ∨ ∃ r : Register, r.IsCalled a ∧ r.IsCalled b

-- The same lexemes but for the spelling of integers and the names behind percent signs.
inductive Respelled : List Lexeme → List Lexeme → Prop
  | nil : Respelled [] []
  | same (l : Lexeme) {ls ms : List Lexeme} : Respelled ls ms → Respelled (l :: ls) (l :: ms)
  | integer (a b : String) (v : Nat) {ls ms : List Lexeme} :
    Respelled ls ms → Respelled (.integer a v :: ls) (.integer b v :: ms)
  | register {a b : String} {ls ms : List Lexeme} :
    Register.SameName a b → Respelled ls ms →
    Respelled (.punct .percent :: .identifier a :: ls) (.punct .percent :: .identifier b :: ms)

-- A statement may also have its mnemonic in another letter case. A mnemonic stands behind the
-- labels and is no name of a directive.
inductive RespelledStatement : List Lexeme → List Lexeme → Prop
  | plain {ls ms : List Lexeme} : Respelled ls ms → RespelledStatement ls ms
  | mnemonic {a b : String} {ls ms : List Lexeme} :
    Text.lowerAscii a = Text.lowerAscii b → Statement.isDirectiveName a = false →
    ls.head? ≠ some (.punct .colon) → Respelled ls ms →
    RespelledStatement (.identifier a :: ls) (.identifier b :: ms)
  | label (name : String) {ls ms : List Lexeme} :
    RespelledStatement ls ms →
    RespelledStatement (.identifier name :: .punct .colon :: ls)
      (.identifier name :: .punct .colon :: ms)

def RespelledLine (line line' : String) : Prop :=
  ∃ ls ms, lexemes (Session.dropLineEnds line) = .ok ls ∧
    lexemes (Session.dropLineEnds line') = .ok ms ∧ RespelledStatement ls ms

def Loc.withoutColumn (l : Loc) : Loc :=
  { l with column := 0 }

def Object.withoutColumns (o : Object) : Object :=
  o.mapLoc (Option.map Loc.withoutColumn)

def Diagnostic.withoutColumn (d : Diagnostic) : Diagnostic :=
  d.mapLoc (Option.map Loc.withoutColumn)

def SameLine (l m : Loc) : Prop :=
  l.line = m.line

def SameLine? (l m : Option Loc) : Prop :=
  l.map Loc.withoutColumn = m.map Loc.withoutColumn

theorem SameLine.withoutColumn {l m : Loc} (h : SameLine l m) :
    l.withoutColumn = m.withoutColumn := by
  obtain ⟨line, column⟩ := l
  obtain ⟨line', column'⟩ := m
  obtain rfl : line = line' := h
  rfl

theorem sameLine?_refl (l : Option Loc) : SameLine? l l :=
  rfl

theorem sameLine?_of_placed (l m : Option Loc) (h : Placed SameLine l m) : SameLine? l m := by
  cases h
  case mk h => exact congrArg some h.withoutColumn

section

variable {n : Int} {ls ms : List Lexeme} {ts us : List Token}

theorem Register.SameName.named? {a b : String} (h : SameName a b) :
    Register.named? a = Register.named? b := by
  rcases h with hlower | ⟨r, ha, hb⟩
  · exact named?_congr hlower
  · rw [ha.named?, hb.named?]

theorem Respelled.tokens (h : Respelled ls ms) (hts : TokensOn n ts ls) (hus : TokensOn n us ms) :
    AlikeTokens SameLine ts us := by
  induction h generalizing ts us
  case nil =>
    cases hts
    cases hus
    exact .nil
  case same ih =>
    obtain ⟨_, _, rfl, hts'⟩ := hts.of_cons
    obtain ⟨_, _, rfl, hus'⟩ := hus.of_cons
    exact .cons (.refl _) rfl (ih hts' hus')
  case integer ih =>
    obtain ⟨_, _, rfl, hts'⟩ := hts.of_cons
    obtain ⟨_, _, rfl, hus'⟩ := hus.of_cons
    exact .cons .integer rfl (ih hts' hus')
  case register hname _ ih =>
    obtain ⟨_, _, rfl, hfirst⟩ := hts.of_cons
    obtain ⟨_, _, rfl, hts'⟩ := hfirst.of_cons
    obtain ⟨_, _, rfl, hfirst'⟩ := hus.of_cons
    obtain ⟨_, _, rfl, hus'⟩ := hfirst'.of_cons
    exact .register hname.named? rfl rfl (ih hts' hus')

theorem Respelled.head_colon (h : Respelled ls ms) (hcolon : ms.head? = some (.punct .colon)) :
    ls.head? = some (.punct .colon) := by
  cases h
  case same => exact hcolon
  all_goals cases hcolon

theorem RespelledStatement.tokens (h : RespelledStatement ls ms) (hts : TokensOn n ts ls)
    (hus : TokensOn n us ms) : AlikeStatement SameLine ts us := by
  induction h generalizing ts us
  case plain h => exact (h.tokens hts hus).statement
  case mnemonic hlower ha hcolon h =>
    obtain ⟨_, _, rfl, hts'⟩ := hts.of_cons
    obtain ⟨_, _, rfl, hus'⟩ := hus.of_cons
    have hb := (isDirectiveName_congr hlower).symm.trans ha
    exact .body (.mnemonic hlower ha hb rfl (h.tokens hts' hus')) (hts'.not_startsLabel hcolon)
      (hus'.not_startsLabel fun hc => hcolon (h.head_colon hc))
  case label ih =>
    obtain ⟨_, _, rfl, hfirst⟩ := hts.of_cons
    obtain ⟨_, _, rfl, hts'⟩ := hfirst.of_cons
    obtain ⟨_, _, rfl, hfirst'⟩ := hus.of_cons
    obtain ⟨_, _, rfl, hus'⟩ := hfirst'.of_cons
    exact .label rfl rfl (ih hts' hus')

end

namespace Session

theorem assembleFrom_respelled {lines lines' : List String}
    (h : List.Forall₂ RespelledLine lines lines') (n : Nat) {ds es : List Diagnostic}
    {s t : Session} (hs : Alike SameLine SameLine? ds es s t) :
    ∃ s' t', s.assembleFrom n lines = .ok s' ∧ t.assembleFrom n lines' = .ok t' ∧
      Alike SameLine SameLine? ds es s' t' := by
  induction h generalizing n s t
  case nil => exact ⟨s, t, rfl, rfl, hs⟩
  case cons hline _ ih =>
    obtain ⟨_, _, hlexemes, hlexemes', hrespelled⟩ := hline
    obtain ⟨ts, stop, htok, hts, hstop⟩ := tokenize_of_lexemes hlexemes n
    obtain ⟨us, stop', htok', hus, hstop'⟩ := tokenize_of_lexemes hlexemes' n
    obtain ⟨s', t', hs', ht', halike⟩ :=
      assembleLine_agrees (simulation_alike sameLine?_of_placed ds es) hs htok htok'
        (hrespelled.tokens hts hus) (hstop.trans hstop'.symm)
    obtain ⟨s'', t'', hs'', ht'', halike⟩ := ih (n + 1) halike
    exact ⟨s'', t'', (assembleFrom_cons hs' _).trans hs'', (assembleFrom_cons ht' _).trans ht'',
      halike⟩

-- Programs that differ in spelling only come to the same but for columns.
theorem assemble_respelled (s : Session) {lines lines' : List String}
    (h : List.Forall₂ RespelledLine lines lines') :
    ∃ t t', s.assemble lines = .ok t ∧ s.assemble lines' = .ok t' ∧ t.cpu = t'.cpu ∧
      t.available = t'.available ∧ t.object.withoutColumns = t'.object.withoutColumns ∧
      t.diagnostics.map Diagnostic.withoutColumn = t'.diagnostics.map Diagnostic.withoutColumn := by
  have hs : Alike SameLine SameLine? s.diagnostics s.diagnostics s s := .refl sameLine?_refl s
  obtain ⟨t, t', ht, ht', halike⟩ := assembleFrom_respelled h 1 hs
  obtain ⟨new, new', hnew, hnew', hdiagnostics⟩ := halike.diagnostics
  refine ⟨t, t', ht, ht', halike.cpu, halike.available, halike.object.mapLoc_eq, ?_⟩
  rw [hnew, hnew', List.map_append, List.map_append, List.append_cancel_left_eq,
    ← List.forall₂_eq_eq_eq]
  exact List.rel_map (fun _ _ hd => hd.mapLoc_eq sameLine?_of_placed) hdiagnostics

theorem assemble_respelled_add :
    List.Forall₂ RespelledLine ["top: ADD %r1, %r31, 0x10 ; grow", "xyz %foo"]
      ["top :add\t%R1,%Sp,016", "  Xyz %FOO\n"] ∧
    ∃ t t', (new .mc88100 0 0).assemble ["top: ADD %r1, %r31, 0x10 ; grow", "xyz %foo"] = .ok t ∧
      (new .mc88100 0 0).assemble ["top :add\t%R1,%Sp,016", "  Xyz %FOO\n"] = .ok t' ∧
      t.cpu = t'.cpu ∧ t.available = t'.available ∧
      t.object.withoutColumns = t'.object.withoutColumns ∧
      t.diagnostics.map Diagnostic.withoutColumn = t'.diagnostics.map Diagnostic.withoutColumn := by
  have hadd : RespelledLine "top: ADD %r1, %r31, 0x10 ; grow" "top :add\t%R1,%Sp,016" := by
    refine ⟨[.identifier "top", .punct .colon, .identifier "ADD", .punct .percent, .identifier "r1",
        .punct .comma, .punct .percent, .identifier "r31", .punct .comma, .integer "0x10" 16],
      [.identifier "top", .punct .colon, .identifier "add", .punct .percent, .identifier "R1",
        .punct .comma, .punct .percent, .identifier "Sp", .punct .comma, .integer "016" 16],
      by decide +kernel, by decide +kernel, .label _ (.mnemonic (by decide) (by decide) nofun ?_)⟩
    have hsp : Register.SameName "r31" "Sp" := .inr ⟨.gpr 31, by decide, by decide⟩
    exact .register (.inl (by decide))
      (.same _ (.register hsp (.same _ (.integer "0x10" "016" 16 .nil))))
  have hxyz : RespelledLine "xyz %foo" "  Xyz %FOO\n" :=
    ⟨[.identifier "xyz", .punct .percent, .identifier "foo"],
      [.identifier "Xyz", .punct .percent, .identifier "FOO"], by decide +kernel, by decide +kernel,
      .mnemonic (by decide) (by decide) nofun (.register (.inl (by decide)) .nil)⟩
  exact ⟨.cons hadd (.cons hxyz .nil), assemble_respelled _ (.cons hadd (.cons hxyz .nil))⟩

end Session

end Asm88000
