import Asm88000.Proofs.StatementAgreement

namespace Asm88000

theorem Object.switch_eq_self {o : Object} {sect : SectionName} :
    o.switch sect = o ↔ o.current = sect := by
  constructor
  · exact fun h => (congrArg Object.current h).symm
  · rintro rfl
    rfl

theorem Object.global_eq_self {o : Object} {symbol : String} :
    o.global symbol = o ↔ symbol ∈ o.globals := by
  unfold Object.global
  split
  case isTrue h => simpa using h
  case isFalse h =>
    refine ⟨fun heq => ?_, fun hmem => absurd (by simpa using hmem) h⟩
    simpa using congrArg Object.globals heq

inductive Setting
  | require88110
  | switch (sect : SectionName)
  | global
  | align

namespace Setting

def ofDirective? : Directive → Option Setting
  | .switch sect => some (switch sect)
  | .global      => some global
  | .align       => some align
  | .word        => none

def ofName? (name : String) : Option Setting :=
  if name = ".requires_88110" then some require88110
  else (Directive.ofName? name).bind ofDirective?

def Takes : Setting → List Lexeme → Prop
  | require88110, args => args = []
  | switch _, args     => args = []
  | global, args       => ∃ symbol, args = [.identifier symbol]
  | align, args        =>
    ∃ spelling, ∃ v : Nat, args = [.integer spelling v] ∧ Object.isPowerOfTwo v

-- What has become of the object when the directive fails.
def residue : Setting → List Lexeme → Object → Object
  | switch sect, _, o                  => o.switch sect
  | global, .identifier symbol :: _, o => o.global symbol
  | align, .integer _ v :: _, o        =>
    if Object.isPowerOfTwo v then o.setAddress (o.address + (-o.address) % (v : Int)) else o
  | _, _, o                            => o

-- There is nothing that the directive would change.
def IsIdle : Setting → List Lexeme → Object → Prop
  | switch sect, _, o                  => o.current = sect
  | global, .identifier symbol :: _, o => symbol ∈ o.globals
  | align, .integer _ v :: _, o        => Object.isPowerOfTwo v → o.address % (v : Int) = 0
  | _, _, _                            => True

variable {setting : Setting} {name : String} {args : List Lexeme} {o : Object}

theorem residue_eq_self : setting.residue args o = o ↔ setting.IsIdle args o := by
  unfold residue IsIdle
  split
  case h_1 => exact Object.switch_eq_self
  case h_2 => exact Object.global_eq_self
  case h_4 => exact iff_of_true rfl trivial
  case h_3 =>
    split
    case isFalse hv => exact iff_of_true rfl fun h => absurd h hv
    case isTrue hv  =>
      have hgap {a b : Int} : a + b = a ↔ b = 0 := by omega
      rw [Object.setAddress_eq_self, hgap, ← Int.dvd_iff_emod_eq_zero, Int.dvd_neg,
        Int.dvd_iff_emod_eq_zero]
      exact ⟨fun h _ => h, fun h => h hv⟩

theorem residue_records : (setting.residue args o).records = o.records := by
  unfold residue Object.switch Object.global
  split
  case h_3 => split <;> simp
  case h_2 => split <;> rfl
  all_goals rfl

theorem residue_requires88110 : (setting.residue args o).requires88110 = o.requires88110 := by
  unfold residue Object.switch Object.global
  split
  case h_3 => split <;> simp
  case h_2 => split <;> rfl
  all_goals rfl

theorem isDirectiveName (h : ofName? name = some setting) : Statement.isDirectiveName name := by
  unfold ofName? at h
  split at h
  case isTrue hname => exact hname ▸ by decide +kernel
  case isFalse =>
    obtain ⟨d, hd, _⟩ := Option.bind_eq_some_iff.mp h
    exact isDirectiveName_of_ofName? hd

structure Leaves (setting : Setting) (args : List Lexeme) (s t : Session) : Prop where
  cpu       : t.cpu = s.cpu
  available : t.available = s.available
  object    : t.object = setting.residue args s.object

structure Reaches (setting : Setting) (args : List Lexeme) (s : Session) (q : Run) : Prop where
  leaves : setting.Leaves args s q.session
  plain  : q.cursor.Plain
  ends   : q.cursor.ahead = [] ↔ setting.Takes args

structure Fails (setting : Setting) (args : List Lexeme) (s : Session) (q : Run) : Prop where
  leaves : setting.Leaves args s q.session
  misfit : ¬setting.Takes args

end Setting

theorem Cursor.current_of_map {past ts : List Token} {stop : Loc} {l : Lexeme} {ls : List Lexeme}
    (h : ts.map Token.lexeme = l :: ls) : (Cursor.mk past ts stop).current.lexeme = l := by
  cases ts
  case nil       => cases h
  case cons t ts => exact (List.cons.inj h).left

namespace Statement

open StatementM

variable {s : Session} {past ts : List Token} {stop loc : Loc} {name : String} {setting : Setting}

theorem global_reaches (h : Cursor.Plain ⟨past, ts, stop⟩) (shown : String) :
    Ensures (directiveBody .global shown loc) ⟨s, ⟨past, ts, stop⟩⟩
      (fun _ q => Setting.global.Reaches (ts.map Token.lexeme) s q)
      fun _ q => Setting.global.Fails (ts.map Token.lexeme) s q := by
  simp only [directiveBody, ensures_bind, ensures_cursor]
  split
  case h_1 symbol hsymbol =>
    obtain ⟨_, loc', ts, _, hc⟩ := Cursor.eq_of_current hsymbol (by simp)
    cases hc
    exact ⟨⟨rfl, rfl, rfl⟩, by simpa using h.tail, by simp [Setting.Takes]⟩
  case h_2 hsymbol =>
    have hargs (symbol : String) (rest : List Lexeme) :
        ts.map Token.lexeme ≠ .identifier symbol :: rest := fun heq =>
      hsymbol symbol (Cursor.current_of_map heq)
    refine ⟨⟨rfl, rfl, ?_⟩, ?_⟩
    · unfold Setting.residue
      split <;> simp_all
    · rintro ⟨symbol, heq⟩
      exact hargs symbol [] heq

theorem align_reaches (h : Cursor.Plain ⟨past, ts, stop⟩) (shown : String) :
    Ensures (directiveBody .align shown loc) ⟨s, ⟨past, ts, stop⟩⟩
      (fun _ q => Setting.align.Reaches (ts.map Token.lexeme) s q)
      fun _ q => Setting.align.Fails (ts.map Token.lexeme) s q := by
  simp only [directiveBody, ensures_bind, ensures_cursor]
  split
  case h_1 spelling v hv =>
    obtain ⟨_, loc', ts, _, hc⟩ := Cursor.eq_of_current hv (by simp)
    cases hc
    simp only [ensures_bind, ensures_skip]
    refine ensures_tryChange (fun t ht => ?_) fun e he => ?_
    · obtain ⟨o, ho, rfl⟩ := Session.align_eq_ok ht
      obtain ⟨hpow, rfl⟩ := Object.align_eq_ok_iff.mp ho
      refine ⟨⟨rfl, rfl, ?_⟩, by simpa using h.tail, by simp [Setting.Takes, hpow]⟩
      simp only [List.map_cons, Setting.residue, hpow, ↓reduceIte]
      rfl
    · have hpow := (Session.align_eq_error he).left
      refine ⟨⟨rfl, rfl, ?_⟩, by simp [Setting.Takes, hpow]⟩
      simp only [List.map_cons, Setting.residue, hpow]
      rfl
  case h_2 hv =>
    have hargs (spelling : String) (v : Nat) (rest : List Lexeme) :
        ts.map Token.lexeme ≠ .integer spelling v :: rest := fun heq =>
      hv spelling v (Cursor.current_of_map heq)
    refine ⟨⟨rfl, rfl, ?_⟩, ?_⟩
    · unfold Setting.residue
      split <;> simp_all
    · rintro ⟨spelling, v, heq, _⟩
      exact hargs spelling v [] heq

theorem directiveBody_reaches {d : Directive} (hd : Setting.ofDirective? d = some setting)
    (h : Cursor.Plain ⟨past, ts, stop⟩) (shown : String) :
    Ensures (directiveBody d shown loc) ⟨s, ⟨past, ts, stop⟩⟩
      (fun _ q => setting.Reaches (ts.map Token.lexeme) s q)
      fun _ q => setting.Fails (ts.map Token.lexeme) s q := by
  cases d
  case switch sect =>
    cases hd
    exact ⟨⟨rfl, rfl, rfl⟩, h, by simp [Setting.Takes]⟩
  case global =>
    cases hd
    exact global_reaches h shown
  case align =>
    cases hd
    exact align_reaches h shown
  case word => cases hd

theorem directive_fails (hname : Setting.ofName? name = some setting)
    (h : Cursor.Plain ⟨past, ts, stop⟩) :
    Ensures (directive name loc) ⟨s, ⟨past, ts, stop⟩⟩
      (fun _ _ => setting.Takes (ts.map Token.lexeme))
      fun _ q => setting.Fails (ts.map Token.lexeme) s q := by
  unfold directive targetDirective
  unfold Setting.ofName? at hname
  split at hname
  case isTrue heq =>
    cases hname
    subst heq
    simp only [↓reduceIte, ensures_bind, ensures_cursor]
    split
    case isTrue hmore =>
      refine ⟨⟨rfl, rfl, rfl⟩, fun htakes => ?_⟩
      simp [h.atEnd_iff.mpr (List.map_eq_nil_iff.mp htakes)] at hmore
    case isFalse hend => exact List.map_eq_nil_iff.mpr (h.atEnd_iff.mp (by simpa using hend))
  case isFalse hne =>
    obtain ⟨d, hd, hsetting⟩ := Option.bind_eq_some_iff.mp hname
    simp only [hne, ↓reduceIte, pure_bind, Bool.not_false, hd]
    refine (directiveBody_reaches hsetting h _).bind (fun _ q hq => ?_) fun _ _ => id
    refine ensures_atEnd hq.plain hq.ends.mp fun hmore _ => ?_
    exact ⟨hq.leaves, fun htakes => hmore (hq.ends.mpr htakes)⟩

end Statement

namespace Session

-- A directive fails just if something else follows than it takes. It has done its part by then, so
-- nothing is changed only if there was nothing to change.
theorem failed_directive_unchanged_iff {text name : String} {args : List Lexeme} {setting : Setting}
    (hname : Setting.ofName? name = some setting)
    (h : lexemes text = .ok (.identifier name :: args))
    (hlabel : args.head? ≠ some (.punct .colon)) (s : Session) (n : Int) :
    ∃ t, s.assembleLine n text = .ok t ∧ (t.errors = s.errors ↔ setting.Takes args) ∧
      (t.errors ≠ s.errors →
        t.cpu = s.cpu ∧ t.available = s.available ∧ t.object = setting.residue args s.object ∧
        t.object.records = s.object.records ∧ t.object.requires88110 = s.object.requires88110 ∧
        (t.object = s.object ↔ setting.IsIdle args s.object)) := by
  obtain ⟨ts, stop, htok, hts, _⟩ := tokenize_of_lexemes h n
  obtain ⟨column, ts, rfl, hargs⟩ := hts.of_cons
  have hplain : Cursor.Plain ⟨[], ⟨.identifier name, n, column⟩ :: ts, stop⟩ := by
    obtain ⟨init, _, heq, hplain⟩ := tokenize_ok htok
    obtain ⟨rfl, _⟩ := List.append_inj' heq rfl
    exact hplain
  have hstart : ¬StartsLabel (⟨.identifier name, n, column⟩ :: ts) := hargs.not_startsLabel hlabel
  have heq := Statement.run_directive (Setting.isDirectiveName hname) hstart
    (s.addSource n (Text.trim text)) [] stop
  have hrun := (Statement.directive_fails hname hplain.tail).of_eq heq
  rw [hargs.map_lexeme] at hrun
  obtain ⟨t, ht, ⟨herrors, _, htakes⟩ | ⟨e, q, rfl, herrors, hfails⟩⟩ :=
    assembleLine_ensures htok hrun
  · exact ⟨t, ht, iff_of_true herrors htakes, fun hne => absurd herrors hne⟩
  · have hobject : q.session.object = setting.residue args s.object := hfails.leaves.object
    refine ⟨_, ht, iff_of_false (by simp [herrors]) hfails.misfit, fun _ => ?_⟩
    refine ⟨hfails.leaves.cpu, hfails.leaves.available, hobject, ?_, ?_, ?_⟩
    · exact hobject ▸ Setting.residue_records
    · exact hobject ▸ Setting.residue_requires88110
    · exact hobject ▸ Setting.residue_eq_self

theorem failed_directive_unchanged_require88110 :
    Setting.ofName? ".requires_88110" = some .require88110 ∧
      lexemes ".requires_88110 1" = .ok [.identifier ".requires_88110", .integer "1" 1] ∧
      ∃ t, (new .mc88100 0 0x1000).assembleLine 1 ".requires_88110 1" = .ok t ∧ t.errors ≠ [] ∧
        t.cpu = .mc88100 ∧ t.available = [.mc88100] ∧ t.object = Object.new 0 0x1000 := by
  have hlexemes : lexemes ".requires_88110 1" =
      .ok [.identifier ".requires_88110", .integer "1" 1] := by decide +kernel
  obtain ⟨t, ht, herrors, hfails⟩ :=
    failed_directive_unchanged_iff rfl hlexemes (by decide) (new .mc88100 0 0x1000) 1
  have hne : t.errors ≠ (new .mc88100 0 0x1000).errors := fun heq => by cases herrors.mp heq
  obtain ⟨hcpu, havailable, hobject, _⟩ := hfails hne
  exact ⟨rfl, hlexemes, t, ht, hne, hcpu, havailable, hobject⟩

-- The section is switched all the same.
theorem failed_switch_stays :
    ∃ t, (new .mc88100 0 0x1000).assembleLine 1 ".data 1" = .ok t ∧
      t.errors = [⟨.error, "unexpected token in '.data' directive", some ⟨1, 7⟩⟩] ∧
      t.object.current = .data := by
  decide +kernel

end Session
end Asm88000
