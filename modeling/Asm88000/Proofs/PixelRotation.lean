import Asm88000.Proofs.InstructionLine

namespace Asm88000

inductive RotationAmount : List Lexeme → Bool → Int → Prop
  | bracketed {spelling : String} {n : Nat} :
    RotationAmount [.punct .less, .integer spelling n, .punct .greater] true n
  | bare {ls : List Lexeme} {n : Int} : Expr.Written ls (.const n) → RotationAmount ls false n

namespace RotationAmount

variable {ls : List Lexeme} {b b' : Bool} {n n' : Int}

theorem unique (h : RotationAmount ls b n) (h' : RotationAmount ls b' n') : b = b' ∧ n = n' := by
  have hexpr {p : Punct} {ls : List Lexeme} {e : Expr} (h : Expr.Written (.punct p :: ls) e) :
      p ≠ .less := by
    rintro rfl
    simpa [Lexeme.startsExpr] using h.headD_startsExpr [] .endOfStatement
  cases h
  case bracketed =>
    cases h'
    case bracketed    => exact ⟨rfl, rfl⟩
    case bare hamount => exact (hexpr hamount rfl).elim
  case bare hamount =>
    cases h'
    case bracketed     => exact (hexpr hamount rfl).elim
    case bare hamount' => exact ⟨rfl, Expr.const.inj (hamount.unique hamount')⟩

theorem ne_register (h : RotationAmount ls b n) (name : String) :
    ls ≠ [.punct .percent, .identifier name] := by
  rintro rfl
  cases h
  case bare hamount =>
    simpa [Lexeme.startsExpr] using hamount.headD_startsExpr [] .endOfStatement

theorem of_notates {loc : Loc} {v : Int} {ws : List Diagnostic}
    (h : SlotReader.Notates [.pixelRotation] loc ls (.immediate (.const v)) ws) :
    ∃ b n, RotationAmount ls b n ∧ v - v % 4 = n - n % 4 ∧
      ws = if b ∧ n % 4 ≠ 0 then [.droppedBits loc] else [] := by
  generalize hvalue : OperandValue.immediate (.const v) = value at h
  cases h
  case register                => cases hvalue
  case condition hmem _        => simp at hmem
  case expression e _ hwritten =>
    cases hvalue
    exact ⟨false, v, .bare hwritten, rfl, by simp⟩
  case rotation spelling m _ =>
    cases hvalue
    have hdrop : ((m : Int) % 4 = 0) ↔ m % 4 = 0 := by omega
    exact ⟨true, m, .bracketed, by omega, by simp [hdrop]⟩

end RotationAmount

namespace InstructionSet

theorem isTernary_prot : IsTernary "prot" :=
  ⟨by decide, by decide +kernel, by decide +kernel⟩

theorem prot_forms {e : Entry} (he : e ∈ candidates "prot") :
    e.classes = [.gpr64, .gpr64, .gpr] ∨
    e.classes = [.gpr64, .gpr64, .pixelRotation] ∧ (.imm 2 2 4 7 .abs16, 7) ∈ e.slots := by
  have h : ∀ e ∈ candidates "prot", e.classes = [.gpr64, .gpr64, .gpr] ∨
      e.classes = [.gpr64, .gpr64, .pixelRotation] ∧ (.imm 2 2 4 7 .abs16, 7) ∈ e.slots := by
    decide +kernel
  exact h e he

end InstructionSet

namespace Session

section

variable {s t : Session} {line : Int} {text : String} {names : List String} {args : List Lexeme}
variable {k : InstructionTokens line text names "prot" args} {x : s.Emission k t} {a b c : Reading}

theorem Emission.Three.register (h : x.Three a b c)
    (hclasses : x.entry.classes = [.gpr64, .gpr64, .gpr]) :
    ∃ name, c.lexemes = [.punct .percent, .identifier name] := by
  have hfits := x.fits
  rw [Entry.Fits, hclasses, h.operands] at hfits
  obtain _ | ⟨_, _ | ⟨_, _ | ⟨hc, _⟩⟩⟩ := hfits
  obtain ⟨id, hid⟩ := Shape.takes_register hc
  obtain ⟨_, name, _, hname, _⟩ := SlotReader.Notates.register_inv (hid ▸ h.three.notates)
  exact ⟨name, hname⟩

theorem Emission.Three.amount (h : x.Three a b c)
    (hclasses : x.entry.classes = [.gpr64, .gpr64, .pixelRotation])
    (hslot : (.imm 2 2 4 7 .abs16, 7) ∈ x.entry.slots) :
    ∃ bracketed n, RotationAmount c.lexemes bracketed n ∧
      ((4 * (x.record.word >>> 7 % 16) : Nat) : Int) = n - n % 4 ∧
      t.diagnostics =
        s.diagnostics ++ if bracketed ∧ n % 4 ≠ 0 then [.droppedBits c.loc] else [] := by
  have hfits := x.fits
  rw [Entry.Fits, hclasses, h.operands] at hfits
  obtain _ | ⟨ha, _ | ⟨hb, _ | ⟨hc, _⟩⟩⟩ := hfits
  obtain ⟨_, hida⟩ := Shape.takes_register ha
  obtain ⟨_, hidb⟩ := Shape.takes_register hb
  obtain ⟨v, hv, _, _⟩ := Shape.takes_constant.mp hc
  obtain ⟨hwarnings₁, _⟩ := SlotReader.Notates.register_inv (hida ▸ h.one.notates)
  obtain ⟨hwarnings₂, _⟩ := SlotReader.Notates.register_inv (hidb ▸ h.two.notates)
  obtain ⟨bracketed, n, hamount, hdrop, hwarnings₃⟩ :=
    RotationAmount.of_notates (hv ▸ h.three.notates)
  have hcls : x.entry.classes[2]? = some .pixelRotation := by simp [hclasses]
  have hop : x.operands[2]? = some c.operand := by simp [h.operands]
  have hfield := x.field InstructionSet.isTernary_prot hslot hcls hop hv
  simp only [OperandClass.kept, OperandClass.window, Nat.reduceShiftLeft] at hfield
  refine ⟨bracketed, n, hamount, by omega, ?_⟩
  rw [x.diagnostics, h.warnings, hwarnings₁, hwarnings₂, hwarnings₃]
  rfl

end

-- Whatever is written for it, the amount in the word is rounded down to a multiple of four. If
-- anything is lost that way there is a warning, but only for an amount in brackets.
theorem rotation_rounds_down {s t : Session} {line : Int} {text : String} {names : List String}
    {others amount : List Lexeme}
    (h : HasInstruction text names "prot" (others ++ .punct .comma :: amount))
    (hcomma : .punct .comma ∉ amount) (ht : s.assembleLine line text = .ok t)
    (herrors : t.errors = s.errors) :
    ∃ r, t.object.records = s.object.records ++ [r] ∧
      ((∃ name, amount = [.punct .percent, .identifier name]) ∨
        ∃ bracketed n, RotationAmount amount bracketed n) ∧
      ∀ bracketed n, RotationAmount amount bracketed n →
        ((4 * (r.word >>> 7 % 16) : Nat) : Int) = n - n % 4 ∧
        ∃ loc, t.diagnostics =
          s.diagnostics ++ if bracketed ∧ n % 4 ≠ 0 then [.droppedBits loc] else [] := by
  obtain ⟨k⟩ := h.tokens line
  obtain ⟨x⟩ := k.exists_emission ht herrors
  obtain ⟨a, b, c, hx⟩ := x.exists_three InstructionSet.isTernary_prot
  obtain ⟨_, rfl⟩ := append_cons_inj_back hcomma hx.three.notates.comma_notMem
    (hx.lexemes.trans (List.append_assoc _ (_ :: _) _).symm)
  refine ⟨x.record, x.records, ?_⟩
  rcases InstructionSet.prot_forms x.listed with hclasses | ⟨hclasses, hslot⟩
  · obtain ⟨name, hname⟩ := hx.register hclasses
    exact ⟨.inl ⟨name, hname⟩, fun _ _ hamount => (hamount.ne_register name hname).elim⟩
  · obtain ⟨bracketed, n, hamount, hfield, hdiagnostics⟩ := hx.amount hclasses hslot
    refine ⟨.inr ⟨bracketed, n, hamount⟩, fun bracketed' n' hamount' => ?_⟩
    obtain ⟨rfl, rfl⟩ := hamount.unique hamount'
    exact ⟨hfield, c.loc, hdiagnostics⟩

theorem rotation_rounds_down_six :
    HasInstruction "x: prot %r2, %r4, <6>" ["x"] "prot"
      ([.punct .percent, .identifier "r2", .punct .comma, .punct .percent, .identifier "r4"] ++
        .punct .comma :: [.punct .less, .integer "6" 6, .punct .greater]) ∧
    ∃ t r, (new .mc88110 0 0x1000).assembleLine 1 "x: prot %r2, %r4, <6>" = .ok t ∧ t.errors = [] ∧
      t.object.records = [r] ∧ 4 * (r.word >>> 7 % 16) = 4 ∧
      ∃ loc, t.diagnostics = [.droppedBits loc] := by
  have hline : HasInstruction "x: prot %r2, %r4, <6>" ["x"] "prot"
      ([.punct .percent, .identifier "r2", .punct .comma, .punct .percent, .identifier "r4"] ++
        .punct .comma :: [.punct .less, .integer "6" 6, .punct .greater]) :=
    ⟨⟨"prot", by decide +kernel, by decide +kernel⟩, by decide, by decide +kernel⟩
  obtain ⟨t, ht, herrors⟩ :
      ∃ t, (new .mc88110 0 0x1000).assembleLine 1 "x: prot %r2, %r4, <6>" = .ok t ∧
        t.errors = [] := by decide +kernel
  obtain ⟨r, hrecords, _, hamount⟩ := rotation_rounds_down hline (by decide) ht herrors
  obtain ⟨hfield, hdiagnostics⟩ := hamount true 6 .bracketed
  exact ⟨hline, t, r, ht, herrors, hrecords, by omega, hdiagnostics⟩

-- The same amount without brackets, and nothing is said about it.
theorem bare_rotation_unwarned :
    ∃ t, (new .mc88110 0 0x1000).assembleLine 1 "prot %r2, %r4, 6" = .ok t ∧
      t.object.records.map (·.word >>> 7 % 16) = [1] ∧ t.diagnostics = [] := by
  decide +kernel

end Session
end Asm88000
