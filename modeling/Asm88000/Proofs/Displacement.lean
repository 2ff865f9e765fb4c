import Asm88000.Proofs.Branch

namespace Asm88000

namespace Reach

variable {ρ : Reach} {d d' : Int} {word : Nat}

def displacement (ρ : Reach) (word : Nat) : Int :=
  4 * (BitVec.ofNat ρ.width word).toInt

theorem natCast_cut (ρ : Reach) (d : Int) :
    (Field.cut 2 ρ.width d : Int) = d / 4 % (ρ.span / 4) := by
  rw [Field.natCast_cut]
  cases ρ <;> rfl

theorem displacement_eq_iff (h : ρ.number word = Field.cut 2 ρ.width d) :
    ρ.displacement word = d ↔ d % 4 = 0 ∧ -(ρ.span / 2) ≤ d ∧ d < ρ.span / 2 := by
  have hword := congrArg (Nat.cast (R := Int)) h
  rw [natCast_cut, number] at hword
  rw [displacement, BitVec.toInt_ofNat', Int.bmod_def]
  cases ρ
  all_goals
    simp only [width, span, Nat.reduceShiftLeft, Nat.reducePow, Int.reduceDiv] at hword ⊢
    omega

theorem cut_eq_iff : Field.cut 2 ρ.width d = Field.cut 2 ρ.width d' ↔
    d / 4 % (ρ.span / 4) = d' / 4 % (ρ.span / 4) := by
  rw [← natCast_cut, ← natCast_cut, Int.natCast_inj]

theorem Encodes.word_eq_iff {e : Entry} {others : List Arg} {target target' : Expr} {r r' : Record}
    (h : ρ.Encodes e others target r) (h' : ρ.Encodes e others target' r') :
    r.word = r'.word ↔ (ρ.part target).1 = (ρ.part target').1 := by
  constructor
  · intro hword
    rw [← h.field, ← h'.field, hword]
  · intro hpart
    rw [h.word, h'.word, hpart]

end Reach

namespace Session

variable {ρ : Reach} {s t : Session} {line : Int} {text mnemonic : String}

theorem exists_branches (s : Session) (line : Int) (text mnemonic : String) (others : List Arg)
    (target : Expr) (r : Record)
    (htokens : (tokenize line text).toOption.any fun ts =>
      Statement.mnemonic? ts.dropLast = some mnemonic)
    (hrun : (s.assembleLine line text).toOption.any fun t =>
      t.errors = s.errors ∧ t.object.records = s.object.records ++ [r])
    (hinst : ∃ opcode ∈ (InstructionSet.candidates mnemonic).map (·.opcode.name), ∃ loc,
      r.inst = some ⟨some opcode, others ++ [target.toArg], some loc⟩) :
    ∃ t, s.Accepts line text mnemonic t ∧ s.Branches t mnemonic others target r := by
  have ⟨t, ht, _⟩ := s.assembleLine_ok line text
  rw [ht] at hrun
  have ⟨herrors, hrecords⟩ := of_decide_eq_true hrun
  refine ⟨t, ⟨ht, herrors, ?_⟩, hrecords, hinst⟩
  cases htok : tokenize line text
  case error e => simp [htok, Except.toOption] at htokens
  case ok ts =>
    obtain ⟨ts, stop, rfl, _⟩ := tokenize_ok htok
    rw [htok] at htokens
    exact ⟨ts, stop, rfl, by simpa [Except.toOption] using htokens⟩

-- A constant that is admitted as a displacement is kept just if it is a number of words that the
-- field can hold.
theorem constant_target_kept_iff (h : s.Accepts line text mnemonic t)
    (hm : mnemonic ∈ ρ.mnemonics) :
    ∃ others target r, s.Branches t mnemonic others target r ∧
      ∀ d, target = .const d →
        ρ.Admits d ∧
        (ρ.displacement r.word = d ↔ d % 4 = 0 ∧ -(ρ.span / 2) ≤ d ∧ d < ρ.span / 2) ∧
        ∀ {s' t' : Session} {line' : Int} {text' : String} {d' : Int} {r' : Record},
          s'.Accepts line' text' mnemonic t' → s'.Branches t' mnemonic others (.const d') r' →
          (r.word = r'.word ↔ d / 4 % (ρ.span / 4) = d' / 4 % (ρ.span / 4)) := by
  have ⟨e, others, target, r, he, hbranches, hchecked, hencodes⟩ := h.branches hm
  refine ⟨others, target, r, hbranches, fun d hd => ?_⟩
  subst hd
  refine ⟨Reach.outOfRange_const.mp hchecked, Reach.displacement_eq_iff hencodes.field, ?_⟩
  intro s' t' line' text' d' r' h' hbranches'
  have ⟨e', _, _, _, he', hbranches'', _, hencodes'⟩ := h'.branches hm
  obtain ⟨rfl, rfl, rfl⟩ := hbranches'.unique hbranches''
  obtain rfl := InstructionSet.branch_unique hm he he'
  exact (hencodes.word_eq_iff hencodes').trans Reach.cut_eq_iff

theorem constant_target_kept_lowest :
    ∃ t r, (new .mc88100 0 0x1000).Accepts 1 "l: bcnd.n ne0, %r2, -131072" "bcnd.n" t ∧
      (new .mc88100 0 0x1000).Branches t "bcnd.n" [.imm 13, .reg 3] (.const (-131072)) r ∧
      r.word = 0xEDA28000 ∧ Reach.near.displacement r.word = -131072 := by
  have ⟨t, haccepts, hbranches⟩ := exists_branches (new .mc88100 0 0x1000) 1
    "l: bcnd.n ne0, %r2, -131072" "bcnd.n" [.imm 13, .reg 3] (.const (-131072))
    ⟨.instruction, .text, 0, 0xEDA28000, [], some ⟨1, 4⟩,
      some ⟨some "BCNDn", [.imm 13, .reg 3, .imm (-131072)], some ⟨1, 4⟩⟩⟩
    (by decide +kernel) (by decide +kernel) ⟨"BCNDn", by decide +kernel, ⟨1, 4⟩, rfl⟩
  have ⟨_, _, _, hbranches', hkept⟩ :=
    constant_target_kept_iff haccepts (show "bcnd.n" ∈ Reach.near.mnemonics by decide)
  obtain ⟨rfl, rfl, rfl⟩ := hbranches.unique hbranches'
  exact ⟨t, _, haccepts, hbranches, rfl, (hkept _ rfl).right.left.mpr (by decide)⟩

-- Two displacements that are admitted, and only one of which is kept.
theorem far_targets_share_word :
    ∃ t t' r r', (new .mc88100 0 0x1000).Accepts 1 "br 134217728" "br" t ∧
      (new .mc88100 0 0x1000).Accepts 1 "br -134217728" "br" t' ∧
      (new .mc88100 0 0x1000).Branches t "br" [] (.const 134217728) r ∧
      (new .mc88100 0 0x1000).Branches t' "br" [] (.const (-134217728)) r' ∧
      Reach.far.displacement r.word ≠ 134217728 ∧ r.word = r'.word := by
  have ⟨t, haccepts, hbranches⟩ := exists_branches (new .mc88100 0 0x1000) 1 "br 134217728" "br" []
    (.const 134217728)
    ⟨.instruction, .text, 0, 0xC2000000, [], some ⟨1, 1⟩,
      some ⟨some "BR", [.imm 134217728], some ⟨1, 1⟩⟩⟩
    (by decide +kernel) (by decide +kernel) ⟨"BR", by decide +kernel, ⟨1, 1⟩, rfl⟩
  have ⟨t', haccepts', hbranches'⟩ :=
    exists_branches (new .mc88100 0 0x1000) 1 "br -134217728" "br" []
    (.const (-134217728))
    ⟨.instruction, .text, 0, 0xC2000000, [], some ⟨1, 1⟩,
      some ⟨some "BR", [.imm (-134217728)], some ⟨1, 1⟩⟩⟩
    (by decide +kernel) (by decide +kernel) ⟨"BR", by decide +kernel, ⟨1, 1⟩, rfl⟩
  exact ⟨t, t', _, _, haccepts, haccepts', hbranches, hbranches', by decide, rfl⟩

end Session

namespace Expr

variable {e : Expr}

def hasSymbol : Expr → Bool
  | const _    => false
  | symbol _   => true
  | nameless _ => true
  | sum _ l r  => l.hasSymbol || r.hasSymbol
  | half _ sub => sub.hasSymbol

theorem value?_eq_none_iff : e.value? = none ↔ e.hasSymbol := by
  induction e
  case const    => simp [value?, hasSymbol]
  case symbol   => simp [value?, hasSymbol]
  case nameless => simp [value?, hasSymbol]
  case half _ _ ih => simp [value?, hasSymbol, ih]
  case sum _ l r ihl ihr =>
    simp only [value?, hasSymbol, Bool.or_eq_true, ← ihl, ← ihr]
    cases l.value? <;> cases r.value? <;> simp

def addend : Expr → Int
  | const v    => v
  | symbol _   => 0
  | nameless _ => 0
  | sum _ l r  => l.addend + r.addend
  | half _ sub => sub.addend

def isConstFree : Expr → Bool
  | const _    => false
  | symbol _   => true
  | nameless _ => true
  | sum _ l r  => l.isConstFree && r.isConstFree
  | half _ sub => sub.isConstFree

def outerConstants : Expr → List Int
  | sum _ l r => l.constant?.toList ++ r.constant?.toList
  | e         => e.constant?.toList

def isHalf : Expr → Bool
  | half _ _ => true
  | _        => false

def isPlain : Expr → Bool
  | const _           => true
  | sum _ (const _) r => r.isConstFree
  | sum _ l (const _) => l.isConstFree
  | half _ _          => false
  | e                 => e.isConstFree

theorem addend_of_isConstFree (h : e.isConstFree) : e.addend = 0 := by
  induction e
  case const        => cases h
  case symbol       => rfl
  case nameless     => rfl
  case half _ _ ih  => exact ih h
  case sum _ l r ihl ihr =>
    have ⟨hl, hr⟩ := Bool.and_eq_true_iff.mp h
    simp [addend, ihl hl, ihr hr]

theorem hasSymbol_of_isConstFree (h : e.isConstFree) : e.hasSymbol := by
  induction e
  case const        => cases h
  case symbol       => rfl
  case nameless     => rfl
  case half _ _ ih  => exact ih h
  case sum _ l r ihl _ =>
    have ⟨hl, _⟩ := Bool.and_eq_true_iff.mp h
    simp [hasSymbol, ihl hl]

end Expr

namespace Reach

variable {ρ : Reach} {target : Expr}

theorem badDisplacement_eq_false_iff : SlotReader.badDisplacement ρ.bits target = false ↔
    ∀ d ∈ target.outerConstants, ρ.Admits d := by
  have hone (e : Expr) : SlotReader.outOfRange ρ.bits e = false ↔
      ∀ d ∈ e.constant?.toList, ρ.Admits d := by
    cases e
    case const v => simpa [Expr.constant?] using outOfRange_const
    all_goals simp [SlotReader.outOfRange, Expr.constant?]
  cases target
  case sum sign l r =>
    simp only [SlotReader.badDisplacement, Expr.outerConstants, Bool.or_eq_false_iff, hone,
      List.mem_append, or_imp, forall_and]
  case const v         => exact hone (.const v)
  case symbol name     => exact hone (.symbol name)
  case nameless label  => exact hone (.nameless label)
  case half sel sub    => exact hone (.half sel sub)

-- A target is a value that is admitted, or it is left to the linker with an addend that is
-- admitted.
inductive Settles (ρ : Reach) (target : Expr) : List Fixup → Prop
  | value {v : Int} :
    target.hasSymbol = false → target.value? = some v → ρ.Admits v → Settles ρ target []
  | fixup {f : Fixup} :
    target.hasSymbol → f.kind = ρ.kind → ρ.Admits target.addend → Settles ρ target [f]

theorem admits_zero (ρ : Reach) : ρ.Admits 0 := by
  cases ρ <;> exact ⟨by decide, by decide, by decide⟩

theorem part_of_value {v : Int} (h : target.value? = some v) :
    ρ.part target = (Field.cut 2 ρ.width v, none) := by
  rw [part, h]

theorem part_of_hasSymbol (h : target.hasSymbol) :
    ρ.part target = (0, some (Field.fixupFor ρ.kind target)) := by
  rw [part, Expr.value?_eq_none_iff.mpr h]

theorem fixupFor_kind_eq_iff : (Field.fixupFor ρ.kind target).kind = ρ.kind ↔ ¬target.isHalf := by
  cases target
  case half sel sub =>
    simp only [Field.fixupFor, Expr.isHalf]
    cases ρ <;> split <;> simp [kind]
  all_goals simp [Field.fixupFor, Expr.isHalf]

theorem fixupFor_expr (kind : FixupKind) : (Field.fixupFor kind target).expr = target := by
  cases target <;> rfl

theorem settles_of_isPlain (hchecked : ∀ d ∈ target.outerConstants, ρ.Admits d)
    (h : target.isPlain) : ρ.Settles target (ρ.part target).2.toList := by
  have hfixup (hsymbol : target.hasSymbol) (hhalf : ¬target.isHalf)
      (haddend : ρ.Admits target.addend) : ρ.Settles target (ρ.part target).2.toList := by
    rw [part_of_hasSymbol hsymbol]
    exact .fixup hsymbol (fixupFor_kind_eq_iff.mpr hhalf) haddend
  unfold Expr.isPlain at h
  split at h
  case h_1 v => exact .value rfl rfl (hchecked v (by simp [Expr.outerConstants, Expr.constant?]))
  case h_2 sign c r =>
    have hsymbol := Expr.hasSymbol_of_isConstFree h
    refine hfixup (by simp [Expr.hasSymbol, hsymbol]) (by simp [Expr.isHalf]) ?_
    rw [Expr.addend, Expr.addend_of_isConstFree h, Expr.addend, Int.add_zero]
    exact hchecked c (by simp [Expr.outerConstants, Expr.constant?])
  case h_3 sign l c _ =>
    have hsymbol := Expr.hasSymbol_of_isConstFree h
    refine hfixup (by simp [Expr.hasSymbol, hsymbol]) (by simp [Expr.isHalf]) ?_
    rw [Expr.addend, Expr.addend_of_isConstFree h, Expr.addend, Int.zero_add]
    exact hchecked c (by simp [Expr.outerConstants, Expr.constant?])
  case h_4 => cases h
  case h_5 hhalf =>
    refine hfixup (Expr.hasSymbol_of_isConstFree h) ?_ ?_
    · cases target <;> simp_all [Expr.isHalf]
    · rw [Expr.addend_of_isConstFree h]
      exact ρ.admits_zero

end Reach

namespace Session

variable {ρ : Reach} {s t : Session} {line : Int} {text mnemonic : String}

-- The constants of a target that are checked are those on its outermost level. A target without a
-- symbol leaves no fixup, and any other leaves one, which is that of the field unless it is a half.
-- So a plain target is settled.
theorem plain_target_settled (h : s.Accepts line text mnemonic t) (hm : mnemonic ∈ ρ.mnemonics) :
    ∃ others target r, s.Branches t mnemonic others target r ∧
      (∀ d ∈ target.outerConstants, ρ.Admits d) ∧
      (target.hasSymbol = false → ∃ v, target.value? = some v ∧ r.fixups = [] ∧
        ρ.number r.word = v / 4 % (ρ.span / 4)) ∧
      (target.hasSymbol → ∃ f, r.fixups = [f] ∧ f.expr = target ∧
        (f.kind = ρ.kind ↔ ¬target.isHalf) ∧ ρ.number r.word = 0) ∧
      (target.isPlain → ρ.Settles target r.fixups) := by
  have ⟨e, others, target, r, he, hbranches, hchecked, hencodes⟩ := h.branches hm
  have hchecked := Reach.badDisplacement_eq_false_iff.mp hchecked
  refine ⟨others, target, r, hbranches, hchecked, fun hnone => ?_, fun hsome => ?_,
    fun hplain => ?_⟩
  · cases hv : target.value?
    case none   => simp [Expr.value?_eq_none_iff, hnone] at hv
    case some v =>
      have hpart := Reach.part_of_value (ρ := ρ) hv
      refine ⟨v, rfl, by rw [hencodes.fixups, hpart]; rfl, ?_⟩
      rw [hencodes.field, hpart, ← Reach.natCast_cut]
  · rw [hencodes.fixups, hencodes.field, Reach.part_of_hasSymbol hsome]
    exact ⟨_, rfl, Reach.fixupFor_expr _, Reach.fixupFor_kind_eq_iff, rfl⟩
  · rw [hencodes.fixups]
    exact Reach.settles_of_isPlain hchecked hplain

theorem plain_target_settled_sum :
    ∃ t r, (new .mc88100 0 0x1000).Accepts 1 "bb1 5, %r3, loop+8" "bb1" t ∧
      (new .mc88100 0 0x1000).Branches t "bb1" [.imm 5, .reg 4]
        (.sum "+" (.symbol "loop") (.const 8)) r ∧
      Reach.near.Settles (.sum "+" (.symbol "loop") (.const 8)) r.fixups := by
  have ⟨t, haccepts, hbranches⟩ :=
    exists_branches (new .mc88100 0 0x1000) 1 "bb1 5, %r3, loop+8" "bb1"
    [.imm 5, .reg 4] (.sum "+" (.symbol "loop") (.const 8))
    ⟨.instruction, .text, 0, 0xD8A30000, [⟨.pc16, .sum "+" (.symbol "loop") (.const 8), 0⟩],
      some ⟨1, 1⟩, some ⟨some "BB1",
        [.imm 5, .reg 4, .expr (.sum "+" (.symbol "loop") (.const 8))], some ⟨1, 1⟩⟩⟩
    (by decide +kernel) (by decide +kernel) ⟨"BB1", by decide +kernel, ⟨1, 1⟩, rfl⟩
  have ⟨_, _, _, hbranches', _, _, _, hsettled⟩ :=
    plain_target_settled haccepts (show "bb1" ∈ Reach.near.mnemonics by decide)
  obtain ⟨rfl, rfl, rfl⟩ := hbranches.unique hbranches'
  exact ⟨t, _, haccepts, hbranches, hsettled rfl⟩

-- With a second constant, the first one is not on the outermost level.
theorem nested_addend_unsettled :
    ∃ t r, (new .mc88100 0 0x1000).Accepts 1 "br loop+1+2" "br" t ∧
      (new .mc88100 0 0x1000).Branches t "br" []
        (.sum "+" (.sum "+" (.symbol "loop") (.const 1)) (.const 2)) r ∧
      ¬Reach.far.Settles (.sum "+" (.sum "+" (.symbol "loop") (.const 1)) (.const 2)) r.fixups := by
  have ⟨t, haccepts, hbranches⟩ := exists_branches (new .mc88100 0 0x1000) 1 "br loop+1+2" "br" []
    (.sum "+" (.sum "+" (.symbol "loop") (.const 1)) (.const 2))
    ⟨.instruction, .text, 0, 0xC0000000,
      [⟨.pc26, .sum "+" (.sum "+" (.symbol "loop") (.const 1)) (.const 2), 0⟩], some ⟨1, 1⟩,
      some ⟨some "BR", [.expr (.sum "+" (.sum "+" (.symbol "loop") (.const 1)) (.const 2))],
        some ⟨1, 1⟩⟩⟩
    (by decide +kernel) (by decide +kernel) ⟨"BR", by decide +kernel, ⟨1, 1⟩, rfl⟩
  refine ⟨t, _, haccepts, hbranches, fun hsettles => ?_⟩
  rcases hsettles with _ | ⟨_, _, hadmits⟩
  exact absurd hadmits.even (by decide)

end Session
end Asm88000
