import Mathlib.Data.List.Nodup
import Mathlib.Order.Bounds.Basic
import Asm88000.Proofs.Encoding

namespace Asm88000

inductive First {α : Type} (P : α → Prop) : List α → α → Prop
  | head {a : α} {l : List α} (h : P a) : First P (a :: l) a
  | tail {a b : α} {l : List α} (h : ¬P a) (hl : First P l b) : First P (a :: l) b

namespace First

variable {α β : Type} {P Q : α → Prop} {l : List α} {a b : α}

theorem holds (h : First P l a) : P a := by
  induction h
  case head h      => exact h
  case tail _ _ ih => exact ih

theorem mem (h : First P l a) : a ∈ l := by
  induction h
  case head        => exact List.mem_cons_self
  case tail _ _ ih => exact List.mem_cons_of_mem _ ih

theorem unique (h : First P l a) (h' : First P l b) : a = b := by
  induction h
  case head h =>
    cases h'
    case head     => rfl
    case tail h _ => contradiction
  case tail h _ ih =>
    cases h'
    case head     => contradiction
    case tail h'  => exact ih h'

theorem of_filter {p : α → Bool} (hp : ∀ a, p a ↔ Q a) (h : First P (l.filter p) a) :
    First (fun a => Q a ∧ P a) l a := by
  induction l
  case nil => cases h
  case cons b l ih =>
    by_cases hb : p b
    case neg =>
      rw [List.filter_cons_of_neg hb] at h
      exact .tail (fun hPb => hb ((hp b).mpr hPb.left)) (ih h)
    case pos =>
      rw [List.filter_cons_of_pos hb] at h
      cases h
      case head h    => exact .head ⟨(hp a).mp hb, h⟩
      case tail h hl => exact .tail (fun hPb => h hPb.right) (ih hl)

theorem of_forall₂ {R : α → β → Prop} {Q : β → Prop} {l : List α} {l' : List β} {b : β}
    (hR : List.Forall₂ R l l') (hPQ : ∀ {a b}, R a b → (P a ↔ Q b)) (h : First Q l' b) :
    ∃ a, First P l a ∧ R a b := by
  induction hR
  case nil => cases h
  case cons hab _ ih =>
    cases h
    case head h    => exact ⟨_, .head ((hPQ hab).mpr h), hab⟩
    case tail h hl =>
      obtain ⟨a, ha, hR⟩ := ih hl
      exact ⟨a, .tail (fun hP => h ((hPQ hab).mp hP)) ha, hR⟩

end First

namespace Entry

variable {e : Entry} {ops : List Operand}

def Accepts (e : Entry) (ops : List Operand) : Prop :=
  List.Forall₂ (fun cls op => cls.fits op = .ok true) e.classes ops

theorem accepts_iff_fits : e.Accepts ops ↔ e.Fits ops := by
  simp only [Accepts, Fits, OperandClass.fits_eq_ok_true_iff]

theorem Fits.isReal (h : e.Fits ops) : ∀ op ∈ ops, op.IsReal := by
  intro op hop
  obtain ⟨cls, _, htakes⟩ := forall₂_exists_left h hop
  refine Classical.not_not.mp fun hreal => ?_
  obtain ⟨id, hvalue, hid⟩ := Operand.not_isReal_iff.mp hreal
  rw [hvalue] at htakes
  cases hshape : cls.shape <;> simp [hshape, Shape.takes, hid] at htakes

end Entry

def FitsBefore (classes : List OperandClass) (ops : List Operand) (k : Nat) : Prop :=
  ∀ i < k, ∃ cls op, classes[i]? = some cls ∧ ops[i]? = some op ∧ cls.shape.takes op.value

-- The first slot, counted from zero, where classes and operands do not match, and what is wrong
-- there: an operand that does not fit its class, a class without an operand, or an operand behind
-- the last class.
inductive Mismatch (classes : List OperandClass) (ops : List Operand) : Nat → OperandFault → Prop
  | unfit {k : Nat} {cls : OperandClass} {op : Operand} (before : FitsBefore classes ops k)
      (hcls : classes[k]? = some cls) (hop : ops[k]? = some op)
      (hunfit : ¬cls.shape.takes op.value) : Mismatch classes ops k cls.fault
  | absent {k : Nat} {cls : OperandClass} (before : FitsBefore classes ops k)
      (hcls : classes[k]? = some cls) (hop : ops[k]? = none) : Mismatch classes ops k .operand
  | surplus {k : Nat} {op : Operand} (before : FitsBefore classes ops k)
      (hcls : classes[k]? = none) (hop : ops[k]? = some op) : Mismatch classes ops k .operand

variable {cls : OperandClass} {classes : List OperandClass} {op : Operand} {ops : List Operand}

theorem fitsBefore_zero : FitsBefore classes ops 0 :=
  fun _ hi => absurd hi (Nat.not_lt_zero _)

theorem FitsBefore.cons {k : Nat} (hop : cls.shape.takes op.value) (h : FitsBefore classes ops k) :
    FitsBefore (cls :: classes) (op :: ops) (k + 1) := by
  intro i hi
  cases i
  case zero   => exact ⟨cls, op, rfl, rfl, hop⟩
  case succ i => exact h i (Nat.lt_of_succ_lt_succ hi)

namespace Mismatch

variable {k k' : Nat} {reason reason' : OperandFault}

theorem cons (hop : cls.shape.takes op.value) (h : Mismatch classes ops k reason) :
    Mismatch (cls :: classes) (op :: ops) (k + 1) reason := by
  cases h
  case unfit before hcls hop' hunfit => exact .unfit (before.cons hop) hcls hop' hunfit
  case absent before hcls hop'       => exact .absent (before.cons hop) hcls hop'
  case surplus before hcls hop'      => exact .surplus (before.cons hop) hcls hop'

theorem before (h : Mismatch classes ops k reason) : FitsBefore classes ops k := by
  cases h <;> assumption

theorem not_fitting (h : Mismatch classes ops k reason) :
    ¬∃ cls op, classes[k]? = some cls ∧ ops[k]? = some op ∧ cls.shape.takes op.value := by
  rintro ⟨cls, op, hcls, hop, hfits⟩
  cases h
  case unfit hcls' hop' hunfit =>
    cases hcls.symm.trans hcls'
    cases hop.symm.trans hop'
    exact hunfit hfits
  case absent hop'  => cases hop.symm.trans hop'
  case surplus hcls' _ => cases hcls.symm.trans hcls'

theorem le (h : Mismatch classes ops k reason) (h' : Mismatch classes ops k' reason') : k ≤ k' :=
  Nat.not_lt.mp fun hlt => h'.not_fitting (h.before k' hlt)

theorem unique (h : Mismatch classes ops k reason) (h' : Mismatch classes ops k' reason') :
    k = k' ∧ reason = reason' := by
  obtain rfl : k = k' := Nat.le_antisymm (h.le h') (h'.le h)
  refine ⟨rfl, ?_⟩
  cases h <;> cases h' <;> simp_all

theorem not_fits {e : Entry} (h : Mismatch e.classes ops k reason) : ¬e.Fits ops := by
  intro hfits
  cases h
  case unfit hcls hop hunfit =>
    obtain ⟨op', hop', htakes⟩ := forall₂_getElem? hfits hcls
    cases hop.symm.trans hop'
    exact hunfit htakes
  case absent hcls hop =>
    obtain ⟨op', hop', _⟩ := forall₂_getElem? hfits hcls
    cases hop.symm.trans hop'
  case surplus hcls hop =>
    obtain ⟨cls', hcls', _⟩ := forall₂_getElem? hfits.flip hop
    cases hcls.symm.trans hcls'

end Mismatch

namespace Verdict

theorem misfit_eq_some {i : Nat} {m : Misfit} (h : misfit i classes ops = .ok (some m)) :
    ∃ k, m.index = i + k ∧ Mismatch classes ops k m.reason := by
  induction classes generalizing i ops
  case nil =>
    cases ops
    case nil         => cases h
    case cons op ops =>
      cases h
      exact ⟨0, rfl, .surplus fitsBefore_zero rfl rfl⟩
  case cons cls classes ih =>
    cases ops
    case nil =>
      cases h
      exact ⟨0, rfl, .absent fitsBefore_zero rfl rfl⟩
    case cons op ops =>
      obtain ⟨fits, hfits, h⟩ := bind_eq_ok.mp h
      cases fits
      case true =>
        obtain ⟨k, hk, hmismatch⟩ := ih h
        have hop := OperandClass.fits_eq_ok_true_iff.mp hfits
        exact ⟨k + 1, by omega, hmismatch.cons hop⟩
      case false =>
        cases h
        have hop : ¬cls.shape.takes op.value := by
          rw [← OperandClass.fits_eq_ok_true_iff, hfits]
          simp
        exact ⟨0, rfl, .unfit fitsBefore_zero rfl rfl hop⟩

def NoRegister (ops : List Operand) (b : Breach) : Prop :=
  ∃ op ∈ ops, ∃ id, op.value = .register id ∧ Register.ofId? id = none ∧ b = .notPhysical (.int id)

theorem fits_eq_error {b : Breach} (h : cls.fits op = .error b) :
    ∃ id, op.value = .register id ∧ Register.ofId? id = none ∧ b = .notPhysical (.int id) := by
  by_cases hreal : op.IsReal
  case pos =>
    rw [OperandClass.fits_eq_takes cls hreal] at h
    cases h
  case neg =>
    obtain ⟨value, first, last⟩ := op
    obtain ⟨id, rfl, hof⟩ := Operand.not_isReal_iff.mp hreal
    refine ⟨id, rfl, hof, ?_⟩
    cases cls <;> simp_all [OperandClass.fits, OperandClass.accepts, OperandClass.isOfClass,
      OperandClass.hasTargetCheck, Register.get, pure, Except.pure, bind, Except.bind,
      OperandClass.isUnsigned16, OperandClass.isImmediate, OperandClass.isToken, Operand.inRange]

theorem misfit_eq_error {i : Nat} {b : Breach} (h : misfit i classes ops = .error b) :
    NoRegister ops b := by
  induction classes generalizing i ops
  case nil => cases ops <;> cases h
  case cons cls classes ih =>
    cases ops
    case nil         => cases h
    case cons op ops =>
      rcases bind_eq_error.mp h with h | ⟨fits, _, h⟩
      · exact ⟨op, List.mem_cons_self, fits_eq_error h⟩
      · cases fits
        case false => cases h
        case true  =>
          obtain ⟨op', hop', hbad⟩ := ih h
          exact ⟨op', List.mem_cons_of_mem op hop', hbad⟩

-- No misfit is further on, and the reason is the first specific one at this operand.
structure Furthest (ms : List Misfit) (m : Misfit) : Prop where
  reached : ∃ m' ∈ ms, m'.index = m.index
  bound   : ∀ m' ∈ ms, m'.index ≤ m.index
  reason  : First (fun m' => m'.index = m.index ∧ m'.reason ≠ .operand) ms m ∨
    m.reason = .operand ∧ ∀ m' ∈ ms, m'.index = m.index → m'.reason = .operand

theorem Furthest.singleton (m : Misfit) : Furthest [m] m := by
  refine ⟨⟨m, by simp⟩, by simp, ?_⟩
  by_cases h : m.reason = .operand
  case pos => exact .inr ⟨h, by simp [h]⟩
  case neg => exact .inl (.head ⟨rfl, h⟩)

variable {b m r : Misfit} {ms : List Misfit}

theorem Furthest.cons (h : Furthest ms r)
    (hb : b.index < r.index ∨ b.index ≤ r.index ∧ b.reason = .operand) : Furthest (b :: ms) r := by
  have hnot : ¬(b.index = r.index ∧ b.reason ≠ .operand) := by
    rintro ⟨hindex, hreason⟩
    rcases hb with hlt | ⟨_, hb⟩
    · omega
    · exact hreason hb
  constructor
  case reached =>
    obtain ⟨m, hm, hindex⟩ := h.reached
    exact ⟨m, List.mem_cons_of_mem b hm, hindex⟩
  case bound =>
    refine List.forall_mem_cons.mpr ⟨?_, h.bound⟩
    rcases hb with hlt | ⟨hle, _⟩
    · exact Nat.le_of_lt hlt
    · exact hle
  case reason =>
    refine h.reason.imp (.tail hnot) (And.imp_right fun hall => List.forall_mem_cons.mpr ⟨?_, hall⟩)
    exact fun hindex => Classical.not_not.mp fun hreason => hnot ⟨hindex, hreason⟩

-- A misfit that does not count against one before it does not count at all.
theorem Furthest.insert (h : Furthest (b :: ms) r) (hle : m.index ≤ b.index)
    (hreason : m.index = b.index → b.reason = .operand → m.reason = .operand) :
    Furthest (b :: m :: ms) r := by
  obtain ⟨hb, hbound⟩ := List.forall_mem_cons.mp h.bound
  constructor
  case reached =>
    obtain ⟨m', hm', hindex⟩ := h.reached
    exact ⟨m', by grind, hindex⟩
  case bound =>
    exact List.forall_mem_cons.mpr ⟨hb, List.forall_mem_cons.mpr ⟨Nat.le_trans hle hb, hbound⟩⟩
  case reason =>
    rcases h.reason with hfirst | ⟨hr, hall⟩
    · left
      cases hfirst
      case head hb => exact .head hb
      case tail hnot hfirst =>
        refine .tail hnot (.tail (fun hm => ?_) hfirst)
        have hindex : m.index = b.index := by omega
        exact hm.right (hreason hindex (Classical.not_not.mp fun hb => hnot ⟨by omega, hb⟩))
    · right
      obtain ⟨hb', hall⟩ := List.forall_mem_cons.mp hall
      refine ⟨hr, List.forall_mem_cons.mpr ⟨hb', List.forall_mem_cons.mpr ⟨fun hm => ?_, hall⟩⟩⟩
      exact hreason (by omega) (hb' (by omega))

theorem Furthest.of_worse (h : Furthest (Misfit.worse (some b) m :: ms) r) :
    Furthest (b :: m :: ms) r := by
  simp only [Misfit.worse] at h
  split at h
  case isTrue hlt =>
    have hm := h.bound m List.mem_cons_self
    exact h.cons (.inl (by omega))
  case isFalse hlt =>
    split at h
    case isTrue hsame =>
      simp only [Bool.and_eq_true, decide_eq_true_eq] at hsame
      have hm := h.bound m List.mem_cons_self
      exact h.cons (.inr ⟨by omega, hsame.right⟩)
    case isFalse hsame =>
      refine h.insert (by omega) fun hindex hb => ?_
      simpa [hindex, hb] using hsame

theorem furthest_foldl (m : Misfit) (ms : List Misfit) :
    ∃ r, ms.foldl (fun best m => some (Misfit.worse best m)) (some m) = some r ∧
      Furthest (m :: ms) r := by
  induction ms generalizing m
  case nil => exact ⟨m, rfl, .singleton m⟩
  case cons m' ms ih =>
    obtain ⟨r, hr, hfurthest⟩ := ih (Misfit.worse (some m) m')
    exact ⟨r, hr, hfurthest.of_worse⟩

variable {available : List Feature} {missing : Option (List Feature)} {best : Option Misfit}
variable {es forms : List Entry} {word : String} {v v' : Verdict}

def refusal : Option Misfit → Verdict
  | some m => rejected m.reason (some m.index)
  | none   => rejected .operand none

-- What the trial of forms comes to, given what is known from the forms before them.
inductive Found (available : List Feature) (ops : List Operand) (missing : Option (List Feature))
    (best : Option Misfit) (es : List Entry) : Verdict → Prop
  | success {e : Entry}
      (h : First (fun e => e.Fits ops ∧ Feature.covers available e.features) es e) :
      Found available ops missing best es (success e (e.inst ops))
  | known {fs : List Feature} (hnone : ∀ e ∈ es, e.Fits ops → ¬Feature.covers available e.features)
      (hm : missing = some fs) : Found available ops missing best es (missingFeature fs)
  | lacking {e : Entry} (hnone : ∀ e ∈ es, e.Fits ops → ¬Feature.covers available e.features)
      (hm : missing = none) (h : First (·.Fits ops) es e) :
      Found available ops missing best es (missingFeature (Feature.lacking available e.features))
  | refused {ms : List Misfit} (hm : missing = none)
      (h : List.Forall₂ (fun e m => misfit 1 e.classes ops = .ok (some m)) es ms) :
      Found available ops missing best es
        (refusal (ms.foldl (fun best m => some (Misfit.worse best m)) best))

theorem select_found (h : select available ops missing best es = .ok v) :
    Found available ops missing best es v := by
  induction es generalizing missing best
  case nil =>
    cases missing
    case some fs =>
      obtain rfl := pure_eq_ok.mp h
      exact .known (by simp) rfl
    case none =>
      cases best <;> obtain rfl := pure_eq_ok.mp h <;> exact .refused rfl .nil
  case cons e es ih =>
    obtain ⟨m, hmisfit, hrest⟩ := bind_eq_ok.mp h
    clear h
    cases m
    case some m =>
      have hunfit : ¬e.Fits ops := by
        intro hfits
        rw [misfit_eq_none_iff.mpr hfits] at hmisfit
        cases hmisfit
      replace hrest := ih hrest
      cases hrest
      case success h        => exact .success (.tail (fun hs => hunfit hs.left) h)
      case known hnone hm   =>
        exact .known (List.forall_mem_cons.mpr ⟨fun hfits => absurd hfits hunfit, hnone⟩) hm
      case lacking hnone hm h =>
        have hnone := List.forall_mem_cons.mpr ⟨fun hfits => absurd hfits hunfit, hnone⟩
        exact .lacking hnone hm (.tail hunfit h)
      case refused hm h => exact .refused hm (.cons hmisfit h)
    case none =>
      have hfits : e.Fits ops := misfit_eq_none_iff.mp hmisfit
      dsimp only at hrest
      split at hrest
      case isTrue hs =>
        obtain rfl := pure_eq_ok.mp hrest
        exact .success (.head ⟨hfits, hs⟩)
      case isFalse hs =>
        replace hrest := ih hrest
        cases hrest
        case success h => exact .success (.tail (fun h => hs h.right) h)
        case known hnone hm =>
          have hnone := List.forall_mem_cons.mpr ⟨fun _ => hs, hnone⟩
          cases missing
          case some fs =>
            cases hm
            exact .known hnone rfl
          case none =>
            cases hm
            exact .lacking hnone rfl (.head hfits)
        -- From here on something is missing.
        case lacking hm _ => cases missing <;> cases hm
        case refused hm _ => cases missing <;> cases hm

theorem select_eq_error {b : Breach} (h : select available ops missing best es = .error b) :
    NoRegister ops b := by
  induction es generalizing missing best
  case nil => cases missing <;> cases best <;> cases h
  case cons e es ih =>
    rcases bind_eq_error.mp h with h | ⟨m, _, hrest⟩
    · exact misfit_eq_error h
    · cases m
      case some m => exact ih hrest
      case none   =>
        dsimp only at hrest
        split at hrest
        · cases hrest
        · exact ih hrest

-- A slot that some form of the mnemonic gets to, with the operands before it fitting.
def Reaches (forms : List Entry) (word : String) (ops : List Operand) : Set Nat :=
  {k | ∃ e ∈ forms, e.mnemonic = word ∧ ∃ reason, Mismatch e.classes ops k reason}

-- The reason given for a mismatch at a slot is that of the first form with a specific one.
inductive Blames (forms : List Entry) (word : String) (ops : List Operand) (k : Nat) :
    OperandFault → Prop
  | specific {e : Entry} {reason : OperandFault}
      (h : First (fun e => e.mnemonic = word ∧
        ∃ reason, Mismatch e.classes ops k reason ∧ reason ≠ .operand) forms e)
      (hreason : Mismatch e.classes ops k reason) : Blames forms word ops k reason
  | generic (h : ∀ e ∈ forms, e.mnemonic = word →
      ∀ reason, Mismatch e.classes ops k reason → reason = .operand) :
      Blames forms word ops k .operand

inductive Due (forms : List Entry) (available : List Feature) (word : String) (ops : List Operand) :
    Verdict → Prop
  | unknown (h : ∀ e ∈ forms, e.mnemonic ≠ word) : Due forms available word ops unknownMnemonic
  | success {e : Entry}
      (h : First (fun e => e.mnemonic = word ∧ e.Fits ops ∧ Feature.covers available e.features)
        forms e) :
      Due forms available word ops (success e (e.inst ops))
  | missing {e : Entry}
      (hnone : ∀ e ∈ forms, e.mnemonic = word → e.Fits ops → ¬Feature.covers available e.features)
      (h : First (fun e => e.mnemonic = word ∧ e.Fits ops) forms e)
      (hlacks : Feature.lacking available e.features ≠ []) :
      Due forms available word ops (missingFeature (Feature.lacking available e.features))
  | rejected {k : Nat} {reason : OperandFault}
      (hnone : ∀ e ∈ forms, e.mnemonic = word → ¬e.Fits ops)
      (hfar : IsGreatest (Reaches forms word ops) k) (hreason : Blames forms word ops k reason) :
      Due forms available word ops (rejected reason (some (k + 1)))

theorem Blames.unique {k : Nat} {reason reason' : OperandFault} (h : Blames forms word ops k reason)
    (h' : Blames forms word ops k reason') : reason = reason' := by
  cases h
  case specific h hreason =>
    cases h'
    case specific h' hreason' =>
      obtain rfl := h.unique h'
      exact (hreason.unique hreason').right
    case generic h' => exact h' _ h.mem h.holds.left _ hreason
  case generic h =>
    cases h'
    case specific h' hreason' => exact (h _ h'.mem h'.holds.left _ hreason').symm
    case generic              => rfl

theorem exists_form {k : Nat} (h : IsGreatest (Reaches forms word ops) k) :
    ∃ e ∈ forms, e.mnemonic = word := by
  obtain ⟨⟨e, he, hword, _⟩, _⟩ := h
  exact ⟨e, he, hword⟩

theorem Due.unique (h : Due forms available word ops v) (h' : Due forms available word ops v') :
    v = v' := by
  cases h <;> cases h'
  case unknown.unknown => rfl
  case success.success h _ h' => rw [h.unique h']
  case missing.missing h _ _ _ h' _ => rw [h.unique h']
  case rejected.rejected hfar hreason _ _ _ hfar' hreason' =>
    obtain rfl := hfar.unique hfar'
    rw [hreason.unique hreason']
  -- A form that one verdict rests on is excluded by the other.
  all_goals
    exfalso
    grind [First.mem, First.holds, exists_form]

def Misses (ops : List Operand) (e : Entry) (m : Misfit) : Prop :=
  ∃ k, m.index = 1 + k ∧ Mismatch e.classes ops k m.reason

theorem Misses.mismatch_iff {e : Entry} {k : Nat} {reason : OperandFault} (h : Misses ops e m) :
    Mismatch e.classes ops k reason ↔ m.index = 1 + k ∧ m.reason = reason := by
  obtain ⟨k', hindex, hmismatch⟩ := h
  constructor
  · intro h
    obtain ⟨rfl, rfl⟩ := h.unique hmismatch
    exact ⟨hindex, rfl⟩
  · rintro ⟨hk, rfl⟩
    obtain rfl : k' = k := by omega
    exact hmismatch

section

variable (hms : List.Forall₂ (Misses ops) (InstructionSet.formsOf word forms) ms)

include hms

theorem exists_misses {e : Entry} (he : e ∈ forms) (hword : e.mnemonic = word) :
    ∃ m ∈ ms, Misses ops e m :=
  forall₂_exists_left hms.flip (mem_formsOf.mpr ⟨he, hword⟩)

theorem isGreatest_reaches {k : Nat} (hr : Furthest ms r) (hk : r.index = 1 + k) :
    IsGreatest (Reaches forms word ops) k := by
  constructor
  · obtain ⟨m, hm, hindex⟩ := hr.reached
    obtain ⟨e, he, hmisses⟩ := forall₂_exists_left hms hm
    obtain ⟨he, hword⟩ := mem_formsOf.mp he
    exact ⟨e, he, hword, m.reason, hmisses.mismatch_iff.mpr ⟨hindex.trans hk, rfl⟩⟩
  · rintro k' ⟨e, he, hword, reason, hmismatch⟩
    obtain ⟨m, hm, hmisses⟩ := exists_misses hms he hword
    have hindex := (hmisses.mismatch_iff.mp hmismatch).left
    have hbound := hr.bound m hm
    omega

theorem blames_furthest {k : Nat} (hr : Furthest ms r) (hk : r.index = 1 + k) :
    Blames forms word ops k r.reason := by
  rcases hr.reason with hfirst | ⟨hreason, hall⟩
  · have hspecific {e : Entry} {m : Misfit} (hmisses : Misses ops e m) :
        (∃ reason, Mismatch e.classes ops k reason ∧ reason ≠ .operand) ↔
          m.index = r.index ∧ m.reason ≠ .operand := by
      simp [hmisses.mismatch_iff, hk]
    obtain ⟨e, hfirst, hmisses⟩ := hfirst.of_forall₂ hms hspecific
    exact .specific (hfirst.of_filter fun _ => beq_iff_eq) (hmisses.mismatch_iff.mpr ⟨hk, rfl⟩)
  · rw [hreason]
    refine .generic fun e he hword reason hmismatch => ?_
    obtain ⟨m, hm, hmisses⟩ := exists_misses hms he hword
    obtain ⟨hindex, rfl⟩ := hmisses.mismatch_iff.mp hmismatch
    exact hall m hm (hindex.trans hk.symm)

theorem due_of_misses (hr : Furthest ms r) :
    Due forms available word ops (rejected r.reason (some r.index)) := by
  obtain ⟨m, hm, hindex⟩ := hr.reached
  obtain ⟨e, _, k, hk, _⟩ := forall₂_exists_left hms hm
  have hrk : r.index = 1 + k := hindex.symm.trans hk
  have hcast : (r.index : Int) = k + 1 := by omega
  rw [hcast]
  refine .rejected (fun e he hword => ?_) (isGreatest_reaches hms hr hrk)
    (blames_furthest hms hr hrk)
  obtain ⟨_, _, _, _, hmismatch⟩ := exists_misses hms he hword
  exact hmismatch.not_fits

end

theorem Found.due (hne : InstructionSet.formsOf word forms ≠ [])
    (h : Found available ops none none (InstructionSet.formsOf word forms) v) :
    Due forms available word ops v := by
  have hword (e : Entry) : (e.mnemonic == word) = true ↔ e.mnemonic = word := beq_iff_eq
  cases h
  case success h  => exact .success (h.of_filter hword)
  case known hm   => cases hm
  case lacking hnone _ h =>
    refine .missing (fun e he hw => hnone e (mem_formsOf.mpr ⟨he, hw⟩)) (h.of_filter hword) ?_
    exact Feature.lacking_ne_nil (hnone _ h.mem h.holds)
  case refused ms _ h =>
    cases ms
    case nil          => exact absurd (List.forall₂_nil_right_iff.mp h) hne
    case cons m ms =>
      obtain ⟨r, hr, hfurthest⟩ := furthest_foldl m ms
      rw [List.foldl_cons, show Misfit.worse none m = m from rfl, hr]
      exact due_of_misses (h.imp fun _ _ => misfit_eq_some) hfurthest

-- Whatever the forms, the features and the operands behind a mnemonic are, the verdict is the one
-- that is due, unless an operand has a number for a register that is no register's.
theorem byForms_gives_due (forms : List Entry) (available : List Feature) (word : String)
    (first last : Option Loc) (ops : List Operand) :
    (∃ v, byForms forms available (⟨.token word, first, last⟩ :: ops) = .ok v ∧
        ∀ v', Due forms available word ops v' ↔ v' = v) ∨
      ∃ op ∈ ops, ∃ id, op.value = .register id ∧ Register.ofId? id = none ∧
        byForms forms available (⟨.token word, first, last⟩ :: ops) =
          .error (.notPhysical (.int id)) := by
  have ht : Operand.getToken ⟨.token word, first, last⟩ = .ok word := rfl
  by_cases hnil : InstructionSet.formsOf word forms = []
  case pos =>
    have hdue : Due forms available word ops unknownMnemonic := by
      refine .unknown fun e he hword => ?_
      simpa [hnil] using mem_formsOf.mpr ⟨he, hword⟩
    rw [byForms_eq_unknownMnemonic ht hnil]
    exact .inl ⟨_, rfl, fun v' => ⟨fun h' => h'.unique hdue, fun h' => h' ▸ hdue⟩⟩
  case neg =>
    rw [byForms_eq_select ht hnil]
    cases h : select available ops none none (InstructionSet.formsOf word forms)
    case ok v =>
      have hdue := (select_found h).due hnil
      exact .inl ⟨v, rfl, fun v' => ⟨fun h' => h'.unique hdue, fun h' => h' ▸ hdue⟩⟩
    case error b =>
      obtain ⟨op, hop, id, hvalue, hid, rfl⟩ := select_eq_error h
      exact .inr ⟨op, hop, id, hvalue, hid, rfl⟩

theorem byForms_success_of_subset {forms' : List Entry} {e : Entry} {inst : Inst}
    (hsub : forms ⊆ forms')
    (hu : ∀ e ∈ forms', ∀ e' ∈ forms', e'.mnemonic = e.mnemonic → e.Fits ops.tail →
      e'.Fits ops.tail → e' = e)
    (h : byForms forms available ops = .ok (success e inst)) :
    byForms forms' available ops = .ok (success e inst) := by
  cases ops
  case nil => cases h
  case cons op ops =>
    obtain ⟨word, ht, hform, hfits, hs, rfl⟩ := of_byForms h
    obtain ⟨he, rfl⟩ := mem_formsOf.mp hform
    refine byForms_eq_success ht hfits.isReal (hsub he) hfits hs fun e' he' hword hfits' => ?_
    exact hu e (hsub he) e' he' hword hfits hfits'

end Verdict

namespace InstructionSet

theorem table_nodup : table.Nodup := by
  have hbases : (table.map (·.opcode.base)).Nodup := by decide +kernel
  exact hbases.of_map _

-- At most one form of the table fits a list of operands, and so the table may be in any order.
theorem table_unambiguous :
    (∀ (ops : List Operand) (i j : Nat) (e e' : Entry), table[i]? = some e → table[j]? = some e' →
        e.mnemonic = e'.mnemonic → e.Accepts ops → e'.Accepts ops → i = j) ∧
      ∀ forms : List Entry, forms.Perm table → ∀ (available : List Feature) (ops : List Operand)
        (e : Entry) (inst : Inst),
        Verdict.byForms forms available ops = .ok (.success e inst) ↔
          Verdict.byForms table available ops = .ok (.success e inst) := by
  have hu (ops : List Operand) : ∀ e ∈ table, ∀ e' ∈ table, e'.mnemonic = e.mnemonic →
      e.Fits ops → e'.Fits ops → e' = e := fun e he e' he' hword hfits =>
    hfits.unique he (Verdict.mem_candidates.mpr ⟨he', hword⟩)
  constructor
  · intro ops i j e e' hi hj hword haccepts haccepts'
    obtain rfl := hu ops e' (List.mem_of_getElem? hj) e (List.mem_of_getElem? hi) hword
      (Entry.accepts_iff_fits.mp haccepts') (Entry.accepts_iff_fits.mp haccepts)
    obtain ⟨hlt, _⟩ := List.getElem?_eq_some_iff.mp hi
    exact (List.getElem?_inj hlt table_nodup).mp (hi.trans hj.symm)
  · intro forms hperm available ops e inst
    have hmem {e : Entry} : e ∈ forms ↔ e ∈ table := hperm.mem_iff
    constructor
    · exact Verdict.byForms_success_of_subset (fun _ => hmem.mp) (hu ops.tail)
    · refine Verdict.byForms_success_of_subset (fun _ => hmem.mpr) fun e he e' he' => ?_
      exact hu ops.tail e (hmem.mp he) e' (hmem.mp he')

-- A load of a pair that is named by a general register. Nothing else takes its operands, and it is
-- also found with the table turned around.
theorem table_unambiguous_pair :
    let ops : List Operand := [.register (.gpr 1) ⟨1, 6⟩ ⟨1, 8⟩, .register (.gpr 2) ⟨1, 11⟩ ⟨1, 13⟩,
      .register (.gpr 3) ⟨1, 16⟩ ⟨1, 18⟩]
    let e : Entry := ⟨"ld.d", [.gpr64, .gpr, .gpr], ⟨"LDDrr", 0xF4001000, Format.rrr⟩, []⟩
    table[55]? = some e ∧ e.Accepts ops ∧
      (∀ j e', table[j]? = some e' → e.mnemonic = e'.mnemonic → e'.Accepts ops → 55 = j) ∧
      Verdict.byForms table.reverse [] (.token "ld.d" ⟨1, 1⟩ :: ops) =
        .ok (.success e (e.inst ops)) := by
  intro ops e
  have hlisted : table[55]? = some e := by decide +kernel
  have hmisfit : Verdict.misfit 1 e.classes ops = .ok none := by decide +kernel
  have haccepts := Entry.accepts_iff_fits.mpr (Verdict.misfit_eq_none_iff.mp hmisfit)
  have hfound : Verdict.byForms table [] (.token "ld.d" ⟨1, 1⟩ :: ops) =
      .ok (.success e (e.inst ops)) := by
    decide +kernel
  refine ⟨hlisted, haccepts, fun j e' hj hword => ?_, ?_⟩
  · exact table_unambiguous.left ops 55 j e e' hlisted hj hword haccepts
  · exact (table_unambiguous.right _ table.reverse_perm _ _ _ _).mpr hfound

end InstructionSet
end Asm88000
