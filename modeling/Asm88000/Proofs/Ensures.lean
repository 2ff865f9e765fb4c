
namespace Asm88000

variable {ε σ α β : Type}

theorem bind_eq_ok {x : Except ε α} {f : α → Except ε β} {b : β} :
    (x >>= f) = .ok b ↔ ∃ a, x = .ok a ∧ f a = .ok b := by
  cases x <;> simp [bind, Except.bind]

theorem bind_eq_error {x : Except ε α} {f : α → Except ε β} {e : ε} :
    (x >>= f) = .error e ↔ x = .error e ∨ ∃ a, x = .ok a ∧ f a = .error e := by
  cases x <;> simp [bind, Except.bind]

theorem pure_eq_ok {a b : α} : (pure a : Except ε α) = .ok b ↔ a = b := by
  simp [pure, Except.pure]

theorem eq_ok_of_not_error {x : Except ε Unit} (h : ¬∃ e, x = .error e) : x = .ok () := by
  cases x
  case error e => exact absurd ⟨e, rfl⟩ h
  case ok      => rfl

theorem any_toOption_iff {x : Except ε α} {P : α → Prop} [DecidablePred P] :
    (x.toOption.any fun a => P a) ↔ ∃ a, x = .ok a ∧ P a := by
  cases x
  case error e =>
    refine ⟨fun h => absurd h Bool.false_ne_true, ?_⟩
    rintro ⟨_, h, _⟩
    cases h
  case ok a =>
    refine ⟨fun h => ⟨a, rfl, of_decide_eq_true h⟩, ?_⟩
    rintro ⟨_, h, hP⟩
    cases h
    exact decide_eq_true hP

instance decidableExistsOk (x : Except ε α) (P : α → Prop) [DecidablePred P] :
    Decidable (∃ a, x = .ok a ∧ P a) :=
  decidable_of_iff _ any_toOption_iff

theorem mapError_eq_ok {ε' : Type} {x : Except ε α} {f : ε → ε'} {a : α} :
    x.mapError f = .ok a ↔ x = .ok a := by
  cases x
  case error e => exact ⟨nofun, nofun⟩
  case ok a' =>
    constructor
    · exact fun h => congrArg Except.ok (Except.ok.inj h)
    · exact fun h => congrArg Except.ok (Except.ok.inj h)

theorem foldlM_invariant {f : β → α → Except ε β} {P : β → Prop} {xs : List α} {b c : β}
    (hf : ∀ {b x c}, P b → f b x = .ok c → P c) (hb : P b) (h : xs.foldlM f b = .ok c) : P c := by
  induction xs generalizing b
  case nil          => exact pure_eq_ok.mp h ▸ hb
  case cons x xs ih =>
    have ⟨b', hstep, hrest⟩ := bind_eq_ok.mp h
    exact ih (hf hb hstep) hrest

-- Started in `s`, the program `p` ends with an answer and a state that satisfy `Q`, or it fails
-- with a failure and a state that satisfy `E`.
def Ensures (p : EStateM ε σ α) (s : σ) (Q : α → σ → Prop) (E : ε → σ → Prop) : Prop :=
  match p s with
  | .ok a t    => Q a t
  | .error e t => E e t

section

variable {p : EStateM ε σ α} {f : α → EStateM ε σ β} {s t : σ} {a : α} {e : ε}
variable {Q Q' : α → σ → Prop} {E E' : ε → σ → Prop}

theorem bind_apply_of_ok (h : p s = .ok a t) : (p >>= f) s = f a t := by
  simp only [bind, EStateM.bind, h]

theorem eq_ok_of_run' (h : EStateM.run' p s = some a) : ∃ t, p s = .ok a t := by
  delta EStateM.run' EStateM.run at h
  generalize p s = x at h ⊢
  cases x
  case error  => cases h
  case ok b t =>
    cases h
    exact ⟨t, rfl⟩

theorem Ensures.of_ok (h : p s = .ok a t) (hq : Q a t) : Ensures p s Q E := by
  simp only [Ensures, h, hq]

theorem Ensures.of_error (h : p s = .error e t) (he : E e t) : Ensures p s Q E := by
  simp only [Ensures, h, he]

theorem Ensures.ok (h : Ensures p s Q E) (hp : p s = .ok a t) : Q a t := by
  simpa only [Ensures, hp] using h

theorem Ensures.error (h : Ensures p s Q E) (hp : p s = .error e t) : E e t := by
  simpa only [Ensures, hp] using h

theorem Ensures.exists_ok (h : Ensures p s Q fun _ _ => False) : ∃ a t, p s = .ok a t ∧ Q a t := by
  cases hp : p s
  case ok a t    => exact ⟨a, t, rfl, h.ok hp⟩
  case error e t => exact (h.error hp).elim

theorem Ensures.mono (h : Ensures p s Q E) (hq : ∀ a t, Q a t → Q' a t)
    (he : ∀ e t, E e t → E' e t) : Ensures p s Q' E' := by
  cases hp : p s
  case ok a t    => exact .of_ok hp (hq a t (h.ok hp))
  case error e t => exact .of_error hp (he e t (h.error hp))

theorem Ensures.of_eq {p' : EStateM ε σ α} {s' : σ} (h : Ensures p s Q E) (heq : p' s' = p s) :
    Ensures p' s' Q E := by
  unfold Ensures at h ⊢
  rwa [heq]

theorem Ensures.trivial : Ensures p s (fun _ _ => True) (fun _ _ => True) := by
  cases hp : p s
  case ok    => exact .of_ok hp True.intro
  case error => exact .of_error hp True.intro

@[simp]
theorem ensures_pure : Ensures (pure a) s Q E ↔ Q a s :=
  .rfl

@[simp]
theorem ensures_get {Q : σ → σ → Prop} : Ensures (ε := ε) get s Q E ↔ Q s s :=
  .rfl

@[simp]
theorem ensures_modify {g : σ → σ} {Q : PUnit → σ → Prop} :
    Ensures (ε := ε) (modify g) s Q E ↔ Q ⟨⟩ (g s) :=
  .rfl

@[simp]
theorem ensures_throw : Ensures (α := α) (throw e) s Q E ↔ E e s :=
  .rfl

@[simp]
theorem ensures_bind {Q : β → σ → Prop} :
    Ensures (p >>= f) s Q E ↔ Ensures p s (fun a t => Ensures (f a) t Q E) E := by
  cases hp : p s <;> simp only [Ensures, bind, EStateM.bind, hp]

theorem Ensures.bind {R : β → σ → Prop} (h : Ensures p s Q E')
    (hf : ∀ a t, Q a t → Ensures (f a) t R E) (he : ∀ e t, E' e t → E e t) :
    Ensures (p >>= f) s R E :=
  ensures_bind.mpr (h.mono hf he)

theorem Ensures.last {R : β → σ → Prop} (hf : ∀ a t, Ensures (f a) t R fun _ _ => True) :
    Ensures (p >>= f) s R fun _ _ => True :=
  Ensures.trivial.bind (fun a t _ => hf a t) fun _ _ _ => True.intro

end

-- States are `valid` from the beginning to the end of a program, every state the program gets to is
-- related to the one it began in, and its failures are among those that are allowed.
structure Discipline (ε σ : Type) where
  valid : σ → Prop
  rel   : σ → σ → Prop
  fails : ε → Prop
  refl  : ∀ s, rel s s
  trans : ∀ {s t u}, rel s t → rel t u → rel s u
  keeps : ∀ {s t}, valid s → rel s t → valid t

namespace Discipline

variable {D : Discipline ε σ}

def Obeys (D : Discipline ε σ) (p : EStateM ε σ α) : Prop :=
  ∀ s, D.valid s → Ensures p s (fun _ t => D.rel s t) (fun e t => D.rel s t ∧ D.fails e)

theorem Obeys.pure (a : α) : D.Obeys (pure a) :=
  fun s _ => D.refl s

theorem Obeys.get : D.Obeys get :=
  fun s _ => D.refl s

theorem Obeys.modify {g : σ → σ} (h : ∀ s, D.valid s → D.rel s (g s)) : D.Obeys (modify g) :=
  h

theorem Obeys.throw {e : ε} (h : D.fails e) : D.Obeys (α := α) (throw e) :=
  fun s _ => ⟨D.refl s, h⟩

def Answers (D : Discipline ε σ) (A : α → Prop) (p : EStateM ε σ α) : Prop :=
  ∀ s, D.valid s → Ensures p s (fun a t => D.rel s t ∧ A a) (fun e t => D.rel s t ∧ D.fails e)

theorem Obeys.answers {A : α → Prop} {p : EStateM ε σ α} (hp : D.Obeys p) (hA : ∀ a, A a) :
    D.Answers A p :=
  fun s hs => (hp s hs).mono (fun a _ ht => ⟨ht, hA a⟩) fun _ _ => id

theorem Answers.bind {A : α → Prop} {p : EStateM ε σ α} {f : α → EStateM ε σ β}
    (hp : D.Answers A p) (hf : ∀ a, A a → D.Obeys (f a)) : D.Obeys (p >>= f) := by
  intro s hs
  refine (hp s hs).bind (fun a t h => ?_) (fun _ _ he => he)
  obtain ⟨ht, ha⟩ := h
  refine (hf a ha t (D.keeps hs ht)).mono (fun _ _ hu => D.trans ht hu) fun _ _ hu => ?_
  exact ⟨D.trans ht hu.left, hu.right⟩

theorem Obeys.bind {p : EStateM ε σ α} {f : α → EStateM ε σ β} (hp : D.Obeys p)
    (hf : ∀ a, D.Obeys (f a)) : D.Obeys (p >>= f) :=
  (hp.answers (A := fun _ => True) fun _ => trivial).bind fun a _ => hf a

theorem Obeys.ite {c : Prop} [Decidable c] {p q : EStateM ε σ α} (hp : D.Obeys p) (hq : D.Obeys q) :
    D.Obeys (if c then p else q) := by
  split
  · exact hp
  · exact hq

end Discipline
end Asm88000
