import Mathlib.Algebra.Ring.Int.Defs
import Mathlib.Order.Bounds.Basic
import Asm88000.Proofs.Execution

namespace Asm88000

namespace Object

structure Realigns (o : Object) (n : Int) (o' : Object) : Prop where
  least    : IsLeast {a | n ∣ a ∧ o.address ≤ a} o'.address
  sections : ∀ sect, o'.getSection sect =
    if sect = o.current then ⟨(o.getSection sect).start, o'.address⟩ else o.getSection sect
  rest     : o' = { o with text := o'.text, data := o'.data }

def alignAll (o : Object) (calls : List (Int × Option Loc)) : Except Error Object :=
  calls.foldlM (fun o c => o.align c.1 c.2) o

variable {o o' : Object} {m n : Int} {loc : Option Loc}

theorem isPowerOfTwo_iff_pow : isPowerOfTwo n ↔ ∃ k : Nat, n = 2 ^ k := by
  simp only [isPowerOfTwo_iff, Nat.one_shiftLeft, Int.natCast_pow, Int.cast_ofNat_Int]

theorem dvd_of_isPowerOfTwo_le (hm : isPowerOfTwo m) (hn : isPowerOfTwo n) (h : m ≤ n) : m ∣ n := by
  obtain ⟨j, rfl⟩ := isPowerOfTwo_iff.mp hm
  obtain ⟨k, rfl⟩ := isPowerOfTwo_iff.mp hn
  rw [Nat.one_shiftLeft, Nat.one_shiftLeft] at h ⊢
  have hjk : j ≤ k := (Nat.pow_le_pow_iff_right (by decide)).mp (Int.ofNat_le.mp h)
  exact Int.natCast_dvd_natCast.mpr (Nat.pow_dvd_pow 2 hjk)

theorem dvd_add_padding (a n : Int) : n ∣ a + (-a) % n := by
  have h : n ∣ -a - (-a) % n := Int.dvd_self_sub_emod
  rw [← Int.dvd_neg] at h
  rwa [show -(-a - (-a) % n) = a + (-a) % n by omega] at h

-- A multiple in between would be less than `n` away from the next one.
theorem isLeast_add_padding (hn : 0 < n) (a : Int) :
    IsLeast {b | n ∣ b ∧ a ≤ b} (a + (-a) % n) := by
  have hnonneg := Int.emod_nonneg (-a) (Int.ne_of_gt hn)
  have hlt := Int.emod_lt_of_pos (-a) hn
  refine ⟨⟨dvd_add_padding a n, by omega⟩, ?_⟩
  rintro b ⟨hdvd, hab⟩
  apply Int.le_of_not_gt
  intro hbelow
  have hgap : n ∣ a + (-a) % n - b := Int.dvd_sub (dvd_add_padding a n) hdvd
  have hle := Int.le_of_dvd (by omega) hgap
  omega

theorem realigns_setAddress {a : Int} (h : IsLeast {b | n ∣ b ∧ o.address ≤ b} a) :
    o.Realigns n (o.setAddress a) where
  least         := by rwa [address_setAddress]
  sections sect := by rw [getSection_setAddress, address_setAddress]
  rest          := by
    unfold setAddress
    split <;> rfl

theorem align_realigns (h : o.align n loc = .ok o') : o.Realigns n o' := by
  obtain ⟨hpow, rfl⟩ := align_eq_ok_iff.mp h
  exact realigns_setAddress (isLeast_add_padding (pos_of_isPowerOfTwo hpow) o.address)

theorem align_of_dvd (hpow : isPowerOfTwo n) (h : n ∣ o.address) : o.align n loc = .ok o := by
  have hpad : (-o.address) % n = 0 := Int.emod_eq_zero_of_dvd (Int.dvd_neg.mpr h)
  exact align_eq_ok_iff.mpr ⟨hpow, setAddress_eq_self.mpr (by rw [hpad, Int.add_zero])⟩

theorem align_of_le (hn : isPowerOfTwo n) (h : n ∣ o.address) (hm : isPowerOfTwo m) (hle : m ≤ n) :
    o.align m loc = .ok o :=
  align_of_dvd hm (Int.dvd_trans (dvd_of_isPowerOfTwo_le hm hn hle) h)

theorem alignAll_of_le (hn : isPowerOfTwo n) (h : n ∣ o.address) {calls : List (Int × Option Loc)}
    (hcalls : ∀ c ∈ calls, c.1 ≤ n ∧ ∃ k : Nat, c.1 = 2 ^ k) : o.alignAll calls = .ok o := by
  induction calls
  case nil => rfl
  case cons c calls ih =>
    obtain ⟨hle, hpow⟩ := hcalls c List.mem_cons_self
    have hstep : o.align c.1 c.2 = .ok o := align_of_le hn h (isPowerOfTwo_iff_pow.mpr hpow) hle
    have hrest := ih fun c hc => hcalls c (List.mem_cons_of_mem _ hc)
    exact bind_eq_ok.mpr ⟨o, hstep, hrest⟩

end Object

namespace StatementM

theorem tryChange_align_ensures (r : Run) (n : Int) (loc : Loc) :
    Ensures (tryChange (Session.align · n loc)) r
      (fun _ q => (∃ k : Nat, n = 2 ^ k) ∧ r.session.object.Realigns n q.session.object ∧
        q = { r with session := { r.session with object := q.session.object } })
      fun f q => (¬∃ k : Nat, n = 2 ^ k) ∧ f = .error ⟨.badAlignment n, some loc⟩ ∧ q = r := by
  refine ensures_tryChange (fun t ht => ?_) fun e he => ?_
  · obtain ⟨o, ho, rfl⟩ := Session.align_eq_ok ht
    have hpow := (Object.align_eq_ok_iff.mp ho).left
    exact ⟨Object.isPowerOfTwo_iff_pow.mp hpow, Object.align_realigns ho, rfl⟩
  · obtain ⟨hpow, rfl⟩ := Session.align_eq_error he
    exact ⟨Object.isPowerOfTwo_iff_pow.not.mp hpow, rfl, rfl⟩

end StatementM

namespace Object

-- Only powers of two are accepted. They move the counter up to the next multiple and no further, so
-- that after that neither the same alignment nor a smaller one does anything.
theorem align_least_multiple (o : Object) (n : Int) (loc : Option Loc) :
    (∀ e, o.align n loc = .error e ↔ (¬∃ k : Nat, n = 2 ^ k) ∧ e = ⟨.badAlignment n, loc⟩) ∧
    ((∃ k : Nat, n = 2 ^ k) → ∃ o', o.align n loc = .ok o' ∧ o.Realigns n o' ∧
      ∀ calls : List (Int × Option Loc), (∀ c ∈ calls, c.1 ≤ n ∧ ∃ k : Nat, c.1 = 2 ^ k) →
        o'.alignAll calls = .ok o') ∧
    ∀ (r : Run) (place : Loc), r.session.object = o →
      Ensures (StatementM.tryChange (Session.align · n place)) r
        (fun _ q => (∃ k : Nat, n = 2 ^ k) ∧ o.Realigns n q.session.object ∧
          q = { r with session := { r.session with object := q.session.object } })
        fun f q => (¬∃ k : Nat, n = 2 ^ k) ∧ f = .error ⟨.badAlignment n, some place⟩ ∧ q = r := by
  refine ⟨fun e => ?_, fun hpow => ?_, ?_⟩
  · rw [← isPowerOfTwo_iff_pow]
    exact align_eq_error_iff
  · rw [← isPowerOfTwo_iff_pow] at hpow
    obtain ⟨o', ho'⟩ : ∃ o', o.align n loc = .ok o' := ⟨_, align_eq_ok_iff.mpr ⟨hpow, rfl⟩⟩
    have hrealigns := align_realigns ho'
    exact ⟨o', ho', hrealigns, fun calls => alignAll_of_le hpow hrealigns.least.left.left⟩
  · rintro r place rfl
    exact StatementM.tryChange_align_ensures r n place

-- Below zero the counter goes up as well. A multiple of four that is no power of two is refused.
theorem align_least_multiple_negative :
    (∃ o', (new (-13) 0x1000).align 8 none = .ok o' ∧ o'.address = -8 ∧
      (new (-13) 0x1000).Realigns 8 o' ∧ o'.alignAll [(8, none), (1, none), (4, none)] = .ok o') ∧
    (new (-13) 0x1000).align 12 none = .error ⟨.badAlignment 12, none⟩ ∧
    ∃ r : Run, r.session.object = new (-13) 0x1000 ∧
      Ensures (StatementM.tryChange (Session.align · 12 ⟨1, 1⟩)) r (fun _ _ => False)
        fun f q => f = .error ⟨.badAlignment 12, some ⟨1, 1⟩⟩ ∧ q = r := by
  have htwelve : ¬∃ k : Nat, (12 : Int) = 2 ^ k := by
    rw [← isPowerOfTwo_iff_pow]
    decide
  refine ⟨?_, ?_, ⟨Session.new .mc88100 (-13) 0x1000, ⟨[], [], ⟨1, 1⟩⟩⟩, rfl, ?_⟩
  · obtain ⟨_, hok, _⟩ := align_least_multiple (new (-13) 0x1000) 8 none
    obtain ⟨o', ho', hrealigns, hcalls⟩ := hok ⟨3, rfl⟩
    refine ⟨o', ho', ?_, hrealigns, hcalls _ ?_⟩
    · have hmoved : (new (-13) 0x1000).align 8 none =
          .ok ((new (-13) 0x1000).setAddress (-8)) := by decide +kernel
      rw [← Except.ok.inj (hmoved.symm.trans ho'), address_setAddress]
    · simp only [List.forall_mem_cons]
      exact ⟨⟨by decide, 3, rfl⟩, ⟨by decide, 0, rfl⟩, ⟨by decide, 2, rfl⟩, by simp⟩
  · obtain ⟨herror, _, _⟩ := align_least_multiple (new (-13) 0x1000) 12 none
    exact (herror _).mpr ⟨htwelve, rfl⟩
  · obtain ⟨_, _, hrun⟩ := align_least_multiple (new (-13) 0x1000) 12 none
    exact (hrun _ ⟨1, 1⟩ rfl).mono (fun _ _ h => absurd h.left htwelve) fun _ _ h => h.right

end Object
end Asm88000
