import Mathlib.Data.Int.ModEq
import Mathlib.Tactic
import MessageRing.Ring.Basic

/-! Accepted capacities are the powers of two, so masking a sequence takes its remainder.
Sequences less than a capacity apart therefore never share a slot. -/
namespace MessageRing
namespace Config
variable {c : Config}

theorem toNat_mask (hpos : 1 ≤ c.capacity.toNat) : c.mask.toNat = c.capacity.toNat - 1 := by
  unfold mask
  rw [UInt64.toNat_sub_of_le _ _ (by rw [UInt64.le_iff_toNat_le]; simpa using hpos)]
  rfl

/-- No bit survives masking exactly when the capacity is a power of two. -/
theorem valid_iff_isPowerOfTwo (c : Config) : c.Valid ↔ c.capacity.toNat.isPowerOfTwo := by
  rw [← Nat.ne_zero_and_sub_one_eq_zero_iff_isPowerOfTwo]
  by_cases hz : c.capacity = 0
  · simp [Valid, hz]
  · have hpos : c.capacity.toNat ≠ 0 := fun e => hz (UInt64.toNat_inj.mp (by simpa using e))
    have hand : c.capacity &&& c.mask = 0 ↔ c.capacity.toNat &&& (c.capacity.toNat - 1) = 0 := by
      rw [← toNat_mask (by omega), ← UInt64.toNat_and, ← UInt64.toNat_inj]
      rfl
    simp only [Valid, hz, hpos, ne_eq, not_false_eq_true, true_and, hand]

theorem validate_eq_ok_iff : c.validate = .ok () ↔ c.Valid := by
  unfold validate
  split_ifs with h <;> simp [h]

theorem capacity_pos (h : c.Valid) : 0 < c.capacity.toNat :=
  Nat.pos_of_isPowerOfTwo ((valid_iff_isPowerOfTwo c).mp h)

/-- The slot of a sequence is its remainder by the capacity, for negative sequences too. -/
theorem slot_eq_emod (h : c.Valid) (sequence : Int) :
    (c.slot sequence : Int) = sequence % c.capacity.toNat := by
  obtain ⟨k, hk⟩ := (valid_iff_isPowerOfTwo c).mp h
  have hk64 : k ≤ 64 := by
    have hlt := UInt64.toNat_lt c.capacity
    rw [hk] at hlt
    exact ((Nat.pow_lt_pow_iff_right (by omega)).mp hlt).le
  have hdvd : (2 : Int) ^ k ∣ 2 ^ 64 := pow_dvd_pow 2 hk64
  have hword : ((UInt64.ofInt sequence).toNat : Int) = sequence % 2 ^ 64 := by
    have hnonneg : 0 ≤ sequence % 2 ^ 64 := Int.emod_nonneg _ (by norm_num)
    have hlt : sequence % 2 ^ 64 < 2 ^ 64 := Int.emod_lt_of_pos _ (by norm_num)
    rw [UInt64.ofInt, UInt64.toNat_ofNat']
    omega
  unfold slot
  rw [UInt64.toNat_and, toNat_mask (capacity_pos h), hk, Nat.and_two_pow_sub_one_eq_mod,
    Int.natCast_emod, hword]
  push_cast
  exact Int.emod_emod_of_dvd sequence hdvd

theorem slot_eq_iff (h : c.Valid) {s t : Int} :
    c.slot s = c.slot t ↔ (c.capacity.toNat : Int) ∣ s - t := by
  rw [← Int.natCast_inj, slot_eq_emod h, slot_eq_emod h, eq_comm]
  exact Int.modEq_iff_dvd

theorem slot_add_capacity (h : c.Valid) (sequence : Int) :
    c.slot (sequence + c.capacity.toNat) = c.slot sequence := by
  rw [slot_eq_iff h, add_sub_cancel_left]

/-- Within a stretch as long as the ring every sequence has a slot of its own. -/
theorem slot_inj_of_lt (h : c.Valid) {s t : Int} (hst : s < t + c.capacity.toNat)
    (hts : t < s + c.capacity.toNat) : c.slot s = c.slot t ↔ s = t := by
  constructor
  · intro he
    have := Int.eq_zero_of_abs_lt_dvd ((slot_eq_iff h).mp he) (by rw [abs_lt]; omega)
    omega
  · rintro rfl
    rfl

end Config

namespace Ring
variable {α : Type}

theorem capacity_pos (r : Ring α) : 0 < r.capacity := Config.capacity_pos r.valid

/-- Within a stretch as long as the ring every sequence has a place of its own. -/
theorem index_inj_of_lt (r : Ring α) {s t : Int} (hst : s < t + r.capacity)
    (hts : t < s + r.capacity) : r.index s = r.index t ↔ s = t := by
  rw [← Config.slot_inj_of_lt r.valid hst hts, Fin.ext_iff]
  rfl

theorem peek_put_self (r : Ring α) (s : Int) (content : Option α) :
    (r.put s content).peek s = content := by
  rw [peek_put, if_pos rfl]

theorem peek_put_of_ne (r : Ring α) {s t : Int} (content : Option α) (hne : s ≠ t)
    (hst : s < t + r.capacity) (hts : t < s + r.capacity) :
    (r.put s content).peek t = r.peek t := by
  rw [peek_put, if_neg ((Config.slot_inj_of_lt r.valid hst hts).not.mpr hne)]

theorem peek_add_capacity (r : Ring α) (s : Int) : r.peek (s + r.capacity) = r.peek s := by
  have he : r.index (s + r.capacity) = r.index s :=
    Fin.ext (Config.slot_add_capacity r.valid s)
  simp only [peek, he]

end Ring
end MessageRing
