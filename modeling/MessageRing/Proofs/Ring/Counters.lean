import MessageRing.Proofs.Slots
import MessageRing.Ring.Call

/-!
The order of a ring's counters, and the claims that lie between two of them.

A sequence between `cursor` and `claimed` is on its way: a producer holds its claim, or has handed
it in before a lower one. `Ordered` says that these are exactly the claims the ring knows of;
`Counted` adds that nothing is kept back that could be visible already.
-/
namespace MessageRing
namespace Ring
variable {α : Type}

/-- The claims that the consumer cannot see yet. -/
def outstanding (r : Ring α) : List Int := r.held ++ r.deferred

structure Ordered (r : Ring α) : Prop where
  start : -1 ≤ r.gating
  gating_le : r.gating ≤ r.cursor
  cursor_le : r.cursor ≤ r.claimed
  claimed_le : r.claimed ≤ r.gating + r.capacity
  cached_le : r.cachedGating ≤ r.gating
  mem_outstanding : ∀ s, s ∈ r.outstanding ↔ r.cursor < s ∧ s ≤ r.claimed
  nodup : r.outstanding.Nodup
  sorted : r.deferred.Pairwise (· < ·)
  single : r.config.producers = .single → r.deferred = [] ∧ r.held.length ≤ 1

structure Counted (r : Ring α) : Prop extends Ordered r where
  /-- The next sequence to become visible has not been handed in. -/
  gap : ∀ s ∈ r.deferred, r.cursor + 1 < s

/-- A ring that has been made is new: all counters are at their start and all slots are empty. -/
theorem make_eq_ok {config : Config} {metrics : Metrics} {r : Ring α}
    (h : Ring.make config metrics = .ok r) :
    ∃ valid : config.Valid, r = {
      config, valid, metrics
      claimed := -1
      cursor := -1
      gating := -1
      cachedGating := -1
      held := []
      deferred := []
      slots := Vector.replicate _ none
      halted := false
      consumed := false } := by
  unfold Ring.make at h
  split_ifs at h with valid unaddressable
  cases h
  exact ⟨valid, rfl⟩

theorem make_counted {config : Config} {metrics : Metrics} {r : Ring α}
    (h : Ring.make config metrics = .ok r) : r.Counted := by
  obtain ⟨valid, rfl⟩ := make_eq_ok h
  refine ⟨?_, by simp⟩
  constructor <;> simp [outstanding]

theorem make_config {config : Config} {metrics : Metrics} {r : Ring α}
    (h : Ring.make config metrics = .ok r) : r.config = config := by
  obtain ⟨valid, rfl⟩ := make_eq_ok h
  rfl

theorem make_claimed {config : Config} {metrics : Metrics} {r : Ring α}
    (h : Ring.make config metrics = .ok r) : r.claimed = -1 := by
  obtain ⟨valid, rfl⟩ := make_eq_ok h
  rfl

theorem make_peek {config : Config} {metrics : Metrics} {r : Ring α}
    (h : Ring.make config metrics = .ok r) (s : Int) : r.peek s = none := by
  obtain ⟨valid, rfl⟩ := make_eq_ok h
  exact Vector.getElem_replicate _

namespace Ordered
variable {r : Ring α}

/-- There are as many outstanding claims as sequences from the cursor to the last claimed one. -/
theorem length_outstanding (h : r.Ordered) :
    (r.outstanding.length : Int) = r.claimed - r.cursor := by
  -- without repetition, so they are counted as a set
  have he : r.outstanding.toFinset = Finset.Ioc r.cursor r.claimed := by
    ext s
    simp [h.mem_outstanding]
  have hc : r.outstanding.length = (r.claimed - r.cursor).toNat := by
    rw [← List.toFinset_card_of_nodup h.nodup, he, Int.card_Ioc]
  have := h.cursor_le
  omega

theorem length_eq (h : r.Ordered) : (r.length : Int) = r.cursor - r.gating := by
  have := h.gating_le
  unfold length
  omega

theorem remaining_eq (h : r.Ordered) :
    (r.remaining : Int) = r.capacity - (r.claimed - r.gating) := by
  have := h.gating_le
  have := h.cursor_le
  have := h.claimed_le
  unfold remaining
  omega

theorem held_bounds (h : r.Ordered) {s : Int} (hs : s ∈ r.held) : r.cursor < s ∧ s ≤ r.claimed :=
  (h.mem_outstanding s).mp (List.mem_append_left _ hs)

end Ordered

/-- What publication leaves alone. -/
structure Keeps (r r' : Ring α) : Prop where
  config : r'.config = r.config
  claimed : r'.claimed = r.claimed
  gating : r'.gating = r.gating
  cached : r'.cachedGating = r.cachedGating
  halted : r'.halted = r.halted
  consumed : r'.consumed = r.consumed
  peek : ∀ s, r'.peek s = r.peek s
  cursor_le : r.cursor ≤ r'.cursor

namespace Keeps

theorem refl (r : Ring α) : r.Keeps r :=
  ⟨rfl, rfl, rfl, rfl, rfl, rfl, fun _ => rfl, le_rfl⟩

theorem trans {r s t : Ring α} (h : r.Keeps s) (k : s.Keeps t) : r.Keeps t where
  config := k.config.trans h.config
  claimed := k.claimed.trans h.claimed
  gating := k.gating.trans h.gating
  cached := k.cached.trans h.cached
  halted := k.halted.trans h.halted
  consumed := k.consumed.trans h.consumed
  peek x := (k.peek x).trans (h.peek x)
  cursor_le := h.cursor_le.trans k.cursor_le

theorem capacity {r s : Ring α} (h : r.Keeps s) : s.capacity = r.capacity := by
  unfold Ring.capacity
  rw [h.config]

end Keeps

theorem count_eq (r : Ring α) (event : Metrics → Metrics) :
    ∃ metrics, r.count event = { r with metrics } := by
  unfold count
  split
  · exact ⟨_, rfl⟩
  · exact ⟨r.metrics, rfl⟩

theorem advance_eq (r : Ring α) :
    ∃ metrics, r.advance = { r with cursor := r.cursor + 1, metrics } :=
  count_eq _ _

theorem advance_keeps (r : Ring α) : r.Keeps r.advance := by
  obtain ⟨m, he⟩ := r.advance_eq
  rw [he]
  exact ⟨rfl, rfl, rfl, rfl, rfl, rfl, fun _ => rfl, by simp⟩

theorem settle_go_keeps (waiting : List Int) (r : Ring α) : r.Keeps (settle.go waiting r) := by
  induction waiting generalizing r with
  | nil => exact ⟨rfl, rfl, rfl, rfl, rfl, rfl, fun _ => rfl, le_rfl⟩
  | cons s rest ih =>
    unfold settle.go
    split_ifs
    · exact r.advance_keeps.trans (ih _)
    · exact ⟨rfl, rfl, rfl, rfl, rfl, rfl, fun _ => rfl, le_rfl⟩

/-- The ring without one of the claims in its producers' hands. -/
def without (r : Ring α) (s : Int) : Ring α := { r with held := r.held.erase s }

theorem publish_of_next {r : Ring α} {s : Int} (hs : s = r.cursor + 1) :
    r.publish s = (.done .visible, match r.config.producers with
      | .single => (r.without s).advance
      | .multi => (r.without s).advance.settle) := by
  have hlt : ¬ s < r.cursor := by omega
  unfold publish
  cases r.config.producers with
  | single => simp only [hs, not_true_eq_false, if_false, without]; rw [if_neg (by omega)]
  | multi => simp only [hs, not_true_eq_false, if_false, without]; rw [if_neg (by omega)]

theorem publish_of_not_next {r : Ring α} {s : Int} (hs : s ≠ r.cursor + 1) :
    r.publish s = match r.config.producers with
      | .single => (.broken (.outOfOrder s r.cursor), r)
      | .multi => (.done .deferred, (r.without s).defer s) := by
  unfold publish
  cases r.config.producers with
  | single => simp only [hs, not_false_eq_true, if_true]
  | multi => simp only [hs, not_false_eq_true, if_true, without]

theorem without_keeps (r : Ring α) (s : Int) : r.Keeps (r.without s) :=
  ⟨rfl, rfl, rfl, rfl, rfl, rfl, fun _ => rfl, le_rfl⟩

theorem publish_keeps (r : Ring α) (s : Int) : r.Keeps (r.publish s).2 := by
  have hw := r.without_keeps s
  by_cases hs : s = r.cursor + 1
  · rw [publish_of_next hs]
    cases r.config.producers with
    | single => exact hw.trans (advance_keeps _)
    | multi => exact hw.trans ((advance_keeps _).trans (settle_go_keeps _ _))
  · rw [publish_of_not_next hs]
    cases r.config.producers with
    | single => exact Keeps.refl r
    | multi => exact hw.trans ⟨rfl, rfl, rfl, rfl, rfl, rfl, fun _ => rfl, le_rfl⟩

namespace Ordered
variable {r r' : Ring α}

/-- The sequence after the cursor leaves the outstanding ones and becomes visible. -/
theorem surface (h : r.Ordered) (hk : r.Keeps r') (hcursor : r'.cursor = r.cursor + 1)
    (hperm : r.outstanding.Perm ((r.cursor + 1) :: r'.outstanding))
    (hsorted : r'.deferred.Pairwise (· < ·))
    (hsingle : r.config.producers = .single → r'.deferred = [] ∧ r'.held.length ≤ 1) :
    r'.Ordered := by
  have hnext : r.cursor < r.cursor + 1 ∧ r.cursor + 1 ≤ r.claimed :=
    (h.mem_outstanding _).mp (hperm.mem_iff.mpr (by simp))
  have hnodup := hperm.nodup_iff.mp h.nodup
  constructor
  · exact hk.gating ▸ h.start
  · rw [hk.gating]
    exact h.gating_le.trans hk.cursor_le
  · rw [hk.claimed, hcursor]
    exact hnext.2
  · rw [hk.claimed, hk.gating, hk.capacity]
    exact h.claimed_le
  · rw [hk.cached, hk.gating]
    exact h.cached_le
  · intro s
    have hs := h.mem_outstanding s
    rw [hperm.mem_iff, List.mem_cons] at hs
    have hout := (List.nodup_cons.mp hnodup).1
    rw [hk.claimed, hcursor]
    constructor
    · intro hm
      have hne : s ≠ r.cursor + 1 := fun e => hout (e ▸ hm)
      have := hs.mp (Or.inr hm)
      omega
    · intro hm
      exact (hs.mpr (by omega)).resolve_left (by omega)
  · exact (List.nodup_cons.mp hnodup).2
  · exact hsorted
  · rw [hk.config]
    exact hsingle

/-- The only claim of a single producer is for the sequence after the cursor. -/
theorem held_eq_of_single (h : r.Ordered) (hp : r.config.producers = .single) {s : Int}
    (hs : s ∈ r.held) : r.held = [s] ∧ s = r.cursor + 1 := by
  obtain ⟨hdef, hlen⟩ := h.single hp
  obtain ⟨t, ht⟩ : ∃ t, r.held = [t] :=
    List.length_eq_one_iff.mp (le_antisymm hlen (List.length_pos_of_mem hs))
  have hst : s = t := by simpa [ht] using hs
  have hb := h.held_bounds hs
  have hnext := (h.mem_outstanding (r.cursor + 1)).mpr (by omega)
  rw [outstanding, hdef, ht] at hnext
  exact ⟨by rw [ht, hst], by simp at hnext; omega⟩

end Ordered

/-- Deferred sequences surface for as long as the next one is among them. -/
theorem settle_go_counted {waiting : List Int} {r : Ring α}
    (h : Ordered { r with deferred := waiting }) : (settle.go waiting r).Counted := by
  induction waiting generalizing r with
  | nil => exact ⟨h, by simp [settle.go]⟩
  | cons s rest ih =>
    have hsorted := List.pairwise_cons.mp h.sorted
    unfold settle.go
    split_ifs with hs
    · obtain ⟨m, he⟩ := r.advance_eq
      apply ih
      refine h.surface ?_ ?_ ?_ hsorted.2 ?_
      · rw [he]
        exact ⟨rfl, rfl, rfl, rfl, rfl, rfl, fun _ => rfl, by simp⟩
      · rw [he]
      · rw [he, hs]
        exact List.perm_middle
      · intro hp
        simpa using (h.single hp).1
    · refine ⟨h, fun t ht => ?_⟩
      have hfirst := (h.mem_outstanding s).mp (by simp [outstanding])
      change r.cursor < s ∧ s ≤ r.claimed at hfirst
      change t ∈ s :: rest at ht
      change r.cursor + 1 < t
      rcases List.mem_cons.mp ht with rfl | ht
      · omega
      · have := hsorted.1 t ht
        omega

/-- A sequence handed in early takes its place among the deferred ones. -/
theorem defer_counted {r : Ring α} (h : r.Counted) {s : Int} (hheld : s ∈ r.held)
    (hmulti : r.config.producers = .multi) (hs : s ≠ r.cursor + 1) :
    ((r.without s).defer s).Counted := by
  have hins : ((r.without s).defer s).deferred = r.deferred.orderedInsert (· ≤ ·) s := by
    simp [defer, without, List.orderedInsert_eq_take_drop]
  have hperm : ((r.without s).defer s).outstanding.Perm r.outstanding := by
    unfold outstanding
    rw [hins]
    calc List.Perm (r.held.erase s ++ r.deferred.orderedInsert (· ≤ ·) s)
          (r.held.erase s ++ s :: r.deferred) :=
        (List.perm_orderedInsert _ s r.deferred).append_left _
      List.Perm _ (s :: (r.held.erase s ++ r.deferred)) := List.perm_middle
      List.Perm _ (r.held ++ r.deferred) :=
        (List.perm_cons_erase hheld).symm.append_right r.deferred
  have hnodup := hperm.nodup_iff.mpr h.nodup
  refine ⟨⟨h.start, h.gating_le, h.cursor_le, h.claimed_le, h.cached_le, ?_, hnodup, ?_, ?_⟩, ?_⟩
  · intro t
    exact hperm.mem_iff.trans (h.mem_outstanding t)
  · have hle : (r.deferred.orderedInsert (· ≤ ·) s).Pairwise (· ≤ ·) :=
      (h.sorted.imp fun hlt => le_of_lt hlt).orderedInsert s _
    rw [outstanding, hins] at hnodup
    rw [hins]
    exact (hle.and (List.nodup_append.mp hnodup).2.1).imp fun hle => lt_of_le_of_ne hle.1 hle.2
  · intro hp
    change r.config.producers = .single at hp
    rw [hmulti] at hp
    cases hp
  · intro t ht
    change r.cursor + 1 < t
    rw [hins, List.mem_orderedInsert] at ht
    rcases ht with rfl | ht
    · have := (h.held_bounds hheld).1
      omega
    · exact h.gap t ht

theorem publish_counted {r : Ring α} (h : r.Counted) {s : Int} (hheld : s ∈ r.held) :
    (r.publish s).2.Counted := by
  have hperm : r.outstanding.Perm (s :: (r.without s).outstanding) :=
    (List.perm_cons_erase hheld).append_right r.deferred
  by_cases hs : s = r.cursor + 1
  · have hsurface : Ordered { (r.without s).advance with deferred := r.deferred } := by
      obtain ⟨m, he⟩ := (r.without s).advance_eq
      rw [he]
      refine h.surface ⟨rfl, rfl, rfl, rfl, rfl, rfl, fun _ => rfl, by simp [without]⟩ rfl ?_
        h.sorted fun hp => ⟨(h.single hp).1, ?_⟩
      · rw [← hs]
        exact hperm
      · exact (List.length_erase_le).trans (h.single hp).2
    rw [publish_of_next hs]
    obtain ⟨m, he⟩ := (r.without s).advance_eq
    cases hp : r.config.producers with
    | single =>
      have hdef := (h.single hp).1
      refine ⟨?_, ?_⟩
      · rw [he] at hsurface ⊢
        exact hsurface
      · rw [he]
        simp [without, hdef]
    | multi =>
      have hdef : (r.without s).advance.deferred = r.deferred := by rw [he]; rfl
      change (settle.go (r.without s).advance.deferred (r.without s).advance).Counted
      rw [hdef]
      exact settle_go_counted hsurface
  · rw [publish_of_not_next hs]
    cases hp : r.config.producers with
    | single => exact absurd (h.held_eq_of_single hp hheld).2 hs
    | multi => exact defer_counted h hheld hp hs

/-- A claim that a producer holds can always be handed in. -/
theorem publish_done {r : Ring α} (h : r.Counted) {s : Int} (hheld : s ∈ r.held) :
    ∃ outcome, (r.publish s).1 = .done outcome := by
  by_cases hs : s = r.cursor + 1
  · exact ⟨.visible, by rw [publish_of_next hs]⟩
  · rw [publish_of_not_next hs]
    cases hp : r.config.producers with
    | single => exact absurd (h.held_eq_of_single hp hheld).2 hs
    | multi => exact ⟨.deferred, rfl⟩

end Ring
end MessageRing
