import Mathlib.Algebra.Order.Floor.Div
import MessageRing.Proofs.Orders.Desk

/-!
What a day comes to.

One order in ten fails, beginning with the first of all, and the others are settled. The sums of a
day follow from which orders are in its ledger, however they fall into batches.
-/
namespace MessageRing
namespace Orders
variable {orders : Nat} {ms : List (Message Order)} {d : Day}

/-- The orders among so many that do not fail. -/
def soundTo (n : Nat) : List Order := ((List.range n).filter (· % 10 ≠ 0)).map order

theorem Letters.payloads (h : Letters ms) :
    ms.map (·.payload) = (List.range ms.length).map order := by
  refine List.ext_getElem (by simp) fun n hn _ => ?_
  rw [List.getElem_map, List.getElem_map, List.getElem_range]
  exact (h n _ (List.getElem?_eq_getElem (by simpa using hn))).payload

theorem Letters.payloads_sound (h : Letters ms) :
    (sound ms).map (·.payload) = soundTo ms.length := by
  calc (sound ms).map (·.payload)
      = (ms.map (·.payload)).filter fun o => o.id % 10 ≠ 0 := by rw [List.filter_map]; rfl
    _ = soundTo ms.length := by rw [h.payloads, List.filter_map]; rfl

theorem length_failuresTo (n : Nat) : (failuresTo n).length = n ⌈/⌉ 10 := by
  rw [Nat.ceilDiv_eq_add_pred_div]
  induction n with
  | zero => rfl
  | succ n ih =>
    rw [failuresTo_succ, List.length_append, ih]
    split_ifs <;> simp <;> omega

theorem length_soundTo (n : Nat) : (soundTo n).length = n - n ⌈/⌉ 10 := by
  have hsplit := (List.range n).length_eq_length_filter_add (· % 10 = 0)
  have hfailures := length_failuresTo n
  rw [failuresTo, List.length_map] at hfailures
  rw [List.length_range, hfailures] at hsplit
  rw [soundTo, List.length_map]
  simp only [ne_eq, decide_not]
  omega

theorem pairwise_soundTo (n : Nat) : (soundTo n).Pairwise fun a b => a.id < b.id :=
  List.pairwise_map.mpr (List.pairwise_lt_range.filter _)

theorem name_injective : Function.Injective fun id : Nat => some ("order-" ++ id.repr) := by
  intro a b same
  have hrepr : a.repr = b.repr := (String.append_right_inj _).mp (Option.some.inj same)
  have hdigits := congrArg String.toList hrepr
  rw [Nat.toList_repr, Nat.toList_repr] at hdigits
  rw [← Nat.ofDigitChars_ten_toDigits (n := a), hdigits, Nat.ofDigitChars_ten_toDigits]

/-- What a day with so many orders comes to. -/
structure Day.AddsUp (d : Day) (orders : Nat) : Prop where
  stopped : d.shop.channel.engine.state = .stopped ∧ d.shop.batching.engine.state = .stopped
  /-- Every tenth order is published as a failure. -/
  failed : failed d.scene.outside = failuresTo orders
  /-- All others are settled. -/
  settled : (batches d.scene.outside).flatten = soundTo orders
  batch : ∀ batch ∈ batches d.scene.outside,
    batch ≠ [] ∧ batch.length ≤ 32 ∧ batch.Pairwise fun a b => a.id < b.id
  /-- Either of the two happens to an order. -/
  fate : ∀ id < orders,
    (some ("order-" ++ id.repr) ∈ (Orders.failed d.scene.outside).map (·.1) ↔ id % 10 = 0) ∧
    (order id ∈ (batches d.scene.outside).flatten ↔ id % 10 ≠ 0)
  failures : (d.totals orders).failed = orders ⌈/⌉ 10
  batched : (d.totals orders).batched = orders - orders ⌈/⌉ 10
  cents : (d.totals orders).cents =
    (((List.range orders).filter (· % 10 ≠ 0)).map fun id => 100 + id % 50).sum
  published : (d.totals orders).channel.published = orders
  consumed : (d.totals orders).channel.consumed = orders
  passed : (d.totals orders).batching.consumed = orders - orders ⌈/⌉ 10

/-- The sums follow from what is in the ledger and from what the engines have counted. -/
theorem Day.AddsUp.of_stopped {m n : Metrics} (channel : d.shop.channel.engine.status = .stopped m)
    (batching : d.shop.batching.engine.status = .stopped n)
    (failed : Orders.failed d.scene.outside = failuresTo orders)
    (settled : (batches d.scene.outside).flatten = soundTo orders)
    (short : ∀ batch ∈ batches d.scene.outside, batch ≠ [] ∧ batch.length ≤ 32)
    (published : m.published = orders) (consumed : m.consumed = orders)
    (passed : n.consumed = (soundTo orders).length) : d.AddsUp orders where
  stopped := by simp [Engine.state, channel, batching]
  failed := failed
  settled := settled
  batch batch mem := by
    have hpairwise := pairwise_soundTo orders
    rw [← settled] at hpairwise
    obtain ⟨hnonempty, hlength⟩ := short batch mem
    exact ⟨hnonempty, hlength, hpairwise.sublist (List.sublist_flatten_of_mem mem)⟩
  fate id lt := by
    have hnames : (Orders.failed d.scene.outside).map (·.1) =
        ((List.range orders).filter (· % 10 = 0)).map fun id => some ("order-" ++ id.repr) := by
      rw [failed, failuresTo, List.map_map]
      rfl
    have horder : Function.Injective order := fun _ _ same => congrArg Order.id same
    rw [hnames, settled, soundTo, List.mem_map_of_injective name_injective,
      List.mem_map_of_injective horder]
    simp [lt]
  failures := by
    rw [Day.totals, length_failures, failed, length_failuresTo]
  batched := by
    rw [← length_soundTo, ← settled, List.length_flatten]
    rfl
  cents := by
    have hcents : (d.totals orders).cents =
        ((batches d.scene.outside).flatten.map (·.cents)).sum := by
      rw [List.map_flatten, List.sum_flatten, List.map_map]
      rfl
    rw [hcents, settled, soundTo, List.map_map]
    rfl
  published := by simp [Day.totals, Engine.metrics, channel, published]
  consumed := by simp [Day.totals, Engine.metrics, channel, consumed]
  passed := by simp [Day.totals, Engine.metrics, batching, passed, length_soundTo]

end Orders
end MessageRing
