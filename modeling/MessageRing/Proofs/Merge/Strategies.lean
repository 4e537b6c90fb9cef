import MessageRing.Batch.Collect
import MessageRing.Proofs.Acts
import MessageRing.Proofs.SortedMap

/-!
What each merge strategy makes of a key.

A merge goes through the entries of all headers, but for a key only the values matter that the
headers give it, in the order of the headers. The first or the last of them wins, or they agree.
Values agree when they are equal one to another; that is no equality of values, as it has no place
for a NaN and makes one number of the two zeros.
-/
namespace MessageRing

namespace Binary64

theorem beq_iff {x y : Binary64} : (x == y) = true ↔
    x.isNaN = false ∧ y.isNaN = false ∧ (x = y ∨ x.isZero = true ∧ y.isZero = true) := by
  change eq x y = true ↔ _
  obtain ⟨a⟩ := x
  obtain ⟨b⟩ := y
  simp [eq, and_assoc]

instance : PartialEquivBEq Binary64 where
  symm := by
    intro x y h
    rw [beq_iff] at h ⊢
    obtain ⟨hx, hy, rfl | ⟨hzero, hzero'⟩⟩ := h
    · exact ⟨hx, hy, .inl rfl⟩
    · exact ⟨hy, hx, .inr ⟨hzero', hzero⟩⟩
  trans := by
    intro x y z h h'
    rw [beq_iff] at h h' ⊢
    obtain ⟨hx, -, rfl | ⟨hxzero, hyzero⟩⟩ := h
    · exact h'
    · obtain ⟨-, hz, rfl | ⟨-, hzzero⟩⟩ := h'
      · exact ⟨hx, hz, .inr ⟨hxzero, hyzero⟩⟩
      · exact ⟨hx, hz, .inr ⟨hxzero, hzzero⟩⟩

end Binary64

namespace HeaderValue

/-- Equal values are floats that are equal as numbers, or the same value of another kind. -/
theorem beq_iff {v w : HeaderValue} : (v == w) = true ↔
    (∃ x y, v = .float x ∧ w = .float y ∧ (x == y) = true) ∨ v = w ∧ ∀ x, v ≠ .float x := by
  change eq v w = true ↔ _
  cases v <;> cases w <;> simp [eq]

instance : PartialEquivBEq HeaderValue where
  symm := by
    intro v w h
    rw [beq_iff] at h ⊢
    obtain ⟨x, y, rfl, rfl, hxy⟩ | ⟨rfl, hkind⟩ := h
    · exact .inl ⟨y, x, rfl, rfl, PartialEquivBEq.symm hxy⟩
    · exact .inr ⟨rfl, hkind⟩
  trans := by
    intro u v w h h'
    rw [beq_iff] at h h' ⊢
    obtain ⟨x, y, rfl, rfl, hxy⟩ | ⟨rfl, -⟩ := h
    · obtain ⟨y', z, hy, rfl, hyz⟩ | ⟨-, hkind⟩ := h'
      · cases hy
        exact .inl ⟨x, z, rfl, rfl, PartialEquivBEq.trans hxy hyz⟩
      · exact absurd rfl (hkind y)
    · exact h'

/-- To agree with each other, values need only agree with the first one. -/
theorem pairwise_beq_cons {v : HeaderValue} {vs : List HeaderValue} :
    (v :: vs).Pairwise (· == ·) ↔ ∀ w ∈ vs, (v == w) = true := by
  rw [List.pairwise_cons]
  constructor
  · exact And.left
  · intro h
    refine ⟨h, List.pairwise_of_forall_mem_list ?_⟩
    intro a ha b hb
    exact PartialEquivBEq.trans (PartialEquivBEq.symm (h a ha)) (h b hb)

end HeaderValue

namespace MergeStrategy

/-- The values that headers give to a key, in the order of the headers. -/
def given (key : String) (headers : List Headers) : List HeaderValue :=
  headers.filterMap (·.get? key)

theorem valuesOf_flatMap_entries (key : String) (headers : List Headers) :
    SortedMap.valuesOf key (headers.flatMap (·.entries)) = given key headers := by
  induction headers with
  | nil => rfl
  | cons h headers ih =>
    rw [List.flatMap_cons, SortedMap.valuesOf_append, ih, SortedMap.valuesOf_entries]
    unfold given
    cases hget : h.get? key <;> simp [hget]

theorem valuesOf_mergeable (key : String) (headers : List Headers) :
    SortedMap.valuesOf key (mergeable headers) =
      if Key.identity key then [] else given key headers := by
  unfold mergeable
  rw [SortedMap.valuesOf_filter fun key => !Key.identity key, valuesOf_flatMap_entries]
  by_cases hid : Key.identity key = true <;> simp [hid]

theorem get?_firstWins (key : String) (headers : List Headers) :
    (merge .firstWins headers).merged.get? key =
      if Key.identity key then none else headers.findSome? (·.get? key) := by
  change ((mergeable headers).foldl _ SortedMap.empty).get? key = _
  rw [SortedMap.get?_foldl_insertNew, valuesOf_mergeable]
  split_ifs <;> simp [given]

theorem get?_lastWins (key : String) (headers : List Headers) :
    (merge .lastWins headers).merged.get? key =
      if Key.identity key then none else headers.reverse.findSome? (·.get? key) := by
  change ((mergeable headers).foldl _ SortedMap.empty).get? key = _
  rw [SortedMap.get?_foldl_insert, valuesOf_mergeable]
  split_ifs <;> simp [given]

/-- A merge happens at once, and reports nothing but the keys it leaves out. -/
theorem perform_eq {σ : Type} (strategy : MergeStrategy) (headers : List Headers)
    (scene : Scene σ) : strategy.perform headers scene = some (.ok (strategy.merge headers).merged,
      { scene with log := scene.log ++
          (strategy.merge headers).excluded.map Record.headerExcluded }) := by
  have hreport (keys : List String) (scene : Scene σ) :
      (keys.forM fun key => Act.report (.headerExcluded key)) scene =
        some (.ok (), { scene with log := scene.log ++ keys.map Record.headerExcluded }) := by
    induction keys generalizing scene with
    | nil => simp [pure]
    | cons key keys ih =>
      refine (Act.bind_ok rfl).trans ((ih _).trans ?_)
      simp [Scene.report]
  exact Act.bind_ok (hreport _ scene)

end MergeStrategy
end MessageRing
