import MessageRing.Proofs.Merge.Strategies

/-!
Merging where the first or the last value wins.

Both strategies take the union of the headers, biased to one end, and each is the other one for the
headers in reverse. As they pick from the ends they can be carried out piece by piece: messages may
be cut into chunks and each chunk made one message first, for none of the headers that such a
message gets for itself takes part in a merge.
-/
namespace MessageRing
variable {π σ : Type}

/-- What a batch becomes: its payloads in order, under the merged headers but for the ones that
every message is assigned. -/
theorem collect_headers (strategy : MergeStrategy) (batch : List (Message π)) (scene : Scene σ) :
    ∃ (m : Message (List π)) (after : Scene σ),
      collect strategy batch scene = some (.ok m, after) ∧
      m.payload = batch.map (·.payload) ∧
      ∀ key, Key.assigned key = false →
        m.headers.get? key = (strategy.merge (batch.map (·.headers))).merged.get? key := by
  let result := strategy.merge (batch.map (·.headers))
  let builder := (Builder.ofPayload (batch.map (·.payload))).step (.copy result.merged)
  refine ⟨(builder.build scene.mint).1, { scene with
    log := scene.log ++ result.excluded.map .headerExcluded, mint := (builder.build scene.mint).2 },
    Act.bind_ok (strategy.perform_eq _ scene), rfl, ?_⟩
  intro key free
  change (builder.headers.identify builder.ids scene.mint).1.get? key = _
  rw [Headers.get?_identify _ _ _ key free]
  change ((Builder.copied result.merged).foldl _ SortedMap.empty).get? key = _
  unfold Builder.copied
  rw [SortedMap.get?_foldl_insert, SortedMap.valuesOf_filter fun key => !Key.assigned key,
    SortedMap.valuesOf_entries]
  change _ = result.merged.get? key
  cases result.merged.get? key <;> simp [free]

/-- Making one message of a batch leaves the outside world alone. -/
theorem collect_outside {strategy : MergeStrategy} {batch : List (Message π)}
    {scene after : Scene σ} {result : Except Panic (Message (List π))}
    (h : collect strategy batch scene = some (result, after)) : after.outside = scene.outside := by
  have happens := (Act.bind_ok (strategy.perform_eq _ scene)).symm.trans h
  cases happens
  rfl

namespace MergeStrategy

/-- Cutting messages into chunks and making each chunk one message, whenever that happens, changes
nothing about what all of them merge to. -/
def Rebatches (strategy : MergeStrategy) (π σ : Type) : Prop :=
  ∀ chunks : List (List (Message π) × Scene σ), ∃ aggregates : List (Message (List π)),
    List.Forall₂ (fun chunk m => ∃ after, collect strategy chunk.1 chunk.2 = some (.ok m, after))
      chunks aggregates ∧
    strategy.merge (aggregates.map (·.headers)) =
      strategy.merge ((chunks.flatMap (·.1)).map (·.headers))

theorem exists_aggregates (strategy : MergeStrategy) (chunks : List (List (Message π) × Scene σ)) :
    ∃ aggregates : List (Message (List π)),
      List.Forall₂ (fun chunk m => ∃ after,
        collect strategy chunk.1 chunk.2 = some (.ok m, after)) chunks aggregates ∧
      ∀ key, Key.identity key = false → given key (aggregates.map (·.headers)) =
        chunks.filterMap fun chunk =>
          (strategy.merge (chunk.1.map (·.headers))).merged.get? key := by
  induction chunks with
  | nil => exact ⟨[], .nil, fun _ _ => rfl⟩
  | cons chunk chunks ih =>
    obtain ⟨aggregates, hcollected, hgiven⟩ := ih
    obtain ⟨m, after, hcollect, -, hheaders⟩ := collect_headers strategy chunk.1 chunk.2
    refine ⟨m :: aggregates, .cons ⟨after, hcollect⟩ hcollected, ?_⟩
    intro key hid
    have hfree : Key.assigned key = false := by
      grind [Key.identity, Key.assigned]
    specialize hgiven key hid
    unfold given at hgiven ⊢
    rw [List.map_cons, List.filterMap_cons, hgiven, hheaders key hfree, List.filterMap_cons]

theorem Result.ext {r s : Result} (merged : r.merged = s.merged)
    (excluded : r.excluded = s.excluded) : r = s := by
  cases r
  cases s
  simp_all

/-- A strategy that picks one of the values of each key may pick among the picks of chunks, if that
gives the same. -/
theorem rebatches_of_pick {strategy : MergeStrategy}
    (pick : List HeaderValue → Option HeaderValue)
    (get : ∀ key headers, (strategy.merge headers).merged.get? key =
      if Key.identity key then none else pick (given key headers))
    (excluded : ∀ headers, (strategy.merge headers).excluded = [])
    (picks : ∀ (chunks : List (List (Message π) × Scene σ)) (values : _ → List HeaderValue),
      pick (chunks.filterMap fun chunk => pick (values chunk)) = pick (chunks.flatMap values)) :
    Rebatches strategy π σ := by
  intro chunks
  obtain ⟨aggregates, hcollected, hgiven⟩ := exists_aggregates strategy chunks
  refine ⟨aggregates, hcollected, Result.ext (SortedMap.ext_get? ?_) ?_⟩
  · intro key
    rw [get, get]
    by_cases hid : Key.identity key = true
    · simp [hid]
    · rw [Bool.not_eq_true] at hid
      have hall : given key ((chunks.flatMap (·.1)).map (·.headers)) =
          chunks.flatMap fun chunk => given key (chunk.1.map (·.headers)) := by
        unfold given
        rw [List.map_flatMap, List.filterMap_flatMap]
      rw [hgiven key hid, hall, ← picks]
      simp [get, hid]
  · rw [excluded, excluded]

/-- The first or the last header that has a key wins, what wins at one end is what wins at the
other when the headers are reversed, and neither changes when messages are batched first. -/
theorem biased_union (headers : List Headers) :
    (∀ key, (merge .firstWins headers).merged.get? key =
      if Key.identity key then none else headers.findSome? (·.get? key)) ∧
    (∀ key, (merge .lastWins headers).merged.get? key =
      if Key.identity key then none else headers.reverse.findSome? (·.get? key)) ∧
    merge .firstWins headers = merge .lastWins headers.reverse ∧
    Rebatches .firstWins π σ ∧ Rebatches .lastWins π σ := by
  refine ⟨(get?_firstWins · headers), (get?_lastWins · headers), ?_, ?_, ?_⟩
  · refine Result.ext (SortedMap.ext_get? ?_) rfl
    intro key
    rw [get?_firstWins, get?_lastWins, List.reverse_reverse]
  · apply rebatches_of_pick List.head? ?_ (fun _ => rfl) ?_
    · intro key headers
      rw [get?_firstWins, given, List.head?_filterMap]
    · intro chunks values
      rw [List.head?_filterMap, List.head?_flatMap]
  · apply rebatches_of_pick List.getLast? ?_ (fun _ => rfl) ?_
    · intro key headers
      rw [get?_lastWins, given, List.getLast?_filterMap]
    · intro chunks values
      rw [List.getLast?_filterMap, List.getLast?_flatMap]

end MergeStrategy
end MessageRing
