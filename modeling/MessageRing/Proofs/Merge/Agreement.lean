import MessageRing.Proofs.Merge.Strategies

/-!
Merging with conflicts discarded.

Only the first value of a key is remembered, and a later one is held against it. As equality is
symmetric and transitive that is enough to know whether all values of the key are equal to each
other, so a key is kept exactly when they are, whatever the order of the headers.
-/
namespace MessageRing
namespace MergeStrategy
variable {key : String} {headers headers' : List Headers}

/-- All headers that have the key give it equal values. -/
def Agreed (key : String) (headers : List Headers) : Prop :=
  (given key headers).Pairwise (· == ·)

instance : Decidable (Agreed key headers) :=
  inferInstanceAs (Decidable (List.Pairwise _ _))

/-- The first values are kept as if the first one won. -/
theorem noteConflict_fst (state : Headers × SortedMap Unit) (e : String × HeaderValue) :
    (noteConflict state e).1 = state.1.insertNew e.1 e.2 := by
  unfold noteConflict SortedMap.insertNew SortedMap.contains
  cases state.1.get? e.1 with
  | none => simp
  | some first => by_cases h : (first == e.2) = true <;> simp [h]

theorem foldl_noteConflict_fst (es : List (String × HeaderValue))
    (state : Headers × SortedMap Unit) :
    (es.foldl noteConflict state).1 = es.foldl (fun m e => m.insertNew e.1 e.2) state.1 := by
  induction es generalizing state with
  | nil => rfl
  | cons e es ih => rw [List.foldl_cons, ih, noteConflict_fst, List.foldl_cons]

theorem mem_keys_noteConflict (state : Headers × SortedMap Unit) (e : String × HeaderValue) :
    key ∈ (noteConflict state e).2.keys ↔ key ∈ state.2.keys ∨
      e.1 = key ∧ ∃ first, state.1.get? key = some first ∧ (first == e.2) = false := by
  unfold noteConflict
  by_cases he : e.1 = key
  · subst he
    cases state.1.get? e.1 with
    | none => simp
    | some first => by_cases h : (first == e.2) = true <;> simp [h, SortedMap.mem_keys_insert]
  · cases state.1.get? e.1 with
    | none => simp [he]
    | some first =>
      by_cases h : (first == e.2) = true <;> simp [h, he, SortedMap.mem_keys_insert]

/-- The conflicts are the keys whose values, with the one that is remembered, do not all agree. -/
theorem mem_conflicts (es : List (String × HeaderValue)) (state : Headers × SortedMap Unit) :
    key ∈ (es.foldl noteConflict state).2.keys ↔ key ∈ state.2.keys ∨
      ¬((state.1.get? key).toList ++ SortedMap.valuesOf key es).Pairwise (· == ·) := by
  induction es generalizing state with
  | nil => cases state.1.get? key <;> simp [SortedMap.valuesOf]
  | cons e es ih =>
    rw [List.foldl_cons, ih, mem_keys_noteConflict, noteConflict_fst, SortedMap.get?_insertNew,
      SortedMap.valuesOf_cons]
    by_cases he : e.1 = key
    · cases hget : state.1.get? key with
      | none => simp [he]
      | some first =>
        by_cases heq : (first == e.2) = true <;>
          simp [he, heq, HeaderValue.pairwise_beq_cons, -List.pairwise_cons]
    · simp [he]

theorem mem_excluded : key ∈ (merge .conflictDiscarding headers).excluded ↔
    Key.identity key = false ∧ ¬Agreed key headers := by
  change key ∈ ((mergeable headers).foldl noteConflict (.empty, .empty)).2.keys ↔ _
  rw [mem_conflicts, valuesOf_mergeable]
  by_cases hid : Key.identity key = true <;> simp [hid, Agreed, SortedMap.mem_keys]

theorem excluded_sorted (headers : List Headers) :
    (merge .conflictDiscarding headers).excluded.Pairwise (· < ·) :=
  SortedMap.keys_sorted _

/-- What is kept is kept with its first value. -/
theorem get?_conflictDiscarding (key : String) (headers : List Headers) :
    (merge .conflictDiscarding headers).merged.get? key =
      if Agreed key headers then (merge .firstWins headers).merged.get? key else none := by
  change ((merge .conflictDiscarding headers).excluded.foldl (·.erase ·)
    ((mergeable headers).foldl noteConflict (.empty, .empty)).1).get? key = _
  rw [SortedMap.get?_foldl_erase, foldl_noteConflict_fst]
  change (if _ then none else (merge .firstWins headers).merged.get? key) = _
  by_cases hid : Key.identity key = true <;> by_cases hagreed : Agreed key headers <;>
    simp [mem_excluded, get?_firstWins, hid, hagreed]

theorem contains_conflictDiscarding : (merge .conflictDiscarding headers).merged.contains key ↔
    Key.identity key = false ∧ (∃ h ∈ headers, h.contains key) ∧ Agreed key headers := by
  unfold SortedMap.contains
  rw [get?_conflictDiscarding, get?_firstWins]
  by_cases hid : Key.identity key = true <;> by_cases hagreed : Agreed key headers <;>
    simp [hid, hagreed]

theorem agreed_of_absent (absent : ∀ h ∈ headers, h.contains key = false) :
    Agreed key headers := by
  have hnone : given key headers = [] := by
    apply List.filterMap_eq_nil_iff.mpr
    intro h hmem
    simpa [SortedMap.contains] using absent h hmem
  unfold Agreed
  rw [hnone]
  exact List.Pairwise.nil

theorem Agreed.of_append {later : List Headers} (h : Agreed key (headers ++ later)) :
    Agreed key headers := by
  unfold Agreed given at h
  rw [List.filterMap_append] at h
  exact (List.pairwise_append.mp h).1

theorem agreed_perm (perm : headers.Perm headers') : Agreed key headers ↔ Agreed key headers' :=
  (perm.filterMap _).pairwise_iff PartialEquivBEq.symm

/-- A key is kept exactly when it may be merged, some headers have it and all that have it agree;
its value is the first one. What was once left out is left out whatever comes later, and for each
key left out there is one record, in the order of the keys. -/
theorem keeps_agreed {σ : Type} (headers : List Headers) (scene : Scene σ) :
    let result := merge .conflictDiscarding headers
    (∀ key, result.merged.contains key ↔
      Key.identity key = false ∧ (∃ h ∈ headers, h.contains key) ∧ Agreed key headers) ∧
    (∀ key, result.merged.get? key =
      if result.merged.contains key then headers.findSome? (·.get? key) else none) ∧
    (∀ later, result.excluded ⊆ (merge .conflictDiscarding (headers ++ later)).excluded) ∧
    perform .conflictDiscarding headers scene = some (.ok result.merged,
      { scene with log := scene.log ++ result.excluded.map .headerExcluded }) ∧
    result.excluded.Pairwise (· < ·) ∧
    ∀ key, key ∈ result.excluded ↔
      Key.identity key = false ∧ (∃ h ∈ headers, h.contains key) ∧
        ¬result.merged.contains key := by
  intro result
  refine ⟨fun key => contains_conflictDiscarding, ?_, ?_, perform_eq _ headers scene,
    excluded_sorted headers, ?_⟩
  · intro key
    by_cases hkept : result.merged.contains key
    · obtain ⟨hid, -, hagreed⟩ := contains_conflictDiscarding.mp hkept
      rw [if_pos hkept, get?_conflictDiscarding, if_pos hagreed, get?_firstWins, hid]
      rfl
    · rw [if_neg hkept]
      simpa [SortedMap.contains] using hkept
  · intro later key
    rw [mem_excluded, mem_excluded]
    exact And.imp_right (mt Agreed.of_append)
  · intro key
    rw [mem_excluded, contains_conflictDiscarding]
    constructor
    · rintro ⟨hid, hconflict⟩
      refine ⟨hid, ?_, fun hkept => hconflict hkept.2.2⟩
      by_contra hnowhere
      apply hconflict
      apply agreed_of_absent
      intro h hmem
      by_contra hthere
      exact hnowhere ⟨h, hmem, by simpa using hthere⟩
    · rintro ⟨hid, hthere, hlost⟩
      exact ⟨hid, fun hagreed => hlost ⟨hid, hthere, hagreed⟩⟩

-- A NaN that occurs once is kept, and one that occurs twice conflicts with itself.
example :
    let nan : HeaderValue := .float ⟨0x7FF8000000000000⟩
    let result := merge .conflictDiscarding [.ofList [("once", nan), ("twice", nan)],
      .ofList [("twice", nan)]]
    result.merged.entries = [("once", nan)] ∧ result.excluded = ["twice"] := by decide +kernel

theorem get?_conflictDiscarding_eq_some {value : HeaderValue} :
    (merge .conflictDiscarding headers).merged.get? key = some value ↔
      Key.identity key = false ∧ Agreed key headers ∧
        headers.findSome? (·.get? key) = some value := by
  rw [get?_conflictDiscarding, get?_firstWins]
  by_cases hid : Key.identity key = true <;> by_cases hagreed : Agreed key headers <;>
    simp [hid, hagreed]

/-- Where headers agree, all values are the first one or equal to it. -/
theorem Agreed.eq_first {h : Headers} {value value' : HeaderValue} (agreed : Agreed key headers)
    (first : headers.findSome? (·.get? key) = some value) (mem : h ∈ headers)
    (get : h.get? key = some value') : value = value' ∨ (value == value') = true := by
  have hgiven : value' ∈ given key headers := List.mem_filterMap.mpr ⟨h, mem, get⟩
  obtain ⟨rest, hrest⟩ : ∃ rest, given key headers = value :: rest :=
    List.head?_eq_some_iff.mp (List.head?_filterMap.trans first)
  unfold Agreed at agreed
  rw [hrest, HeaderValue.pairwise_beq_cons] at agreed
  rw [hrest, List.mem_cons] at hgiven
  exact hgiven.imp Eq.symm (agreed value')

/-- Where headers agree, the value that comes first in another order is the same or equal. -/
theorem first_of_perm {value : HeaderValue} (perm : headers.Perm headers')
    (agreed : Agreed key headers) (first : headers.findSome? (·.get? key) = some value) :
    ∃ value', headers'.findSome? (·.get? key) = some value' ∧
      (value = value' ∨ (value == value') = true) := by
  obtain ⟨h, hmem, hget⟩ := List.exists_of_findSome?_eq_some first
  obtain ⟨value', hfirst'⟩ : ∃ value', headers'.findSome? (·.get? key) = some value' := by
    apply Option.isSome_iff_exists.mp
    exact List.findSome?_isSome_iff.mpr ⟨h, perm.mem_iff.mp hmem, by simp [hget]⟩
  obtain ⟨h', hmem', hget'⟩ := List.exists_of_findSome?_eq_some hfirst'
  exact ⟨value', hfirst', agreed.eq_first first (perm.mem_iff.mpr hmem') hget'⟩

/-- A value that is no float is kept only if no header has another one. -/
theorem eq_of_kept {h : Headers} {value value' : HeaderValue} (plain : ∀ x, value ≠ .float x)
    (kept : (merge .conflictDiscarding headers).merged.get? key = some value)
    (mem : h ∈ headers) (get : h.get? key = some value') :
    value = value' ∧ (value == value') = true := by
  obtain ⟨-, hagreed, hfirst⟩ := get?_conflictDiscarding_eq_some.mp kept
  have hself : (value == value) = true := HeaderValue.beq_iff.mpr (.inr ⟨rfl, plain⟩)
  rcases hagreed.eq_first hfirst mem get with rfl | hequal
  · exact ⟨rfl, hself⟩
  · rcases HeaderValue.beq_iff.mp hequal with ⟨x, _, hfloat, _⟩ | ⟨rfl, _⟩
    · exact absurd hfloat (plain x)
    · exact ⟨rfl, hself⟩

/-- A value that all headers have, and that is equal to itself, is kept by every strategy. -/
theorem get?_of_common {strategy : MergeStrategy} {value : HeaderValue}
    (free : Key.identity key = false) (self : (value == value) = true) (nonempty : headers ≠ [])
    (common : ∀ h ∈ headers, h.get? key = some value) :
    (strategy.merge headers).merged.get? key = some value := by
  have hfirst {hs : List Headers} (hsome : hs ≠ []) (hall : ∀ h ∈ hs, h.get? key = some value) :
      hs.findSome? (·.get? key) = some value := by
    obtain ⟨h, hs, rfl⟩ := List.exists_cons_of_ne_nil hsome
    simp [hall h List.mem_cons_self]
  cases strategy with
  | conflictDiscarding =>
    refine get?_conflictDiscarding_eq_some.mpr ⟨free, ?_, hfirst nonempty common⟩
    have hgiven : ∀ v ∈ given key headers, v = value := by
      intro v hv
      obtain ⟨h, hmem, hget⟩ := List.mem_filterMap.mp hv
      exact Option.some.inj (hget.symm.trans (common h hmem))
    refine List.pairwise_of_forall_mem_list ?_
    intro v hv w hw
    rw [hgiven v hv, hgiven w hw]
    exact self
  | firstWins =>
    rw [get?_firstWins, free, hfirst nonempty common]
    rfl
  | lastWins =>
    have hreverse : ∀ h ∈ headers.reverse, h.get? key = some value :=
      fun h hmem => common h (List.mem_reverse.mp hmem)
    rw [get?_lastWins, free, hfirst (by simpa using nonempty) hreverse]
    rfl

/-- In whatever order the headers come, the same keys are kept and the same records made, and the
values kept are the same or equal. A kept value is the one that the first header wins with, and the
same as or equal to the one that the last wins with. -/
theorem agreement_unordered {σ : Type} (perm : headers.Perm headers') (scene scene' : Scene σ) :
    let result := merge .conflictDiscarding headers
    let result' := merge .conflictDiscarding headers'
    result.merged.keys = result'.merged.keys ∧ result.excluded = result'.excluded ∧
    (∃ records,
      perform .conflictDiscarding headers scene =
        some (.ok result.merged, { scene with log := scene.log ++ records }) ∧
      perform .conflictDiscarding headers' scene' =
        some (.ok result'.merged, { scene' with log := scene'.log ++ records })) ∧
    ∀ key value, result.merged.get? key = some value →
      (∃ value', result'.merged.get? key = some value' ∧
        (value = value' ∨ value == value')) ∧
      (merge .firstWins headers).merged.get? key = some value ∧
      ∃ last, (merge .lastWins headers).merged.get? key = some last ∧
        (value = last ∨ value == last) := by
  intro result result'
  have hkeys : result.merged.keys = result'.merged.keys := by
    apply SortedMap.keys_ext
    intro key
    rw [SortedMap.mem_keys, SortedMap.mem_keys]
    change result.merged.contains key ↔ result'.merged.contains key
    rw [contains_conflictDiscarding, contains_conflictDiscarding, agreed_perm perm]
    simp only [perm.mem_iff]
  have hexcluded : result.excluded = result'.excluded := by
    apply SortedMap.ascending_ext (f := id) (excluded_sorted _) (excluded_sorted _)
    intro key
    rw [mem_excluded, mem_excluded, agreed_perm perm]
  refine ⟨hkeys, hexcluded, ⟨_, perform_eq _ headers scene, ?_⟩, ?_⟩
  · exact hexcluded ▸ perform_eq _ headers' scene'
  · intro key value hvalue
    obtain ⟨hid, hagreed, hfirst⟩ := get?_conflictDiscarding_eq_some.mp hvalue
    refine ⟨?_, ?_, ?_⟩
    · obtain ⟨value', hfirst', hequal⟩ := first_of_perm perm hagreed hfirst
      exact ⟨value', get?_conflictDiscarding_eq_some.mpr
        ⟨hid, (agreed_perm perm).mp hagreed, hfirst'⟩, hequal⟩
    · simpa [get?_firstWins, hid] using hfirst
    · obtain ⟨last, hlast, hequal⟩ :=
        first_of_perm (List.reverse_perm headers).symm hagreed hfirst
      exact ⟨last, by simpa [get?_lastWins, hid] using hlast, hequal⟩

/-- A number that is 0 in one order and -0 in the other, beside a conflict and a NaN. -/
theorem agreement_unordered_zeros :
    let here : Headers := .ofList [("note", .int 1), ("ratio", .float ⟨0⟩), ("unit", .string "m")]
    let there : Headers := .ofList [("note", .int 2), ("ratio", .float ⟨0x8000000000000000⟩),
      ("odd", .float ⟨0x7FF8000000000000⟩)]
    [here, there].Perm [there, here] ∧
    (merge .conflictDiscarding [here, there]).merged.get? "ratio" = some (.float ⟨0⟩) ∧
    (merge .conflictDiscarding [there, here]).merged.get? "ratio" =
      some (.float ⟨0x8000000000000000⟩) ∧
    (merge .conflictDiscarding [here, there]).merged.keys = ["odd", "ratio", "unit"] ∧
    (merge .conflictDiscarding [here, there]).merged.keys =
      (merge .conflictDiscarding [there, here]).merged.keys ∧
    (merge .conflictDiscarding [here, there]).excluded = ["note"] ∧
    (merge .firstWins [here, there]).merged.get? "ratio" = some (.float ⟨0⟩) := by
  intro here there
  let scene : Scene Unit := { outside := (), log := [], mint := .spread 0 0 }
  have hperm : [here, there].Perm [there, here] := List.Perm.swap there here []
  have hkept : (merge .conflictDiscarding [here, there]).merged.get? "ratio" =
      some (.float ⟨0⟩) := by
    decide +kernel
  obtain ⟨hkeys, -, -, hvalues⟩ := agreement_unordered hperm scene scene
  obtain ⟨-, hfirst, -⟩ := hvalues "ratio" _ hkept
  exact ⟨hperm, hkept, by decide +kernel, by decide +kernel, hkeys, by decide +kernel, hfirst⟩

end MergeStrategy
end MessageRing
