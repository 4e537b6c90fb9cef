import Mathlib.Data.List.Nodup
import MessageRing.SortedMap

/-!
A map is what its lookups say.

Maps with the same lookups are equal, and so are the key lists of maps with the same keys. A map
that is filled from entries, one after another, holds for each key the first or the last of the
values that the entries have for it.
-/
namespace MessageRing
namespace SortedMap
variable {β γ : Type} {m : SortedMap β} {key : String}

theorem keys_sorted (m : SortedMap β) : m.keys.Pairwise (· < ·) :=
  m.sorted.map Prod.fst fun _ _ h => h

section Ascending
variable {α : Type} {f : α → String} {l l' : List α}

theorem nodup_of_ascending (h : l.Pairwise (f · < f ·)) : (l.map f).Nodup := by
  apply List.Pairwise.map f _ h
  intro a b hab heq
  exact String.lt_irrefl (f a) (heq ▸ hab)

/-- A list in the order of its keys is determined by its members. -/
theorem ascending_ext (h : l.Pairwise (f · < f ·)) (h' : l'.Pairwise (f · < f ·))
    (same : ∀ a, a ∈ l ↔ a ∈ l') : l = l' := by
  apply List.Perm.eq_of_pairwise (fun a b _ _ hab hba => absurd hba (String.lt_asymm hab)) h h'
  rw [List.perm_ext_iff_of_nodup (nodup_of_ascending h).of_map (nodup_of_ascending h').of_map]
  exact same

end Ascending

theorem mem_entries {e : String × β} : e ∈ m.entries ↔ m.get? e.1 = some e.2 := by
  unfold get?
  constructor
  · intro he
    obtain ⟨e', hfind⟩ : ∃ e', m.entries.find? (·.1 = e.1) = some e' :=
      Option.isSome_iff_exists.mp (List.find?_isSome.mpr ⟨e, he, by simp⟩)
    have hkey : e'.1 = e.1 := by simpa using List.find?_some hfind
    have hsame : e' = e := List.inj_on_of_nodup_map (nodup_of_ascending m.sorted)
      (List.mem_of_find?_eq_some hfind) he hkey
    simp [hfind, hsame]
  · intro hget
    obtain ⟨e', hfind, hvalue⟩ := Option.map_eq_some_iff.mp hget
    have hkey : e'.1 = e.1 := by simpa using List.find?_some hfind
    have hsame : e' = e := Prod.ext hkey hvalue
    exact hsame ▸ List.mem_of_find?_eq_some hfind

theorem mem_keys : key ∈ m.keys ↔ (m.get? key).isSome := by
  unfold keys
  rw [List.mem_map, Option.isSome_iff_exists]
  constructor
  · rintro ⟨e, he, rfl⟩
    exact ⟨e.2, mem_entries.mp he⟩
  · rintro ⟨value, h⟩
    exact ⟨(key, value), mem_entries.mpr h, rfl⟩

theorem mem_keys_insert {k : String} {value : β} :
    key ∈ (m.insert k value).keys ↔ k = key ∨ key ∈ m.keys := by
  rw [mem_keys, mem_keys, get?_insert]
  by_cases h : k = key <;> simp [h]

theorem keys_ext {n : SortedMap γ} (same : ∀ key, key ∈ m.keys ↔ key ∈ n.keys) :
    m.keys = n.keys :=
  ascending_ext (f := id) m.keys_sorted n.keys_sorted same

/-- Maps with the same lookups are equal. -/
theorem ext_get? {n : SortedMap β} (same : ∀ key, m.get? key = n.get? key) : m = n := by
  apply ext
  apply ascending_ext m.sorted n.sorted
  intro e
  rw [mem_entries, mem_entries, same]

theorem get?_foldl_erase (keys : List String) (m : SortedMap β) (key : String) :
    (keys.foldl (·.erase ·) m).get? key = if key ∈ keys then none else m.get? key := by
  induction keys generalizing m with
  | nil => simp
  | cons k keys ih =>
    rw [List.foldl_cons, ih, get?_erase]
    by_cases hk : k = key
    · simp [hk]
    · simp [hk, Ne.symm hk]

/-- The same keys with other values. -/
def map (f : String → β → γ) (m : SortedMap β) : SortedMap γ :=
  ⟨m.entries.map fun e => (e.1, f e.1 e.2), List.pairwise_map.mpr m.sorted⟩

theorem get?_map (f : String → β → γ) (m : SortedMap β) (key : String) :
    (m.map f).get? key = (m.get? key).map (f key) := by
  unfold get? map
  rw [List.find?_map, Option.map_map, Option.map_map]
  change (m.entries.find? (·.1 = key)).map _ = (m.entries.find? (·.1 = key)).map _
  cases hfind : m.entries.find? (·.1 = key) with
  | none => rfl
  | some e =>
    have hkey : e.1 = key := by simpa using List.find?_some hfind
    simp [hkey]

/-- The values that entries have for a key, in their order. -/
def valuesOf (key : String) (es : List (String × β)) : List β :=
  es.filterMap fun e => if e.1 = key then some e.2 else none

theorem valuesOf_cons (key : String) (e : String × β) (es : List (String × β)) :
    valuesOf key (e :: es) = if e.1 = key then e.2 :: valuesOf key es else valuesOf key es := by
  unfold valuesOf
  by_cases h : e.1 = key <;> simp [h]

theorem valuesOf_append (key : String) (es es' : List (String × β)) :
    valuesOf key (es ++ es') = valuesOf key es ++ valuesOf key es' :=
  List.filterMap_append

/-- Entries that are left out by their keys take all values of a key with them. -/
theorem valuesOf_filter (stays : String → Bool) (key : String) (es : List (String × β)) :
    valuesOf key (es.filter fun e => stays e.1) =
      if stays key then valuesOf key es else [] := by
  induction es with
  | nil => simp [valuesOf]
  | cons e es ih =>
    rw [valuesOf_cons, List.filter_cons]
    by_cases he : e.1 = key
    · by_cases hstays : stays key = true <;> simp [he, hstays, valuesOf_cons, ih]
    · by_cases hstays : stays e.1 = true <;> simp [he, hstays, valuesOf_cons, ih]

/-- The entries of a map have at most one value for a key. -/
theorem valuesOf_entries (m : SortedMap β) (key : String) :
    valuesOf key m.entries = (m.get? key).toList := by
  obtain ⟨es, sorted⟩ := m
  unfold get?
  induction es with
  | nil => rfl
  | cons e es ih =>
    obtain ⟨first, tail⟩ := List.pairwise_cons.mp sorted
    rw [valuesOf_cons]
    by_cases he : e.1 = key
    · -- all later keys are greater
      have hrest : valuesOf key es = [] := by
        apply List.filterMap_eq_nil_iff.mpr
        intro e' he'
        have hlt := first e' he'
        rw [if_neg]
        rintro rfl
        exact String.lt_irrefl _ (he ▸ hlt)
      simp [he, hrest]
    · simpa [he] using ih tail

theorem get?_foldl_insertNew (es : List (String × β)) (m : SortedMap β) (key : String) :
    (es.foldl (fun m e => m.insertNew e.1 e.2) m).get? key =
      (m.get? key).or (valuesOf key es).head? := by
  induction es generalizing m with
  | nil => simp [valuesOf]
  | cons e es ih =>
    rw [List.foldl_cons, ih, get?_insertNew, valuesOf_cons]
    by_cases he : e.1 = key
    · cases m.get? key <;> simp [he]
    · simp [he]

theorem get?_foldl_insert (es : List (String × β)) (m : SortedMap β) (key : String) :
    (es.foldl (fun m e => m.insert e.1 e.2) m).get? key =
      (valuesOf key es).getLast?.or (m.get? key) := by
  induction es generalizing m with
  | nil => simp [valuesOf]
  | cons e es ih =>
    rw [List.foldl_cons, ih, get?_insert, valuesOf_cons]
    by_cases he : e.1 = key
    · cases hlast : (valuesOf key es).getLast? <;> simp [he, List.getLast?_cons, hlast]
    · simp [he]

end SortedMap
end MessageRing
