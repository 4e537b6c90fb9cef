/-!
Maps from text keys, kept in the order of the keys.

The order of texts is by code point, which is the order of their UTF-8 bytes. A map has one
representation only: building it again from its entries gives the same map
(`SortedMap.ofList_entries`).
-/
namespace MessageRing

structure SortedMap (β : Type) where
  entries : List (String × β)
  sorted : entries.Pairwise (·.1 < ·.1)

namespace SortedMap
variable {β : Type}

theorem ext {m n : SortedMap β} (h : m.entries = n.entries) : m = n := by
  cases m
  cases n
  subst h
  rfl

instance [DecidableEq β] : DecidableEq (SortedMap β) := fun m n =>
  decidable_of_iff (m.entries = n.entries) ⟨ext, fun h => h ▸ rfl⟩

def empty : SortedMap β := ⟨[], .nil⟩

instance : Inhabited (SortedMap β) := ⟨empty⟩

def size (m : SortedMap β) : Nat := m.entries.length

def isEmpty (m : SortedMap β) : Bool := m.entries.isEmpty

def keys (m : SortedMap β) : List String := m.entries.map (·.1)

/-- Puts a key in its place, or replaces its value. -/
def insertEntry (key : String) (value : β) : List (String × β) → List (String × β)
  | [] => [(key, value)]
  | (k, v) :: rest =>
    if key < k then (key, value) :: (k, v) :: rest
    else if k < key then (k, v) :: insertEntry key value rest
    else (key, value) :: rest

theorem mem_insertEntry {key : String} {value : β} {es : List (String × β)} {e : String × β}
    (h : e ∈ insertEntry key value es) : e = (key, value) ∨ e ∈ es := by
  induction es with
  | nil => exact .inl (by simpa [insertEntry] using h)
  | cons head rest ih =>
    unfold insertEntry at h
    split at h
    · simpa using h
    · split at h
      · rcases List.mem_cons.1 h with h | h
        · exact .inr (by simp [h])
        · exact (ih h).imp_right (List.mem_cons_of_mem _)
      · rcases List.mem_cons.1 h with h | h
        · exact .inl h
        · exact .inr (List.mem_cons_of_mem _ h)

theorem sorted_insertEntry {key : String} {value : β} {es : List (String × β)}
    (h : es.Pairwise (·.1 < ·.1)) : (insertEntry key value es).Pairwise (·.1 < ·.1) := by
  induction es with
  | nil => simp [insertEntry]
  | cons head rest ih =>
    obtain ⟨first, tail⟩ := List.pairwise_cons.1 h
    unfold insertEntry
    split
    · rename_i lt
      refine List.pairwise_cons.2 ⟨fun e he => ?_, h⟩
      rcases List.mem_cons.1 he with rfl | he
      · exact lt
      · exact String.lt_trans lt (first e he)
    · split
      · rename_i gt
        refine List.pairwise_cons.2 ⟨fun e he => ?_, ih tail⟩
        rcases mem_insertEntry he with rfl | he
        · exact gt
        · exact first e he
      · rename_i ge le
        have same : key = head.1 :=
          String.le_antisymm (String.not_lt.1 le) (String.not_lt.1 ge)
        exact List.pairwise_cons.2 ⟨fun e he => same ▸ first e he, tail⟩

def insert (m : SortedMap β) (key : String) (value : β) : SortedMap β :=
  ⟨insertEntry key value m.entries, sorted_insertEntry m.sorted⟩

def erase (m : SortedMap β) (key : String) : SortedMap β :=
  ⟨m.entries.filter (·.1 ≠ key), m.sorted.filter _⟩

def get? (m : SortedMap β) (key : String) : Option β :=
  (m.entries.find? (·.1 = key)).map (·.2)

def contains (m : SortedMap β) (key : String) : Bool := (m.get? key).isSome

def insertNew (m : SortedMap β) (key : String) (value : β) : SortedMap β :=
  if m.contains key then m else m.insert key value

/-- Inserts from left to right, so that the last of two equal keys stays. -/
def ofList (entries : List (String × β)) : SortedMap β :=
  entries.foldl (fun m e => m.insert e.1 e.2) empty

def ofKeys (keys : List String) : SortedMap Unit := ofList (keys.map (·, ()))

@[simp] theorem get?_empty (key : String) : (empty : SortedMap β).get? key = none := rfl

theorem find?_insertEntry (key : String) (value : β) (es : List (String × β)) (k : String) :
    (insertEntry key value es).find? (·.1 = k) =
      if key = k then some (key, value) else es.find? (·.1 = k) := by
  induction es with
  | nil => by_cases h : key = k <;> simp [insertEntry, h]
  | cons head rest ih =>
    unfold insertEntry
    split
    · by_cases h : key = k <;> simp [h]
    · split
      · rename_i gt
        obtain ⟨k', v'⟩ := head
        by_cases h : k' = k
        · have : key ≠ k := fun e => String.lt_irrefl k (by rw [e, h] at gt; exact gt)
          simp [h, this]
        · simp [h, ih]
      · rename_i ge le
        have same : key = head.1 :=
          String.le_antisymm (String.not_lt.1 le) (String.not_lt.1 ge)
        by_cases h : key = k
        · simp [h]
        · simp [h, ← same]

theorem get?_insert (m : SortedMap β) (key : String) (value : β) (k : String) :
    (m.insert key value).get? k = if key = k then some value else m.get? k := by
  unfold get? insert
  rw [find?_insertEntry]
  split <;> rfl

theorem get?_erase (m : SortedMap β) (key k : String) :
    (m.erase key).get? k = if key = k then none else m.get? k := by
  unfold get? erase
  rw [List.find?_filter]
  by_cases h : key = k
  · subst h
    simp
  · have : (fun e : String × β => decide (decide (e.1 ≠ key) = true ∧ decide (e.1 = k) = true)) =
        fun e => decide (e.1 = k) := by
      funext e
      by_cases he : e.1 = k
      · simp [he, Ne.symm h]
      · simp [he]
    rw [this, if_neg h]

theorem get?_insertNew (m : SortedMap β) (key : String) (value : β) (k : String) :
    (m.insertNew key value).get? k =
      if key = k then some ((m.get? k).getD value) else m.get? k := by
  unfold insertNew contains
  by_cases h : key = k
  · subst h
    cases e : m.get? key <;> simp [e, get?_insert]
  · split <;> simp [h, get?_insert]

/-- A key after all others is put at the end. -/
theorem insertEntry_of_last {key : String} {value : β} {es : List (String × β)}
    (last : ∀ e ∈ es, e.1 < key) : insertEntry key value es = es ++ [(key, value)] := by
  induction es with
  | nil => rfl
  | cons head rest ih =>
    rw [List.forall_mem_cons] at last
    rw [insertEntry, if_neg (String.lt_asymm last.1), if_pos last.1, ih last.2]
    rfl

theorem entries_foldl_insert {es : List (String × β)} (m : SortedMap β)
    (sorted : (m.entries ++ es).Pairwise (·.1 < ·.1)) :
    (es.foldl (fun m e => m.insert e.1 e.2) m).entries = m.entries ++ es := by
  induction es generalizing m with
  | nil => exact (List.append_nil _).symm
  | cons e es ih =>
    have hinsert : (m.insert e.1 e.2).entries = m.entries ++ [e] :=
      insertEntry_of_last fun e' he' =>
        (List.pairwise_append.1 sorted).2.2 e' he' e List.mem_cons_self
    rw [List.foldl_cons, ih _ (by rw [hinsert]; simpa using sorted), hinsert]
    simp

/-- A map is built again from its entries. -/
theorem ofList_entries (m : SortedMap β) : ofList m.entries = m :=
  ext (entries_foldl_insert empty m.sorted)

end SortedMap
end MessageRing
