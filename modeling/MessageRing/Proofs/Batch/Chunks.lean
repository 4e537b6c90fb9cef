import MessageRing.Proofs.Batch.Conservation
import MessageRing.Proofs.Worker.Story

/-!
What an accumulator makes of the calls of a worker.

`chunks` cuts a list into pieces of one length, the last one possibly shorter. An accumulator that
is empty when a window begins hands out the chunks of the window's items and is empty when it ends,
however full and empty slots follow each other.
-/
namespace MessageRing
variable {α : Type}

/-- Cuts items into pieces of a size, where zero counts as one; the last one may be shorter. -/
def chunks (size : Nat) : List α → List (List α)
  | [] => []
  | item :: items => (item :: items.take (size - 1)) :: chunks size (items.drop (size - 1))
termination_by items => items.length

/-- A size of zero counts as one. -/
theorem chunks_max (size : Nat) (items : List α) :
    chunks (max size 1) items = chunks size items := by
  have hsize : max size 1 - 1 = size - 1 := by omega
  fun_induction chunks size items with
  | case1 => rw [chunks]
  | case2 item items ih => rw [chunks, hsize, ih]

@[simp] theorem chunks_nil (size : Nat) : chunks size ([] : List α) = [] := by
  rw [chunks]

theorem chunks_append {size : Nat} {chunk : List α} (full : chunk.length = max size 1)
    (rest : List α) : chunks size (chunk ++ rest) = chunk :: chunks size rest := by
  cases chunk with
  | nil =>
    rw [List.length_nil] at full
    omega
  | cons item items =>
    have hlength : size - 1 = items.length := by
      rw [List.length_cons] at full
      omega
    rw [List.cons_append, chunks, hlength, List.take_left, List.drop_left]

theorem chunks_of_short {size : Nat} {items : List α} (nonempty : items ≠ [])
    (short : items.length ≤ max size 1) : chunks size items = [items] := by
  cases items with
  | nil => exact absurd rfl nonempty
  | cons item items =>
    rw [List.length_cons] at short
    rw [chunks, List.take_of_length_le (by omega), List.drop_of_length_le (by omega), chunks_nil]

theorem flatten_chunks (size : Nat) (items : List α) : (chunks size items).flatten = items := by
  fun_induction chunks size items with
  | case1 => rfl
  | case2 item items ih => rw [List.flatten_cons, ih, List.cons_append, List.take_append_drop]

/-- No chunk is empty or longer than the size. -/
theorem chunk_bounds (size : Nat) (items : List α) :
    ∀ chunk ∈ chunks size items, chunk ≠ [] ∧ chunk.length ≤ max size 1 := by
  fun_induction chunks size items with
  | case1 => simp
  | case2 item items ih =>
    intro chunk hchunk
    rcases List.mem_cons.mp hchunk with rfl | hchunk
    · refine ⟨List.cons_ne_nil _ _, ?_⟩
      rw [List.length_cons, List.length_take]
      omega
    · exact ih chunk hchunk

/-- The handler's call for a visit in a window up to `available`, if there is one. -/
def Visit.call? (available : Int) (v : Visit α) : Option (HandlerCall α) :=
  HandlerCall.ofEntry available v.sequence v.content

namespace Window

def items (w : Window α) : List α := w.visits.filterMap Visit.content

/-- The calls of the handler in a window. -/
def calls (w : Window α) : List (HandlerCall α) :=
  w.visits.filterMap (Visit.call? w.last.sequence)

end Window

theorem Visit.calls_notices (available : Int) (v : Visit α) :
    (v.notices available).filterMap Notice.call? = (v.call? available).toList := by
  unfold Visit.notices Visit.call?
  cases HandlerCall.ofEntry available v.sequence v.content with
  | none => rfl
  | some call => cases v.outcome.failure? <;> rfl

theorem Window.calls_notices (w : Window α) : w.notices.filterMap Notice.call? = w.calls := by
  have hvisits (visits : List (Visit α)) :
      (visits.flatMap (Visit.notices w.last.sequence)).filterMap Notice.call? =
        visits.filterMap (Visit.call? w.last.sequence) := by
    induction visits with
    | nil => rfl
    | cons v visits ih =>
      rw [List.flatMap_cons, List.filterMap_append, Visit.calls_notices, ih]
      cases h : v.call? w.last.sequence <;> simp [h]
  rw [Window.notices, List.cons_append, List.filterMap_cons_none rfl, List.filterMap_append,
    hvisits]
  exact List.append_nil _

/-- The calls of a worker up to the end of some windows. -/
theorem Notice.calls_tale (name : String) (first : Outcome) (windows : List (Window α)) :
    (Notice.tale name first windows).filterMap Notice.call? =
      .start :: windows.flatMap Window.calls := by
  have hopening : (Notice.opening (α := α) name first).filterMap Notice.call? = [.start] := by
    simp [Notice.opening, List.filterMap_cons, List.filterMap_map, Notice.call?]
  rw [Notice.tale, List.filterMap_append, hopening, List.filterMap_flatMap]
  simp only [Window.calls_notices]
  rfl

namespace Accumulator

/-- What a call of a worker makes of the open batch. -/
def serve (a : Accumulator α) : HandlerCall α → Option (List α) × Accumulator α
  | .start => (none, a)
  | .event item _ last => a.add item last
  | .endOfBatch _ | .shutdown => a.take

def serveAll (a : Accumulator α) : List (HandlerCall α) → List (List α) × Accumulator α
  | [] => ([], a)
  | call :: calls =>
    ((a.serve call).1.toList ++ ((a.serve call).2.serveAll calls).1,
      ((a.serve call).2.serveAll calls).2)

theorem serveAll_append (a : Accumulator α) (calls calls' : List (HandlerCall α)) :
    a.serveAll (calls ++ calls') =
      ((a.serveAll calls).1 ++ ((a.serveAll calls).2.serveAll calls').1,
        ((a.serveAll calls).2.serveAll calls').2) := by
  induction calls generalizing a with
  | nil => rfl
  | cons call calls ih =>
    rw [List.cons_append, serveAll, serveAll, ih, List.append_assoc]

theorem serveAll_singleton (a : Accumulator α) (call : HandlerCall α) :
    a.serveAll [call] = ((a.serve call).1.toList, (a.serve call).2) := by
  rw [serveAll, serveAll, List.append_nil]

/-- The last call of a window hands out what is left as one chunk. -/
theorem serveAll_last (a : Accumulator α) (short : a.items.length < a.limit) (last : Visit α) :
    a.serveAll (last.call? last.sequence).toList =
      (chunks a.limit (a.items ++ last.content.toList), { a with items := [] }) := by
  unfold Visit.call?
  cases hcontent : last.content with
  | some item =>
    have hchunk : chunks a.limit (a.items ++ [item]) = [a.items ++ [item]] :=
      chunks_of_short (by simp) (by rw [List.length_append, List.length_singleton]; omega)
    have hadd : a.add item true = _ := a.add_of_complete item (.inl rfl)
    simp only [HandlerCall.ofEntry, decide_true, Option.toList_some]
    rw [serveAll_singleton, serve, hadd, hchunk]
    rfl
  | none =>
    simp only [HandlerCall.ofEntry, if_true, Option.toList_some, Option.toList_none,
      List.append_nil]
    rw [serveAll_singleton, serve]
    by_cases hempty : a.items = []
    · rw [take_of_empty hempty, hempty, chunks_nil, ← hempty]
      rfl
    · rw [take_of_nonempty hempty, chunks_of_short hempty (by omega)]
      rfl

/-- Over a window an accumulator hands out what it held and the window's items in chunks, and is
empty at the end. -/
theorem serveAll_visits (a : Accumulator α) (short : a.items.length < a.limit)
    (earlier : List (Visit α)) (last : Visit α)
    (others : ∀ v ∈ earlier, v.sequence ≠ last.sequence) :
    a.serveAll ((earlier ++ [last]).filterMap (Visit.call? last.sequence)) =
      (chunks a.limit (a.items ++ (earlier ++ [last]).filterMap Visit.content),
        { a with items := [] }) := by
  induction earlier generalizing a with
  | nil =>
    have hone {β : Type} (f : Visit α → Option β) : [last].filterMap f = (f last).toList := by
      cases h : f last <;> simp [h]
    rw [List.nil_append, hone, hone]
    exact a.serveAll_last short last
  | cons v earlier ih =>
    obtain ⟨hv, hothers⟩ := List.forall_mem_cons.mp others
    cases hcontent : v.content with
    | none =>
      have hentry : v.call? last.sequence = none := by
        unfold Visit.call?
        rw [hcontent]
        exact if_neg hv
      rw [List.cons_append, List.filterMap_cons_none hentry, List.filterMap_cons_none hcontent]
      exact ih a short hothers
    | some item =>
      have hentry : v.call? last.sequence = some (.event item v.sequence false) := by
        simp [Visit.call?, hcontent, HandlerCall.ofEntry, hv]
      rw [List.cons_append, List.filterMap_cons_some hentry, List.filterMap_cons_some hcontent,
        serveAll, serve, List.append_cons a.items item]
      by_cases hfull : a.limit ≤ a.items.length + 1
      · have hchunk : (a.items ++ [item]).length = max a.limit 1 := by
          rw [List.length_append, List.length_singleton]
          omega
        have hroom : ([] : List α).length < a.limit := (Nat.zero_le _).trans_lt short
        rw [a.add_of_complete item (.inr hfull), ih { a with items := [] } hroom hothers,
          chunks_append hchunk]
        rfl
      · have hroom : (a.items ++ [item]).length < a.limit := by
          rw [List.length_append, List.length_singleton]
          omega
        rw [a.add_of_open item (by omega), ih { a with items := a.items ++ [item] } hroom hothers]
        rfl

/-- The batches of some windows, one after the other. -/
theorem serveAll_windows (a : Accumulator α) (room : 0 < a.limit) (empty : a.items = [])
    (windows : List (Window α))
    (distinct : ∀ w ∈ windows, ∀ v ∈ w.earlier, v.sequence ≠ w.last.sequence) :
    a.serveAll (windows.flatMap Window.calls) =
      (windows.flatMap fun w => chunks a.limit w.items, a) := by
  induction windows with
  | nil => rfl
  | cons w windows ih =>
    obtain ⟨hw, hwindows⟩ := List.forall_mem_cons.mp distinct
    have hempty : ({ a with items := [] } : Accumulator α) = a := by rw [← empty]
    have hfirst : a.serveAll w.calls = (chunks a.limit w.items, a) := by
      have hvisits := a.serveAll_visits (by rw [empty]; exact room) w.earlier w.last hw
      rw [empty, List.nil_append, hempty] at hvisits
      exact hvisits
    rw [List.flatMap_cons, List.flatMap_cons, serveAll_append, hfirst, ih hwindows]

/-- One call keeps the open batch short and loses nothing, and what it hands out is a batch. -/
theorem serve_keeps {a : Accumulator α} (short : a.items.length < a.limit) (call : HandlerCall α) :
    (a.serve call).2.limit = a.limit ∧
    (a.serve call).2.items.length < a.limit ∧
    (a.serve call).1.toList.flatten ++ (a.serve call).2.items = a.items ++ call.item?.toList ∧
    ∀ batch, (a.serve call).1 = some batch → batch ≠ [] ∧ batch.length ≤ a.limit := by
  cases call with
  | start => exact ⟨rfl, short, (List.append_nil _).symm, nofun⟩
  | event item sequence last =>
    obtain ⟨hlimit, hshort, hitems, hbatch⟩ := answer_keeps short (.add item last)
    exact ⟨hlimit, hshort, hitems, fun batch h => ⟨(hbatch batch h).1, (hbatch batch h).2.1⟩⟩
  | endOfBatch _ | shutdown =>
    obtain ⟨hlimit, hshort, hitems, hbatch⟩ := answer_keeps short .take
    exact ⟨hlimit, hshort, hitems, fun batch h => ⟨(hbatch batch h).1, (hbatch batch h).2.1⟩⟩

/-- However the calls go on, the batches handed out and then the open one are the items in order. -/
theorem serveAll_keeps {a : Accumulator α} (short : a.items.length < a.limit)
    (calls : List (HandlerCall α)) :
    (a.serveAll calls).2.limit = a.limit ∧
    (a.serveAll calls).2.items.length < a.limit ∧
    (a.serveAll calls).1.flatten ++ (a.serveAll calls).2.items =
      a.items ++ calls.filterMap HandlerCall.item? ∧
    ∀ batch ∈ (a.serveAll calls).1, batch ≠ [] ∧ batch.length ≤ a.limit := by
  induction calls generalizing a with
  | nil => exact ⟨rfl, short, (List.append_nil _).symm, nofun⟩
  | cons call calls ih =>
    obtain ⟨hlimit, hshort, hitems, hbatch⟩ := serve_keeps short call
    obtain ⟨hlimit', hshort', hitems', hbatches'⟩ := ih (hlimit.symm ▸ hshort)
    rw [hlimit] at hlimit' hshort' hbatches'
    refine ⟨hlimit', hshort', ?_, ?_⟩
    · calc (a.serveAll (call :: calls)).1.flatten ++ (a.serveAll (call :: calls)).2.items
          = (a.serve call).1.toList.flatten ++ (((a.serve call).2.serveAll calls).1.flatten ++
              ((a.serve call).2.serveAll calls).2.items) := by simp [serveAll]
        _ = a.items ++ (call.item?.toList ++ calls.filterMap HandlerCall.item?) := by
          rw [hitems', ← List.append_assoc, hitems, List.append_assoc]
        _ = a.items ++ (call :: calls).filterMap HandlerCall.item? := by
          cases h : call.item? <;> simp [h]
    · intro batch hmem
      rcases List.mem_append.mp hmem with hmem | hmem
      · exact hbatch batch (Option.mem_toList.mp hmem)
      · exact hbatches' batch hmem

/-- The shutdown leaves nothing open. -/
theorem serveAll_shutdown (a : Accumulator α) (calls : List (HandlerCall α)) :
    (a.serveAll (calls ++ [.shutdown])).2.items = [] := by
  rw [serveAll_append, serveAll_singleton]
  by_cases hempty : (a.serveAll calls).2.items = []
  · rw [serve, take_of_empty hempty]
    exact hempty
  · rw [serve, take_of_nonempty hempty]

end Accumulator
end MessageRing
