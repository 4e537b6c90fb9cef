import Mathlib.Tactic.SplitIfs
import MessageRing.Batch.Accumulator

/-!
Accumulators over whole runs of calls.

At every point the batches handed out so far, followed by the open batch, are the items in the order
they were added. An open batch is always short of the limit, so a batch that is handed out has
either just become full or been ended by the call.
-/
namespace MessageRing
namespace Accumulator
variable {α : Type}

/-- The public calls. -/
inductive Call (α : Type) where
  | add (item : α) (last : Bool)
  | take
  deriving DecidableEq, Repr

/-- What the call adds. -/
def Call.item? : Call α → Option α
  | .add item _ => some item
  | .take => none

/-- The call ends the open batch, full or not. -/
def Call.ends : Call α → Bool
  | .add _ last => last
  | .take => true

def answer (a : Accumulator α) : Call α → Option (List α) × Accumulator α
  | .add item last => a.add item last
  | .take => a.take

def after (a : Accumulator α) (calls : List (Call α)) : Accumulator α :=
  calls.foldl (fun a call => (a.answer call).2) a

/-- The batches that calls hand out, in order. -/
def batches (a : Accumulator α) : List (Call α) → List (List α)
  | [] => []
  | call :: calls => (a.answer call).1.toList ++ (a.answer call).2.batches calls

theorem add_eq (a : Accumulator α) (item : α) (last : Bool) :
    a.add item last =
      if last = true ∨ a.limit ≤ a.items.length + 1 then
        (some (a.items ++ [item]), { a with items := [] })
      else (none, { a with items := a.items ++ [item] }) := by
  split_ifs with h
  · exact a.add_of_complete item h
  · rw [not_or, Bool.not_eq_true, Nat.not_le] at h
    rw [h.1]
    exact a.add_of_open item h.2

/-- One call keeps the open batch short and loses nothing; what it hands out has items, is within
the limit, and is at the limit unless the call ends it. -/
theorem answer_keeps {a : Accumulator α} (short : a.items.length < a.limit) (call : Call α) :
    (a.answer call).2.limit = a.limit ∧
    (a.answer call).2.items.length < a.limit ∧
    (a.answer call).1.toList.flatten ++ (a.answer call).2.items = a.items ++ call.item?.toList ∧
    ∀ batch, (a.answer call).1 = some batch →
      batch ≠ [] ∧ batch.length ≤ a.limit ∧ (batch.length < a.limit → call.ends = true) := by
  cases call with
  | add item last =>
    simp only [answer, add_eq]
    split_ifs with hcomplete
    · refine ⟨rfl, Nat.zero_lt_of_lt short, by simp [Call.item?], ?_⟩
      rintro batch ⟨⟩
      rw [List.length_append, List.length_singleton]
      refine ⟨by simp, short, fun hless => ?_⟩
      exact hcomplete.resolve_right (Nat.not_le.mpr hless)
    · rw [not_or, Nat.not_le] at hcomplete
      refine ⟨rfl, by simpa using hcomplete.2, by simp [Call.item?], ?_⟩
      rintro batch ⟨⟩
  | take =>
    by_cases hempty : a.items = []
    · rw [answer, take_of_empty hempty]
      exact ⟨rfl, short, by simp [Call.item?], by rintro batch ⟨⟩⟩
    · rw [answer, take_of_nonempty hempty]
      refine ⟨rfl, Nat.zero_lt_of_lt short, by simp [Call.item?], ?_⟩
      rintro batch ⟨⟩
      exact ⟨hempty, Nat.le_of_lt short, fun _ => rfl⟩

theorem after_keeps {a : Accumulator α} (short : a.items.length < a.limit)
    (calls : List (Call α)) :
    (a.after calls).limit = a.limit ∧
    (a.after calls).items.length < a.limit ∧
    (a.batches calls).flatten ++ (a.after calls).items =
      a.items ++ calls.filterMap Call.item? ∧
    ∀ batch ∈ a.batches calls, batch ≠ [] ∧ batch.length ≤ a.limit := by
  induction calls generalizing a with
  | nil => exact ⟨rfl, short, by simp [batches, after], by simp [batches]⟩
  | cons call calls ih =>
    obtain ⟨hlimit, hshort, hitems, hbatch⟩ := answer_keeps short call
    obtain ⟨hlimit', hshort', hitems', hbatches'⟩ := ih (hlimit.symm ▸ hshort)
    rw [hlimit] at hlimit' hshort' hbatches'
    refine ⟨hlimit', hshort', ?_, ?_⟩
    · calc (a.batches (call :: calls)).flatten ++ (a.after (call :: calls)).items
          = (a.answer call).1.toList.flatten ++ (((a.answer call).2.batches calls).flatten ++
              ((a.answer call).2.after calls).items) := by simp [batches, after]
        _ = a.items ++ (call.item?.toList ++ calls.filterMap Call.item?) := by
          rw [hitems', ← List.append_assoc, hitems, List.append_assoc]
        _ = a.items ++ (call :: calls).filterMap Call.item? := by
          cases h : call.item? <;> simp [h]
    · intro batch hmem
      rcases List.mem_append.mp hmem with hmem | hmem
      · obtain ⟨hnonempty, hwithin, -⟩ := hbatch batch (Option.mem_toList.mp hmem)
        exact ⟨hnonempty, hwithin⟩
      · exact hbatches' batch hmem

/-- Whatever is called, nothing is lost, doubled or moved: the batches handed out so far and then
the open one are the items in the order they were added. The open batch is short of the limit, and
no batch handed out is empty or beyond it. Adding an item hands out the batch with it exactly when
the item is marked as the last one or fills the batch, and a batch below the limit comes only from
such a mark or from taking it. A limit of zero counts as one. -/
theorem conserves_items {size : Nat} {new : Accumulator α} (made : make size = .ok new)
    (calls : List (Call α)) :
    let a := new.after calls
    (new.batches calls).flatten ++ a.items = calls.filterMap Call.item? ∧
    a.items.length < max size 1 ∧
    (∀ batch ∈ new.batches calls, batch ≠ [] ∧ batch.length ≤ max size 1) ∧
    (∀ item last, (a.answer (.add item last)).1 =
      if last = true ∨ a.items.length + 1 = max size 1 then some (a.items ++ [item]) else none) ∧
    (a.answer .take).1 = (if a.items = [] then none else some a.items) ∧
    ∀ call batch, (a.answer call).1 = some batch → batch.length < max size 1 →
      call = .take ∨ ∃ item, call = .add item true := by
  intro a
  obtain ⟨hlimit, hitems⟩ := make_eq_ok made
  have hshort : new.items.length < new.limit := by
    rw [hlimit, hitems, List.length_nil]
    omega
  obtain ⟨hlimit', hshort', hconserved, hbatches⟩ := after_keeps hshort calls
  rw [hlimit] at hlimit' hshort' hbatches
  change a.limit = _ at hlimit'
  change a.items.length < _ at hshort'
  rw [hitems, List.nil_append] at hconserved
  refine ⟨hconserved, hshort', hbatches, ?_, ?_, ?_⟩
  · intro item last
    have hfull : a.limit ≤ a.items.length + 1 ↔ a.items.length + 1 = max size 1 := by
      omega
    simp only [answer, add_eq, hfull]
    split_ifs <;> rfl
  · split_ifs with hempty
    · rw [answer, take_of_empty hempty]
    · rw [answer, take_of_nonempty hempty]
  · intro call batch hbatch hless
    obtain ⟨-, -, -, hends⟩ := answer_keeps (hlimit'.symm ▸ hshort') call
    have hcall : call.ends = true := (hends batch hbatch).2.2 (hlimit'.symm ▸ hless)
    cases call with
    | take => exact .inl rfl
    | add item last =>
      cases hcall
      exact .inr ⟨item, rfl⟩

/-- Batches of two: one that is full at its last item, one that is taken, nothing to take, and one
that its only item ends. -/
theorem conserves_items_mixed :
    let calls : List (Call Nat) := [.add 1 false, .add 2 true, .add 3 false, .take, .take,
      .add 4 true, .add 5 false]
    let new : Accumulator Nat := ⟨2, []⟩
    make 2 = .ok new ∧ new.batches calls = [[1, 2], [3], [4]] ∧
    (new.batches calls).flatten ++ (new.after calls).items = calls.filterMap Call.item? := by
  intro calls new
  have hmade : make 2 = .ok new := if_pos (by decide +kernel)
  exact ⟨hmade, by decide, (conserves_items hmade calls).1⟩

end Accumulator
end MessageRing
