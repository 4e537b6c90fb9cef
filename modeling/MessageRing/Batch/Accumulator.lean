import MessageRing.Ring.Error

/-!
Accumulators: they cut a stream of items into batches.

A batch is complete when it has reached its limit or when the item is marked as the last one for
now. No item is lost and none changes its place: the batches handed out, followed by the open one,
are the items in order.
-/
namespace MessageRing

/-- The open batch. -/
structure Accumulator (α : Type) where
  /-- Most items in a batch; at least one. -/
  limit : Nat
  /-- In the order they were added. -/
  items : List α
  deriving DecidableEq, Repr

namespace Accumulator
variable {α : Type}

/-- Room for a whole batch is set aside in advance; for this many items and more it would go
beyond what can be addressed. -/
def unaddressable : Nat := UInt64.size / 64

/-- An empty batch. A limit of zero counts as one. -/
def make (size : Nat) : Except Violation (Accumulator α) :=
  if size < unaddressable then .ok ⟨max size 1, []⟩ else .error .noRoom

def length (a : Accumulator α) : Nat := a.items.length

def isEmpty (a : Accumulator α) : Bool := a.items.isEmpty

/-- Hands out what has been collected, if anything. -/
def take (a : Accumulator α) : Option (List α) × Accumulator α :=
  if a.isEmpty then (none, a) else (some a.items, { a with items := [] })

/-- Adds an item, and hands out the batch if that completes it. -/
def add (a : Accumulator α) (item : α) (last : Bool) : Option (List α) × Accumulator α :=
  let a := { a with items := a.items ++ [item] }
  if last ∨ a.limit ≤ a.length then a.take else (none, a)

theorem make_eq_ok {size : Nat} {a : Accumulator α} (made : make size = .ok a) :
    a.limit = max size 1 ∧ a.items = [] := by
  unfold make at made
  split at made
  · cases made
    exact ⟨rfl, rfl⟩
  · cases made

theorem take_of_empty {a : Accumulator α} (h : a.items = []) : a.take = (none, a) := by
  simp [take, isEmpty, h]

theorem take_of_nonempty {a : Accumulator α} (h : a.items ≠ []) :
    a.take = (some a.items, { a with items := [] }) := by
  simp [take, isEmpty, h]

theorem add_of_complete (a : Accumulator α) (item : α) {last : Bool}
    (h : last = true ∨ a.limit ≤ a.items.length + 1) :
    a.add item last = (some (a.items ++ [item]), { a with items := [] }) := by
  have hcomplete : last = true ∨ a.limit ≤ (a.items ++ [item]).length := by simpa using h
  exact (if_pos hcomplete).trans (take_of_nonempty (by simp))

theorem add_of_open (a : Accumulator α) (item : α) (h : a.items.length + 1 < a.limit) :
    a.add item false = (none, { a with items := a.items ++ [item] }) := by
  have hopen : ¬ (false = true ∨ a.limit ≤ (a.items ++ [item]).length) := by
    simp
    omega
  exact if_neg hopen

end Accumulator
end MessageRing
