import MessageRing.Proofs.Ring.Calls

/-!
The books of a ring.

A ledger is what an onlooker writes down about a ring from the calls and their answers: which
sequences were given out, what was stored under each of them, what the consumer took, and how far
it has got. `Books` ties a ring to the ledger of its history; a consumer that takes one sequence after
the other then takes what was stored, in order, and nothing else.
-/
namespace MessageRing

def sequences (n : Nat) : List Int := (List.range n).map fun k : Nat => (k : Int)

theorem sequences_succ (n : Nat) : sequences (n + 1) = sequences n ++ [(n : Int)] := by
  simp [sequences, List.range_succ]

@[simp] theorem length_sequences (n : Nat) : (sequences n).length = n := by simp [sequences]

theorem mem_sequences {n : Nat} {s : Int} : s ∈ sequences n ↔ 0 ≤ s ∧ s < n := by
  simp only [sequences, List.mem_map, List.mem_range]
  constructor
  · rintro ⟨k, hk, rfl⟩
    omega
  · rintro ⟨hs, hlt⟩
    exact ⟨s.toNat, by omega, by omega⟩

theorem nodup_sequences (n : Nat) : (sequences n).Nodup :=
  List.nodup_range.map Nat.cast_injective

structure Ledger (α : Type) where
  /-- The sequences given to producers. -/
  claims : List Int := []
  /-- What was last stored under a sequence, if anything. -/
  content : Int → Option α := fun _ => none
  drained : List (Int × Option α) := []
  /-- The last sequence that the consumer was told of. -/
  told : Int := -1
  released : Int := -1

namespace Ledger
variable {α : Type}

def enter (l : Ledger α) : Note α → Ledger α
  | .gave s => { l with claims := l.claims ++ [s] }
  | .stored s content => { l with content := Function.update l.content s content }
  | .told available => { l with told := available }
  | .took s content => { l with drained := l.drained ++ [(s, content)] }
  | .released s => { l with released := s }
  | .handedIn _ | .halted => l

def read (l : Ledger α) (notes : List (Note α)) : Ledger α := notes.foldl enter l

/-- The consumer takes one sequence after the other, none that it was not told of, and gives back
only what it has taken. -/
def Orderly (l : Ledger α) : Note α → Prop
  | .took s _ => s = l.drained.length ∧ s ≤ l.told
  | .released s => s < l.drained.length
  | .gave _ | .stored _ _ | .handedIn _ | .told _ | .halted => True

instance (l : Ledger α) : (note : Note α) → Decidable (l.Orderly note)
  | .took s _ => inferInstanceAs (Decidable (s = l.drained.length ∧ s ≤ l.told))
  | .released s => inferInstanceAs (Decidable (s < l.drained.length))
  | .gave _ | .stored _ _ | .handedIn _ | .told _ | .halted => .isTrue trivial

/-- All notes are orderly when they are written down. -/
def OrderlyAll (l : Ledger α) : List (Note α) → Prop
  | [] => True
  | note :: notes => l.Orderly note ∧ (l.enter note).OrderlyAll notes

instance decidableOrderlyAll (l : Ledger α) :
    (notes : List (Note α)) → Decidable (l.OrderlyAll notes)
  | [] => .isTrue trivial
  | note :: notes =>
    have := (l.enter note).decidableOrderlyAll notes
    inferInstanceAs (Decidable (_ ∧ _))

@[simp] theorem read_nil (l : Ledger α) : l.read [] = l := rfl

@[simp] theorem read_cons (l : Ledger α) (note : Note α) (notes : List (Note α)) :
    l.read (note :: notes) = (l.enter note).read notes := rfl

theorem read_append (l : Ledger α) (notes notes' : List (Note α)) :
    l.read (notes ++ notes') = (l.read notes).read notes' :=
  List.foldl_append

theorem orderlyAll_append (l : Ledger α) (notes notes' : List (Note α)) :
    l.OrderlyAll (notes ++ notes') ↔ l.OrderlyAll notes ∧ (l.read notes).OrderlyAll notes' := by
  induction notes generalizing l with
  | nil => simp [OrderlyAll]
  | cons note notes ih => simp [OrderlyAll, ih, and_assoc]

@[simp] theorem orderlyAll_singleton (l : Ledger α) (note : Note α) :
    l.OrderlyAll [note] ↔ l.Orderly note := by
  simp [OrderlyAll]

/-- What others than the consumer do is orderly and leaves the consumer's columns as they are. -/
theorem read_produced (l : Ledger α) {notes : List (Note α)}
    (h : ∀ note ∈ notes, note.produced = true) :
    l.OrderlyAll notes ∧ (l.read notes).drained = l.drained ∧ (l.read notes).told = l.told ∧
      (l.read notes).released = l.released := by
  induction notes generalizing l with
  | nil => exact ⟨trivial, rfl, rfl, rfl⟩
  | cons note notes ih =>
    obtain ⟨hnote, hnotes⟩ := List.forall_mem_cons.mp h
    obtain ⟨horderly, hdrained, htold, hreleased⟩ := ih (l.enter note) hnotes
    rw [read_cons, hdrained, htold, hreleased]
    cases note with
    | told _ | took _ _ | released _ => cases hnote
    | _ => exact ⟨⟨trivial, horderly⟩, rfl, rfl, rfl⟩

end Ledger

namespace Ring
variable {α : Type}

/-- A ring is as the ledger of its history says. -/
structure Books (r : Ring α) (l : Ledger α) : Prop where
  counted : r.Counted
  claims : l.claims = sequences (r.claimed + 1).toNat
  fresh : ∀ s, r.claimed < s → l.content s = none
  told : l.told ≤ r.cursor
  released : l.released = r.gating
  gating_lt : r.gating < l.drained.length
  drained_le : l.drained.length ≤ r.cursor + 1
  drained : l.drained = (sequences l.drained.length).map fun s => (s, l.content s)
  /-- Every slot holds what was stored under the one sequence after the taken ones that uses it. -/
  slots : ∀ s : Int, l.drained.length ≤ s → s < l.drained.length + r.capacity →
    r.peek s = l.content s

theorem make_books {config : Config} {metrics : Metrics} {r : Ring α}
    (h : Ring.make config metrics = .ok r) : r.Books {} := by
  have hcounted := make_counted h
  obtain ⟨valid, rfl⟩ := make_eq_ok h
  exact {
    counted := hcounted
    claims := rfl
    fresh := fun _ _ => rfl
    told := le_rfl
    released := rfl
    gating_lt := by simp
    drained_le := by simp
    drained := rfl
    slots := fun s _ _ => Vector.getElem_replicate _ }

namespace Books
variable {r : Ring α} {l : Ledger α}

/-- What a ledger says stays true when a ring changes nothing that the ledger speaks of. -/
theorem of_keeps {r' : Ring α} (h : r.Books l) (hk : r.Keeps r') (hc : r'.Counted) :
    r'.Books l where
  counted := hc
  claims := by rw [hk.claimed]; exact h.claims
  fresh := by rw [hk.claimed]; exact h.fresh
  told := h.told.trans hk.cursor_le
  released := by rw [hk.gating]; exact h.released
  gating_lt := by rw [hk.gating]; exact h.gating_lt
  drained_le := by
    have := h.drained_le
    have := hk.cursor_le
    omega
  drained := h.drained
  slots := by
    rw [hk.capacity]
    intro s hs hlt
    rw [hk.peek]
    exact h.slots s hs hlt

theorem grant (h : r.Books l) (hc : r.grant.2.Counted) :
    r.grant.2.Books (l.enter (.gave (r.claimed + 1))) where
  counted := hc
  claims := by
    have hlow := h.counted.start
    have hgating := h.counted.gating_le
    have hcursor := h.counted.cursor_le
    change l.claims ++ [r.claimed + 1] = sequences (r.claimed + 1 + 1).toNat
    have hn : (r.claimed + 1 + 1).toNat = (r.claimed + 1).toNat + 1 := by omega
    rw [hn, sequences_succ, h.claims, Int.toNat_of_nonneg (by omega)]
  fresh s hs := h.fresh s (by change r.claimed + 1 < s at hs; omega)
  told := h.told
  released := h.released
  gating_lt := h.gating_lt
  drained_le := h.drained_le
  drained := h.drained
  slots := h.slots

/-- Storing under a claim reaches that sequence alone. -/
theorem store (h : r.Books l) {s : Int} (content : Option α) (hs : r.cursor < s ∧ s ≤ r.claimed)
    (hc : (r.put s content).Counted) :
    (r.put s content).Books (l.enter (.stored s content)) where
  counted := hc
  claims := h.claims
  fresh t ht := by
    have hne : t ≠ s := by change r.claimed < t at ht; omega
    exact (Function.update_of_ne hne _ _).trans (h.fresh t ht)
  told := h.told
  released := h.released
  gating_lt := h.gating_lt
  drained_le := h.drained_le
  drained := by
    -- a claim is above the cursor, and what was taken is below it
    have hle := h.drained_le
    refine h.drained.trans (List.map_congr_left fun t ht => ?_)
    have hne : t ≠ s := by have := mem_sequences.mp ht; omega
    exact Prod.ext rfl (Function.update_of_ne hne _ _).symm
  slots t ht hlt := by
    have hgating := h.gating_lt
    have hle := h.drained_le
    have hclaimed := h.counted.claimed_le
    change (l.drained.length : Int) ≤ t at ht
    change t < l.drained.length + r.capacity at hlt
    change (r.put s content).peek t = Function.update l.content s content t
    by_cases hst : s = t
    · subst hst
      rw [peek_put_self, Function.update_self]
    · rw [peek_put_of_ne r content hst (by omega) (by omega), Function.update_of_ne (Ne.symm hst)]
      exact h.slots t ht hlt

/-- The consumer finds under the next sequence what was stored there. -/
theorem peek_next (h : r.Books l) : r.peek l.drained.length = l.content l.drained.length := by
  have hpos := r.capacity_pos
  exact h.slots _ le_rfl (by omega)

theorem take (h : r.Books l) (htold : l.drained.length ≤ l.told)
    (hc : (r.put l.drained.length none).Counted) :
    (r.put l.drained.length none).Books
      (l.enter (.took l.drained.length (r.peek l.drained.length))) := by
  have hgating := h.gating_lt
  have hcursor := h.told
  have hclaimed := h.counted.claimed_le
  have hlength : (l.enter (.took l.drained.length (r.peek l.drained.length))).drained.length =
      l.drained.length + 1 := List.length_append
  refine { h with counted := hc, gating_lt := ?_, drained_le := ?_, drained := ?_, slots := ?_ }
  · rw [hlength]
    change r.gating < _
    omega
  · rw [hlength]
    change _ ≤ r.cursor + 1
    omega
  · rw [hlength, sequences_succ, List.map_append]
    change l.drained ++ [(_, r.peek l.drained.length)] = _
    rw [h.peek_next]
    exact congrArg (· ++ _) h.drained
  · rw [hlength]
    intro s hs hlt
    change s < (l.drained.length + 1 : Nat) + (r.capacity : Int) at hlt
    change (r.put l.drained.length none).peek s = l.content s
    by_cases hwrap : s = l.drained.length + r.capacity
    · -- the freed slot now stands for a sequence that has not been claimed
      have hfresh : l.content s = none := h.fresh s (by omega)
      have hcapacity : (r.put l.drained.length none).capacity = r.capacity := rfl
      rw [hfresh, hwrap, ← hcapacity, peek_add_capacity, peek_put_self]
    · rw [peek_put_of_ne r none (by omega) (by omega) (by omega)]
      exact h.slots s (by omega) (by omega)

end Books

theorem Step.books {r r' : Ring α} {notes : List (Note α)} {l : Ledger α} (step : Step r notes r')
    (h : r.Books l) (ho : l.OrderlyAll notes) : r'.Books (l.read notes) := by
  have hc := step.counted h.counted
  cases step with
  | tally metrics => exact { h with counted := hc }
  | glance => exact { h with counted := hc }
  | grant running free alone => exact h.grant hc
  | store content held => exact h.store content (h.counted.held_bounds held) hc
  | handIn held => exact h.of_keeps (r.publish_keeps _) hc
  | tell => exact { h with told := le_rfl }
  | take visible =>
    obtain ⟨rfl, htold⟩ := (Ledger.orderlyAll_singleton _ _).mp ho
    exact h.take htold hc
  | release later visible =>
    have hlt := (Ledger.orderlyAll_singleton _ _).mp ho
    exact { h with counted := hc, released := rfl, gating_lt := hlt }
  | attach => exact { h with counted := hc }
  | halt => exact { h with counted := hc }

theorem Path.books {r r' : Ring α} {notes : List (Note α)} {l : Ledger α} (path : Path r notes r')
    (h : r.Books l) (ho : l.OrderlyAll notes) : r'.Books (l.read notes) := by
  induction path generalizing l with
  | nil => exact h
  | cons step rest ih =>
    obtain ⟨hfirst, hrest⟩ := (l.orderlyAll_append _ _).mp ho
    rw [Ledger.read_append]
    exact ih (step.books h hfirst) hrest

end Ring
end MessageRing
