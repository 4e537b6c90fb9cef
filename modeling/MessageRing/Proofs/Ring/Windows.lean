import MessageRing.Proofs.Ring.Fifo
import MessageRing.Proofs.Ring.Stretches

/-!
Consumers that work window by window.

Such a consumer waits, drains everything up to the sequence that it is told of, and gives back just
that. This is said of the calls that it makes; that the entries then come in order, each once, and
that none is missing, follows from what a drain does.
-/
namespace MessageRing
namespace Ring
variable {α : Type}

/-- Where a consumer is in its work on a window. -/
inductive Stage where
  /-- Between two windows. -/
  | idle
  /-- It was told that it can drain up to this sequence. -/
  | told (available : Int)
  /-- It has drained up to this sequence. -/
  | drained (available : Int)
  deriving DecidableEq, Repr

namespace Stage

/-- All that was drained has been given back. -/
def even : Stage → Bool
  | .idle | .told _ => true
  | .drained _ => false

/-- The consumer waits, for whatever sequence, unless it has to give something back; it drains all
that it was last told of, and gives back what it has drained. Others may call what they like. -/
def Permits (stage : Stage) (r : Ring α) : Call α → Prop
  | .waitFor _ => stage.even = true
  | .drain next available limit =>
    stage = .told available ∧ next = r.nextSequence ∧ available < next + limit
  | .release s => stage = .drained s
  | _ => True

instance (stage : Stage) (r : Ring α) : (call : Call α) → Decidable (stage.Permits r call)
  | .waitFor _ => inferInstanceAs (Decidable (stage.even = true))
  | .drain next available limit =>
    inferInstanceAs (Decidable
      (stage = .told available ∧ next = r.nextSequence ∧ available < next + (limit : Int)))
  | .release s => inferInstanceAs (Decidable (stage = .drained s))
  | .push _ | .pushEmpty | .claim | .claimBlocking | .look _ | .set _ _ | .publish _ | .write _ _
  | .abandon _ | .consumer | .next | .halt | .status => .isTrue trivial

/-- Where the consumer is after a call, by its answer. -/
def next (stage : Stage) : Call α → Answer α → Stage
  | .waitFor _, .sequence available => .told available
  | .drain _ available _, .drained _ _ _ => .drained available
  | .release _, .ok => .idle
  | _, _ => stage

/-- The last sequence that the consumer has taken, by the last one that it has given back. -/
def through (stage : Stage) (released : Int) : Int :=
  match stage with
  | .drained available => available
  | .idle | .told _ => released

end Stage

/-- All calls of the consumer are permitted where it is when it makes them. -/
def Diligent (r : Ring α) (stage : Stage) : List (Call α) → Prop
  | [] => True
  | call :: calls =>
    stage.Permits r call ∧ (r.answer call).2.Diligent (stage.next call (r.answer call).1) calls

instance decidableDiligent (r : Ring α) (stage : Stage) :
    (calls : List (Call α)) → Decidable (r.Diligent stage calls)
  | [] => .isTrue trivial
  | call :: calls =>
    have := (r.answer call).2.decidableDiligent (stage.next call (r.answer call).1) calls
    inferInstanceAs (Decidable (_ ∧ _))

/-- Where the consumer is after some calls. -/
def stageAfter (r : Ring α) (stage : Stage) : List (Call α) → Stage
  | [] => stage
  | call :: calls => (r.answer call).2.stageAfter (stage.next call (r.answer call).1) calls

end Ring

namespace Ledger
variable {α : Type}

theorem read_took (l : Ledger α) (entries : List (Int × Option α)) :
    l.read (entries.map fun entry => .took entry.1 entry.2) =
      { l with drained := l.drained ++ entries } := by
  induction entries generalizing l with
  | nil => simp
  | cons entry entries ih =>
    rw [List.map_cons, read_cons, ih]
    simp [enter]

/-- A drain that begins where the consumer stands, and stays within what it was told of, takes one
sequence after the other. -/
theorem orderlyAll_drainMany (limit : Nat) (r : Ring α) {l : Ledger α} {d : Drain}
    (next : d.next = l.drained.length) (told : d.available ≤ l.told) :
    l.OrderlyAll ((Ring.drainMany limit r d).1.map fun entry => .took entry.1 entry.2) := by
  induction limit generalizing r l d with
  | zero => trivial
  | succ limit ih =>
    by_cases hmore : d.next ≤ d.available
    · rw [Ring.drainMany_of_le limit r hmore]
      refine ⟨⟨next, hmore.trans told⟩, ih (r.put d.next none) ?_ told⟩
      simp [enter, Drain.skip, next]
    · rw [Ring.drainMany_of_lt _ r (not_le.mp hmore)]
      trivial

end Ledger

namespace Ring
variable {α : Type} {r : Ring α} {l : Ledger α} {stage : Stage}

/-- The books show a consumer at this stage: it has taken all up to the end of a window. -/
structure Stage.Shown (stage : Stage) (r : Ring α) (l : Ledger α) : Prop where
  books : r.Books l
  taken : (l.drained.length : Int) = stage.through r.gating + 1
  told : ∀ available, stage = .told available → r.gating ≤ available ∧ available ≤ l.told
  attached : stage ≠ .idle → r.consumed = true

namespace Stage.Shown

theorem make {config : Config} {metrics : Metrics} {new : Ring α}
    (made : Ring.make config metrics = .ok new) : Stage.idle.Shown new {} := by
  have hbooks := make_books made
  have hreleased : -1 = new.gating := hbooks.released
  refine ⟨hbooks, ?_, ?_, ?_⟩
  · change (0 : Int) = new.gating + 1
    omega
  · intro available h
    cases h
  · intro h
    cases h rfl

/-- What others do leaves the consumer where it is. -/
theorem other (h : stage.Shown r l) {call : Call α} (other : call.consumes = false) :
    l.OrderlyAll (notes (call, (r.answer call).1)) ∧
      stage.Shown (r.answer call).2 (l.read (notes (call, (r.answer call).1))) := by
  have hpath := answer_path h.books.counted call
  obtain ⟨horderly, hdrained, htold, hreleased⟩ := l.read_produced (notes_produced other _)
  have hbooks := hpath.books h.books horderly
  have hgating : (r.answer call).2.gating = r.gating := by
    rw [← hbooks.released, hreleased, h.books.released]
  refine ⟨horderly, hbooks, ?_, ?_, fun hstage => hpath.consumed (h.attached hstage)⟩
  · rw [hdrained, hgating]
    exact h.taken
  · rw [hgating, htold]
    exact h.told

theorem waitFor (h : stage.Shown r l) (even : stage.even = true) (required : Int) :
    let call : Call α := .waitFor required
    l.OrderlyAll (notes (call, (r.answer call).1)) ∧
      (stage.next call (r.answer call).1).Shown (r.answer call).2
        (l.read (notes (call, (r.answer call).1))) := by
  intro call
  by_cases hconsumed : r.consumed = true
  · cases hwait : r.waitFor required with
    | halted | waits =>
      simp only [call, answer, onConsumer, hconsumed, hwait, if_true]
      exact ⟨trivial, h⟩
    | upTo available =>
      obtain ⟨rfl, -⟩ := waitFor_upTo hwait
      have htaken : stage.through r.gating = r.gating := by
        cases stage with
        | idle | told _ => rfl
        | drained _ => cases even
      simp only [call, answer, onConsumer, hconsumed, hwait, if_true]
      have hbooks : r.Books (l.enter (.told r.cursor)) :=
        (Step.tell r).books h.books ⟨trivial, trivial⟩
      refine ⟨⟨trivial, trivial⟩, hbooks, h.taken.trans (congrArg (· + 1) htaken), ?_,
        fun _ => hconsumed⟩
      intro available he
      cases he
      exact ⟨h.books.counted.gating_le, le_rfl⟩
  · simp only [call, answer, onConsumer, hconsumed, Bool.false_eq_true, if_false]
    exact ⟨trivial, h⟩

/-- A drain of all that the consumer was told of hands out what was stored there, entry by entry. -/
theorem drained_eq {available : Int} (h : (Stage.told available).Shown r l) {limit : Nat}
    (enough : available < r.nextSequence + limit) :
    (drainMany limit r ⟨r.nextSequence, available⟩).1 =
      (Int.range r.nextSequence (available + 1)).map fun s => (s, l.content s) := by
  obtain ⟨hlater, htold⟩ := h.told available rfl
  have hgating : (l.drained.length : Int) = r.gating + 1 := h.taken
  have hvisible := htold.trans h.books.told
  have hcursor := h.books.counted.cursor_le
  have hclaimed := h.books.counted.claimed_le
  rw [drainMany_whole r enough (by simp only [nextSequence]; omega)]
  apply List.map_congr_left
  intro s hs
  obtain ⟨hfirst, hlast⟩ := Drain.mem_sequences.mp hs
  change r.gating + 1 ≤ s at hfirst
  change s ≤ available at hlast
  rw [h.books.slots s (by omega) (by omega)]

theorem drain {available : Int} (h : (Stage.told available).Shown r l) {limit : Nat}
    (enough : available < r.nextSequence + limit) :
    let call : Call α := .drain r.nextSequence available limit
    l.OrderlyAll (notes (call, (r.answer call).1)) ∧
      ((Stage.told available).next call (r.answer call).1).Shown (r.answer call).2
        (l.read (notes (call, (r.answer call).1))) := by
  intro call
  have hconsumed := h.attached (by simp)
  obtain ⟨hlater, htold⟩ := h.told available rfl
  have hgating : (l.drained.length : Int) = r.gating + 1 := h.taken
  have hpath := answer_path h.books.counted call
  simp only [call, answer, onConsumer, hconsumed, if_true] at hpath ⊢
  rcases r.drain_cases r.nextSequence available limit with ⟨v, he⟩ | ⟨_, before, after, he⟩
  · rw [he]
    exact ⟨trivial, h⟩
  · rw [he] at hpath ⊢
    have horderly : l.OrderlyAll ((drainMany limit r ⟨r.nextSequence, available⟩).1.map
        fun entry => .took entry.1 entry.2) :=
      Ledger.orderlyAll_drainMany limit r hgating.symm htold
    refine ⟨horderly, hpath.books h.books horderly, ?_, ?_, fun _ => hpath.consumed hconsumed⟩
    · change ((l.read (List.map _ _)).drained.length : Int) = available + 1
      rw [Ledger.read_took, h.drained_eq enough]
      simp only [List.length_append, List.length_map, length_range, nextSequence]
      omega
    · intro available he
      cases he

/-- What has been drained can be given back. -/
theorem release_eq {available : Int} (h : (Stage.drained available).Shown r l) :
    r.answer (.release available) = (.ok, { r with gating := available }) := by
  have hconsumed := h.attached (by simp)
  have htaken : (l.drained.length : Int) = available + 1 := h.taken
  have hgating := h.books.gating_lt
  have hvisible := h.books.drained_le
  have hrelease : r.release available = .ok { r with gating := available } :=
    release_of_le (by omega) (by omega)
  simp only [Ring.answer, onConsumer, if_pos hconsumed, hrelease]

theorem release {available : Int} (h : (Stage.drained available).Shown r l) :
    let call : Call α := .release available
    l.OrderlyAll (notes (call, (r.answer call).1)) ∧
      ((Stage.drained available).next call (r.answer call).1).Shown (r.answer call).2
        (l.read (notes (call, (r.answer call).1))) := by
  intro call
  have htaken : (l.drained.length : Int) = available + 1 := h.taken
  have hpath := answer_path h.books.counted call
  simp only [call, h.release_eq] at hpath ⊢
  have horderly : l.OrderlyAll [.released available] := by
    refine ⟨?_, trivial⟩
    change available < l.drained.length
    omega
  refine ⟨horderly, hpath.books h.books horderly, htaken, ?_, ?_⟩
  · intro available he
    cases he
  · intro he
    cases he rfl

theorem answer (h : stage.Shown r l) {call : Call α} (permitted : stage.Permits r call) :
    l.OrderlyAll (notes (call, (r.answer call).1)) ∧
      (stage.next call (r.answer call).1).Shown (r.answer call).2
        (l.read (notes (call, (r.answer call).1))) := by
  cases call with
  | waitFor required =>
    exact h.waitFor permitted required
  | drain next available limit =>
    obtain ⟨rfl, rfl, henough⟩ := permitted
    exact h.drain henough
  | release s =>
    cases permitted
    exact h.release
  | _ => exact h.other rfl

/-- The entries that a diligent consumer takes come in order, and it is where its calls say. -/
theorem after (h : stage.Shown r l) {calls : List (Call α)} (diligent : r.Diligent stage calls) :
    l.OrderlyAll (r.history calls) ∧
      (r.stageAfter stage calls).Shown (r.after calls) (l.read (r.history calls)) := by
  induction calls generalizing r l stage with
  | nil => exact ⟨trivial, h⟩
  | cons call calls ih =>
    obtain ⟨hfirst, hnext⟩ := h.answer diligent.1
    obtain ⟨hrest, hafter⟩ := ih hnext diligent.2
    have hhistory : r.history (call :: calls) =
        notes (call, (r.answer call).1) ++ (r.answer call).2.history calls := rfl
    rw [hhistory, Ledger.read_append]
    exact ⟨(l.orderlyAll_append _ _).mpr ⟨hfirst, hrest⟩, hafter⟩

end Stage.Shown

/-- The consumer's calls alone see to it that what it takes comes in order. -/
theorem orderly_of_diligent {config : Config} {metrics : Metrics} {new : Ring α}
    (made : Ring.make config metrics = .ok new) {calls : List (Call α)}
    (diligent : new.Diligent .idle calls) : Ledger.OrderlyAll {} (new.history calls) :=
  ((Stage.Shown.make made).after diligent).1

end Ring
end MessageRing
