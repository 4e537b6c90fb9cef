import MessageRing.Proofs.Ring.Counters

/-!
Small steps of a ring.

Every call of a ring is a path of steps, and its answer tells which: `notes` reads the steps off a
call and its answer alone. A property of rings has to be checked for each kind of step once and then
holds along every path.
-/
namespace MessageRing

/-- What an onlooker learns of one small change of a ring. -/
inductive Note (α : Type) where
  | gave (sequence : Int)
  /-- The content of a claim's slot was replaced. -/
  | stored (sequence : Int) (content : Option α)
  | handedIn (sequence : Int)
  /-- The consumer was told that everything up to a sequence is visible. -/
  | told (available : Int)
  | took (sequence : Int) (content : Option α)
  /-- The consumer gave back everything up to a sequence. -/
  | released (sequence : Int)
  | halted
  deriving DecidableEq, Repr

/-- Notes of what others than the consumer do. -/
def Note.produced {α : Type} : Note α → Bool
  | .gave _ | .stored _ _ | .handedIn _ | .halted => true
  | .told _ | .took _ _ | .released _ => false

def Note.gives {α : Type} : Note α → Bool
  | .gave _ => true
  | _ => false

/-- The item that was stored. -/
def Note.item? {α : Type} : Note α → Option α
  | .stored _ content => content
  | _ => none

namespace Ring
variable {α : Type}

/-- The changes that a call has made, as its answer tells them. -/
def notes : Call α × Answer α → List (Note α)
  | (.push item, .sequence s) => [.gave s, .stored s (some item), .handedIn s]
  | (.pushEmpty, .empty s) => [.gave s, .stored s none, .handedIn s]
  | (.claim, .claimed s _) | (.claimBlocking, .claimed s _) => [.gave s]
  | (.set s content, .content _) => [.stored s content]
  | (.publish s, .published _ _) => [.handedIn s]
  | (.write s item, .published _ _) => [.stored s (some item), .handedIn s]
  | (.abandon s, .abandoned) | (.abandon s, .published _ _) => [.stored s none, .handedIn s]
  | (.waitFor _, .sequence available) => [.told available]
  | (.drain _ _ _, .drained entries _ _) => entries.map fun entry => .took entry.1 entry.2
  | (.release s, .ok) => [.released s]
  | (.halt, .ok) => [.halted]
  | _ => []

def history (r : Ring α) (calls : List (Call α)) : List (Note α) :=
  (calls.zip (r.answers calls)).flatMap notes

/-- One small change and what can be noted of it. -/
inductive Step : Ring α → List (Note α) → Ring α → Prop
  | tally (r : Ring α) (metrics : Metrics) : Step r [] { r with metrics }
  | glance (r : Ring α) : Step r [] { r with cachedGating := r.gating }
  | grant (r : Ring α) (running : r.halted = false) (free : r.claimed < r.gating + r.capacity)
      (alone : r.config.producers = .single → r.held = []) :
      Step r [.gave (r.claimed + 1)] r.grant.2
  | store (r : Ring α) {s : Int} (content : Option α) (held : s ∈ r.held) :
      Step r [.stored s content] (r.put s content)
  | handIn (r : Ring α) {s : Int} (held : s ∈ r.held) : Step r [.handedIn s] (r.publish s).2
  | tell (r : Ring α) : Step r [.told r.cursor] r
  | take (r : Ring α) {s : Int} (visible : s ≤ r.cursor) :
      Step r [.took s (r.peek s)] (r.put s none)
  | release (r : Ring α) {s : Int} (later : r.gating ≤ s) (visible : s ≤ r.cursor) :
      Step r [.released s] { r with gating := s }
  | attach (r : Ring α) : Step r [] { r with consumed := true }
  | halt (r : Ring α) : Step r [.halted] r.halt

inductive Path : Ring α → List (Note α) → Ring α → Prop
  | nil (r : Ring α) : Path r [] r
  | cons {r r' r'' : Ring α} {notes notes' : List (Note α)} (step : Step r notes r')
      (rest : Path r' notes' r'') : Path r (notes ++ notes') r''

theorem Step.path {r r' : Ring α} {notes : List (Note α)} (h : Step r notes r') :
    Path r notes r' := by
  simpa using Path.cons h (.nil r')

theorem Path.trans {r r' r'' : Ring α} {notes notes' : List (Note α)} (h : Path r notes r')
    (h' : Path r' notes' r'') : Path r (notes ++ notes') r'' := by
  induction h with
  | nil r => exact h'
  | cons step rest ih =>
    rw [List.append_assoc]
    exact .cons step (ih h')

theorem Step.config_eq {r r' : Ring α} {notes : List (Note α)} (h : Step r notes r') :
    r'.config = r.config := by
  cases h with
  | handIn held => exact (r.publish_keeps _).config
  | _ => rfl

/-- A halted ring stays so, and nothing more is claimed. -/
theorem Step.halted {r r' : Ring α} {notes : List (Note α)} (h : Step r notes r')
    (halted : r.halted = true) : r'.halted = true ∧ r'.claimed = r.claimed := by
  cases h with
  | grant running free alone =>
    rw [halted] at running
    cases running
  | handIn held => exact ⟨(r.publish_keeps _).halted.trans halted, (r.publish_keeps _).claimed⟩
  | halt => exact ⟨rfl, rfl⟩
  | _ => exact ⟨halted, rfl⟩

theorem Step.consumed {r r' : Ring α} {notes : List (Note α)} (h : Step r notes r')
    (consumed : r.consumed = true) : r'.consumed = true := by
  cases h with
  | handIn held => exact (r.publish_keeps _).consumed.trans consumed
  | attach => rfl
  | _ => exact consumed

theorem Step.counters_le {r r' : Ring α} {notes : List (Note α)} (h : Step r notes r') :
    r.claimed ≤ r'.claimed ∧ r.cursor ≤ r'.cursor ∧ r.gating ≤ r'.gating := by
  cases h with
  | grant running free alone => exact ⟨by simp [Ring.grant], le_rfl, le_rfl⟩
  | handIn held =>
    have hk := r.publish_keeps
    exact ⟨(hk _).claimed.ge, (hk _).cursor_le, (hk _).gating.ge⟩
  | release later visible => exact ⟨le_rfl, le_rfl, later⟩
  | _ => exact ⟨le_rfl, le_rfl, le_rfl⟩

/-- A sequence is claimed when it is given out. -/
theorem Step.claimed_eq {r r' : Ring α} {notes : List (Note α)} (h : Step r notes r') :
    r'.claimed = r.claimed + notes.countP Note.gives := by
  cases h with
  | grant running free alone => rfl
  | handIn held => exact (r.publish_keeps _).claimed.trans (add_zero _).symm
  | _ => exact (add_zero _).symm

theorem grant_counted {r : Ring α} (h : r.Counted) (free : r.claimed < r.gating + r.capacity)
    (alone : r.config.producers = .single → r.held = []) : r.grant.2.Counted := by
  have hperm : r.grant.2.outstanding.Perm ((r.claimed + 1) :: r.outstanding) := by
    change (r.held ++ [r.claimed + 1] ++ r.deferred).Perm _
    rw [List.append_assoc]
    exact List.perm_middle
  have hnew : r.claimed + 1 ∉ r.outstanding := fun hm => by
    have := (h.mem_outstanding _).mp hm
    omega
  have hle := h.cursor_le
  refine ⟨⟨h.start, h.gating_le, ?_, ?_, h.cached_le, ?_, ?_, h.sorted, ?_⟩, h.gap⟩
  · change r.cursor ≤ r.claimed + 1
    omega
  · change r.claimed + 1 ≤ r.gating + r.capacity
    omega
  · intro s
    rw [hperm.mem_iff, List.mem_cons, h.mem_outstanding]
    change _ ↔ r.cursor < s ∧ s ≤ r.claimed + 1
    omega
  · exact hperm.nodup_iff.mpr (List.nodup_cons.mpr ⟨hnew, h.nodup⟩)
  · intro hp
    refine ⟨(h.single hp).1, ?_⟩
    change (r.held ++ [r.claimed + 1]).length ≤ 1
    simp [alone hp]

theorem Step.counted {r r' : Ring α} {notes : List (Note α)} (step : Step r notes r')
    (h : r.Counted) : r'.Counted := by
  cases step with
  | tally metrics => exact { h with }
  | glance => exact { h with cached_le := le_rfl }
  | grant running free alone => exact grant_counted h free alone
  | store content held => exact { h with }
  | handIn held => exact publish_counted h held
  | tell => exact h
  | take visible => exact { h with }
  | release later visible =>
    refine { h with start := h.start.trans later, gating_le := visible, claimed_le := ?_,
                    cached_le := h.cached_le.trans later }
    exact h.claimed_le.trans (by dsimp only [capacity]; omega)
  | attach => exact { h with }
  | halt => exact { h with }

theorem takeConsumer_eq (r : Ring α) : r.takeConsumer.2 = { r with consumed := true } := by
  unfold takeConsumer
  split_ifs with h
  · simp [← h]
  · rfl

theorem takeConsumer_counted {r : Ring α} (h : r.Counted) : r.takeConsumer.2.Counted := by
  rw [takeConsumer_eq]
  exact (Step.attach r).counted h

theorem Path.counted {r r' : Ring α} {notes : List (Note α)} (path : Path r notes r')
    (h : r.Counted) : r'.Counted := by
  induction path with
  | nil => exact h
  | cons step rest ih => exact ih (step.counted h)

theorem Path.counters_le {r r' : Ring α} {notes : List (Note α)} (h : Path r notes r') :
    r.claimed ≤ r'.claimed ∧ r.cursor ≤ r'.cursor ∧ r.gating ≤ r'.gating := by
  induction h with
  | nil => exact ⟨le_rfl, le_rfl, le_rfl⟩
  | cons step rest ih =>
    have hs := step.counters_le
    omega

theorem Path.claimed_eq {r r' : Ring α} {notes : List (Note α)} (h : Path r notes r') :
    r'.claimed = r.claimed + notes.countP Note.gives := by
  induction h with
  | nil => exact (add_zero _).symm
  | cons step rest ih =>
    rw [ih, step.claimed_eq, List.countP_append]
    push_cast
    exact add_assoc _ _ _

theorem Path.halted {r r' : Ring α} {notes : List (Note α)} (h : Path r notes r')
    (halted : r.halted = true) : r'.halted = true ∧ r'.claimed = r.claimed := by
  induction h with
  | nil => exact ⟨halted, rfl⟩
  | cons step rest ih =>
    obtain ⟨hstep, hclaimed⟩ := step.halted halted
    exact ⟨(ih hstep).1, (ih hstep).2.trans hclaimed⟩

theorem Path.consumed {r r' : Ring α} {notes : List (Note α)} (h : Path r notes r')
    (consumed : r.consumed = true) : r'.consumed = true := by
  induction h with
  | nil => exact consumed
  | cons step rest ih => exact ih (step.consumed consumed)

theorem Path.config_eq {r r' : Ring α} {notes : List (Note α)} (h : Path r notes r') :
    r'.config = r.config := by
  induction h with
  | nil => rfl
  | cons step rest ih => exact ih.trans step.config_eq

end Ring
end MessageRing
