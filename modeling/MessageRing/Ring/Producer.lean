import MessageRing.Ring.Basic

/-!
The producers' side of a ring: claiming a sequence, filling its slot and publishing it.

A claim is known by its sequence. Publication makes sequences visible in order: with several
producers a sequence handed in early is deferred until every lower one has been handed in.
-/
namespace MessageRing

/-- What handing in a claim comes to. -/
inductive Publication where
  | visible
  /-- A lower sequence has yet to be handed in. -/
  | deferred
  deriving DecidableEq, Repr

namespace Ring
variable {α : Type}

def grant (r : Ring α) : Response Int × Ring α :=
  let next := r.claimed + 1
  (.done next, { r with claimed := next, held := r.held ++ [next] })

/-- Claims for the only producer. Its copy of `gating` is renewed only when it says that the ring
is full. -/
def claimSingle (r : Ring α) : Response Int × Ring α :=
  let wrap := r.claimed + 1 - r.capacity
  if wrap > r.cachedGating ∧ wrap > r.gating then
    (.refused .insufficientCapacity, { r with cachedGating := r.gating })
  else
    let r := if wrap > r.cachedGating then { r with cachedGating := r.gating } else r
    if r.held ≠ [] then (.broken .secondClaim, r)
    else if r.claimed + 1 - r.gating > r.capacity then
      (.broken (.lapsConsumer (r.claimed + 1) r.gating r.capacity), r)
    else r.grant

def claimMulti (r : Ring α) : Response Int × Ring α :=
  if r.claimed + 1 - r.capacity > r.gating then (.refused .insufficientCapacity, r) else r.grant

/-- Claims the next sequence, or fails at once. -/
def tryClaim (r : Ring α) : Response Int × Ring α :=
  if r.halted then (.refused .notRunning, r)
  else match r.config.producers with
    | .single => r.claimSingle
    | .multi => r.claimMulti

/-- Claims the next sequence, waiting while the ring is full. -/
def claimBlocking (r : Ring α) : Response Int × Ring α :=
  match r.tryClaim with
  | (.refused .insufficientCapacity, _) => (.waits, r)
  | answer => answer

/-- Makes the sequence after the cursor visible. -/
def advance (r : Ring α) : Ring α :=
  { r with cursor := r.cursor + 1 }.count fun m => { m with published := m.published + 1 }

/-- Makes deferred sequences visible as long as the next one is among them. -/
def settle (r : Ring α) : Ring α :=
  go r.deferred r
where
  go : List Int → Ring α → Ring α
    | [], r => { r with deferred := [] }
    | s :: rest, r => if s = r.cursor + 1 then go rest r.advance else { r with deferred := s :: rest }

/-- Adds a sequence to the deferred ones, in its place. -/
def defer (r : Ring α) (sequence : Int) : Ring α :=
  { r with
    deferred := r.deferred.takeWhile (· < sequence) ++
      sequence :: r.deferred.dropWhile (· < sequence) }

/-- Hands in a claim with its slot as it is. -/
def publish (r : Ring α) (sequence : Int) : Response Publication × Ring α :=
  let inOrder := sequence = r.cursor + 1
  match r.config.producers with
  | .single =>
    if ¬ inOrder then (.broken (.outOfOrder sequence r.cursor), r)
    else if sequence < r.cursor then (.broken (.cursorDecreased r.cursor sequence), r)
    else (.done .visible, ({ r with held := r.held.erase sequence }).advance)
  | .multi =>
    let r := { r with held := r.held.erase sequence }
    if ¬ inOrder then (.done .deferred, r.defer sequence)
    else if sequence < r.cursor then (.broken (.cursorDecreased r.cursor sequence), r)
    else (.done .visible, r.advance.settle)

/-- Fills the slot of a claim and hands it in. -/
def write (r : Ring α) (sequence : Int) (item : α) : Response Publication × Ring α :=
  (r.put sequence (some item)).publish sequence

/-- Empties the slot of a claim and hands it in, so that later sequences are not held back. -/
def abandon (r : Ring α) (sequence : Int) : Response Publication × Ring α :=
  (r.put sequence none).publish sequence

/-- Some claim has not been made visible, so that a further one could not be either. -/
def unsettled (r : Ring α) : Bool := !(r.held.isEmpty && r.deferred.isEmpty)

/-- Claims as the policy says; a full ring that rejects counts the refusal. -/
def claimForPush (r : Ring α) : Response Int × Ring α :=
  match r.config.whenFull with
  | .block => r.claimBlocking
  | .reject =>
    match r.tryClaim with
    | (.refused .insufficientCapacity, r) =>
      (.refused .rejected, r.count fun m => { m with rejected := m.rejected + 1 })
    | answer => answer

/-- Completes a claim taken by `take` at once. With several producers that means waiting for
every lower sequence. -/
def complete (r : Ring α) (claim : Response Int × Ring α)
    (finish : Ring α → Int → Response Publication × Ring α) : Response Int × Ring α :=
  match claim with
  | (.done sequence, claimed) =>
    if r.config.producers = .multi ∧ r.unsettled then (.waits, r)
    else match finish claimed sequence with
      | (.done _, r) => (.done sequence, r)
      | (.refused e, r) => (.refused e, r)
      | (.broken v, r) => (.broken v, r)
      | (.waits, _) => (.waits, r)
  | refusal => refusal

/-- Claims as the policy says, writes the item and makes it visible. -/
def push (r : Ring α) (item : α) : Response Int × Ring α :=
  r.complete r.claimForPush (·.write · item)

/-- Claims at once and abandons the claim: a sequence with an empty slot. -/
def pushEmpty (r : Ring α) : Response Int × Ring α :=
  r.complete r.tryClaim (·.abandon ·)

end Ring
end MessageRing
