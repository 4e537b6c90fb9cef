import MessageRing.Ring.Basic

/-!
The consumer's side of a ring: waiting for sequences, draining their slots and giving them back.
-/
namespace MessageRing

/-- What a consumer that waits for a sequence is told. -/
inductive Availability where
  /-- Everything up to this sequence can be drained. -/
  | upTo (sequence : Int)
  /-- The ring is halted and the sequence will never come. -/
  | halted
  | waits
  deriving DecidableEq, Repr

/-- What the consumer is told when it waits in vain. -/
def Availability.haltedMessage : String := "ring buffer halted"

/-- The sequences a consumer has yet to take in the drain it has begun. -/
structure Drain where
  next : Int
  available : Int
  deriving DecidableEq, Repr

namespace Drain

/-- How many entries are to come, in 64-bit arithmetic. -/
def sizeHint (d : Drain) : Except Violation Nat :=
  let difference := d.available - d.next
  if fits difference then
    if fits (difference + 1) then .ok (difference + 1).toNat else .error .addOverflow
  else .error .subtractOverflow
where
  fits (n : Int) : Bool := Int64.minValue.toInt ≤ n ∧ n ≤ Int64.maxValue.toInt

end Drain

namespace Ring
variable {α : Type}

/-- Gives out the consumer handle, once. -/
def takeConsumer (r : Ring α) : Except RingError Unit × Ring α :=
  if r.consumed then (.error .alreadyConsumed, r) else (.ok (), { r with consumed := true })

/-- The first sequence that has not been given back. -/
def nextSequence (r : Ring α) : Int := r.gating + 1

/-- The cursor, once it has reached the required sequence. After a halt a sequence that was
claimed before it is still waited for. -/
def waitFor (r : Ring α) (required : Int) : Availability :=
  if r.cursor ≥ required then .upTo r.cursor
  else if r.halted ∧ r.claimed < required then .halted
  else .waits

/-- Begins to drain the sequences from `next` to `available`. -/
def drainUpTo (r : Ring α) (next available : Int) : Except Violation Drain :=
  if available > r.cursor then .error (.beyondCursor available r.cursor)
  else .ok { next, available }

/-- Takes the next entry of a drain out of its slot. -/
def drainNext (r : Ring α) (d : Drain) : Option ((Int × Option α) × Drain × Ring α) :=
  if d.next > d.available then none
  else some ((d.next, r.peek d.next), { d with next := d.next + 1 }, r.put d.next none)

def drainMany : Nat → Ring α → Drain → List (Int × Option α) × Drain × Ring α
  | 0, r, d => ([], d, r)
  | limit + 1, r, d =>
    match r.drainNext d with
    | none => ([], d, r)
    | some (entry, d, r) =>
      let (entries, d, r) := drainMany limit r d
      (entry :: entries, d, r)

/-- Gives back every sequence up to this one. -/
def release (r : Ring α) (sequence : Int) : Except Violation (Ring α) :=
  if sequence < r.gating then .error (.gatingDecreased r.gating sequence)
  else if sequence > r.cursor then .error (.beyondCursor sequence r.cursor)
  else .ok { r with gating := sequence }

end Ring
end MessageRing
