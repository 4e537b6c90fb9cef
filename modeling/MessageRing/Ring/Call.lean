import MessageRing.Ring.Producer
import MessageRing.Ring.Consumer

/-!
The public calls of a ring as data, and the states that they lead to.

`Ring.answer` carries out one call. A state is `Reachable` when some list of calls leads to it from
a new ring; the laws of rings speak of those states.
-/
namespace MessageRing

inductive Ring.Call (α : Type) where
  | push (item : α)
  | pushEmpty
  | claim
  | claimBlocking
  /-- Looks at the slot of a claim. -/
  | look (sequence : Int)
  /-- Replaces what the slot of a claim holds. -/
  | set (sequence : Int) (content : Option α)
  | publish (sequence : Int)
  | write (sequence : Int) (item : α)
  | abandon (sequence : Int)
  | consumer
  | next
  | waitFor (sequence : Int)
  | drain (next available : Int) (limit : Nat)
  | release (sequence : Int)
  | halt
  | status
  deriving DecidableEq, Repr

inductive Ring.Answer (α : Type) where
  | ok
  | sequence (n : Int)
  /-- A sequence was claimed and abandoned at once. -/
  | empty (n : Int)
  | claimed (n : Int) (content : Option α)
  | content (content : Option α)
  | published (n : Int) (outcome : Publication)
  | abandoned
  | drained (entries : List (Int × Option α)) (before after : Nat)
  | next (n : Int) (capacity : Nat)
  /-- Nothing more will come for the consumer. -/
  | halted
  | refused (error : RingError)
  | broken (violation : Violation)
  | waits
  /-- The claim is not one that a producer holds. -/
  | noClaim
  /-- The consumer handle has not been taken. -/
  | noConsumer
  deriving DecidableEq, Repr

namespace Ring
variable {α : Type}

def reply {ρ : Type} (outcome : Response ρ × Ring α) (ok : ρ → Answer α) : Answer α × Ring α :=
  match outcome with
  | (.done value, r) => (ok value, r)
  | (.refused e, r) => (.refused e, r)
  | (.broken v, r) => (.broken v, r)
  | (.waits, r) => (.waits, r)

/-- Carries out a call on a claim that a producer holds. -/
def onClaim (r : Ring α) (sequence : Int) (call : Unit → Answer α × Ring α) : Answer α × Ring α :=
  if sequence ∈ r.held then call () else (.noClaim, r)

/-- Carries out a call of the consumer. -/
def onConsumer (r : Ring α) (call : Unit → Answer α × Ring α) : Answer α × Ring α :=
  if r.consumed then call () else (.noConsumer, r)

/-- Drains and reports how many entries were to come before and after. -/
def drain (r : Ring α) (next available : Int) (limit : Nat) : Answer α × Ring α :=
  let outcome := do
    let d ← r.drainUpTo next available
    let before ← d.sizeHint
    let (entries, d, r) := drainMany limit r d
    let after ← d.sizeHint
    return (Answer.drained entries before after, r)
  match outcome with
  | .ok answer => answer
  | .error v => (.broken v, r)

def answer (r : Ring α) : Call α → Answer α × Ring α
  | .push item => reply (r.push item) .sequence
  | .pushEmpty => reply r.pushEmpty .empty
  | .claim => reply r.tryClaim fun n => .claimed n (r.peek n)
  | .claimBlocking => reply r.claimBlocking fun n => .claimed n (r.peek n)
  | .look s => r.onClaim s fun _ => (.content (r.peek s), r)
  | .set s content => r.onClaim s fun _ => (.content content, r.put s content)
  | .publish s => r.onClaim s fun _ => reply (r.publish s) (.published s)
  | .write s item => r.onClaim s fun _ => reply (r.write s item) (.published s)
  | .abandon s => r.onClaim s fun _ => reply (r.abandon s) fun
      | .visible => .abandoned
      | .deferred => .published s .deferred
  | .consumer =>
    match r.takeConsumer with
    | (.ok (), r) => (.ok, r)
    | (.error e, r) => (.refused e, r)
  | .next => r.onConsumer fun _ => (.next r.nextSequence r.capacity, r)
  | .waitFor n => r.onConsumer fun _ =>
    match r.waitFor n with
    | .upTo s => (.sequence s, r)
    | .halted => (.halted, r)
    | .waits => (.waits, r)
  | .drain next available limit => r.onConsumer fun _ => r.drain next available limit
  | .release n => r.onConsumer fun _ =>
    match r.release n with
    | .ok r => (.ok, r)
    | .error v => (.broken v, r)
  | .halt => (.ok, r.halt)
  | .status => (.ok, r)

def after (r : Ring α) (calls : List (Call α)) : Ring α :=
  calls.foldl (fun r call => (r.answer call).2) r

def answers (r : Ring α) : List (Call α) → List (Answer α)
  | [] => []
  | call :: calls => (r.answer call).1 :: (r.answer call).2.answers calls

/-- The states that calls lead to from a new ring. -/
def Reachable (config : Config) (r : Ring α) : Prop :=
  ∃ new calls, Ring.make config {} = .ok new ∧ r = new.after calls

/-- Gives up every claim still held, lowest first. -/
def abandonAll (r : Ring α) : Ring α :=
  r.held.foldl (fun r s => (r.abandon s).2) r

end Ring
end MessageRing
