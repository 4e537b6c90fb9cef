import MessageRing.Act
import MessageRing.Message.Basic

/-!
Dispatchers: they hand each message to one of several subscribers.

A dispatch has two parts. It begins by picking the candidates among the subscribers of that moment
and moving the rotation on; then it tries the candidates in turn, whatever happens to the
subscriptions meanwhile.
-/
namespace MessageRing

/-- Which subscriber a dispatch tries first. -/
inductive Balancing where
  /-- The next one at every dispatch. -/
  | roundRobin
  /-- Always the one who subscribed first. -/
  | none
  deriving DecidableEq, Repr, Inhabited

structure Dispatcher (ι : Type) where
  /-- In the order of subscription. -/
  subscribers : List ι
  /-- Counts the dispatches that found subscribers, in 64 bits. -/
  rotation : UInt64
  /-- A dispatch goes on to the next subscriber when one fails. -/
  failover : Bool
  /-- Most subscribers. -/
  max : Nat
  balancing : Balancing
  deriving DecidableEq, Repr

/-- How a subscriber takes a message. -/
abbrev Delivery (ι π σ : Type) := ι → Message π → Act σ (Except Cause Unit)

namespace Dispatcher
variable {ι π σ : Type}

def make (failover : Bool) (max : Nat) (balancing : Balancing) : Dispatcher ι :=
  { subscribers := [], rotation := 0, failover, max, balancing }

section Subscriptions
variable [DecidableEq ι]

/-- `false` if the subscriber was there already. -/
def subscribe (d : Dispatcher ι) (i : ι) : Except MessagingError Bool × Dispatcher ι :=
  if i ∈ d.subscribers then (.ok false, d)
  else if d.max ≤ d.subscribers.length then (.error (.tooManySubscribers d.max), d)
  else (.ok true, { d with subscribers := d.subscribers ++ [i] })

/-- Whether the subscriber was there. -/
def unsubscribe (d : Dispatcher ι) (i : ι) : Bool × Dispatcher ι :=
  if i ∈ d.subscribers then (true, { d with subscribers := d.subscribers.filter (· ≠ i) })
  else (false, d)

end Subscriptions

/-- The place of the subscriber that the next dispatch tries first. -/
def start (d : Dispatcher ι) : Nat :=
  match d.balancing with
  | .roundRobin => d.rotation.toNat % d.subscribers.length
  | .none => 0

/-- The subscribers from `start` on, and around. -/
def rotated (d : Dispatcher ι) : List ι :=
  d.subscribers.drop d.start ++ d.subscribers.take d.start

/-- The subscribers that the next dispatch may try, in order. -/
def candidates (d : Dispatcher ι) : List ι := if d.failover then d.rotated else d.rotated.take 1

/-- Begins a dispatch: its candidates, and the rotation moved on. -/
def begin (d : Dispatcher ι) : List ι × Dispatcher ι :=
  match d.balancing with
  | .none => (d.candidates, d)
  | .roundRobin =>
    (d.candidates, if d.subscribers.isEmpty then d else { d with rotation := d.rotation + 1 })

/-- Calls a subscriber; a panic is a failure too. -/
def attempt (call : Delivery ι π σ) (message : Message π) (i : ι) : Act σ (Except Cause Unit) := do
  match ← (call i message).guarded with
  | .ok outcome => return outcome
  | .error p => return .error (.handler (.ofPanic p))

/-- Tries the subscriber and then the others, until one takes the message. -/
def tryInTurn (call : Delivery ι π σ) (message : Message π) :
    Nat → ι → List ι → Act σ (Except MessagingError Unit)
  | attempts, i, rest => do
    match ← attempt call message i with
    | .ok () => return .ok ()
    | .error failure =>
      match rest with
      | [] => return .error (.deliveryFailed attempts failure)
      | next :: rest =>
        Act.report (.failingOver message.headers.id attempts failure)
        tryInTurn call message (attempts + 1) next rest
termination_by structural _ _ rest => rest

/-- Ends a dispatch: the candidates are tried in turn. -/
def deliver (call : Delivery ι π σ) (message : Message π) :
    List ι → Act σ (Except MessagingError Unit)
  | [] => return .error .noSubscribers
  | i :: rest => tryInTurn call message 1 i rest

theorem rotated_perm (d : Dispatcher ι) : d.rotated.Perm d.subscribers := by
  have := @List.perm_append_comm _ (d.subscribers.drop d.start) (d.subscribers.take d.start)
  rwa [List.take_append_drop] at this

end Dispatcher
end MessageRing
