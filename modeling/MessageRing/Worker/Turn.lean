import MessageRing.Act
import MessageRing.Ring.Producer

/-!
Turns: what an event handler does in one call, move by move.

A handler is outside code. It acts on the world, and it may use the very ring that its worker
drains: push to it, halt it and look at its counters. Other parties can act between two moves.
-/
namespace MessageRing

inductive Outcome where
  | ok
  | failed (error : HandlerError)
  | panicked (p : Panic)

namespace Outcome

/-- The failure that a call is reported as, if it failed; a panic is a failure too. -/
def failure? : Outcome → Option HandlerError
  | ok => none
  | failed e => some e
  | panicked p => some (.ofPanic p)

/-- The failure of a call that can only panic. -/
def panic? : Outcome → Option HandlerError
  | panicked p => some (.ofPanic p)
  | _ => none

end Outcome

/-- What a handler sees of the ring. -/
structure Ring.Status where
  cursor : Int
  length : Nat
  remaining : Nat
  halted : Bool
  /-- A push would have to wait for a free slot. -/
  pushWaits : Bool
  deriving DecidableEq, Repr

def Ring.status {α : Type} (r : Ring α) : Ring.Status :=
  { cursor := r.cursor
    length := r.length
    remaining := r.remaining
    halted := r.halted
    pushWaits := r.config.whenFull = .block ∧ r.remaining = 0 ∧ ¬ r.halted }

inductive Turn (α ω : Type) where
  | finish (outcome : Outcome)
  /-- Reads and changes the world in one go; `none` if that has to wait. -/
  | access (run : ω → Option (Turn α ω × ω))
  /-- Pushes an item, or claims a sequence and leaves its slot empty, and goes on however that went,
  also when it broke off. -/
  | attempt (item : Option α) (next : Except (Fault RingError) Int → Turn α ω)
  | halt (next : Turn α ω)
  | look (next : Ring.Status → Turn α ω)

namespace Turn
variable {α ω η σ : Type}

/-- Pushes, with nothing to catch the panic when a promise is broken: that ends the turn. -/
def push (item : Option α) (next : Except RingError Int → Turn α ω) : Turn α ω :=
  .attempt item fun
    | .ok sequence => next (.ok sequence)
    | .error (.refused e) => next (.error e)
    | .error (.broken v) => .finish (.panicked (.text v.message))

/-- Goes on after a push; one that waits has done nothing. -/
def afterPush (outcome : Response Int × Ring α) (next : Except (Fault RingError) Int → Turn α ω) :
    Option (Turn α ω × Ring α) :=
  match outcome with
  | (.done sequence, ring) => some (next (.ok sequence), ring)
  | (.refused e, ring) => some (next (.error (.refused e)), ring)
  | (.broken v, ring) => some (next (.error (.broken v)), ring)
  | (.waits, _) => none

/-- One move; `none` if it has to wait or the turn is over. -/
def move (ring : Ring α) (world : ω) : Turn α ω → Option (Turn α ω × Ring α × ω)
  | .finish _ => none
  | .access run => (run world).map fun (turn, world) => (turn, ring, world)
  | .attempt (some item) next =>
    (afterPush (ring.push item) next).map fun (turn, ring) => (turn, ring, world)
  | .attempt none next =>
    (afterPush ring.pushEmpty next).map fun (turn, ring) => (turn, ring, world)
  | .halt next => some (next, ring.halt, world)
  | .look next => some (next ring.status, ring, world)

/-- How an act ends, as the outcome of a call. -/
def outcomeOf : Except Panic (Except HandlerError Unit) → Outcome
  | .ok (.ok ()) => .ok
  | .ok (.error e) => .failed e
  | .error p => .panicked p

/-- A turn that consists of one act; the handler's memory stays as it is. -/
def ofAct (act : Act σ (Except HandlerError Unit)) : Turn α (η × Scene σ) :=
  .access fun (memory, scene) =>
    (act scene).map fun (result, scene) => (.finish (outcomeOf result), memory, scene)

end Turn

/-- What a worker does for each item, as turns in a world that has the handler's own memory
beside the scene. -/
structure EventHandler (α η σ : Type) where
  /-- Takes an item, its sequence, and whether it is the last one available for now. -/
  onEvent : α → Int → Bool → Turn α (η × Scene σ)
  /-- Called when the last sequence available for now is empty. -/
  onEndOfBatch : Int → Turn α (η × Scene σ) := fun _ => .finish .ok
  /-- Called before the first item. -/
  onStart : Turn α (η × Scene σ) := .finish .ok
  /-- Called after the last item. -/
  onShutdown : Turn α (η × Scene σ) := .finish .ok

/-- Takes the failure of a handler's call and the sequence it was called for. -/
abbrev ExceptionHandler (σ : Type) := HandlerError → Int → Act σ Unit

def ExceptionHandler.logging {σ : Type} (worker : String) : ExceptionHandler σ :=
  fun error sequence => Act.report (.handlerFailed worker sequence error)

end MessageRing
