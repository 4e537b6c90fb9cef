import MessageRing.Progress
import MessageRing.Ring.Consumer
import MessageRing.Worker.Turn

/-!
Workers: each drains one ring, in order, and hands every item to its handler.

A worker takes whatever is available as one window, calls the handler for each item, and gives the
whole window back at once. A call that fails is reported and the worker goes on with the next
sequence; only a report that panics makes it die. It stops when the ring is halted and every
sequence that was claimed has been handled.
-/
namespace MessageRing

inductive Phase (α η σ : Type) where
  | created
  | starting (turn : Turn α (η × Scene σ))
  /-- Between two windows. -/
  | waiting
  /-- In a window, between two entries. -/
  | draining (window : Drain) (tally : Tally)
  /-- In a call of the handler for a sequence. -/
  | handling (turn : Turn α (η × Scene σ)) (sequence : Int) (window : Drain) (tally : Tally)
  /-- About to report a call that failed. -/
  | reporting (error : HandlerError) (sequence : Int) (window : Drain) (tally : Tally)
  | stopping (turn : Turn α (η × Scene σ))
  | finished
  | died (p : Panic)

namespace Phase
variable {α η σ : Type}

/-- The worker will never do anything again. -/
def ended : Phase α η σ → Bool
  | finished | died _ => true
  | _ => false

end Phase

structure Worker (α η σ : Type) where
  name : String
  handler : EventHandler α η σ
  exceptions : ExceptionHandler σ
  /-- What the handler keeps to itself. -/
  memory : η
  /-- The first sequence of the next window. -/
  next : Int
  /-- Items handed to the handler in the windows given back. -/
  handled : Nat
  phase : Phase α η σ

/-- A ring and the worker that drains it. -/
structure Station (α η σ : Type) where
  ring : Ring α
  worker : Worker α η σ

namespace Station
variable {α η σ : Type}

/-- A worker that has not begun, at a ring whose consumer it is. -/
def make (ring : Ring α) (name : String) (handler : EventHandler α η σ) (memory : η)
    (exceptions : ExceptionHandler σ) : Station α η σ :=
  { ring
    worker :=
      { name, handler, exceptions, memory, next := ring.nextSequence, handled := 0,
        phase := .created } }

def setPhase (s : Station α η σ) (phase : Phase α η σ) : Station α η σ :=
  { s with worker := { s.worker with phase } }

def move (s : Station α η σ) (scene : Scene σ) (turn : Turn α (η × Scene σ))
    (resume : Turn α (η × Scene σ) → Phase α η σ) : Option (Station α η σ × Scene σ) :=
  (turn.move s.ring (s.worker.memory, scene)).map fun (turn, ring, memory, scene) =>
    ({ ring, worker := { s.worker with memory, phase := resume turn } }, scene)

/-- Enters the next window, or stops when there will be none. -/
def await (s : Station α η σ) : Option (Station α η σ) :=
  match s.ring.waitFor s.worker.next with
  | .waits => none
  | .halted => some (s.setPhase (.stopping s.worker.handler.onShutdown))
  | .upTo available =>
    match s.ring.drainUpTo s.worker.next available with
    | .ok window => some (s.setPhase (.draining window {}))
    | .error v => some (s.setPhase (.died (.text v.message)))

/-- Takes the next entry of the window; after the last one gives the window back. -/
def drain (s : Station α η σ) (window : Drain) (tally : Tally) : Station α η σ :=
  match s.ring.drainNext window with
  | some ((sequence, some item), window, ring) =>
    let turn := s.worker.handler.onEvent item sequence (sequence = window.available)
    { s with ring }.setPhase
      (.handling turn sequence window { tally with consumed := tally.consumed + 1 })
  | some ((sequence, none), window, ring) =>
    if sequence = window.available then
      { s with ring }.setPhase
        (.handling (s.worker.handler.onEndOfBatch sequence) sequence window tally)
    else { s with ring }.setPhase (.draining window tally)
  | none =>
    match s.ring.release window.available with
    | .error v => s.setPhase (.died (.text v.message))
    | .ok ring =>
      { ring := ring.count (·.addWindow tally)
        worker :=
          { s.worker with
            next := window.available + 1
            handled := s.worker.handled + tally.consumed
            phase := .waiting } }

/-- One step of the worker; `none` if it has to wait or will never do anything again. -/
def step (s : Station α η σ) (scene : Scene σ) : Option (Station α η σ × Scene σ) :=
  match s.worker.phase with
  | .created =>
    some (s.setPhase (.starting s.worker.handler.onStart),
      scene.report (.workerStarted s.worker.name))
  | .starting (.finish outcome) =>
    some (s.setPhase .waiting, match outcome.panic? with
      | some e => scene.report (.startPanicked s.worker.name e)
      | none => scene)
  | .starting turn => s.move scene turn .starting
  | .waiting => s.await.map (·, scene)
  | .draining window tally => some (s.drain window tally, scene)
  | .handling (.finish outcome) sequence window tally =>
    some (s.setPhase (match outcome.failure? with
      | some e => .reporting e sequence window tally
      | none => .draining window tally), scene)
  | .handling turn sequence window tally =>
    s.move scene turn (.handling · sequence window tally)
  | .reporting error sequence window tally =>
    (s.worker.exceptions error sequence scene).map fun (result, scene) =>
      (s.setPhase (match result with
        | .ok () => .draining window { tally with failures := tally.failures + 1 }
        | .error p => .died p), scene)
  | .stopping (.finish outcome) =>
    let scene := match outcome.panic? with
      | some e => scene.report (.shutdownPanicked s.worker.name e)
      | none => scene
    some (s.setPhase .finished, scene.report (.workerStopped s.worker.name s.worker.handled))
  | .stopping turn => s.move scene turn .stopping
  | .finished | .died _ => none

theorem step_of_ended {s : Station α η σ} (scene : Scene σ) (h : s.worker.phase.ended = true) :
    s.step scene = none := by
  unfold step
  cases e : s.worker.phase <;> simp_all [Phase.ended]

/-- Works until there is nothing to do, for at most so many steps. -/
def work (limit : Nat) (s : Station α η σ) (scene : Scene σ) : Station α η σ × Scene σ :=
  advance (fun (s, scene) => s.step scene) limit (s, scene)

end Station
end MessageRing
