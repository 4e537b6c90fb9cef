import MessageRing.Worker.Basic

/-!
Engines: rings that are started and stopped together with a worker of their own.

Every start makes a new ring, and metrics count on from the rings before. A stop halts the ring and
waits for the worker to handle what was accepted. When the wait is too long the engine stays
stopping, with the same ring and worker, and a later stop or start takes the wait up again. When a
start breaks off the engine stays starting, with neither ring nor worker, until it is stopped.
-/
namespace MessageRing

/-- What of an engine's life can be seen from outside. -/
inductive Lifecycle where
  | stopped
  | starting
  | running
  | stopping
  deriving DecidableEq, Repr, Inhabited

def Lifecycle.name : Lifecycle → String
  | stopped => "Stopped"
  | starting => "Starting"
  | running => "Running"
  | stopping => "Stopping"

namespace Engine

/-- The state of an engine with the ring and the worker that belong to it. `Engine.Parts` has the
three apart, and in every run they stay in step. -/
inductive Status (α η σ : Type) where
  | stopped (metrics : Metrics)
  /-- A start broke off. -/
  | starting (metrics : Metrics)
  | running (station : Station α η σ)
  | stopping (station : Station α η σ)

end Engine

structure Engine (α η σ : Type) where
  /-- Also the name of its workers. -/
  name : String
  config : Config
  status : Engine.Status α η σ

namespace Engine
variable {α η σ : Type}

def make (name : String) (config : Config) : Except RingError (Engine α η σ) :=
  match config.validate with
  | .ok () => .ok { name, config, status := .stopped {} }
  | .error e => .error e

def state (e : Engine α η σ) : Lifecycle :=
  match e.status with
  | .stopped _ => .stopped
  | .starting _ => .starting
  | .running _ => .running
  | .stopping _ => .stopping

def isRunning (e : Engine α η σ) : Bool := e.state = .running

/-- The ring and the worker of an engine that is running or stopping. -/
def station? (e : Engine α η σ) : Option (Station α η σ) :=
  match e.status with
  | .stopped _ | .starting _ => none
  | .running station | .stopping station => some station

/-- The worker will do nothing any more: a stop need not wait. -/
def workerDone (e : Engine α η σ) : Bool := (e.station?.map (·.worker.phase.ended)).getD true

/-- Slots still free in the ring, if there is one. -/
def remaining? (e : Engine α η σ) : Option Nat := e.station?.map (·.ring.remaining)

def metrics (e : Engine α η σ) : Metrics :=
  match e.status with
  | .stopped metrics | .starting metrics => metrics
  | .running station | .stopping station => station.ring.metrics

def step (e : Engine α η σ) (scene : Scene σ) : Option (Engine α η σ × Scene σ) :=
  match e.status with
  | .stopped _ | .starting _ => none
  | .running station =>
    (station.step scene).map fun (station, scene) => ({ e with status := .running station }, scene)
  | .stopping station =>
    (station.step scene).map fun (station, scene) => ({ e with status := .stopping station }, scene)

/-- Lets the worker work until there is nothing to do, for at most so many steps. -/
def work (limit : Nat) (e : Engine α η σ) (scene : Scene σ) : Engine α η σ × Scene σ :=
  advance (fun (e, scene) => e.step scene) limit (e, scene)

/-- Hands an item to the worker, as the policy for full rings says. -/
def publish (e : Engine α η σ) (item : α) : Response Int × Engine α η σ :=
  match e.status with
  | .running station =>
    let (answer, ring) := station.ring.push item
    (answer, { e with status := .running { station with ring } })
  | _ => (.refused .notRunning, e)

/-- Halts the ring: nothing more is accepted. Without a worker that would have to finish the engine
is stopped. -/
def halt (e : Engine α η σ) : Engine α η σ :=
  match e.status with
  | .starting metrics => { e with status := .stopped metrics }
  | .running station => { e with status := .stopping { station with ring := station.ring.halt } }
  | _ => e

/-- Ends a stop if the worker is done, and gives up otherwise. -/
def settle (e : Engine α η σ) (limit : Span) (scene : Scene σ) :
    Except RingError Unit × Engine α η σ × Scene σ :=
  match e.status with
  | .stopping station =>
    let stopped := { e with status := .stopped station.ring.metrics }
    match station.worker.phase with
    | .finished => (.ok (), stopped, scene)
    | .died _ => (.ok (), stopped, scene.report (.workerPanicked e.name))
    | _ => (.error (.shutdownTimeout limit), e, scene.report (.drainTimeout e.name limit))
  | _ => (.ok (), e, scene)

/-- Stops within a time limit, in which the worker gets as many steps as `progress` says. The end of
the wait has to be a moment that the clock can name. -/
def stop (e : Engine α η σ) (limit : Span) (progress : Nat) (scene : Scene σ) :
    Except RingError Unit × Engine α η σ × Scene σ :=
  let (e, scene) := e.halt.work progress scene
  e.settle limit scene

/-- What a start gives the new worker. -/
structure Crew (α η σ : Type) where
  handler : EventHandler α η σ
  memory : η
  exceptions : ExceptionHandler σ

/-- A new ring and a worker for it; `refusal` is the host's reason to give no worker. -/
def recruit (e : Engine α η σ) (crew : Crew α η σ) (refusal : Option String) :
    Except (Fault RingError) (Station α η σ) :=
  match Ring.make e.config e.metrics with
  | .error fault => .error fault
  | .ok ring =>
    if '\x00' ∈ e.name.toList then .error (.broken (.nulInName e.name))
    else match refusal with
      | some reason => .error (.refused (.spawn reason))
      | none =>
        .ok (Station.make ring.takeConsumer.2 e.name crew.handler crew.memory crew.exceptions)

/-- Puts a new ring and a worker in place of none. A refusal leaves the engine as it is. -/
def launch (e : Engine α η σ) (crew : Crew α η σ) (refusal : Option String) :
    Except (Fault RingError) Unit × Engine α η σ :=
  match e.recruit crew refusal with
  | .ok station => (.ok (), { e with status := .running station })
  | .error (.refused err) => (.error (.refused err), e)
  | .error (.broken v) => (.error (.broken v), { e with status := .starting e.metrics })

/-- Starts with a new ring; nothing happens if the engine is running or starting. A stop that gave
up is finished first, and the worker gets as many steps for it as `progress` says. -/
def start (e : Engine α η σ) (crew : Crew α η σ) (refusal : Option String) (progress : Nat)
    (scene : Scene σ) : Except (Fault RingError) Unit × Engine α η σ × Scene σ :=
  match e.status with
  | .running _ | .starting _ => (.ok (), e, scene)
  | .stopped _ =>
    let (result, e) := e.launch crew refusal
    (result, e, scene)
  | .stopping _ =>
    match e.stop e.config.patience progress scene with
    | (.error err, e, scene) => (.error (.refused err), e, scene)
    | (.ok (), e, scene) =>
      let (result, e) := e.launch crew refusal
      (result, e, scene)

/-- Ends the engine without a time limit and without a record: halted, then left to the worker.
The engine is stopped afterwards if `progress` was enough for the worker. -/
def dismiss (e : Engine α η σ) (progress : Nat) (scene : Scene σ) : Engine α η σ × Scene σ :=
  let (e, scene) := e.halt.work progress scene
  match e.status with
  | .stopping station =>
    if station.worker.phase.ended then
      ({ e with status := .stopped station.ring.metrics }, scene)
    else (e, scene)
  | _ => (e, scene)

end Engine
end MessageRing
