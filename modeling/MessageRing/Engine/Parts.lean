import MessageRing.Engine.Call

/-!
An engine part by part.

The state of an engine, its ring and its worker are kept apart and change one after the other, and
the counters of its rings are kept beside them. The calls find their way by the state alone; that a
ring and a worker are there when they are needed is not a matter of the data.
-/
namespace MessageRing

structure Engine.Parts (α η σ : Type) where
  name : String
  config : Config
  state : Lifecycle
  ring : Option (Ring α)
  worker : Option (Worker α η σ)
  /-- What all the rings have counted. -/
  metrics : Metrics

namespace Engine.Parts
variable {α η σ : Type}

def make (name : String) (config : Config) : Except RingError (Parts α η σ) :=
  match config.validate with
  | .ok () =>
    .ok { name, config, state := .stopped, ring := none, worker := none, metrics := {} }
  | .error e => .error e

def isRunning (p : Parts α η σ) : Bool := p.state = .running

def remaining? (p : Parts α η σ) : Option Nat := p.ring.map (·.remaining)

/-- The ring has come to this, and the counters with it. -/
def setRing (p : Parts α η σ) (ring : Ring α) : Parts α η σ :=
  { p with ring := some ring, metrics := ring.metrics }

def haltRing (p : Parts α η σ) : Parts α η σ :=
  match p.ring with
  | some ring => p.setRing ring.halt
  | none => p

def step (p : Parts α η σ) (scene : Scene σ) : Option (Parts α η σ × Scene σ) :=
  match p.ring, p.worker with
  | some ring, some worker =>
    (Station.step { ring, worker } scene).map fun (station, scene) =>
      ({ p.setRing station.ring with worker := some station.worker }, scene)
  | _, _ => none

def work (limit : Nat) (p : Parts α η σ) (scene : Scene σ) : Parts α η σ × Scene σ :=
  advance (fun (p, scene) => p.step scene) limit (p, scene)

def publish (p : Parts α η σ) (item : α) : Response Int × Parts α η σ :=
  if p.isRunning then
    match p.ring with
    | some ring =>
      let (answer, ring) := ring.push item
      (answer, p.setRing ring)
    | none => (.refused .notRunning, p)
  else (.refused .notRunning, p)

/-- A new ring and a new worker that has its consumer. -/
def spawn (p : Parts α η σ) (crew : Crew α η σ) (refusal : Option String) :
    Except (Fault RingError) (Ring α × Worker α η σ) :=
  match Ring.make p.config p.metrics with
  | .error fault => .error fault
  | .ok ring =>
    match ring.takeConsumer with
    | (.error e, _) => .error (.refused e)
    | (.ok (), ring) =>
      if '\x00' ∈ p.name.toList then .error (.broken (.nulInName p.name))
      else match refusal with
        | some reason => .error (.refused (.spawn reason))
        | none =>
          let station := Station.make ring p.name crew.handler crew.memory crew.exceptions
          .ok (station.ring, station.worker)

/-- The state says first that a start is under way, and how it ended when ring and worker are in
place. -/
def launch (p : Parts α η σ) (crew : Crew α η σ) (refusal : Option String) :
    Except (Fault RingError) Unit × Parts α η σ :=
  let starting := { p with state := .starting }
  match starting.spawn crew refusal with
  | .ok (ring, worker) =>
    (.ok (), { starting.setRing ring with worker := some worker, state := .running })
  | .error (.refused e) => (.error (.refused e), { starting with state := .stopped })
  | .error (.broken v) => (.error (.broken v), starting)

/-- Waits for the worker, if there is one, and lets go of it and of the ring. -/
def finishStop (p : Parts α η σ) (limit : Span) (progress : Nat) (scene : Scene σ) :
    Except RingError Unit × Parts α η σ × Scene σ :=
  let (p, scene) := p.work progress scene
  let stopped := { p with worker := none, ring := none, state := .stopped }
  match p.worker.map Worker.phase with
  | none | some .finished => (.ok (), stopped, scene)
  | some (.died _) => (.ok (), stopped, scene.report (.workerPanicked p.name))
  | some _ => (.error (.shutdownTimeout limit), p, scene.report (.drainTimeout p.name limit))

def stop (p : Parts α η σ) (limit : Span) (progress : Nat) (scene : Scene σ) :
    Except RingError Unit × Parts α η σ × Scene σ :=
  match p.state with
  | .stopped => (.ok (), p, scene)
  | .running | .starting | .stopping =>
    { p with state := .stopping }.haltRing.finishStop limit progress scene

def start (p : Parts α η σ) (crew : Crew α η σ) (refusal : Option String) (progress : Nat)
    (scene : Scene σ) : Except (Fault RingError) Unit × Parts α η σ × Scene σ :=
  match p.state with
  | .running | .starting => (.ok (), p, scene)
  | .stopped =>
    let (result, p) := p.launch crew refusal
    (result, p, scene)
  | .stopping =>
    match p.finishStop p.config.patience progress scene with
    | (.error err, p, scene) => (.error (.refused err), p, scene)
    | (.ok (), p, scene) =>
      let (result, p) := p.launch crew refusal
      (result, p, scene)

/-- Lets go of the ring and of the worker once that has ended, and leaves the state as it is. -/
def dismiss (p : Parts α η σ) (progress : Nat) (scene : Scene σ) : Parts α η σ × Scene σ :=
  let (p, scene) := p.haltRing.work progress scene
  if p.worker.all (·.phase.ended) then ({ p with ring := none, worker := none }, scene)
  else (p, scene)

def answer (p : Parts α η σ) (scene : Scene σ) : Call α η σ → Answer × Parts α η σ × Scene σ
  | .start crew refusal progress =>
    let (result, next) := p.start crew refusal progress scene
    (.ofStart result, next)
  | .publish item =>
    let (response, p) := p.publish item
    (.ofResponse response, p, scene)
  | .stop progress =>
    let (result, next) := p.stop p.config.patience progress scene
    (.ofStop result, next)
  | .stopWithin limit progress =>
    let (result, next) := p.stop limit progress scene
    (.ofStop result, next)
  | .work progress => (.ok, p.work progress scene)
  | .dismiss progress => (.ok, p.dismiss progress scene)

def after (p : Parts α η σ) (scene : Scene σ) (calls : List (Call α η σ)) :
    Parts α η σ × Scene σ :=
  calls.foldl (fun (p, scene) call => (p.answer scene call).2) (p, scene)

def answers (p : Parts α η σ) (scene : Scene σ) : List (Call α η σ) → List Answer
  | [] => []
  | call :: calls =>
    let (answer, p, scene) := p.answer scene call
    answer :: p.answers scene calls

end Engine.Parts
end MessageRing
