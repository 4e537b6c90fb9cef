import MessageRing.Engine.Basic

/-!
Executors: they carry out tasks one after the other, in the order they were given.

A task that panics counts as a failure and the next one is carried out. Tasks can give further
tasks to the executor they run on.
-/
namespace MessageRing

structure Executor (τ σ : Type) where
  engine : Engine τ Unit σ
  perform : τ → Turn τ (Unit × Scene σ)

namespace Executor
variable {τ σ : Type}

def make (name : String) (config : Config) (perform : τ → Turn τ (Unit × Scene σ)) :
    Except RingError (Executor τ σ) :=
  (Engine.make name config).map ({ engine := ·, perform })

/-- What the worker of an executor does: it logs failures. -/
def crew (x : Executor τ σ) : Engine.Crew τ Unit σ :=
  { handler := { onEvent := fun task _ _ => x.perform task }
    memory := ()
    exceptions := .logging x.engine.name }

def start (x : Executor τ σ) (refusal : Option String) (progress : Nat) (scene : Scene σ) :
    Except (Fault RingError) Unit × Executor τ σ × Scene σ :=
  let (result, engine, scene) := x.engine.start x.crew refusal progress scene
  (result, { x with engine }, scene)

/-- Enqueues a task; that it was accepted does not mean that it has run. -/
def execute (x : Executor τ σ) (task : τ) : Response Unit × Executor τ σ :=
  let (answer, engine) := x.engine.publish task
  (answer.discard, { x with engine })

def stop (x : Executor τ σ) (limit : Span) (progress : Nat) (scene : Scene σ) :
    Except RingError Unit × Executor τ σ × Scene σ :=
  let (result, engine, scene) := x.engine.stop limit progress scene
  (result, { x with engine }, scene)

def step (x : Executor τ σ) (scene : Scene σ) : Option (Executor τ σ × Scene σ) :=
  (x.engine.step scene).map fun (engine, scene) => ({ x with engine }, scene)

def dismiss (x : Executor τ σ) (progress : Nat) (scene : Scene σ) : Executor τ σ × Scene σ :=
  let (engine, scene) := x.engine.dismiss progress scene
  ({ x with engine }, scene)

end Executor
end MessageRing
