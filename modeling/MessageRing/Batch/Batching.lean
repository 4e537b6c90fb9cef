import MessageRing.Batch.Accumulator
import MessageRing.Batch.Collect
import MessageRing.Batch.Flush
import MessageRing.Engine.Basic

/-!
Batching: messages are queued on a ring and passed on in batches.

A batch is flushed when it is full, and at the end of what is available for now: when messages come
slowly the batches are small and on time, when they come fast the batches are full.
-/
namespace MessageRing

structure BatchConfig where
  ring : Config
  size : Nat := 64
  merge : MergeStrategy := .conflictDiscarding
  deriving DecidableEq, Repr

structure Batching (π φ σ : Type) where
  /-- Its worker keeps the open batch. -/
  engine : Engine (Message π) (Accumulator (Message π)) σ
  size : Nat
  target : FlushTarget π φ σ

namespace Batching
variable {π φ σ : Type}

def make (name : String) (ring : Config) (size : Nat) (target : FlushTarget π φ σ) :
    Except MessagingError (Batching π φ σ) :=
  match Engine.make name ring with
  | .error e => .error (.ring e)
  | .ok engine => .ok { engine, size, target }

/-- Flushes a batch if there is one. -/
def flushing (t : FlushTarget π φ σ) (batch : Option (List (Message π))) :
    Act σ (Except HandlerError Unit) := do
  match batch with
  | none => return .ok ()
  | some batch =>
    t.flush batch
    return .ok ()

/-- Changes the open batch and flushes what that hands out. -/
def turn (t : FlushTarget π φ σ) (change : Accumulator (Message π) →
    Option (List (Message π)) × Accumulator (Message π)) :
    Turn (Message π) (Accumulator (Message π) × Scene σ) :=
  .access fun (current, scene) =>
    let (batch, rest) := change current
    (flushing t batch scene).map fun (result, scene) =>
      (.finish (Turn.outcomeOf result), rest, scene)

def handler (t : FlushTarget π φ σ) : EventHandler (Message π) (Accumulator (Message π)) σ where
  onEvent m _ last := turn t (·.add m last)
  onEndOfBatch _ := turn t (·.take)
  onShutdown := turn t (·.take)

/-- Queues a message, as the policy for full rings says. -/
def send (b : Batching π φ σ) (m : Message π) : Response Unit × Batching π φ σ :=
  let (answer, engine) := b.engine.publish m
  (answer.discard, { b with engine })

/-- Starts with an empty batch. If that finds no room the start breaks off before it begins. -/
def start (b : Batching π φ σ) (refusal : Option String) (progress : Nat) (scene : Scene σ) :
    Except (Fault MessagingError) Unit × Batching π φ σ × Scene σ :=
  match Accumulator.make b.size with
  | .error v => (.error (.broken v), b, scene)
  | .ok memory =>
    let crew := { handler := handler b.target, memory, exceptions := .logging b.engine.name }
    let (result, engine, scene) := b.engine.start crew refusal progress scene
    (result.mapError (.map .ring), { b with engine }, scene)

def stop (b : Batching π φ σ) (limit : Span) (progress : Nat) (scene : Scene σ) :
    Except MessagingError Unit × Batching π φ σ × Scene σ :=
  let (result, engine, scene) := b.engine.stop limit progress scene
  (result.mapError .ring, { b with engine }, scene)

def step (b : Batching π φ σ) (scene : Scene σ) : Option (Batching π φ σ × Scene σ) :=
  (b.engine.step scene).map fun (engine, scene) => ({ b with engine }, scene)

def dismiss (b : Batching π φ σ) (progress : Nat) (scene : Scene σ) : Batching π φ σ × Scene σ :=
  let (engine, scene) := b.engine.dismiss progress scene
  ({ b with engine }, scene)

end Batching
end MessageRing
