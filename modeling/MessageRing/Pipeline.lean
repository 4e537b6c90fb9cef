import MessageRing.Batch.Batching
import MessageRing.Channel

/-!
Pipelines: a channel whose subscribers can pass messages on to a batching component.

Each of the two has a worker. A subscriber that passes a message on waits, with the channel's
worker, when the batching component makes it wait.
-/
namespace MessageRing

structure Pipeline (ι π φ σ : Type) where
  channel : Channel ι π (σ × Batching π φ σ)
  batching : Batching π φ σ

namespace Pipeline
variable {ι π φ σ ρ : Type}

/-- Passes a message on to batching. -/
def pass (m : Message π) : Act (σ × Batching π φ σ) (Except Cause Unit) := do
  let (outside, batching) ← Act.get
  let (answer, batching) := batching.send m
  match answer with
  | .done () =>
    Act.modify fun _ => (outside, batching)
    return .ok ()
  | .refused e =>
    Act.modify fun _ => (outside, batching)
    return .error (.messaging (.ring e))
  | .broken v => Act.panic (.text v.message)
  | .waits => Act.wait

/-- An act that has nothing to do with batching. -/
def aside (act : Act σ ρ) : Act (σ × Batching π φ σ) ρ :=
  act.focus (·.1) fun outside w => (outside, w.2)

/-- Makes a call of the channel, with batching in its reach. -/
def onChannel (p : Pipeline ι π φ σ) (scene : Scene σ)
    (call : Channel ι π (σ × Batching π φ σ) → Scene (σ × Batching π φ σ) →
      ρ × Channel ι π (σ × Batching π φ σ) × Scene (σ × Batching π φ σ)) :
    ρ × Pipeline ι π φ σ × Scene σ :=
  let (result, channel, scene) := call p.channel (scene.withOutside (scene.outside, p.batching))
  (result, ⟨channel, scene.outside.2⟩, scene.withOutside scene.outside.1)

def onBatching (p : Pipeline ι π φ σ) (scene : Scene σ)
    (call : Batching π φ σ → Scene σ → ρ × Batching π φ σ × Scene σ) :
    ρ × Pipeline ι π φ σ × Scene σ :=
  let (result, batching, scene) := call p.batching scene
  (result, { p with batching }, scene)

def stepChannel (p : Pipeline ι π φ σ) (scene : Scene σ) : Option (Pipeline ι π φ σ × Scene σ) :=
  (p.channel.step (scene.withOutside (scene.outside, p.batching))).map fun (channel, scene) =>
    (⟨channel, scene.outside.2⟩, scene.withOutside scene.outside.1)

def stepBatching (p : Pipeline ι π φ σ) (scene : Scene σ) : Option (Pipeline ι π φ σ × Scene σ) :=
  (p.batching.step scene).map fun (batching, scene) => ({ p with batching }, scene)

/-- One step of either worker; batching comes first. -/
def step (p : Pipeline ι π φ σ) (scene : Scene σ) : Option (Pipeline ι π φ σ × Scene σ) :=
  (p.stepBatching scene).or (p.stepChannel scene)

end Pipeline
end MessageRing
