import MessageRing.Channel

/-!
The public calls of a channel as data, and the states that they lead to.

As for engines, how much progress the worker makes between two calls, or while a start or a stop
waits, is part of the data.
-/
namespace MessageRing

inductive Channel.Call (ι π σ : Type) where
  | start (refusal : Option String) (progress : Nat)
  | send (message : Message π)
  /-- Stops within the time limit of the configuration. -/
  | stop (progress : Nat)
  | stopWithin (limit : Span) (progress : Nat)
  | subscribe (subscriber : ι)
  | unsubscribe (subscriber : ι)
  /-- No call: the worker goes on. -/
  | work (progress : Nat)
  | dismiss (progress : Nat)
  /-- No call: someone else acts on the world. -/
  | world (change : Scene σ → Scene σ)

namespace Channel
variable {ι π σ : Type}

/-- Lets the worker work until there is nothing to do, for at most so many steps. -/
def work (limit : Nat) (c : Channel ι π σ) (scene : Scene σ) : Channel ι π σ × Scene σ :=
  advance (fun (c, scene) => c.step scene) limit (c, scene)

variable [DecidableEq ι]

/-- The channel and the world after a call, whatever it answers. -/
def next (c : Channel ι π σ) (scene : Scene σ) : Call ι π σ → Channel ι π σ × Scene σ
  | .start refusal progress => (c.start refusal progress scene).2
  | .send message => ((c.send message).2, scene)
  | .stop progress => (c.stop c.engine.config.patience progress scene).2
  | .stopWithin limit progress => (c.stop limit progress scene).2
  | .subscribe i => ((c.subscribe i).2, scene)
  | .unsubscribe i => ((c.unsubscribe i).2, scene)
  | .work progress => c.work progress scene
  | .dismiss progress => c.dismiss progress scene
  | .world change => (c, change scene)

def after (c : Channel ι π σ) (scene : Scene σ) (calls : List (Call ι π σ)) :
    Channel ι π σ × Scene σ :=
  calls.foldl (fun (c, scene) call => c.next scene call) (c, scene)

end Channel
end MessageRing
