import MessageRing.Engine.Basic

/-!
The public calls of an engine as data, and the states that they lead to.

Between two calls, and while a start or a stop waits, the worker makes some progress; how much is
part of the data, so that a list of calls stands for one of the ways a run can go.
-/
namespace MessageRing

inductive Engine.Call (α η σ : Type) where
  | start (crew : Engine.Crew α η σ) (refusal : Option String) (progress : Nat)
  | publish (item : α)
  /-- Stops within the time limit of the configuration. -/
  | stop (progress : Nat)
  | stopWithin (limit : Span) (progress : Nat)
  /-- No call: the worker goes on. -/
  | work (progress : Nat)
  | dismiss (progress : Nat)

inductive Engine.Answer where
  | ok
  | sequence (n : Int)
  | refused (error : RingError)
  | broken (violation : Violation)
  | waits
  deriving DecidableEq, Repr

namespace Engine
variable {α η σ : Type}

def Answer.ofStart : Except (Fault RingError) Unit → Answer
  | .ok () => .ok
  | .error (.refused e) => .refused e
  | .error (.broken v) => .broken v

def Answer.ofStop : Except RingError Unit → Answer
  | .ok () => .ok
  | .error e => .refused e

def Answer.ofResponse : Response Int → Answer
  | .done n => .sequence n
  | .refused e => .refused e
  | .broken v => .broken v
  | .waits => .waits

def answer (e : Engine α η σ) (scene : Scene σ) :
    Call α η σ → Answer × Engine α η σ × Scene σ
  | .start crew refusal progress =>
    let (result, next) := e.start crew refusal progress scene
    (.ofStart result, next)
  | .publish item =>
    let (response, e) := e.publish item
    (.ofResponse response, e, scene)
  | .stop progress =>
    let (result, next) := e.stop e.config.patience progress scene
    (.ofStop result, next)
  | .stopWithin limit progress =>
    let (result, next) := e.stop limit progress scene
    (.ofStop result, next)
  | .work progress => (.ok, e.work progress scene)
  | .dismiss progress => (.ok, e.dismiss progress scene)

def after (e : Engine α η σ) (scene : Scene σ) (calls : List (Call α η σ)) :
    Engine α η σ × Scene σ :=
  calls.foldl (fun (e, scene) call => (e.answer scene call).2) (e, scene)

def answers (e : Engine α η σ) (scene : Scene σ) : List (Call α η σ) → List Answer
  | [] => []
  | call :: calls =>
    let (answer, e, scene) := e.answer scene call
    answer :: e.answers scene calls

/-- The states that calls lead to from a new engine. -/
def Reachable (name : String) (config : Config) (e : Engine α η σ) (scene : Scene σ) : Prop :=
  ∃ new start calls, Engine.make name config = .ok new ∧ (e, scene) = new.after start calls

end Engine
end MessageRing
