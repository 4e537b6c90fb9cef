import MessageRing.Dispatcher
import MessageRing.Engine.Basic
import MessageRing.ErrorReport

/-!
Channels: messages are queued on a ring and each is dispatched to one subscriber.

Whoever sends gets an answer as soon as the message is queued. A message that no subscriber takes
goes to the error handler, with its headers.
-/
namespace MessageRing

structure ChannelConfig where
  ring : Config
  failover : Bool := true
  maxSubscribers : Nat := UInt64.size - 1
  balancing : Balancing := .roundRobin
  deriving DecidableEq, Repr

structure Channel (ι π σ : Type) where
  /-- Its worker sees the dispatcher beside the world. -/
  engine : Engine (Message π) Unit (Dispatcher ι × σ)
  dispatcher : Dispatcher ι
  /-- How the subscribers take messages. -/
  call : Delivery ι π σ
  errors : ErrorHandler σ

namespace Channel
variable {ι π σ : Type}

def make (name : String) (config : ChannelConfig) (call : Delivery ι π σ)
    (errors : ErrorHandler σ) : Except MessagingError (Channel ι π σ) :=
  match Engine.make name config.ring with
  | .error e => .error (.ring e)
  | .ok engine =>
    let dispatcher := .make config.failover config.maxSubscribers config.balancing
    .ok { engine, dispatcher, call, errors }

/-- Tries the candidates of a dispatch and hands a failure to the error handler. -/
def settle (call : Delivery ι π σ) (errors : ErrorHandler σ) (message : Message π)
    (candidates : List ι) : Act σ (Except HandlerError Unit) := do
  match ← Dispatcher.deliver call message candidates with
  | .ok () => return .ok ()
  | .error e =>
    errors e (some message.headers)
    return .ok ()

/-- An act on the world, beside the dispatcher. -/
def beside {β : Type} (act : Act σ β) : Act (Dispatcher ι × σ) β :=
  act.focus (·.2) fun outside w => (w.1, outside)

/-- What the worker does: a dispatch begins with the subscribers of that moment and then goes its
way, whatever becomes of the subscriptions. -/
def handler (call : Delivery ι π σ) (errors : ErrorHandler σ) :
    EventHandler (Message π) Unit (Dispatcher ι × σ) where
  onEvent message _ _ := .access fun ((), scene) =>
    let (candidates, dispatcher) := scene.outside.1.begin
    some (.ofAct (beside (settle call errors message candidates)), (),
      scene.withOutside (dispatcher, scene.outside.2))

def crew (c : Channel ι π σ) : Engine.Crew (Message π) Unit (Dispatcher ι × σ) :=
  { handler := handler c.call c.errors
    memory := ()
    exceptions := .logging c.engine.name }

/-- The scene as the worker sees it. -/
def lend (c : Channel ι π σ) (scene : Scene σ) : Scene (Dispatcher ι × σ) :=
  scene.withOutside (c.dispatcher, scene.outside)

/-- Takes the dispatcher back from the worker's scene. -/
def takeBack (c : Channel ι π σ) (engine : Engine (Message π) Unit (Dispatcher ι × σ))
    (scene : Scene (Dispatcher ι × σ)) : Channel ι π σ × Scene σ :=
  ({ c with engine, dispatcher := scene.outside.1 }, scene.withOutside scene.outside.2)

section Subscriptions
variable [DecidableEq ι]

def subscribe (c : Channel ι π σ) (i : ι) : Except MessagingError Bool × Channel ι π σ :=
  let (result, dispatcher) := c.dispatcher.subscribe i
  (result, { c with dispatcher })

def unsubscribe (c : Channel ι π σ) (i : ι) : Bool × Channel ι π σ :=
  let (result, dispatcher) := c.dispatcher.unsubscribe i
  (result, { c with dispatcher })

end Subscriptions

/-- Queues a message, as the policy for full rings says. -/
def send (c : Channel ι π σ) (message : Message π) : Response Unit × Channel ι π σ :=
  let (answer, engine) := c.engine.publish message
  (answer.discard, { c with engine })

def start (c : Channel ι π σ) (refusal : Option String) (progress : Nat) (scene : Scene σ) :
    Except (Fault MessagingError) Unit × Channel ι π σ × Scene σ :=
  let (result, engine, scene) := c.engine.start c.crew refusal progress (c.lend scene)
  (result.mapError (.map .ring), c.takeBack engine scene)

def stop (c : Channel ι π σ) (limit : Span) (progress : Nat) (scene : Scene σ) :
    Except MessagingError Unit × Channel ι π σ × Scene σ :=
  let (result, engine, scene) := c.engine.stop limit progress (c.lend scene)
  (result.mapError .ring, c.takeBack engine scene)

def step (c : Channel ι π σ) (scene : Scene σ) : Option (Channel ι π σ × Scene σ) :=
  (c.engine.step (c.lend scene)).map fun (engine, scene) => c.takeBack engine scene

def dismiss (c : Channel ι π σ) (progress : Nat) (scene : Scene σ) : Channel ι π σ × Scene σ :=
  let (engine, scene) := c.engine.dismiss progress (c.lend scene)
  c.takeBack engine scene

end Channel
end MessageRing
