import MessageRing.Dispatcher

/-!
The public calls of a dispatcher as data, and the states that they lead to.

A dispatch changes the dispatcher when it begins and never again. Its subscribers may call the
dispatcher themselves; such a call comes after the beginning of the dispatch that it is part of.
-/
namespace MessageRing

inductive Dispatcher.Call (ι : Type) where
  | subscribe (subscriber : ι)
  | unsubscribe (subscriber : ι)
  /-- A dispatch begins. -/
  | dispatch
  deriving DecidableEq, Repr

namespace Dispatcher
variable {ι π σ : Type}

/-- A whole dispatch, to subscribers that see the dispatcher beside the world. -/
def dispatch (call : Delivery ι π (Dispatcher ι × σ)) (message : Message π) :
    Act (Dispatcher ι × σ) (Except MessagingError Unit) := fun scene =>
  let (candidates, dispatcher) := scene.outside.1.begin
  deliver call message candidates (scene.withOutside (dispatcher, scene.outside.2))

variable [DecidableEq ι]

/-- The dispatcher after a call, whatever it answers. -/
def next (d : Dispatcher ι) : Call ι → Dispatcher ι
  | .subscribe i => (d.subscribe i).2
  | .unsubscribe i => (d.unsubscribe i).2
  | .dispatch => d.begin.2

def after (d : Dispatcher ι) (calls : List (Call ι)) : Dispatcher ι := calls.foldl next d

end Dispatcher
end MessageRing
