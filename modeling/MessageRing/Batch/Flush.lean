import MessageRing.ErrorReport

/-!
Flushing: a batch becomes one message, which goes to its destination or to the error handler.
-/
namespace MessageRing

/-- What becomes of batches of messages with payloads of type `π`; `φ` is the type of the payloads
of the messages they become. -/
structure FlushTarget (π φ σ : Type) where
  /-- Makes one message of a batch. -/
  combine : List (Message π) → Act σ (Message φ)
  output : Option (Destination φ σ)
  /-- Where the channel that the message names as `reply_to` is looked up. -/
  registry : Option (Registry φ σ)
  errors : ErrorHandler σ

namespace FlushTarget
variable {π φ σ : Type}

/-- The output channel if there is one, else the channel that the headers name. -/
def destination (t : FlushTarget π φ σ) (headers : Headers) :
    Except MessagingError (Destination φ σ) :=
  match t.output, headers.replyTo?, t.registry with
  | some channel, _, _ => .ok channel
  | none, some name, some registry => registry.resolve name
  | none, some name, none => .error (.unknownChannel name)
  | none, none, _ => .error .noDestination

/-- Sends a message to its destination. -/
def send (t : FlushTarget π φ σ) (m : Message φ) : Act σ (Except MessagingError Unit) :=
  match t.destination m.headers with
  | .error e => return .error e
  | .ok channel => channel m

def flush (t : FlushTarget π φ σ) (batch : List (Message π)) : Act σ Unit := do
  let m ← t.combine batch
  match ← t.send m with
  | .ok () => return ()
  | .error e => t.errors e (some m.headers)

end FlushTarget
end MessageRing
