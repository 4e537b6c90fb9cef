import MessageRing.Ring.Error

/-!
What can go wrong in messaging, as causes.

Handlers are outside code: they can fail with any cause of their own or panic. An error that only
passes another one on (`MessagingError.ring`, `MessagingError.handler`) speaks with that one's text
and has that one's causes, so it adds neither to a description.
-/
namespace MessageRing

/-- What a panic carries. -/
inductive Panic where
  | text (message : String)
  /-- Something that is no text. -/
  | other
  deriving DecidableEq, Repr

def Panic.message : Panic → String
  | .text message => message
  | .other => "non-string panic payload"

mutual

/-- How a handler's call failed. -/
inductive HandlerError where
  | failed (source : Cause)
  | panicked (message : String)

/-- Why a message was not sent, delivered or flushed. -/
inductive MessagingError where
  | ring (error : RingError)
  | noSubscribers
  | tooManySubscribers (max : Nat)
  | deliveryFailed (attempts : Nat) (source : Cause)
  | noDestination
  | unknownChannel (name : String)
  | handler (error : HandlerError)

/-- Any error, as outside code reports it. -/
inductive Cause where
  | text (message : String)
  | ring (error : RingError)
  | handler (error : HandlerError)
  | messaging (error : MessagingError)

end

instance : Inhabited HandlerError := ⟨.panicked ""⟩

instance : Inhabited MessagingError := ⟨.noDestination⟩

instance : Inhabited Cause := ⟨.text ""⟩

/-- The error that a panic is reported as. -/
def HandlerError.ofPanic (p : Panic) : HandlerError := .panicked p.message

def HandlerError.kind : HandlerError → String
  | .failed _ => "Failed"
  | .panicked _ => "Panicked"

/-- The name of the kind of error; one that is passed on keeps its own behind a dot. -/
def MessagingError.kind : MessagingError → String
  | .ring error => "Ring." ++ error.kind
  | .noSubscribers => "NoSubscribers"
  | .tooManySubscribers _ => "TooManySubscribers"
  | .deliveryFailed _ _ => "DeliveryFailed"
  | .noDestination => "NoDestination"
  | .unknownChannel _ => "UnknownChannel"
  | .handler error => "Handler." ++ error.kind

/-- The parts of a text, put together. It stays folded, so that the texts of errors unfold to
their parts and no further. -/
@[irreducible] def compose (parts : List String) : String := parts.foldr (· ++ ·) ""

mutual

def HandlerError.message : HandlerError → String
  | .failed source => compose ["handler failed: ", source.message]
  | .panicked message => compose ["handler panicked: ", message]

def MessagingError.message : MessagingError → String
  | .ring error => error.message
  | .noSubscribers => "dispatcher has no subscribers"
  | .tooManySubscribers max => compose ["maximum subscribers exceeded (", max.repr, ")"]
  | .deliveryFailed attempts _ => compose ["delivery failed after ", attempts.repr, " attempt(s)"]
  | .noDestination => "no output channel or reply_to header available"
  | .unknownChannel name => compose ["no channel named '", name, "'"]
  | .handler error => error.message

def Cause.message : Cause → String
  | .text message => message
  | .ring error => error.message
  | .handler error => error.message
  | .messaging error => error.message

end

mutual

def HandlerError.sources : HandlerError → List String
  | .failed source => source.message :: source.sources
  | .panicked _ => []

def MessagingError.sources : MessagingError → List String
  | .ring error => error.sources
  | .deliveryFailed _ source => source.message :: source.sources
  | .handler error => error.sources
  | .noSubscribers | .tooManySubscribers _ | .noDestination | .unknownChannel _ => []

/-- The texts of the causes below the cause itself, outermost first. -/
def Cause.sources : Cause → List String
  | .text _ => []
  | .ring error => error.sources
  | .handler error => error.sources
  | .messaging error => error.sources

end

namespace MessagingError

/-- Sending the same message again may succeed. -/
def recoverable : MessagingError → Bool
  | .ring error => error.recoverable
  | .deliveryFailed _ _ | .noSubscribers => true
  | _ => false

/-- The error's text, then each cause below it, on one line. -/
def describe (e : MessagingError) : String :=
  e.sources.foldl (fun line cause => line ++ ": " ++ cause) e.message

end MessagingError
end MessageRing
