import MessageRing.Failure
import MessageRing.Uuid

/-!
What components report about their own work, as records.

Every record has a level, a fixed text and fields.
-/
namespace MessageRing

inductive Level where
  | debug
  | warn
  | error
  deriving DecidableEq, Repr, Inhabited

def Level.name : Level → String
  | debug => "DEBUG"
  | warn => "WARN"
  | error => "ERROR"

inductive Field where
  | text (value : String)
  | number (value : Int)
  | id (value : Uuid)
  /-- The identifier of a message that may be missing. -/
  | id? (value : Option Uuid)
  deriving DecidableEq, Repr

inductive Record where
  /-- A merge left a header out. -/
  | headerExcluded (key : String)
  /-- A subscriber failed and the next one is tried. -/
  | failingOver (message : Uuid) (attempts : Nat) (error : Cause)
  | workerStarted (worker : String)
  | workerStopped (worker : String) (handled : Nat)
  | startPanicked (worker : String) (error : HandlerError)
  | shutdownPanicked (worker : String) (error : HandlerError)
  | handlerFailed (worker : String) (sequence : Int) (error : HandlerError)
  /-- A stop gave up waiting. -/
  | drainTimeout (component : String) (limit : Span)
  /-- The worker that a stop waited for had died. -/
  | workerPanicked (component : String)
  | handlingFailed (message : Option Uuid) (error : MessagingError)
  /-- An error could not be reported as a message. -/
  | publishFailed (message : Option Uuid) (error sendError : MessagingError)

namespace Record

def level : Record → Level
  | headerExcluded _ | failingOver _ _ _ | workerStarted _ | workerStopped _ _ => .debug
  | startPanicked _ _ | shutdownPanicked _ _ | handlerFailed _ _ _ | drainTimeout _ _
  | workerPanicked _ => .warn
  | handlingFailed _ _ | publishFailed _ _ _ => .error

def text : Record → String
  | headerExcluded _ => "excluding header due to merge conflict"
  | failingOver _ _ _ => "handler failed, failing over"
  | workerStarted _ => "consumer loop started"
  | workerStopped _ _ => "consumer loop drained and stopped"
  | startPanicked _ _ => "on_start panicked"
  | shutdownPanicked _ _ => "on_shutdown panicked"
  | handlerFailed _ _ _ => "handler failed, continuing"
  | drainTimeout _ _ => "worker did not drain before timeout"
  | workerPanicked _ => "worker thread panicked"
  | handlingFailed _ _ => "message handling failed"
  | publishFailed _ _ _ => "failed to publish error message"

def fields : Record → List (String × Field)
  | headerExcluded key => [("header", .text key)]
  | failingOver message attempts error =>
    [("message_id", .id message), ("attempts", .number attempts), ("error", .text error.message)]
  | workerStarted worker => [("worker", .text worker)]
  | workerStopped worker handled => [("worker", .text worker), ("handled", .number handled)]
  | startPanicked worker error | shutdownPanicked worker error =>
    [("worker", .text worker), ("error", .text error.message)]
  | handlerFailed worker sequence error =>
    [("worker", .text worker), ("sequence", .number sequence), ("error", .text error.message)]
  | drainTimeout component limit =>
    [("component", .text component), ("timeout", .text limit.text)]
  | workerPanicked component => [("component", .text component)]
  | handlingFailed message error =>
    [("message_id", .id? message), ("error", .text error.describe)]
  | publishFailed message error sendError =>
    [("message_id", .id? message), ("error", .text error.describe),
      ("send_error", .text sendError.message)]

end Record
end MessageRing
