import MessageRing.Message.Builder
import MessageRing.Registry

/-!
What becomes of failures that no caller is waiting for: they are logged, or sent as messages to a
channel for errors.
-/
namespace MessageRing

variable {σ : Type}

/-- Takes a failure, with the headers of the message that failed if there was one. -/
abbrev ErrorHandler (σ : Type) := MessagingError → Option Headers → Act σ Unit

/-- The payload of a message about a failure. -/
structure ErrorReport where
  /-- The error and all its causes on one line. -/
  description : String
  failed : Option Headers

namespace ErrorReport

/-- The channel for errors that the failed message names, else the default one. -/
def target (fallback : Option String) (failed : Option Headers) : Option String :=
  (failed.bind (·.errorChannel?)).or fallback

/-- The message about a failure. Of the failed message it carries on only the correlation. -/
def builder (error : MessagingError) (failed : Option Headers) : Builder ErrorReport :=
  (Builder.ofPayload ⟨error.describe, failed⟩).steps
    ((failed.bind (·.correlationId?)).toList.map .correlationId)

def send (registry : Registry ErrorReport σ) (report : Message ErrorReport)
    (name : Option String) : Act σ (Except MessagingError Unit) :=
  match name with
  | none => return .error .noDestination
  | some name =>
    match registry.resolve name with
    | .error e => return .error e
    | .ok channel => channel report

end ErrorReport

namespace ErrorHandler

def logging : ErrorHandler σ := fun error failed =>
  Act.report (.handlingFailed (failed.map (·.id)) error)

/-- Sends every failure to a channel, and logs those it cannot send. -/
def publishing (registry : Registry ErrorReport σ) (fallback : Option String) : ErrorHandler σ :=
  fun error failed => do
    let report ← Act.minting (ErrorReport.builder error failed).build
    match ← ErrorReport.send registry report (ErrorReport.target fallback failed) with
    | .ok () => return ()
    | .error sendError => Act.report (.publishFailed (failed.map (·.id)) error sendError)

end ErrorHandler
end MessageRing
