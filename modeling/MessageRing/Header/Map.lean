import MessageRing.Header.Value
import MessageRing.SortedMap

/-! The headers of a message, and the keys that have a meaning of their own. -/
namespace MessageRing

/-! Header keys that the library reads or writes. -/

namespace Key

def id : String := "id"
def timestamp : String := "timestamp"
def sequenceNumber : String := "sequence_number"
def sequenceSize : String := "sequence_size"
def correlationId : String := "correlation_id"
/-- The channel that a result goes to. -/
def replyTo : String := "reply_to"
/-- The channel that failures of the message are reported to. -/
def errorChannel : String := "error_channel"

/-- The key is assigned anew to every message. -/
def assigned (key : String) : Bool := key = id ∨ key = timestamp

/-- The key says something about one message only, and never about a batch. -/
def identity (key : String) : Bool :=
  key = id ∨ key = timestamp ∨ key = sequenceNumber ∨ key = sequenceSize

end Key

abbrev Headers := SortedMap HeaderValue

namespace Headers

def id (h : Headers) : Uuid := ((h.get? Key.id).bind (·.asUuid?)).getD .nil

/-- Milliseconds since 1970. -/
def timestamp (h : Headers) : Int64 := ((h.get? Key.timestamp).bind (·.asInt?)).getD 0

def replyTo? (h : Headers) : Option String := (h.get? Key.replyTo).bind (·.asString?)

def errorChannel? (h : Headers) : Option String := (h.get? Key.errorChannel).bind (·.asString?)

theorem replyTo?_eq_some {h : Headers} {name : String} :
    h.replyTo? = some name ↔ h.get? Key.replyTo = some (.string name) := by
  simp [replyTo?, Option.bind_eq_some_iff, HeaderValue.asString?_eq_some]

theorem errorChannel?_eq_some {h : Headers} {name : String} :
    h.errorChannel? = some name ↔ h.get? Key.errorChannel = some (.string name) := by
  simp [errorChannel?, Option.bind_eq_some_iff, HeaderValue.asString?_eq_some]

def correlationId? (h : Headers) : Option HeaderValue := h.get? Key.correlationId

def sequenceNumber? (h : Headers) : Option Int64 := (h.get? Key.sequenceNumber).bind (·.asInt?)

def sequenceSize? (h : Headers) : Option Int64 := (h.get? Key.sequenceSize).bind (·.asInt?)

/-- The same keys with equal values. -/
def eq (g h : Headers) : Bool :=
  g.keys = h.keys ∧ (g.entries.zip h.entries).all fun (a, b) => a.2 == b.2

end Headers
end MessageRing
