import MessageRing.Act
import MessageRing.Message.Basic
import MessageRing.SortedMap

/-! Channels under names, as headers refer to them. -/
namespace MessageRing

/-- Where messages can be sent: a channel, seen from outside. -/
abbrev Destination (π σ : Type) := Message π → Act σ (Except MessagingError Unit)

abbrev Registry (π σ : Type) := SortedMap (Destination π σ)

namespace Registry
variable {π σ : Type}

/-- Also gives the channel that had the name before. -/
def register (r : Registry π σ) (name : String) (channel : Destination π σ) :
    Option (Destination π σ) × Registry π σ :=
  (r.get? name, r.insert name channel)

/-- Also gives the channel that had the name. -/
def unregister (r : Registry π σ) (name : String) : Option (Destination π σ) × Registry π σ :=
  (r.get? name, r.erase name)

def resolve (r : Registry π σ) (name : String) : Except MessagingError (Destination π σ) :=
  match r.get? name with
  | some channel => .ok channel
  | none => .error (.unknownChannel name)

end Registry
end MessageRing
