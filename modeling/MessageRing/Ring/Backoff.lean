/-! The pace of a party that retries until its condition holds. -/
namespace MessageRing

/-- How far a waiting party has slowed down: it pauses twice as long at each step
up to `limit`, and gives way to others from the step after it. -/
structure Backoff where
  step : Nat := 0
  deriving DecidableEq, Repr, Inhabited

namespace Backoff

/-- The last step at which the party only pauses. -/
def limit : Nat := 6

def snooze (b : Backoff) : Backoff := if b.step ≤ limit then ⟨b.step + 1⟩ else b

def text (b : Backoff) : String := "Backoff \x7b step: " ++ b.step.repr ++ " \x7d"

end Backoff
end MessageRing
