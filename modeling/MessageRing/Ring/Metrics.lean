/-! Counters of what passed through the rings of one component. -/
namespace MessageRing

structure Metrics where
  /-- Sequences made visible to the consumer, empty ones included. -/
  published : Nat := 0
  /-- Items handed to the handler in windows that were released. -/
  consumed : Nat := 0
  /-- Pushes refused because the ring was full. -/
  rejected : Nat := 0
  /-- Calls of the handler that failed, in windows that were released. -/
  handlerFailures : Nat := 0
  /-- Windows released. -/
  batches : Nat := 0
  deriving DecidableEq, Repr, Inhabited

/-- What the worker met in one window. -/
structure Tally where
  consumed : Nat := 0
  failures : Nat := 0
  deriving DecidableEq, Repr, Inhabited

def Metrics.addWindow (m : Metrics) (t : Tally) : Metrics :=
  { m with
    consumed := m.consumed + t.consumed
    handlerFailures := m.handlerFailures + t.failures
    batches := m.batches + 1 }

end MessageRing
