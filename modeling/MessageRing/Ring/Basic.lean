import MessageRing.Ring.Config
import MessageRing.Ring.Metrics

/-!
The ring: a fixed number of slots, filled by producers and emptied by one consumer.

Three counters order the work. `claimed` is the highest sequence given to a producer, `cursor` the
highest one made visible, and `gating` the highest one the consumer has given back. Sequences start
at 0 and never wrap; only the slot that a sequence uses does.
-/
namespace MessageRing

structure Ring (α : Type) where
  config : Config
  valid : config.Valid
  claimed : Int
  cursor : Int
  gating : Int
  /-- What a single producer last saw of `gating`. -/
  cachedGating : Int
  /-- Claims in the hands of producers, lowest first. -/
  held : List Int
  /-- Sequences handed in for publication while a lower one is missing, lowest first. -/
  deferred : List Int
  slots : Vector (Option α) config.capacity.toNat
  halted : Bool
  /-- The one consumer handle has been given out. -/
  consumed : Bool
  metrics : Metrics

inductive Response (ρ : Type) where
  | done (value : ρ)
  | refused (error : RingError)
  | broken (violation : Violation)
  /-- The caller would have to wait for another party; nothing has been done. -/
  | waits
  deriving DecidableEq, Repr

/-- The same answer without its value. -/
def Response.discard {ρ : Type} : Response ρ → Response Unit
  | .done _ => .done ()
  | .refused e => .refused e
  | .broken v => .broken v
  | .waits => .waits

namespace Ring
variable {α : Type}

/-- A ring with no sequence claimed, counting on from `metrics`. -/
def make (config : Config) (metrics : Metrics) : Except (Fault RingError) (Ring α) :=
  if valid : config.Valid then
    if Config.unaddressable ≤ config.capacity.toNat then .error (.broken .noRoom)
    else .ok {
      config, valid, metrics
      claimed := -1
      cursor := -1
      gating := -1
      cachedGating := -1
      held := []
      deferred := []
      slots := Vector.replicate _ none
      halted := false
      consumed := false }
  else .error (.refused (.invalidCapacity config.capacity))

def capacity (r : Ring α) : Nat := r.config.capacity.toNat

/-- Published sequences that the consumer has not given back. -/
def length (r : Ring α) : Nat := (r.cursor - r.gating).toNat

def isEmpty (r : Ring α) : Bool := r.length = 0

/-- Slots that can still be claimed. -/
def remaining (r : Ring α) : Nat := r.capacity - (r.claimed - r.gating).toNat

/-- The place of a sequence among the slots. -/
def index (r : Ring α) (sequence : Int) : Fin r.config.capacity.toNat :=
  ⟨r.config.slot sequence, Config.slot_lt r.valid sequence⟩

/-- What the slot of a sequence holds, whoever put it there. -/
def peek (r : Ring α) (sequence : Int) : Option α := r.slots[r.index sequence]

def put (r : Ring α) (sequence : Int) (content : Option α) : Ring α :=
  { r with slots := r.slots.set (r.index sequence) content }

/-- No further claim succeeds; what is claimed can still be published and consumed. -/
def halt (r : Ring α) : Ring α := { r with halted := true }

/-- Counts an event if the ring counts events. -/
def count (r : Ring α) (event : Metrics → Metrics) : Ring α :=
  if r.config.metrics then { r with metrics := event r.metrics } else r

theorem peek_put (r : Ring α) (s t : Int) (content : Option α) :
    (r.put s content).peek t =
      if r.config.slot s = r.config.slot t then content else r.peek t := by
  exact Vector.getElem_set (r.index s).isLt (r.index t).isLt

end Ring
end MessageRing
