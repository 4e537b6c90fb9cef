import MessageRing.Uuid

/-!
Where messages get their identity from: identifiers and the time.

Identifiers are drawn at random or from counters. What chance and the clock will give is fixed in
advance and unknown; only how much of it has been used changes.
-/
namespace MessageRing

/-- Where identifiers come from. Counters are told apart by number. -/
inductive IdSource where
  | random
  | counter (number : Nat)
  deriving DecidableEq, Repr, Inhabited

structure Mint where
  /-- The identifiers that chance gives, in order. -/
  chance : Nat → Uuid
  /-- The readings of the clock, in milliseconds since 1970, in order. -/
  clock : Nat → Int64
  /-- Identifiers drawn at random so far. -/
  drawn : Nat
  /-- Readings taken so far. -/
  readings : Nat
  /-- Identifiers drawn from each counter so far. -/
  counts : Nat → Nat

namespace Mint

def fresh (chance : Nat → Uuid) (clock : Nat → Int64) : Mint :=
  { chance, clock, drawn := 0, readings := 0, counts := fun _ => 0 }

/-- A mint whose random identifiers spread out from a seed, and whose clock stands still. -/
def spread (seed : Nat) (time : Int64) : Mint :=
  fresh (fun n => (Uuid.ofNat (seed + (n + 1) <<< 80)).asRandom) fun _ => time

/-- The next identifier of a source. The n-th one of a counter is the number n. -/
def draw (m : Mint) : IdSource → Uuid × Mint
  | .random => (m.chance m.drawn, { m with drawn := m.drawn + 1 })
  | .counter number =>
    (Uuid.ofNat (m.counts number + 1),
      { m with counts := fun k => if k = number then m.counts k + 1 else m.counts k })

def now (m : Mint) : Int64 × Mint := (m.clock m.readings, { m with readings := m.readings + 1 })

theorem counts_draw (m : Mint) (source : IdSource) (k : Nat) :
    (m.draw source).2.counts k =
      if source = .counter k then m.counts k + 1 else m.counts k := by
  cases source with
  | random => simp [draw]
  | counter number => simp [draw, eq_comm]

theorem drawn_draw (m : Mint) (source : IdSource) :
    (m.draw source).2.drawn = if source = .random then m.drawn + 1 else m.drawn := by
  cases source <;> simp [draw]

end Mint
end MessageRing
