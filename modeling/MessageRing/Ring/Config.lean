import MessageRing.Ring.Error

/-! How a ring is set up, and which capacities it accepts. -/
namespace MessageRing

/-- How many parties may claim and publish at a time. With `single` at most one
claim is outstanding. -/
inductive ProducerMode where
  | single
  | multi
  deriving DecidableEq, Repr, Inhabited

/-- How the consumer passes the time until something is published. -/
inductive WaitMode where
  | spin
  | yield
  | block
  deriving DecidableEq, Repr, Inhabited

/-- What a push does when no slot is free: wait for one, or refuse the item. -/
inductive FullPolicy where
  | block
  | reject
  deriving DecidableEq, Repr, Inhabited

/-- The settings of a ring and of the component that drives it. -/
structure Config where
  capacity : UInt64 := 1024
  producers : ProducerMode := .multi
  waiting : WaitMode := .block
  whenFull : FullPolicy := .reject
  /-- How long a stop waits for the worker. -/
  patience : Span := Span.ofSeconds 30
  metrics : Bool := false
  deriving DecidableEq, Repr, Inhabited

namespace Config

/-- Few slots, a busy consumer and one producer. -/
def lowLatency : Config :=
  { capacity := 4096, producers := .single, waiting := .spin, whenFull := .block }

/-- Many slots and producers that wait when the ring is full. -/
def highThroughput : Config :=
  { capacity := 65536, producers := .multi, waiting := .yield, whenFull := .block }

/-- The bits of a sequence that pick its slot. -/
def mask (c : Config) : UInt64 := c.capacity - 1

/-- A capacity is accepted when it is not zero and no bit of it survives masking:
exactly the powers of two. -/
def Valid (c : Config) : Prop := c.capacity ≠ 0 ∧ c.capacity &&& c.mask = 0

instance (c : Config) : Decidable c.Valid :=
  inferInstanceAs (Decidable (_ ∧ _))

def validate (c : Config) : Except RingError Unit :=
  if c.Valid then .ok () else .error (.invalidCapacity c.capacity)

/-- Room for all slots is set aside at once, and there is none for so many slots or more. -/
def unaddressable : Nat := UInt64.size / 256

/-- The slot of a sequence: its bits as a 64-bit word, cut down by the mask. -/
def slot (c : Config) (sequence : Int) : Nat := (UInt64.ofInt sequence &&& c.mask).toNat

theorem slot_lt {c : Config} (h : c.Valid) (sequence : Int) : c.slot sequence < c.capacity.toNat := by
  have hc : 1 ≤ c.capacity.toNat := by
    have := h.1
    have : c.capacity.toNat ≠ 0 := fun e => this (UInt64.toNat_inj.mp (by simpa using e))
    omega
  have hm : c.mask.toNat = c.capacity.toNat - 1 := by
    unfold mask
    rw [UInt64.toNat_sub_of_le _ _ (by rw [UInt64.le_iff_toNat_le]; simpa using hc)]
    rfl
  unfold slot
  rw [UInt64.toNat_and]
  have := Nat.and_le_right (n := (UInt64.ofInt sequence).toNat) (m := c.mask.toNat)
  omega

end Config
end MessageRing
