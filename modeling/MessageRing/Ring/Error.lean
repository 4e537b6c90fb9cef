import MessageRing.Text.Span

/-! Why a ring refuses a call, and what makes a call break off. -/
namespace MessageRing

/-- Why a ring, or a component driven by one, refuses a call. -/
inductive RingError where
  | invalidCapacity (capacity : UInt64)
  | insufficientCapacity
  | rejected
  | notRunning
  | shutdownTimeout (limit : Span)
  | alreadyConsumed
  /-- The host gave no worker; the text is the host's. -/
  | spawn (reason : String)
  deriving DecidableEq, Repr

namespace RingError

/-- The name of the kind of error: for programs, as the message is for people. -/
def kind : RingError → String
  | invalidCapacity _ => "InvalidCapacity"
  | insufficientCapacity => "InsufficientCapacity"
  | rejected => "Rejected"
  | notRunning => "NotRunning"
  | shutdownTimeout _ => "ShutdownTimeout"
  | alreadyConsumed => "AlreadyConsumed"
  | spawn _ => "Spawn"

def message : RingError → String
  | invalidCapacity n => "ring buffer capacity must be a power of two (got " ++ n.toNat.repr ++ ")"
  | insufficientCapacity => "ring buffer has insufficient capacity"
  | rejected => "ring buffer is at capacity, item rejected"
  | notRunning => "component is not running"
  | shutdownTimeout limit => "worker did not drain within " ++ limit.text
  | alreadyConsumed => "ring buffer consumer already taken"
  | spawn reason => "failed to spawn worker thread: " ++ reason

/-- The causes below the error, outermost first. -/
def sources : RingError → List String
  | spawn reason => [reason]
  | _ => []

/-- Trying the same call again may succeed. -/
def recoverable : RingError → Bool
  | insufficientCapacity | rejected | shutdownTimeout _ => true
  | _ => false

/-- The error comes from set-up or use, not from load. -/
def terminal : RingError → Bool
  | invalidCapacity _ | notRunning | alreadyConsumed => true
  | _ => false

end RingError

/-- What makes a call break off: a promise of the ring's users, or of the ring itself, that does not
hold, or a demand that no machine can meet. -/
inductive Violation where
  /-- A claim is taken while the only producer still holds one. -/
  | secondClaim
  | gatingDecreased (old new : Int)
  | cursorDecreased (old new : Int)
  | beyondCursor (released cursor : Int)
  | lapsConsumer (claimed gating : Int) (capacity : Nat)
  | outOfOrder (sequence cursor : Int)
  /-- A difference of two sequences does not fit in 64 bits. -/
  | subtractOverflow
  /-- A sum of two sequences does not fit in 64 bits. -/
  | addOverflow
  /-- Room is needed for more than can be addressed. -/
  | noRoom
  /-- A worker cannot have a name with a NUL in it. -/
  | nulInName (name : String)
  deriving DecidableEq, Repr

namespace Violation

def message : Violation → String
  | secondClaim =>
    "single-producer contract violated: claim taken while another is outstanding"
  | gatingDecreased old new => decreased "gating" old new
  | cursorDecreased old new => decreased "cursor" old new
  | beyondCursor released cursor =>
    "consumer released " ++ released.repr ++ " beyond published cursor " ++ cursor.repr
  | lapsConsumer claimed gating capacity =>
    "bounded count violated: claimed " ++ claimed.repr ++ " laps consumer at " ++
      gating.repr ++ " (capacity " ++ capacity.repr ++ ")"
  | outOfOrder sequence cursor =>
    "in-order publication violated: publishing " ++ sequence.repr ++
      " while cursor is " ++ cursor.repr
  | subtractOverflow => "attempt to subtract with overflow"
  | addOverflow => "attempt to add with overflow"
  | noRoom => "capacity overflow"
  | nulInName name =>
    let bytes := name.toUTF8.toList
    "thread name may not contain interior null bytes: NulError(" ++ (bytes.idxOf 0).repr ++ ", [" ++
      ", ".intercalate (bytes.map (·.toNat.repr)) ++ "])"
where
  decreased (counter : String) (old new : Int) : String :=
    "monotonic progress violated: " ++ counter ++ " decreased from " ++ old.repr ++
      " to " ++ new.repr

example : (nulInName "é\x00").message =
    "thread name may not contain interior null bytes: NulError(2, [195, 169, 0])" := by
  decide +kernel

end Violation

/-- How a call goes wrong: its caller is told of an error, or it breaks off. -/
inductive Fault (ε : Type) where
  | refused (error : ε)
  | broken (violation : Violation)
  deriving DecidableEq, Repr

/-- The same fault with its error put in other terms. -/
def Fault.map {ε δ : Type} (f : ε → δ) : Fault ε → Fault δ
  | refused error => .refused (f error)
  | broken violation => .broken violation

end MessageRing
