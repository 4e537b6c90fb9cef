import MessageRing.Pipeline

/-!
A shop that handles orders with a pipeline.

Orders are sent to a channel with two subscribers that take turns. One checks the orders it gets and
fails every tenth one of all; what passes, and all that the other one gets, is batched, and the
batches are settled. Failures are published to a channel for errors. Three parties act, each at its
own pace: the clerk who sends the orders and closes the shop, and the two workers.
-/
namespace MessageRing

structure Order where
  id : Nat
  cents : Nat
  deriving DecidableEq, Repr

namespace Orders

/-- The amount of an order follows from its number. -/
def order (id : Nat) : Order := ⟨id, 100 + id % 50⟩

inductive Event where
  | failed (correlation : Option String) (description : String)
  | settled (batch : List Order)
  deriving DecidableEq, Repr

/-- Oldest first. -/
abbrev Ledger := Array Event

def batches (ledger : Ledger) : List (List Order) :=
  ledger.toList.filterMap fun
    | .settled batch => some batch
    | .failed _ _ => none

def total (amounts : List Nat) : Nat := amounts.foldr (· + ·) 0

/-- What a batch comes to. -/
def cents (batch : List Order) : Nat := total (batch.map (·.cents))

def Event.text : Event → String
  | .failed correlation description =>
    let name := match correlation with
      | some text => "Some(String(\"" ++ text ++ "\"))"
      | none => "None"
    "order failed correlation=" ++ name ++ " error=" ++ description
  | .settled batch =>
    "batch settled size=" ++ batch.length.repr ++ " total_cents=" ++ (cents batch).repr

def failures (ledger : Ledger) : List String :=
  ledger.toList.filterMap fun
    | .failed correlation description => some (Event.failed correlation description).text
    | .settled _ => none

inductive Subscriber where
  | check
  | batch
  deriving DecidableEq, Repr

abbrev Shop := Pipeline Subscriber Order (List Order) Ledger

def ring : Config := { capacity := 256, whenFull := .block, metrics := true }

/-- Where batches are settled. -/
def replies : Registry (List Order) Ledger :=
  .ofList [("orders.batched", fun m => do
    Act.modify (·.push (.settled m.payload))
    return .ok ())]

/-- Where failures are collected. -/
def errorChannels : Registry ErrorReport Ledger :=
  .ofList [("orders.errors", fun m => do
    let correlation := (m.headers.correlationId?).bind (·.asString?)
    Act.modify (·.push (.failed correlation m.payload.description))
    return .ok ())]

/-- How the subscribers take an order. -/
def take : Delivery Subscriber Order (Ledger × Batching Order (List Order) Ledger)
  | .batch, m => Pipeline.pass m
  | .check, m =>
    if m.payload.id % 10 = 0 then
      return .error (.text ("order " ++ m.payload.id.repr ++ " failed validation"))
    else Pipeline.pass m

/-- The shop before it opens. -/
def build : Except MessagingError Shop := do
  let batching ← Batching.make "orders.batcher" ring 32
    { combine := collect .conflictDiscarding, output := none, registry := some replies,
      errors := .logging }
  let channel ← Channel.make "orders" { ring, failover := false } take
    fun error failed => Pipeline.aside (ErrorHandler.publishing errorChannels none error failed)
  let channel := (channel.subscribe .check).2
  return { channel := (channel.subscribe .batch).2, batching }

def message (id : Nat) (mint : Mint) : Message Order × Mint :=
  ((Builder.ofPayload (order id)).steps
    [.replyTo "orders.batched", .errorChannel "orders.errors",
      .correlationId (.string ("order-" ++ id.repr))]).build mint

/-- How far the clerk is. -/
inductive Stage where
  /-- So many orders have been sent. -/
  | sending (sent : Nat)
  /-- The channel has been halted. -/
  | closing
  /-- The channel has stopped and batching has been halted. -/
  | settling
  | closed
  /-- An order was refused. -/
  | refused (error : RingError)
  deriving DecidableEq, Repr

structure Day where
  shop : Shop
  scene : Scene Ledger
  stage : Stage

/-- The shop opens: first batching, then the channel. -/
def opening (mint : Mint) : Except MessagingError Day := do
  let shop ← build
  let scene : Scene Ledger := { outside := #[], log := [], mint }
  let (_, shop, scene) := shop.onBatching scene fun b s => b.start none 0 s
  let (_, shop, scene) := shop.onChannel scene fun c s => c.start none 0 s
  return { shop, scene, stage := .sending 0 }

inductive Party where
  | clerk
  | channel
  | batching
  deriving DecidableEq, Repr

/-- Sends one order; the clerk waits while the channel is full. -/
def Day.send (d : Day) (id : Nat) : Option Day :=
  let (m, mint) := message id d.scene.mint
  match d.shop.channel.send m with
  | (.done (), channel) =>
    some { shop := { d.shop with channel }, scene := { d.scene with mint },
           stage := .sending (id + 1) }
  | (.refused e, channel) => some { d with shop := { d.shop with channel }, stage := .refused e }
  | (.broken _, _) | (.waits, _) => none

def Day.clerk (orders : Nat) (d : Day) : Option Day :=
  match d.stage with
  | .sending sent =>
    if sent < orders then d.send sent
    else
      let channel := { d.shop.channel with engine := d.shop.channel.engine.halt }
      some { d with shop := { d.shop with channel }, stage := .closing }
  | .closing =>
    if d.shop.channel.engine.workerDone then
      let (_, shop, scene) := d.shop.onChannel d.scene fun c s => c.stop ring.patience 0 s
      let batching := { shop.batching with engine := shop.batching.engine.halt }
      some { shop := { shop with batching }, scene, stage := .settling }
    else none
  | .settling =>
    if d.shop.batching.engine.workerDone then
      let (_, shop, scene) := d.shop.onBatching d.scene fun b s => b.stop ring.patience 0 s
      some { shop, scene, stage := .closed }
    else none
  | .closed | .refused _ => none

/-- The next move of a party, if it need not wait. -/
def Day.step (orders : Nat) (d : Day) : Party → Option Day
  | .clerk => d.clerk orders
  | .channel => (d.shop.stepChannel d.scene).map fun (shop, scene) => { d with shop, scene }
  | .batching => (d.shop.stepBatching d.scene).map fun (shop, scene) => { d with shop, scene }

/-- The days that moves of the parties, in any order, lead to from the opening. -/
inductive Day.Reachable (mint : Mint) (orders : Nat) : Day → Prop
  | opening {d : Day} : Orders.opening mint = .ok d → Day.Reachable mint orders d
  | step {d e : Day} (party : Party) :
    Day.Reachable mint orders d → d.step orders party = some e → Day.Reachable mint orders e

/-- One day with so many orders; whoever need not wait goes on. -/
def run (mint : Mint) (orders : Nat) : Except MessagingError Day := do
  let day ← opening mint
  let next (d : Day) : Option Day :=
    (d.step orders .clerk).or ((d.step orders .channel).or (d.step orders .batching))
  return advance next (64 * (orders + 4)) day

/-- The sums at the end of a day. -/
structure Totals where
  orders : Nat
  batched : Nat
  batches : Nat
  cents : Nat
  failed : Nat
  channel : Metrics
  batching : Metrics
  deriving DecidableEq, Repr

def Day.totals (orders : Nat) (d : Day) : Totals :=
  { orders
    batched := total ((batches d.scene.outside).map (·.length))
    batches := (batches d.scene.outside).length
    cents := total ((batches d.scene.outside).map cents)
    failed := (failures d.scene.outside).length
    channel := d.shop.channel.engine.metrics
    batching := d.shop.batching.engine.metrics }

def Day.report (orders : Nat) (d : Day) : List String :=
  let t := d.totals orders
  d.scene.outside.toList.map (·.text) ++
    ["pipeline drained orders=" ++ t.orders.repr ++ " batched=" ++ t.batched.repr ++
        " batches=" ++ t.batches.repr ++ " failed=" ++ t.failed.repr,
      "ring metrics published=" ++ t.channel.published.repr ++
        " consumed=" ++ t.channel.consumed.repr ++
        " batcher_consumed=" ++ t.batching.consumed.repr ++
        " batcher_batches=" ++ t.batching.batches.repr]

/-! The command line. -/

/-- A number of orders: digits, with a plus sign or not, in 64 bits. -/
def ofDigits? (text : String) : Option Nat :=
  let digits : List Char := match text.toList with
    | '+' :: rest => rest
    | all => all
  let n := digits.foldl (fun n c => 10 * n + (c.toNat - '0'.toNat)) 0
  if digits ≠ [] ∧ digits.all (fun c => '0' ≤ c ∧ c ≤ '9') ∧ n < UInt64.size then some n else none

/-- The number of orders that the arguments ask for; 1000 if they name none. -/
def requested (arguments : List String) : Nat :=
  match arguments.dropWhile (· ≠ "--orders") with
  | _ :: text :: _ => (ofDigits? text).getD 1000
  | _ => 1000

end Orders
end MessageRing
