import MessageRing.Orders
import MessageRing.Proofs.Batch.Chunks
import MessageRing.Proofs.Batch.Routing
import MessageRing.Proofs.Engine.Service

/-!
How batches of orders are settled.

Every order says where its batch is to go, and merging a batch keeps that, so a batch of orders is
always settled as a whole. What the batching worker has done to the ledger is then told by the calls
of its handler alone; the failures in the ledger are of no concern to it.
-/
namespace MessageRing

namespace Batching
variable {π φ σ : Type}

/-- But for the start a call changes the open batch and flushes what that completes. -/
theorem turn_of_later (t : FlushTarget π φ σ) {call : HandlerCall (Message π)}
    (later : call ≠ .start) : call.turn (handler t) = turn t (·.serve call) := by
  cases call with
  | start => exact absurd rfl later
  | event m sequence last => rfl
  | endOfBatch sequence => rfl
  | shutdown => rfl

theorem move_of_flushing {t : FlushTarget π φ σ}
    {change : Accumulator (Message π) → Option (List (Message π)) × Accumulator (Message π)}
    {memory : Accumulator (Message π)} {scene after : Scene σ}
    {result : Except Panic (Except HandlerError Unit)}
    (h : flushing t (change memory).1 scene = some (result, after)) (r : Ring (Message π)) :
    (turn t change).move r (memory, scene) =
      some (.finish (Turn.outcomeOf result), r, (change memory).2, after) := by
  simp [turn, Turn.move, h]

theorem handler_within (t : FlushTarget π φ σ) : (handler t).Within 1 := by
  intro call
  by_cases hstart : call = .start
  · rw [hstart]
    exact .finish _ 1
  · rw [turn_of_later t hstart]
    refine .access fun world turn' world' hrun => ?_
    obtain ⟨_, _, he⟩ := Option.map_eq_some_iff.mp hrun
    cases he
    exact .finish _ 0

theorem start_of_engine {b : Batching π φ σ} {memory : Accumulator (Message π)}
    {engine : Engine (Message π) (Accumulator (Message π)) σ} {scene after : Scene σ}
    {refusal : Option String} {progress : Nat} (room : Accumulator.make b.size = .ok memory)
    (start : b.engine.start ⟨handler b.target, memory, .logging b.engine.name⟩ refusal progress
      scene = (.ok (), engine, after)) :
    b.start refusal progress scene = (.ok (), { b with engine }, after) := by
  simp only [Batching.start, room, start]
  rfl

end Batching

namespace Orders

/-- Orders that failed: what is known of them and why. -/
def failed (ledger : Ledger) : List (Option String × String) :=
  ledger.toList.filterMap fun
    | .failed correlation description => some (correlation, description)
    | .settled _ => none

section Ledger
variable (ledger : Ledger) (batch : List Order) (correlation : Option String)
  (description : String)

@[simp] theorem batches_push_settled :
    batches (ledger.push (.settled batch)) = batches ledger ++ [batch] := by
  simp [batches, List.filterMap_append]

@[simp] theorem batches_push_failed :
    batches (ledger.push (.failed correlation description)) = batches ledger := by
  simp [batches, List.filterMap_append]

@[simp] theorem failed_push_settled : failed (ledger.push (.settled batch)) = failed ledger := by
  simp [failed, List.filterMap_append]

@[simp] theorem failed_push_failed : failed (ledger.push (.failed correlation description)) =
    failed ledger ++ [(correlation, description)] := by
  simp [failed, List.filterMap_append]

theorem length_failures : (failures ledger).length = (failed ledger).length := by
  rw [failures, failed, List.length_filterMap_eq_countP, List.length_filterMap_eq_countP]
  refine List.countP_congr fun event _ => ?_
  cases event <;> rfl

end Ledger

/-- The items that the handler was called for. -/
def items {α : Type} (calls : List (HandlerCall α)) : List α := calls.filterMap HandlerCall.item?

@[simp] theorem items_append {α : Type} (calls : List (HandlerCall α)) (call : HandlerCall α) :
    items (calls ++ [call]) = items calls ++ call.item?.toList := by
  cases h : call.item? <;> simp [items, h]

theorem items_earlier {α : Type} (calls : List (HandlerCall α)) (call : HandlerCall α) :
    items calls <+: items (calls ++ [call]) := by
  rw [items_append]
  exact List.prefix_append _ _

/-- They all say where their batches are to be settled. -/
def Labelled (ms : List (Message Order)) : Prop :=
  ∀ m ∈ ms, m.headers.replyTo? = some "orders.batched"

/-- Where batches go that are flushed. -/
def settlement : FlushTarget Order (List Order) Ledger :=
  { combine := collect .conflictDiscarding, output := none, registry := some replies,
    errors := .logging }

def empty : Accumulator (Message Order) := ⟨32, []⟩

theorem get?_replies : replies.get? "orders.batched" = some fun m => do
    Act.modify (·.push (.settled m.payload))
    return .ok () := rfl

theorem flush_settles {batch : List (Message Order)} (nonempty : batch ≠ [])
    (labelled : Labelled batch) (scene : Scene Ledger) :
    ∃ after, settlement.flush batch scene = some (.ok (), after) ∧
      after.outside = scene.outside.push (.settled (batch.map (·.payload))) := by
  obtain ⟨m, between, hcollect, hpayload, hheaders⟩ :=
    collect_headers .conflictDiscarding batch scene
  have hreply : m.headers.replyTo? = some "orders.batched" :=
    (congrArg (·.bind HeaderValue.asString?) (hheaders Key.replyTo (by decide))).trans
      (FlushTarget.replyTo?_of_common nonempty labelled)
  have hsend : settlement.send m = (do
      Act.modify (·.push (.settled m.payload))
      return .ok ()) := by
    simp only [FlushTarget.send, FlushTarget.destination, settlement, hreply, Registry.resolve,
      get?_replies]
  rw [FlushTarget.flush_eq]
  refine ⟨{ between with outside := between.outside.push (.settled m.payload) },
    (Act.bind_ok hcollect).trans ?_, ?_⟩
  · rw [hsend]
    rfl
  · rw [hpayload, collect_outside hcollect]

/-- After these calls: what they completed is settled, and these orders have failed. -/
structure Kept (failures : List (Option String × String)) (calls : List (HandlerCall (Message Order)))
    (memory : Accumulator (Message Order)) (ledger : Ledger) : Prop where
  batches : batches ledger = (empty.serveAll calls).1.map (·.map (·.payload))
  memory : (empty.serveAll calls).2 = memory
  failed : failed ledger = failures

namespace Kept
variable {failures : List (Option String × String)} {calls : List (HandlerCall (Message Order))}
  {memory : Accumulator (Message Order)} {ledger : Ledger}

theorem start (h : Kept failures calls memory ledger) :
    Kept failures (calls ++ [.start]) memory ledger := by
  have hserved : empty.serveAll (calls ++ [.start]) = empty.serveAll calls := by
    rw [Accumulator.serveAll_append, Accumulator.serveAll_singleton]
    exact Prod.ext (List.append_nil _) rfl
  exact ⟨by rw [hserved]; exact h.batches, by rw [hserved]; exact h.memory, h.failed⟩

/-- A call settles the batch that it completes. -/
theorem serve {scene : Scene Ledger} (h : Kept failures calls memory scene.outside)
    (call : HandlerCall (Message Order)) (labelled : Labelled (items (calls ++ [call]))) :
    ∃ after, Batching.flushing settlement (memory.serve call).1 scene =
        some (.ok (.ok ()), after) ∧
      Kept failures (calls ++ [call]) (memory.serve call).2 after.outside := by
  have hempty : empty.items.length < empty.limit := by decide
  obtain ⟨hlimit, hshort, hall, -⟩ := Accumulator.serveAll_keeps hempty calls
  rw [h.memory] at hlimit hshort hall
  obtain ⟨-, -, hitems, hbatch⟩ := Accumulator.serve_keeps (hlimit.symm ▸ hshort) call
  have hserved : empty.serveAll (calls ++ [call]) =
      ((empty.serveAll calls).1 ++ (memory.serve call).1.toList, (memory.serve call).2) := by
    rw [Accumulator.serveAll_append, Accumulator.serveAll_singleton, h.memory]
  cases hserve : (memory.serve call).1 with
  | none =>
    rw [hserve, Option.toList_none, List.append_nil] at hserved
    exact ⟨scene, rfl, by rw [hserved]; exact h.batches, by rw [hserved], h.failed⟩
  | some batch =>
    rw [hserve, Option.toList_some] at hserved hitems
    have hlabelled : Labelled batch := by
      intro m hm
      refine labelled m ?_
      have hopen : m ∈ memory.items ++ call.item?.toList := by
        rw [← hitems]
        simp [hm]
      have hitems' : empty.items ++ items calls = items calls := rfl
      rw [items_append, ← hitems', items, ← hall, List.append_assoc]
      exact List.mem_append_right _ hopen
    obtain ⟨after, hflush, houtside⟩ := flush_settles (hbatch batch hserve).1 hlabelled scene
    refine ⟨after, Act.bind_ok hflush, ?_, ?_, ?_⟩
    · rw [houtside, hserved, batches_push_settled, h.batches, List.map_append]
      rfl
    · rw [hserved]
    · rw [houtside, failed_push_settled]
      exact h.failed

/-- After the shutdown all that came is settled, in batches that are neither empty nor too long. -/
theorem closed (h : Kept failures (calls ++ [.shutdown]) memory ledger) :
    (Orders.batches ledger).flatten = (items (calls ++ [.shutdown])).map (·.payload) ∧
      ∀ batch ∈ Orders.batches ledger, batch ≠ [] ∧ batch.length ≤ 32 := by
  obtain ⟨-, -, hall, hbatches⟩ :=
    Accumulator.serveAll_keeps (a := empty) (by decide) (calls ++ [.shutdown])
  rw [Accumulator.serveAll_shutdown, List.append_nil] at hall
  rw [h.batches]
  refine ⟨?_, ?_⟩
  · rw [← List.map_flatten, hall]
    rfl
  · intro batch hmem
    obtain ⟨ms, hms, rfl⟩ := List.mem_map.mp hmem
    obtain ⟨hnonempty, hlength⟩ := hbatches ms hms
    rw [List.length_map]
    exact ⟨by simpa using hnonempty, hlength⟩

end Kept

/-- What the batching worker has done, if all that it was given says where to go. -/
def settled (failures : List (Option String × String)) :
    Conduct (Message Order) (Accumulator (Message Order)) Ledger where
  idle calls memory ledger := Labelled (items calls) → Kept failures calls memory ledger
  busy calls call turn memory ledger := Labelled (items (calls ++ [call])) →
    (turn = call.turn (Batching.handler settlement) ∧ Kept failures calls memory ledger) ∨
      ((∃ outcome, turn = .finish outcome) ∧ Kept failures (calls ++ [call]) memory ledger)

variable {failures : List (Option String × String)}

theorem Labelled.earlier {calls : List (HandlerCall (Message Order))}
    {call : HandlerCall (Message Order)} (h : Labelled (items (calls ++ [call]))) :
    Labelled (items calls) := fun m hm => h m ((items_earlier calls call).subset hm)

theorem settled_governs : (settled failures).Governs (Batching.handler settlement) where
  begin call idle := fun labelled => .inl ⟨rfl, idle labelled.earlier⟩
  move {calls call turn turn' r r' memory memory' scene scene'} busy move := by
    intro labelled
    rcases busy labelled with ⟨rfl, hkept⟩ | ⟨⟨outcome, rfl⟩, -⟩
    · by_cases hstart : call = .start
      · subst hstart
        cases move
      · rw [Batching.turn_of_later _ hstart] at move
        obtain ⟨after, hflushing, hafter⟩ := hkept.serve call labelled
        rw [Batching.move_of_flushing hflushing] at move
        cases move
        exact .inr ⟨⟨_, rfl⟩, hafter⟩
    · cases move
  finish {calls call outcome memory ledger} busy := by
    intro labelled
    rcases busy labelled with ⟨hturn, hkept⟩ | ⟨-, hkept⟩
    · cases call with
      | start => exact hkept.start
      | event m sequence last | endOfBatch sequence | shutdown => cases hturn
    · exact hkept

def settling (failures : List (Option String × String)) :
    Duty (Message Order) (Accumulator (Message Order)) Ledger where
  config := ring
  handler := Batching.handler settlement
  acts := 1
  within := Batching.handler_within settlement
  conduct := settled failures
  governs := settled_governs

/-- A flush never waits. -/
theorem settled_ready {calls : List (HandlerCall (Message Order))}
    {call : HandlerCall (Message Order)}
    {run : Accumulator (Message Order) × Scene Ledger →
      Option (Turn (Message Order) (Accumulator (Message Order) × Scene Ledger) ×
        Accumulator (Message Order) × Scene Ledger)}
    {memory : Accumulator (Message Order)} {scene : Scene Ledger}
    (busy : (settled failures).busy calls call (.access run) memory scene.outside)
    (labelled : Labelled (items (calls ++ [call]))) : run (memory, scene) ≠ none := by
  rcases busy labelled with ⟨hturn, hkept⟩ | ⟨⟨outcome, hturn⟩, -⟩
  · by_cases hstart : call = .start
    · subst hstart
      cases hturn
    · rw [Batching.turn_of_later _ hstart] at hturn
      cases hturn
      obtain ⟨after, hflushing, -⟩ := hkept.serve call labelled
      simp [hflushing]
  · cases hturn

theorem settling_stuck {halted : Bool} {taken : Nat} {accepted : List (Message Order)}
    {scene : Scene Ledger} {e : Engine (Message Order) (Accumulator (Message Order)) Ledger}
    (h : e.Serves halted (settling failures) scene.outside accepted taken)
    (labelled : Labelled accepted) (waits : e.step scene = none) :
    (halted = true ∧ e.workerDone = true) ∨ (halted = false ∧ e.remaining? ≠ some 0) := by
  rcases h.stuck waits with hdone | hfree | ⟨calls, call, run, memory, hfirst, hbusy, hwaits⟩
  · exact .inl hdone
  · exact .inr hfree
  · exact absurd hwaits (settled_ready hbusy fun m hm => labelled m (hfirst.subset hm))

end Orders
end MessageRing
