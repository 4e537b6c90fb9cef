import MessageRing.Proofs.Channel.Conduct
import MessageRing.Proofs.Orders.Settlement
import MessageRing.Proofs.Publication

/-!
How orders are dispatched.

The subscribers take turns, so every other order is checked, and all those that fail are among these.
An order that fails is published as a failure, any other one is passed on to batching. What the
channel's worker has done to the world is told by the orders it was given.
-/
namespace MessageRing

namespace Channel
variable {ι π σ : Type}

/-- A dispatch consists of two acts. -/
theorem handler_within (call : Delivery ι π σ) (errors : ErrorHandler σ) :
    (handler call errors).Within 2 := by
  intro last
  cases last with
  | event message sequence last =>
    refine .access fun world turn' world' hrun => ?_
    cases hrun
    exact .ofAct _
  | start | endOfBatch sequence | shutdown => exact .finish _ 2

section Calls
variable {c : Channel ι π σ} {engine : Engine (Message π) Unit (Dispatcher ι × σ)}
  {scene : Scene σ} {after : Scene (Dispatcher ι × σ)} {progress : Nat}

theorem start_of_engine {refusal : Option String}
    (start : c.engine.start c.crew refusal progress (c.lend scene) = (.ok (), engine, after)) :
    c.start refusal progress scene = (.ok (), c.takeBack engine after) := by
  simp only [Channel.start, start]
  rfl

theorem stop_of_engine {limit : Span}
    (stop : c.engine.stop limit progress (c.lend scene) = (.ok (), engine, after)) :
    c.stop limit progress scene = (.ok (), c.takeBack engine after) := by
  simp only [Channel.stop, stop]
  rfl

end Calls
end Channel

namespace Pipeline
variable {π φ σ : Type} {m : Message π} {scene : Scene (σ × Batching π φ σ)}

theorem pass_of_done {n : Int} {engine : Engine (Message π) (Accumulator (Message π)) σ}
    (h : scene.outside.2.engine.publish m = (.done n, engine)) :
    pass m scene = some (.ok (.ok ()),
      scene.withOutside (scene.outside.1, { scene.outside.2 with engine })) := by
  refine (Act.bind_ok (b := scene.outside) rfl).trans ?_
  simp only [Batching.send, h]
  rfl

theorem pass_of_waits (h : (scene.outside.2.engine.publish m).1 = .waits) :
    pass m scene = none := by
  refine (Act.bind_ok (b := scene.outside) rfl).trans ?_
  simp only [Batching.send, h]
  rfl

theorem aside_of_some {ρ : Type} {act : Act σ ρ} {result : Except Panic ρ} {after : Scene σ}
    (h : act (scene.withOutside scene.outside.1) = some (result, after)) :
    aside act scene = some (result, after.withOutside (after.outside, scene.outside.2)) :=
  Act.focus_of_some h

section Steps
variable {ι : Type} {p : Pipeline ι π φ σ}

theorem stepChannel_eq (p : Pipeline ι π φ σ) (scene : Scene σ) : p.stepChannel scene =
    (p.channel.engine.step (scene.withOutside (p.channel.dispatcher, scene.outside, p.batching))).map
      fun (engine, after) => (⟨{ p.channel with engine, dispatcher := after.outside.1 },
        after.outside.2.2⟩, after.withOutside after.outside.2.1) := by
  unfold stepChannel Channel.step
  rw [Option.map_map]
  rfl

theorem stepBatching_eq (p : Pipeline ι π φ σ) (scene : Scene σ) : p.stepBatching scene =
    (p.batching.engine.step scene).map
      fun (engine, after) => ({ p with batching := { p.batching with engine } }, after) := by
  unfold stepBatching Batching.step
  rw [Option.map_map]
  rfl

theorem stepChannel_of_stopped (stopped : p.channel.engine.state = .stopped) (scene : Scene σ) :
    p.stepChannel scene = none := by
  rw [stepChannel_eq, Engine.step_of_stopped stopped, Option.map_none]

theorem stepBatching_of_stopped (stopped : p.batching.engine.state = .stopped) (scene : Scene σ) :
    p.stepBatching scene = none := by
  rw [stepBatching_eq, Engine.step_of_stopped stopped, Option.map_none]

end Steps
end Pipeline

namespace Orders

abbrev World := Ledger × Batching Order (List Order) Ledger

/-- What the shop makes of an order that no subscriber takes. -/
def errors : ErrorHandler World :=
  fun error failed => Pipeline.aside (ErrorHandler.publishing errorChannels none error failed)

theorem get?_errorChannels : errorChannels.get? "orders.errors" = some fun m => do
    let correlation := (m.headers.correlationId?).bind (·.asString?)
    Act.modify (·.push (.failed correlation m.payload.description))
    return .ok () := rfl

/-- Why an order is not taken. -/
def rejection (id : Nat) : MessagingError :=
  .deliveryFailed 1 (.text ("order " ++ id.repr ++ " failed validation"))

/-- What is left in the ledger of an order that fails. -/
def failure (id : Nat) : Option String × String :=
  (some ("order-" ++ id.repr), (rejection id).describe)

/-- The failures among so many orders. -/
def failuresTo (n : Nat) : List (Option String × String) :=
  ((List.range n).filter (· % 10 = 0)).map failure

theorem failuresTo_succ (n : Nat) :
    failuresTo (n + 1) = failuresTo n ++ if n % 10 = 0 then [failure n] else [] := by
  rw [failuresTo, List.range_succ, List.filter_append, List.map_append, List.filter_singleton]
  split_ifs with h <;> simp [h, failuresTo]

/-- The message that an order is sent with. -/
structure Letter (id : Nat) (m : Message Order) : Prop where
  payload : m.payload = order id
  replyTo : m.headers.get? Key.replyTo = some (.string "orders.batched")
  errorChannel : m.headers.get? Key.errorChannel = some (.string "orders.errors")
  correlationId : m.headers.get? Key.correlationId = some (.string ("order-" ++ id.repr))

theorem letter_message (id : Nat) (mint : Mint) : Letter id (message id mint).1 := by
  let recipe : Recipe Order := ⟨.ofPayload (order id), [.replyTo "orders.batched",
    .errorChannel "orders.errors", .correlationId (.string ("order-" ++ id.repr))]⟩
  have hmakes := recipe.makes_build mint
  exact ⟨hmakes.payload, hmakes.left Key.replyTo (by decide),
    hmakes.left Key.errorChannel (by decide), hmakes.left Key.correlationId (by decide)⟩

/-- The first orders of a day, one after the other. -/
def Letters (ms : List (Message Order)) : Prop := ∀ n m, ms[n]? = some m → Letter n m

namespace Letters
variable {ms : List (Message Order)} {m : Message Order}

theorem nil : Letters [] := nofun

theorem append (h : Letters ms) (letter : Letter ms.length m) : Letters (ms ++ [m]) := by
  intro n m' hm
  rcases Nat.lt_trichotomy n ms.length with hlt | rfl | hgt
  · exact h n m' (by rwa [List.getElem?_append_left hlt] at hm)
  · rw [List.getElem?_concat_length] at hm
    cases hm
    exact letter
  · rw [List.getElem?_eq_none (by simpa using hgt)] at hm
    cases hm

theorem last (h : Letters (ms ++ [m])) : Letter ms.length m :=
  h _ _ List.getElem?_concat_length

theorem of_first {ms' : List (Message Order)} (h : Letters ms) (first : ms' <+: ms) :
    Letters ms' := by
  obtain ⟨rest, rfl⟩ := first
  intro n m hm
  have hlt := (List.getElem?_eq_some_iff.mp hm).1
  exact h n m (by rwa [List.getElem?_append_left hlt])

theorem labelled (h : Letters ms) : Labelled ms := by
  intro m hm
  obtain ⟨n, hn⟩ := List.getElem?_of_mem hm
  exact Headers.replyTo?_eq_some.mpr (h n m hn).replyTo

end Letters

/-- The orders that do not fail. -/
def sound (ms : List (Message Order)) : List (Message Order) :=
  ms.filter fun m => m.payload.id % 10 ≠ 0

theorem sound_append {ms : List (Message Order)} {m : Message Order} :
    sound (ms ++ [m]) = sound ms ++ if m.payload.id % 10 = 0 then [] else [m] := by
  rw [sound, List.filter_append, List.filter_singleton]
  split_ifs with h <;> simp [h, sound]

theorem Letters.labelled_sound {ms : List (Message Order)} (h : Letters ms) :
    Labelled (sound ms) := fun m hm => h.labelled m (List.mem_of_mem_filter hm)

/-- The dispatcher after so many dispatches. -/
def desk (begun : Nat) : Dispatcher Subscriber :=
  { subscribers := [.check, .batch], rotation := .ofNat begun, failover := false,
    max := UInt64.size - 1, balancing := .roundRobin }

/-- Whose turn it is. -/
def who (begun : Nat) : Subscriber := if begun % 2 = 0 then .check else .batch

theorem begin_desk (begun : Nat) : (desk begun).begin = ([who begun], desk (begun + 1)) := by
  have hturn : (UInt64.ofNat begun).toNat % 2 = begun % 2 := by
    rw [UInt64.toNat_ofNat']
    omega
  have hcandidates : (desk begun).candidates = [who begun] := by
    change ([Subscriber.check, .batch].drop ((UInt64.ofNat begun).toNat % 2) ++
      [Subscriber.check, .batch].take ((UInt64.ofNat begun).toNat % 2)).take 1 = _
    rw [hturn, who]
    rcases Nat.mod_two_eq_zero_or_one begun with h | h <;> rw [h] <;> rfl
  have hrotation : UInt64.ofNat begun + 1 = UInt64.ofNat (begun + 1) := (UInt64.ofNat_add _ _).symm
  rw [Dispatcher.begin_eq, hcandidates, if_pos ⟨rfl, List.cons_ne_nil _ _⟩]
  exact congrArg (fun rotation => ([who begun], { desk begun with rotation })) hrotation

/-- After these orders: those that failed are in the ledger, and all others have been passed on to
batching, whose worker has taken so many steps. -/
def Handed (taken : Nat) (ms : List (Message Order)) (world : World) : Prop :=
  world.2.engine.Serves false (settling (failuresTo ms.length)) world.1 (sound ms) taken

section Dispatch
variable {id taken : Nat} {ms : List (Message Order)} {m : Message Order} {scene : Scene World}

/-- A failure in the ledger is no concern of the batching worker. -/
theorem Handed.fail {world : World} (h : Handed taken ms world) (m : Message Order)
    (tenth : ms.length % 10 = 0) (id : m.payload.id = ms.length) :
    Handed taken (ms ++ [m])
      (world.1.push (.failed (failure ms.length).1 (failure ms.length).2), world.2) := by
  have hkept {calls : List (HandlerCall (Message Order))} {memory : Accumulator (Message Order)}
      (hk : Kept (failuresTo ms.length) calls memory world.1) :
      Kept (failuresTo (ms ++ [m]).length) calls memory
        (world.1.push (.failed (failure ms.length).1 (failure ms.length).2)) := by
    refine ⟨by rw [batches_push_failed, hk.batches], hk.memory, ?_⟩
    rw [failed_push_failed, hk.failed, List.length_append, List.length_singleton,
      failuresTo_succ, if_pos tenth]
  unfold Handed
  rw [sound_append, id, if_pos tenth, List.append_nil]
  refine h.change rfl (fun calls memory idle labelled => hkept (idle labelled)) ?_
  intro calls call turn memory busy labelled
  rcases busy labelled with ⟨hturn, hk⟩ | ⟨hturn, hk⟩
  · exact .inl ⟨hturn, hkept hk⟩
  · exact .inr ⟨hturn, hkept hk⟩

theorem publishing_letter (letter : Letter id m) (scene : Scene Ledger) :
    ∃ after, ErrorHandler.publishing errorChannels none (rejection id) (some m.headers) scene =
        some (.ok (), after) ∧
      after.outside = scene.outside.push (.failed (failure id).1 (failure id).2) := by
  have htarget : ErrorReport.target none (some m.headers) = some "orders.errors" := by
    rw [ErrorReport.target, Option.bind_some,
      Headers.errorChannel?_eq_some.mpr letter.errorChannel, Option.some_or]
  have hmakes := (ErrorReport.recipe (rejection id) (some m.headers)).makes_build scene.mint
  have hcorrelation := hmakes.left Key.correlationId (by decide)
  rw [ErrorReport.left_recipe, if_pos rfl] at hcorrelation
  let report := ((ErrorReport.builder (rejection id) (some m.headers)).build scene.mint).1
  have hname : report.headers.get? Key.correlationId = some (.string ("order-" ++ id.repr)) :=
    hcorrelation.trans letter.correlationId
  have hdescription : report.payload.description = (rejection id).describe :=
    congrArg ErrorReport.description hmakes.payload
  refine ⟨_, (ErrorHandler.publishing_of_target htarget get?_errorChannels scene).trans rfl, ?_⟩
  change scene.outside.push (.failed ((report.headers.get? Key.correlationId).bind
    HeaderValue.asString?) report.payload.description) = _
  rw [hname, hdescription]
  rfl

theorem errors_letter (letter : Letter id m) (scene : Scene World) :
    ∃ after, errors (rejection id) (some m.headers) scene = some (.ok (), after) ∧
      after.outside = (scene.outside.1.push (.failed (failure id).1 (failure id).2),
        scene.outside.2) := by
  obtain ⟨after, hpublishing, houtside⟩ :=
    publishing_letter letter (scene.withOutside scene.outside.1)
  exact ⟨_, Pipeline.aside_of_some hpublishing, Prod.ext houtside rfl⟩

/-- The order goes on to batching. -/
theorem take_of_sound (letter : Letter id m) (other : id % 10 ≠ 0) :
    take (who id) m = Pipeline.pass m := by
  have hid : m.payload.id = id := by rw [letter.payload, order]
  unfold who
  split_ifs
  · rw [take, if_neg (by rwa [hid])]
  · rfl

/-- Every tenth order is even, and so it is checked. -/
theorem take_of_tenth (letter : Letter id m) (tenth : id % 10 = 0) (scene : Scene World) :
    take (who id) m scene =
      some (.ok (.error (.text ("order " ++ id.repr ++ " failed validation"))), scene) := by
  have hid : m.payload.id = id := by rw [letter.payload, order]
  have hchecked : who id = .check := if_pos (by omega)
  rw [hchecked, take, hid, if_pos tenth]
  rfl

/-- An order is dispatched to its end, unless it has to wait for a free slot. -/
theorem settle_letter (letter : Letter ms.length m) (handed : Handed taken ms scene.outside) :
    (∃ after, Channel.settle take errors m [who ms.length] scene = some (.ok (.ok ()), after) ∧
      Handed taken (ms ++ [m]) after.outside) ∨
    (Channel.settle take errors m [who ms.length] scene = none ∧
      scene.outside.2.engine.remaining? = some 0) := by
  have hid : m.payload.id = ms.length := by rw [letter.payload, order]
  by_cases htenth : ms.length % 10 = 0
  · left
    have hdeliver := Dispatcher.deliver_of_some (take_of_tenth letter htenth scene)
    obtain ⟨after, herrors, houtside⟩ := errors_letter letter scene
    refine ⟨after, (Act.bind_ok hdeliver).trans ((Act.bind_ok herrors).trans rfl), ?_⟩
    rw [houtside]
    exact handed.fail m htenth hid
  · have htake := take_of_sound letter htenth
    rcases handed.publish rfl m with ⟨n, engine, hpublish, hserves⟩ | ⟨hwaits, hfull⟩
    · left
      have hpass := Pipeline.pass_of_done hpublish
      rw [← htake] at hpass
      refine ⟨_, (Act.bind_ok (Dispatcher.deliver_of_some hpass)).trans rfl, ?_⟩
      unfold Handed
      rw [sound_append, hid, if_neg htenth, List.length_append, List.length_singleton,
        failuresTo_succ, if_neg htenth, List.append_nil]
      exact hserves
    · have hpass := Pipeline.pass_of_waits hwaits
      rw [← htake] at hpass
      exact .inr ⟨Act.bind_of_waits _ (Dispatcher.deliver_of_waits hpass), hfull⟩

end Dispatch

/-- After so many dispatches, the last of which may not have come to its end. -/
structure At (begun taken : Nat) (ms : List (Message Order))
    (outside : Dispatcher Subscriber × World) : Prop where
  desk : outside.1 = desk begun
  handed : Handed taken ms outside.2

/-- The second act of a dispatch. -/
def dispatching (id : Nat) (m : Message Order) :
    Turn (Message Order) (Unit × Scene (Dispatcher Subscriber × World)) :=
  .ofAct (Channel.beside (Channel.settle take errors m [who id]))

/-- What the channel's worker has done if it was given the orders of a day, while the worker for
batching has taken so many steps. -/
def handed (taken : Nat) : Conduct (Message Order) Unit (Dispatcher Subscriber × World) where
  idle calls _ outside :=
    Letters (items calls) → At (items calls).length taken (items calls) outside
  busy calls call turn _ outside := Letters (items (calls ++ [call])) →
    (turn = call.turn (Channel.handler take errors) ∧
        At (items calls).length taken (items calls) outside) ∨
      (∃ m, call.item? = some m ∧ turn = dispatching (items calls).length m ∧
        At ((items calls).length + 1) taken (items calls) outside) ∨
      ((∃ outcome, turn = .finish outcome) ∧
        At (items (calls ++ [call])).length taken (items (calls ++ [call])) outside)

section Conduct
variable {taken : Nat} {calls : List (HandlerCall (Message Order))}
  {call : HandlerCall (Message Order)} {m : Message Order}

theorem Letters.earlier (h : Letters (items (calls ++ [call]))) : Letters (items calls) :=
  h.of_first (items_earlier calls call)

theorem items_of_some (here : call.item? = some m) : items (calls ++ [call]) = items calls ++ [m] := by
  rw [items_append, here, Option.toList_some]

/-- The second act of a dispatch happens, unless batching makes it wait. -/
theorem beside_letter {scene : Scene (Dispatcher Subscriber × World)} (here : call.item? = some m)
    (letters : Letters (items (calls ++ [call])))
    (at_desk : At ((items calls).length + 1) taken (items calls) scene.outside) :
    (∃ after, Channel.beside (Channel.settle take errors m [who (items calls).length]) scene =
        some (.ok (.ok ()), after) ∧
      At (items (calls ++ [call])).length taken (items (calls ++ [call])) after.outside) ∨
    (Channel.beside (Channel.settle take errors m [who (items calls).length]) scene = none ∧
      scene.outside.2.2.engine.remaining? = some 0) := by
  rw [items_of_some here] at letters ⊢
  have hhere : Handed taken (items calls) (scene.withOutside scene.outside.2).outside :=
    at_desk.handed
  rcases settle_letter letters.last hhere with ⟨after, hsettle, hhanded⟩ | ⟨hwaits, hfull⟩
  · left
    refine ⟨_, Act.focus_of_some hsettle, ?_, hhanded⟩
    rw [List.length_append, List.length_singleton]
    exact at_desk.desk
  · exact .inr ⟨Act.focus_of_waits hwaits, hfull⟩

theorem handed_governs : (handed taken).Governs (Channel.handler take errors) where
  begin call idle := fun letters => .inl ⟨rfl, idle letters.earlier⟩
  move {calls call turn turn' r r' memory memory' scene scene'} busy move := by
    intro letters
    rcases busy letters with ⟨rfl, hat⟩ | ⟨m, hitem, rfl, hat⟩ | ⟨⟨outcome, rfl⟩, -⟩
    · cases call with
      | event m sequence last =>
        have hbegin := begin_desk (items calls).length
        rw [← hat.desk] at hbegin
        have hturn : Turn.ofAct (Channel.beside (Channel.settle take errors m
            scene.outside.1.begin.1)) = dispatching (items calls).length m := by
          rw [hbegin]
          rfl
        cases move
        exact .inr (.inl ⟨m, rfl, hturn, congrArg Prod.snd hbegin, hat.handed⟩)
      | start | endOfBatch sequence | shutdown => cases move
    · rcases beside_letter hitem letters hat with ⟨after, hact, hafter⟩ | ⟨hwaits, -⟩
      · have hmove : (dispatching (items calls).length m).move r (memory, scene) =
            some (.finish .ok, r, memory, after) := by
          simp [dispatching, Turn.ofAct, Turn.move, hact, Turn.outcomeOf]
        rw [hmove] at move
        cases move
        exact .inr (.inr ⟨⟨_, rfl⟩, hafter⟩)
      · simp [dispatching, Turn.ofAct, Turn.move, hwaits] at move
    · cases move
  finish {calls call outcome memory outside} busy := by
    intro letters
    rcases busy letters with ⟨hturn, hat⟩ | ⟨_, _, hturn, _⟩ | ⟨-, hat⟩
    · have hitem := (Channel.turn_eq_finish hturn.symm).2
      rw [items_append, hitem, Option.toList_none, List.append_nil]
      exact hat
    · cases hturn
    · exact hat

end Conduct

def handing (taken : Nat) : Duty (Message Order) Unit (Dispatcher Subscriber × World) where
  config := ring
  handler := Channel.handler take errors
  acts := 2
  within := Channel.handler_within take errors
  conduct := handed taken
  governs := handed_governs

section Waiting
variable {taken : Nat} {calls : List (HandlerCall (Message Order))}
  {call : HandlerCall (Message Order)} {ms : List (Message Order)}
  {outside : Dispatcher Subscriber × World}

/-- Only batching makes the channel's worker wait. -/
theorem handed_ready {run : Unit × Scene (Dispatcher Subscriber × World) →
      Option (Turn (Message Order) (Unit × Scene (Dispatcher Subscriber × World)) ×
        Unit × Scene (Dispatcher Subscriber × World))}
    {scene : Scene (Dispatcher Subscriber × World)}
    (busy : (handed taken).busy calls call (.access run) () scene.outside)
    (letters : Letters (items (calls ++ [call]))) (waits : run ((), scene) = none) :
    scene.outside.2.2.engine.remaining? = some 0 := by
  rcases busy letters with ⟨hturn, -⟩ | ⟨m, hitem, hturn, hat⟩ | ⟨⟨outcome, hturn⟩, -⟩
  · cases call with
    | event m sequence last =>
      cases hturn
      cases waits
    | start | endOfBatch sequence | shutdown => cases hturn
  · cases hturn
    rcases beside_letter hitem letters hat with ⟨after, hact, -⟩ | ⟨-, hfull⟩
    · simp [hact] at waits
    · exact hfull
  · cases hturn

section Engine
variable {halted : Bool} {steps : Nat}
  {channel : Engine (Message Order) Unit (Dispatcher Subscriber × World)}

/-- The channel's worker has dispatched the first of the orders. -/
theorem exists_at (h : channel.Serves halted (handing taken) outside ms steps) (letters : Letters ms) :
    ∃ first begun, first <+: ms ∧ At begun taken first outside := by
  obtain ⟨calls, memory, hfirst, hidle | ⟨earlier, call, turn, rfl, hbusy⟩⟩ := h.conducts
  · exact ⟨_, _, hfirst, hidle (letters.of_first hfirst)⟩
  · have hearlier : items earlier <+: ms := (items_earlier earlier call).trans hfirst
    rcases hbusy (letters.of_first hfirst) with ⟨-, hat⟩ | ⟨_, -, -, hat⟩ | ⟨-, hat⟩
    · exact ⟨_, _, hearlier, hat⟩
    · exact ⟨_, _, hearlier, hat⟩
    · exact ⟨_, _, hfirst, hat⟩

/-- The channel's worker goes on while it has orders to dispatch, unless batching is full. -/
theorem handing_stuck {scene : Scene (Dispatcher Subscriber × World)}
    (h : channel.Serves halted (handing taken) scene.outside ms steps) (letters : Letters ms)
    (waits : channel.step scene = none) :
    (halted = true ∧ channel.workerDone = true) ∨
    (halted = false ∧ channel.remaining? ≠ some 0) ∨
    scene.outside.2.2.engine.remaining? = some 0 := by
  rcases h.stuck waits with hdone | hfree | ⟨calls, call, run, memory, hfirst, hbusy, hwaits⟩
  · exact .inl hdone
  · exact .inr (.inl hfree)
  · exact .inr (.inr (handed_ready hbusy (letters.of_first hfirst) hwaits))

/-- Steps of the batching worker leave the channel's where it is. -/
theorem step_beside (h : channel.Serves halted (handing taken) outside ms steps)
    {scene scene' : Scene Ledger} (here : scene.outside = outside.2.1)
    {engine : Engine (Message Order) (Accumulator (Message Order)) Ledger}
    (step : outside.2.2.engine.step scene = some (engine, scene')) :
    channel.Serves halted (handing (taken + 1))
      (outside.1, scene'.outside, { outside.2.2 with engine }) ms steps := by
  have hat {begun : Nat} {first : List (Message Order)} (h : At begun taken first outside) :
      At begun (taken + 1) first (outside.1, scene'.outside, { outside.2.2 with engine }) := by
    have hhanded := h.handed
    unfold Handed at hhanded
    rw [← here] at hhanded
    exact ⟨h.desk, hhanded.step step⟩
  refine h.change rfl (fun calls memory idle letters => hat (idle letters)) ?_
  intro calls call turn memory busy letters
  rcases busy letters with ⟨hturn, h⟩ | ⟨m, hitem, hturn, h⟩ | ⟨hturn, h⟩
  · exact .inl ⟨hturn, hat h⟩
  · exact .inr (.inl ⟨m, hitem, hturn, hat h⟩)
  · exact .inr (.inr ⟨hturn, hat h⟩)

end Engine
end Waiting

end Orders
end MessageRing
