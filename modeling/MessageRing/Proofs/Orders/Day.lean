import MessageRing.Proofs.Orders.Totals

/-!
How a day ends.

However the clerk and the two workers take turns, a day comes to its end: some party can always go
on, and each of them goes on only so often. What it comes to then depends on the number of orders
alone, but for how the settled ones fall into batches.
-/
namespace MessageRing
namespace Orders
variable {orders i j : Nat} {ms : List (Message Order)} {d : Day}

/-- The channel has accepted these orders, its worker has taken `i` steps and that of batching `j`. -/
structure Day.Open (d : Day) (halted : Bool) (ms : List (Message Order)) (i j : Nat) : Prop where
  letters : Letters ms
  serves : d.shop.channel.engine.Serves halted (handing j)
    (d.shop.channel.dispatcher, d.scene.outside, d.shop.batching) ms i

/-- The channel has stopped, and batching has been halted; its worker has taken `j` steps. -/
structure Day.Drained (d : Day) (ms : List (Message Order)) (j : Nat) : Prop where
  letters : Letters ms
  channel : ∃ metrics, d.shop.channel.engine.status = .stopped metrics ∧
    metrics.published = ms.length ∧ metrics.consumed = ms.length
  serves : d.shop.batching.engine.Serves true (settling (failuresTo ms.length)) d.scene.outside
    (sound ms) j

namespace Day.Open
variable {halted : Bool}

/-- Batching has been given the first of the orders, as far as they do not fail. -/
theorem batching (h : d.Open halted ms i j) : ∃ first, first <+: ms ∧
    d.shop.batching.engine.Serves false (settling (failuresTo first.length)) d.scene.outside
      (sound first) j := by
  obtain ⟨first, begun, hfirst, hat⟩ := exists_at h.serves h.letters
  exact ⟨first, hfirst, hat.handed⟩

theorem bounds (h : d.Open halted ms i j) :
    i ≤ 3 * (5 * ms.length + 4) ∧ j ≤ 2 * (5 * ms.length + 4) := by
  obtain ⟨first, hfirst, hserves⟩ := h.batching
  have hchannel : i ≤ 3 * (5 * ms.length + 4) := h.serves.taken_le
  have hbatching : j ≤ 2 * (5 * (sound first).length + 4) := hserves.taken_le
  have hsound : (sound first).length ≤ first.length := List.length_filter_le _ _
  have hle := hfirst.length_le
  omega

theorem stepChannel {shop : Shop} {scene : Scene Ledger} (h : d.Open halted ms i j)
    (step : d.shop.stepChannel d.scene = some (shop, scene)) :
    Open { d with shop, scene } halted ms (i + 1) j := by
  rw [Pipeline.stepChannel_eq] at step
  obtain ⟨⟨engine, _⟩, hstep, he⟩ := Option.map_eq_some_iff.mp step
  cases he
  exact ⟨h.letters, h.serves.step hstep⟩

theorem stepBatching {shop : Shop} {scene : Scene Ledger} (h : d.Open halted ms i j)
    (step : d.shop.stepBatching d.scene = some (shop, scene)) :
    Open { d with shop, scene } halted ms i (j + 1) := by
  rw [Pipeline.stepBatching_eq] at step
  obtain ⟨⟨engine, _⟩, hstep, he⟩ := Option.map_eq_some_iff.mp step
  cases he
  exact ⟨h.letters, step_beside h.serves rfl hstep⟩

/-- When neither worker can go on, the channel is done or has a free slot. -/
theorem stuck (h : d.Open halted ms i j) (channel : d.shop.stepChannel d.scene = none)
    (batching : d.shop.stepBatching d.scene = none) :
    (halted = true ∧ d.shop.channel.engine.workerDone = true) ∨
    (halted = false ∧ d.shop.channel.engine.remaining? ≠ some 0) := by
  rw [Pipeline.stepChannel_eq, Option.map_eq_none_iff] at channel
  rw [Pipeline.stepBatching_eq, Option.map_eq_none_iff] at batching
  obtain ⟨first, hfirst, hserves⟩ := h.batching
  have hlabelled := (h.letters.of_first hfirst).labelled_sound
  rcases handing_stuck h.serves h.letters channel with hdone | hfree | hfull
  · exact .inl hdone
  · exact .inr hfree
  · -- batching would be full and have nothing to do
    rcases settling_stuck hserves hlabelled batching with ⟨hfalse, -⟩ | ⟨-, hfree⟩
    · cases hfalse
    · exact absurd hfull hfree

/-- The clerk sends the next order, unless the channel is full. -/
theorem send (h : d.Open false ms i j) :
    (∃ e m, d.send ms.length = some e ∧ e.stage = .sending (ms ++ [m]).length ∧
      e.Open false (ms ++ [m]) i j) ∨
    (d.send ms.length = none ∧ d.shop.channel.engine.remaining? = some 0) := by
  rcases h.serves.publish rfl (message ms.length d.scene.mint).1 with
    ⟨n, engine, hpublish, hserves⟩ | ⟨hwaits, hfull⟩
  · left
    refine ⟨⟨{ d.shop with channel := { d.shop.channel with engine } },
      { d.scene with mint := (message ms.length d.scene.mint).2 }, .sending (ms.length + 1)⟩,
      (message ms.length d.scene.mint).1, ?_, ?_, h.letters.append (letter_message _ _), hserves⟩
    · simp only [Day.send, Channel.send, hpublish]
      rfl
    · rw [List.length_append, List.length_singleton]
  · refine .inr ⟨?_, hfull⟩
    simp only [Day.send, Channel.send, hwaits]
    rfl

/-- The channel stops and batching is halted. -/
theorem close (h : d.Open true ms i j)
    (done : d.shop.channel.engine.workerDone = true) (stage : d.stage = .closing) :
    ∃ e, d.clerk orders = some e ∧ e.stage = .settling ∧ e.Drained ms j := by
  let scene := d.scene.withOutside (d.scene.outside, d.shop.batching)
  have hserves : d.shop.channel.engine.Serves true (handing j) (d.shop.channel.lend scene).outside
      ms i := h.serves
  obtain ⟨metrics, hstop, hpublished, hconsumed, earlier, _, hitems, hidle⟩ :=
    hserves.stop done rfl ring.patience
  have hchannel := Channel.stop_of_engine (c := d.shop.channel) hstop
  have hletters := h.letters
  subst hitems
  have hhanded := (hidle hletters).handed
  refine ⟨⟨⟨{ d.shop.channel with
      engine := { d.shop.channel.engine with status := .stopped metrics } },
    { d.shop.batching with engine := d.shop.batching.engine.halt }⟩, d.scene, .settling⟩,
    ?_, rfl, hletters, ⟨metrics, rfl, hpublished, hconsumed⟩, hhanded.halt⟩
  simp only [Day.clerk, stage, done, if_true, Pipeline.onChannel]
  rw [hchannel]
  rfl

end Day.Open

namespace Day.Drained

theorem bound (h : d.Drained ms j) : j ≤ 2 * (5 * ms.length + 4) := by
  have hbatching : j ≤ 2 * (5 * (sound ms).length + 4) := h.serves.taken_le
  have hsound : (sound ms).length ≤ ms.length := List.length_filter_le _ _
  omega

theorem stepBatching {shop : Shop} {scene : Scene Ledger} (h : d.Drained ms j)
    (step : d.shop.stepBatching d.scene = some (shop, scene)) :
    Drained { d with shop, scene } ms (j + 1) := by
  rw [Pipeline.stepBatching_eq] at step
  obtain ⟨⟨engine, _⟩, hstep, he⟩ := Option.map_eq_some_iff.mp step
  cases he
  exact ⟨h.letters, h.channel, h.serves.step hstep⟩

theorem stepChannel (h : d.Drained ms j) : d.shop.stepChannel d.scene = none := by
  obtain ⟨metrics, hstatus, -⟩ := h.channel
  exact Pipeline.stepChannel_of_stopped (by rw [Engine.state, hstatus]) d.scene

/-- Batching stops. -/
theorem settle (h : d.Drained ms j) (done : d.shop.batching.engine.workerDone = true)
    (stage : d.stage = .settling) :
    ∃ e, d.clerk orders = some e ∧ e.stage = .closed ∧ e.AddsUp ms.length := by
  obtain ⟨metrics, hstop, hpublished, hconsumed, earlier, memory, hitems, hidle⟩ :=
    h.serves.stop done rfl ring.patience
  obtain ⟨metrics', hstatus, hpublished', hconsumed'⟩ := h.channel
  have hlabelled := h.letters.labelled_sound
  rw [← hitems] at hlabelled
  have hkept := hidle hlabelled
  obtain ⟨hsettled, hshort⟩ := hkept.closed
  refine ⟨⟨{ d.shop with batching := { d.shop.batching with
    engine := { d.shop.batching.engine with status := .stopped metrics } } }, d.scene, .closed⟩,
    ?_, rfl, .of_stopped hstatus rfl hkept.failed ?_ hshort hpublished' hconsumed' ?_⟩
  · simp only [Day.clerk, stage, done, if_true, Pipeline.onBatching, Batching.stop, hstop]
  · rw [← h.letters.payloads_sound, ← hitems]
    exact hsettled
  · rw [← h.letters.payloads_sound, List.length_map]
    exact hconsumed

end Day.Drained

/-- How far a day has come after so many moves, those of the clerk and of both workers. -/
inductive Day.Course (orders : Nat) (d : Day) (n : Nat) : Prop
  | sending {ms : List (Message Order)} {i j : Nat} (stage : d.stage = .sending ms.length)
    (le : ms.length ≤ orders) (here : d.Open false ms i j) (moves : n = ms.length + i + j)
  | closing {ms : List (Message Order)} {i j : Nat} (stage : d.stage = .closing)
    (all : ms.length = orders) (here : d.Open true ms i j) (moves : n = orders + 1 + i + j)
  | settling {ms : List (Message Order)} {i j : Nat} (stage : d.stage = .settling)
    (all : ms.length = orders) (le : i ≤ 3 * (5 * orders + 4)) (here : d.Drained ms j)
    (moves : n = orders + 2 + i + j)
  | closed (stage : d.stage = .closed) (here : d.AddsUp orders) (le : n ≤ 26 * orders + 23)

namespace Day.Course
variable {n : Nat}

theorem le (h : d.Course orders n) : n ≤ 26 * orders + 23 := by
  -- orders + 3 moves of the clerk, and at most 15 * orders + 12 and 10 * orders + 8 of the workers
  cases h with
  | sending stage le here moves =>
    have hbounds := here.bounds
    omega
  | closing stage all here moves =>
    have hbounds := here.bounds
    omega
  | settling stage all le here moves =>
    have hbound := here.bound
    omega
  | closed stage here le => exact le

theorem stepClerk {e : Day} (h : d.Course orders n) (step : d.clerk orders = some e) :
    e.Course orders (n + 1) := by
  cases h with
  | @sending ms i j stage le here moves =>
    simp only [Day.clerk, stage] at step
    split_ifs at step with hmore
    · rcases here.send with ⟨_, m, hsend, hstage, hopen⟩ | ⟨hwaits, -⟩
      · rw [hsend] at step
        cases step
        have hlength : (ms ++ [m]).length = ms.length + 1 := by simp
        exact .sending hstage (by omega) hopen (by omega)
      · rw [hwaits] at step
        cases step
    · cases step
      have hall : ms.length = orders := by omega
      exact .closing rfl hall ⟨here.letters, here.serves.halt⟩ (by omega)
  | @closing ms i j stage all here moves =>
    have hbounds := here.bounds
    by_cases hdone : d.shop.channel.engine.workerDone = true
    · obtain ⟨_, hclose, hstage, hdrained⟩ := here.close hdone stage
      rw [hclose] at step
      cases step
      exact .settling (i := i) hstage all (by omega) hdrained (by omega)
    · simp [Day.clerk, stage, hdone] at step
  | @settling ms i j stage all le here moves =>
    have hbound := here.bound
    by_cases hdone : d.shop.batching.engine.workerDone = true
    · obtain ⟨_, hsettle, hstage, haddsUp⟩ := here.settle hdone stage
      rw [hsettle] at step
      cases step
      exact .closed hstage (all ▸ haddsUp) (by omega)
    · simp [Day.clerk, stage, hdone] at step
  | closed stage here le => simp [Day.clerk, stage] at step

theorem step {e : Day} (h : d.Course orders n) {party : Party}
    (step : d.step orders party = some e) : e.Course orders (n + 1) := by
  cases party with
  | clerk => exact h.stepClerk step
  | channel =>
    obtain ⟨⟨shop, scene⟩, hstep, rfl⟩ := Option.map_eq_some_iff.mp step
    cases h with
    | sending stage le here moves => exact .sending stage le (here.stepChannel hstep) (by omega)
    | closing stage all here moves => exact .closing stage all (here.stepChannel hstep) (by omega)
    | settling stage all le here moves =>
      rw [here.stepChannel] at hstep
      cases hstep
    | closed stage here le =>
      rw [Pipeline.stepChannel_of_stopped here.stopped.1] at hstep
      cases hstep
  | batching =>
    obtain ⟨⟨shop, scene⟩, hstep, rfl⟩ := Option.map_eq_some_iff.mp step
    cases h with
    | sending stage le here moves => exact .sending stage le (here.stepBatching hstep) (by omega)
    | closing stage all here moves => exact .closing stage all (here.stepBatching hstep) (by omega)
    | settling stage all le here moves =>
      exact .settling stage all le (here.stepBatching hstep) (by omega)
    | closed stage here le =>
      rw [Pipeline.stepBatching_of_stopped here.stopped.2] at hstep
      cases hstep

/-- Until it is closed some party can go on. -/
theorem progress (h : d.Course orders n) (going : d.stage ≠ .closed) :
    ∃ party e, d.step orders party = some e := by
  by_contra hnone
  have hstuck (party : Party) : d.step orders party = none :=
    Option.eq_none_iff_forall_ne_some.mpr fun e he => hnone ⟨party, e, he⟩
  have hclerk : d.clerk orders = none := hstuck .clerk
  have hchannel := Option.map_eq_none_iff.mp (hstuck .channel)
  have hbatching := Option.map_eq_none_iff.mp (hstuck .batching)
  cases h with
  | @sending ms i j stage le here moves =>
    simp only [Day.clerk, stage] at hclerk
    split_ifs at hclerk
    rcases here.stuck hchannel hbatching with ⟨hfalse, -⟩ | ⟨-, hfree⟩
    · cases hfalse
    · rcases here.send with ⟨_, m, hsend, -⟩ | ⟨-, hfull⟩
      · rw [hsend] at hclerk
        cases hclerk
      · exact hfree hfull
  | closing stage all here moves =>
    rcases here.stuck hchannel hbatching with ⟨-, hdone⟩ | ⟨hfalse, -⟩
    · obtain ⟨_, hclose, -⟩ := here.close hdone stage
      rw [hclose] at hclerk
      cases hclerk
    · cases hfalse
  | settling stage all le here moves =>
    rw [Pipeline.stepBatching_eq, Option.map_eq_none_iff] at hbatching
    rcases settling_stuck here.serves here.letters.labelled_sound hbatching with
      ⟨-, hdone⟩ | ⟨hfalse, -⟩
    · obtain ⟨_, hsettle, -⟩ := here.settle hdone stage
      rw [hsettle] at hclerk
      cases hclerk
    · cases hfalse
  | closed stage here le => exact going stage

theorem moves {last : Day} (parties : List Party) (h : d.Course orders n)
    (run : parties.foldlM (fun d party => d.step orders party) d = some last) :
    last.Course orders (n + parties.length) := by
  induction parties generalizing d n with
  | nil =>
    cases run
    exact h
  | cons party parties ih =>
    rw [List.foldlM_cons] at run
    obtain ⟨e, hstep, hrest⟩ := Option.bind_eq_some_iff.mp run
    rw [List.length_cons, Nat.add_comm parties.length, ← Nat.add_assoc]
    exact ih (h.step hstep) hrest

end Day.Course

section Opening

def newChannel : Channel Subscriber Order World :=
  { engine := ⟨"orders", ring, .stopped {}⟩, dispatcher := desk 0, call := take, errors }

def newBatching : Batching Order (List Order) Ledger :=
  { engine := ⟨"orders.batcher", ring, .stopped {}⟩, size := 32, target := settlement }

theorem build_eq : build = .ok ⟨newChannel, newBatching⟩ := rfl

theorem batching_starts (scene : Scene Ledger) (new : scene.outside = #[]) : ∃ engine,
    newBatching.start none 0 scene = (.ok (), { newBatching with engine }, scene) ∧
      engine.Serves false (settling (failuresTo 0)) scene.outside [] 0 := by
  have hidle : (settling (failuresTo 0)).conduct.idle [] empty scene.outside := by
    rw [new]
    exact fun _ => ⟨rfl, rfl, rfl⟩
  have hable : newBatching.engine.Able := ⟨by decide, by decide, by decide⟩
  obtain ⟨engine, hstart, hserves⟩ :=
    Engine.Serves.of_start hable rfl rfl hidle "orders.batcher" 0
  exact ⟨engine, Batching.start_of_engine rfl hstart, hserves⟩

theorem channel_starts (scene : Scene World) (handed : Handed 0 [] scene.outside) : ∃ engine,
    newChannel.start none 0 scene = (.ok (), { newChannel with engine }, scene) ∧
      engine.Serves false (handing 0) (desk 0, scene.outside) [] 0 := by
  have hidle : (handing 0).conduct.idle [] () (newChannel.lend scene).outside :=
    fun _ => ⟨rfl, handed⟩
  have hable : newChannel.engine.Able := ⟨by decide, by decide, by decide⟩
  obtain ⟨engine, hstart, hserves⟩ := Engine.Serves.of_start hable rfl rfl hidle "orders" 0
  exact ⟨engine, (Channel.start_of_engine (c := newChannel) hstart).trans rfl, hserves⟩

/-- The shop opens. -/
theorem exists_opening (mint : Mint) (orders : Nat) :
    ∃ first, opening mint = .ok first ∧ first.Course orders 0 := by
  obtain ⟨batcher, hbatching, hserves⟩ := batching_starts ⟨#[], [], mint⟩ rfl
  obtain ⟨engine, hchannel, hserves'⟩ := channel_starts
    ⟨(#[], { newBatching with engine := batcher }), [], mint⟩ hserves
  let first : Day :=
    { shop := ⟨{ newChannel with engine }, { newBatching with engine := batcher }⟩
      scene := ⟨#[], [], mint⟩
      stage := .sending 0 }
  have hopen : first.Open false [] 0 0 := ⟨.nil, hserves'⟩
  have hstage : first.stage = .sending ([] : List (Message Order)).length := rfl
  refine ⟨first, ?_, .sending hstage (Nat.zero_le _) hopen rfl⟩
  simp only [opening, build_eq, Pipeline.onBatching, Pipeline.onChannel, Scene.withOutside,
    bind, Except.bind, pure, Except.pure, hbatching, hchannel, first]

end Opening

/-- Whoever need not wait goes on. -/
def Day.next (orders : Nat) (d : Day) : Option Day :=
  (d.step orders .clerk).or ((d.step orders .channel).or (d.step orders .batching))

theorem Day.exists_step_of_next {e : Day} (h : d.next orders = some e) :
    ∃ party, d.step orders party = some e := by
  rcases Option.or_eq_some_iff.mp h with hclerk | ⟨-, h⟩
  · exact ⟨.clerk, hclerk⟩
  · rcases Option.or_eq_some_iff.mp h with hchannel | ⟨-, hbatching⟩
    · exact ⟨.channel, hchannel⟩
    · exact ⟨.batching, hbatching⟩

theorem Day.step_of_next_none (h : d.next orders = none) (party : Party) :
    d.step orders party = none := by
  obtain ⟨hclerk, h⟩ := Option.or_eq_none_iff.mp h
  obtain ⟨hchannel, hbatching⟩ := Option.or_eq_none_iff.mp h
  cases party <;> assumption

theorem Day.Reachable.course {mint : Mint} (h : Day.Reachable mint orders d) :
    ∃ n, d.Course orders n := by
  induction h with
  | opening opened =>
    obtain ⟨first, hopening, hcourse⟩ := exists_opening mint orders
    rw [hopening] at opened
    cases opened
    exact ⟨0, hcourse⟩
  | step party _ step ih =>
    obtain ⟨n, hcourse⟩ := ih
    exact ⟨n + 1, hcourse.step step⟩

/-- However the parties take turns, and so however the orders fall into windows on either ring, a day
ends after a number of moves that depends on the number of orders alone. No order is refused, until
the shop is closed some party can go on, and what the day comes to is then as `Day.AddsUp` says. A
run comes to that end. -/
theorem totals_add_up (mint : Mint) (orders : Nat) :
    (∃ first, opening mint = .ok first ∧ ∀ (parties : List Party) (last : Day),
      parties.foldlM (fun d party => Day.step orders d party) first = some last →
        parties.length ≤ 26 * orders + 23) ∧
    (∃ last, run mint orders = .ok last ∧ Day.Reachable mint orders last ∧
      last.stage = .closed) ∧
    ∀ d, Day.Reachable mint orders d →
      (∀ error, d.stage ≠ .refused error) ∧
      (d.stage ≠ .closed → ∃ party e, d.step orders party = some e) ∧
      (d.stage = .closed → d.AddsUp orders) := by
  obtain ⟨first, hopening, hcourse⟩ := exists_opening mint orders
  refine ⟨⟨first, hopening, fun parties last hrun => ?_⟩, ?_, fun d hreached => ?_⟩
  · have hle := (hcourse.moves parties hrun).le
    omega
  · have hkeeps (n : Nat) (d e : Day) (hd : d.Course orders n ∧ Day.Reachable mint orders d)
        (hnext : d.next orders = some e) :
        e.Course orders (n + 1) ∧ Day.Reachable mint orders e := by
      obtain ⟨party, hstep⟩ := Day.exists_step_of_next hnext
      exact ⟨hd.1.step hstep, .step party hd.2 hstep⟩
    obtain ⟨m, ⟨hlast, hreached⟩, hend⟩ :=
      advance_counts hkeeps (64 * (orders + 4)) ⟨hcourse, .opening hopening⟩
    refine ⟨advance (Day.next orders) (64 * (orders + 4)) first, ?_, hreached, ?_⟩
    · unfold run
      rw [hopening]
      rfl
    · have hle := hlast.le
      have hstuck := Day.step_of_next_none (hend.resolve_right (by omega))
      by_contra hgoing
      obtain ⟨party, e, hstep⟩ := hlast.progress hgoing
      rw [hstuck] at hstep
      cases hstep
  · obtain ⟨n, hd⟩ := hreached.course
    refine ⟨fun error hrefused => ?_, hd.progress, fun hclosed => ?_⟩
    · cases hd with
      | sending stage | closing stage | settling stage | closed stage =>
        rw [stage] at hrefused
        cases hrefused
    · cases hd with
      | closed stage here le => exact here
      | sending stage | closing stage | settling stage =>
        rw [stage] at hclosed
        cases hclosed

end Orders
end MessageRing
