import MessageRing.Batch.Batching
import MessageRing.Proofs.Acts
import MessageRing.Proofs.Batch.Chunks
import MessageRing.Proofs.SortedMap
import MessageRing.Proofs.Worker.Conduct

/-!
Batching end to end.

A worker that batches flushes the items of each of its windows in chunks and nothing else, whatever
becomes of the batches. What is flushed is written down by the target itself: `recorded` is the same
target with a record of the batches that it was given.
-/
namespace MessageRing
variable {π φ σ ρ : Type}

namespace Registry

/-- The same channels in a world with a record beside it. -/
def unrecorded (r : Registry φ σ) : Registry φ (List ρ × σ) :=
  ⟨r.entries.map fun entry => (entry.1, fun m => (entry.2 m).unrecorded),
    List.pairwise_map.mpr r.sorted⟩

theorem get?_unrecorded (r : Registry φ σ) (name : String) :
    (r.unrecorded (ρ := ρ)).get? name =
      (r.get? name).map fun channel m => (channel m).unrecorded :=
  SortedMap.get?_map (fun _ (channel : Destination φ σ) m => (channel m).unrecorded (ρ := ρ)) r name

theorem resolve_unrecorded (r : Registry φ σ) (name : String) :
    (r.unrecorded (ρ := ρ)).resolve name =
      (r.resolve name).map fun channel m => (channel m).unrecorded := by
  unfold resolve
  rw [get?_unrecorded]
  cases r.get? name <;> rfl

end Registry

namespace FlushTarget

/-- The same target with a record of the batches that were flushed. -/
def recorded (t : FlushTarget π φ σ) : FlushTarget π φ (List (List (Message π)) × σ) where
  combine batch := (t.combine batch).recorded fun _ => [batch]
  output := t.output.map fun channel m => (channel m).unrecorded
  registry := t.registry.map Registry.unrecorded
  errors error headers := (t.errors error headers).unrecorded

theorem destination_recorded (t : FlushTarget π φ σ) (headers : Headers) :
    t.recorded.destination headers =
      (t.destination headers).map fun channel m => (channel m).unrecorded := by
  unfold destination recorded
  cases t.output with
  | some channel => rfl
  | none =>
    cases headers.replyTo? with
    | none => rfl
    | some name =>
      cases t.registry with
      | none => rfl
      | some registry => exact registry.resolve_unrecorded name

theorem send_recorded (t : FlushTarget π φ σ) (m : Message φ) :
    t.recorded.send m = (t.send m).unrecorded := by
  unfold send
  rw [destination_recorded]
  cases t.destination m.headers with
  | error e => exact Act.unrecorded_pure _
  | ok channel => rfl

/-- The record changes nothing in what a flush does, and holds every batch whose flush has happened,
however it ended. -/
theorem flush_recorded (t : FlushTarget π φ σ) (batch : List (Message π)) :
    t.recorded.flush batch = (t.flush batch).recorded fun _ => [batch] := by
  unfold flush
  rw [← Act.recorded_bind]
  refine congrArg (_ >>= ·) ?_
  funext m
  rw [send_recorded, ← Act.unrecorded_bind]
  refine congrArg (_ >>= ·) ?_
  funext result
  cases result with
  | ok _ => exact Act.unrecorded_pure _
  | error e => rfl

end FlushTarget

namespace Batching

/-- What is flushed, and the open batch, are what the accumulator makes of the calls. -/
def conduct (t : FlushTarget π φ σ) (empty : Accumulator (Message π)) :
    Conduct (Message π) (Accumulator (Message π)) (List (List (Message π)) × σ) where
  idle calls memory outside := empty.serveAll calls = (outside.1, memory)
  busy calls call turn memory outside :=
    (turn = call.turn (handler t.recorded) ∧ empty.serveAll calls = (outside.1, memory)) ∨
      ((∃ outcome, turn = .finish outcome) ∧
        empty.serveAll (calls ++ [call]) = (outside.1, memory))

theorem flushing_recorded (t : FlushTarget π φ σ) {batch : Option (List (Message π))}
    {scene scene' : Scene (List (List (Message π)) × σ)}
    {result : Except Panic (Except HandlerError Unit)}
    (h : flushing t.recorded batch scene = some (result, scene')) :
    scene'.outside.1 = scene.outside.1 ++ batch.toList := by
  cases batch with
  | none =>
    cases h
    exact (List.append_nil _).symm
  | some batch =>
    unfold flushing at h
    dsimp only at h
    rw [FlushTarget.flush_recorded] at h
    rcases Act.bind_eq_some h with ⟨p, hflush, _⟩ | ⟨_, between, hflush, hend⟩
    · exact (Act.recorded_eq_some hflush).1
    · cases hend
      exact (Act.recorded_eq_some hflush).1

/-- Whatever becomes of a flush, the handler's call is over and its batch is flushed. -/
theorem move_turn (t : FlushTarget π φ σ)
    {change : Accumulator (Message π) → Option (List (Message π)) × Accumulator (Message π)}
    {r r' : Ring (Message π)} {memory memory' : Accumulator (Message π)}
    {scene scene' : Scene (List (List (Message π)) × σ)}
    {turn' : Turn (Message π) (Accumulator (Message π) × Scene (List (List (Message π)) × σ))}
    (h : (turn t.recorded change).move r (memory, scene) = some (turn', r', memory', scene')) :
    (∃ outcome, turn' = .finish outcome) ∧ memory' = (change memory).2 ∧
      scene'.outside.1 = scene.outside.1 ++ (change memory).1.toList := by
  obtain ⟨next, hrun, he⟩ := Option.map_eq_some_iff.mp h
  obtain ⟨⟨result, after⟩, hflushing, hnext⟩ := Option.map_eq_some_iff.mp hrun
  cases hnext
  cases he
  exact ⟨⟨_, rfl⟩, rfl, flushing_recorded t hflushing⟩

theorem conduct_governs (t : FlushTarget π φ σ) (empty : Accumulator (Message π)) :
    (conduct t empty).Governs (handler t.recorded) where
  begin call idle := .inl ⟨rfl, idle⟩
  move {calls call turn turn' r r' memory memory' scene scene'} busy move := by
    rcases busy with ⟨rfl, hidle⟩ | ⟨⟨outcome, rfl⟩, _⟩
    · have hserve (change : Accumulator (Message π) →
          Option (List (Message π)) × Accumulator (Message π)) (hcall : ∀ a, a.serve call = change a)
          (hturn : (Batching.turn t.recorded change).move r (memory, scene) =
            some (turn', r', memory', scene')) :
          (conduct t empty).busy calls call turn' memory' scene'.outside := by
        obtain ⟨hfinish, hmemory, hrecord⟩ := move_turn t hturn
        refine .inr ⟨hfinish, ?_⟩
        rw [Accumulator.serveAll_append, hidle, Accumulator.serveAll_singleton, hcall, hrecord,
          hmemory]
      cases call with
      | start => cases move
      | event m sequence last => exact hserve _ (fun _ => rfl) move
      | endOfBatch sequence => exact hserve _ (fun _ => rfl) move
      | shutdown => exact hserve _ (fun _ => rfl) move
    · cases move
  finish {calls call outcome memory outside} busy := by
    rcases busy with ⟨hturn, hidle⟩ | ⟨_, hdone⟩
    · cases call with
      | start =>
        change empty.serveAll (calls ++ [.start]) = _
        rw [Accumulator.serveAll_append, hidle, Accumulator.serveAll_singleton]
        exact Prod.ext (List.append_nil _) rfl
      | event m sequence last | endOfBatch sequence | shutdown => cases hturn
    · exact hdone

/-- When no window is under way the flushed batches are the chunks of the windows. -/
theorem flushed_of_follows (t : FlushTarget π φ σ) {empty : Accumulator (Message π)}
    (room : 0 < empty.limit) (none_open : empty.items = [])
    {a : Account (Message π) (Accumulator (Message π)) (List (List (Message π)) × σ)}
    (sound : a.Sound) (follows : a.station.Follows (conduct t empty) a.scene a.calls)
    (between : a.station.worker.phase.between = true) :
    ∃ first windows rest, a.trace = Notice.tale a.station.worker.name first windows ++ rest ∧
      (∀ available, .entered available ∉ rest) ∧
      (Window.allVisits windows).map Visit.entry = a.ledger.drained ∧
      a.scene.outside.1 = windows.flatMap (fun w => chunks empty.limit w.items) ∧
      a.station.worker.memory = empty := by
  obtain ⟨first, windows, rest, htrace, hentered, past, hrest⟩ := sound.tells.between between
  have hcalls : a.calls = .start :: windows.flatMap Window.calls ++ rest.filterMap Notice.call? := by
    rw [Account.calls, htrace, List.filterMap_append, Notice.calls_tale]
  have hdistinct : ∀ w ∈ windows, ∀ v ∈ w.earlier, v.sequence ≠ w.last.sequence :=
    fun w hw => past.distinct sound.books hw
  have hwindows : empty.serveAll (.start :: windows.flatMap Window.calls) =
      (windows.flatMap fun w => chunks empty.limit w.items, empty) :=
    empty.serveAll_windows room none_open windows hdistinct
  have hshutdown : empty.serveAll (.start :: windows.flatMap Window.calls ++ [.shutdown]) =
      (windows.flatMap fun w => chunks empty.limit w.items, empty) := by
    rw [Accumulator.serveAll_append, hwindows, Accumulator.serveAll_singleton, Accumulator.serve,
      Accumulator.take_of_empty none_open]
    exact Prod.ext (List.append_nil _) rfl
  have hserved : (windows.flatMap fun w => chunks empty.limit w.items, empty) =
      (a.scene.outside.1, a.station.worker.memory) := by
    rcases hrest with hrest | ⟨hrest, hturn⟩
    · rw [hrest] at hcalls
      cases hturn : a.station.worker.phase.turn? with
      | none =>
        have hidle := (Station.follows_iff_idle hturn).mp follows
        rw [hcalls] at hidle
        exact hshutdown.symm.trans hidle
      | some turn =>
        obtain ⟨earlier, call, hsplit, hbusy⟩ := (Station.follows_iff_busy hturn).mp follows
        obtain ⟨rfl, hcall⟩ := List.append_inj' (hsplit.symm.trans hcalls) rfl
        cases List.singleton_injective hcall
        rcases hbusy with ⟨_, hidle⟩ | ⟨_, hdone⟩
        · exact hwindows.symm.trans hidle
        · exact hshutdown.symm.trans hdone
    · have hidle := (Station.follows_iff_idle hturn).mp follows
      rw [hcalls, hrest, List.append_nil] at hidle
      exact hwindows.symm.trans hidle
  refine ⟨first, windows, rest, htrace, hentered, ?_, ?_, ?_⟩
  · exact (past.drained.trans (by rw [List.append_nil])).symm
  · exact (congrArg Prod.fst hserved).symm
  · exact (congrArg Prod.snd hserved).symm

/-- The messages of the windows, in chunks, are the messages taken from the ring. -/
theorem flatten_windows (size : Nat) (windows : List (Window (Message π))) :
    (windows.flatMap fun w => chunks size w.items).flatten =
      ((Window.allVisits windows).map Visit.entry).filterMap Prod.snd := by
  induction windows with
  | nil => rfl
  | cons w windows ih =>
    have hwindow : w.items = (w.visits.map Visit.entry).filterMap Prod.snd := by
      rw [List.filterMap_map]
      rfl
    rw [List.flatMap_cons, List.flatten_append, flatten_chunks, ih, hwindow, Window.allVisits,
      Window.allVisits, List.flatMap_cons, List.map_append, List.filterMap_append]

/-- A worker that batches flushes the chunks of its windows. Whatever becomes of the batches,
whenever no window is under way, also after the shutdown, the batches flushed so far are the items
of one window after the other, cut into pieces of the batch size, the last of each window perhaps
shorter. None of them is empty or too long, together they are the messages taken from the ring in
their order, and nothing waits to be flushed. On a schedule that is fair to it the worker comes to
its end once the ring is halted and settled, and by then it has taken all that was claimed. -/
theorem flushes_chunks {config : Config} {metrics : Metrics} {ring : Ring (Message π)}
    (made : Ring.make config metrics = .ok ring) (name : String) (t : FlushTarget π φ σ)
    {size : Nat} {empty : Accumulator (Message π)} (room : Accumulator.make size = .ok empty)
    (scene : Scene σ) (schedule : Nat → Deed (Message π) (List (List (Message π)) × σ))
    (apart : ∀ n change, schedule n = .world change →
      ∀ scene, (change scene).outside.1 = scene.outside.1) :
    let opened := Account.opened ring name (handler t.recorded) empty (.logging name)
      (scene.withOutside ([], scene.outside))
    (∀ n, (opened.along schedule n).station.worker.phase.between = true →
      let a := opened.along schedule n
      ∃ first windows rest, a.trace = Notice.tale name first windows ++ rest ∧
        (∀ available, .entered available ∉ rest) ∧
        (Window.allVisits windows).map Visit.entry = a.ledger.drained ∧
        a.scene.outside.1 = windows.flatMap (fun w => chunks size w.items) ∧
        (∀ batch ∈ a.scene.outside.1, batch ≠ [] ∧ batch.length ≤ max size 1) ∧
        a.scene.outside.1.flatten = a.ledger.drained.filterMap Prod.snd ∧
        a.station.worker.memory.items = []) ∧
    ∀ k, opened.Fair schedule → (opened.along schedule k).station.ring.Quiet →
      ∃ n, (opened.along schedule n).station.worker.phase = .finished ∧
        (opened.along schedule n).ledger.drained = (opened.along schedule n).claimed := by
  intro opened
  have hlimit := Accumulator.make_eq_ok room
  have hsound := (Account.opened_sound made name (handler t.recorded) empty (.logging name)
    (scene.withOutside ([], scene.outside))).along (ExceptionHandler.logging_normal name) schedule
  constructor
  · intro n between a
    have hfollows : a.station.Follows (conduct t empty) a.scene a.calls := by
      refine Account.follows_along ?_ (conduct_governs t empty)
        (ExceptionHandler.logging_discreet name) schedule (fun n change hn scene => ?_) n
      · exact (Station.follows_iff_idle rfl).mpr rfl
      · have hsame := apart n change hn scene
        constructor <;> intros <;> simp_all [conduct]
    obtain ⟨first, windows, rest, htrace, hentered, hentries, hflushed, hmemory⟩ :=
      flushed_of_follows t (by omega) hlimit.2 (hsound n) hfollows between
    rw [hlimit.1] at hflushed
    simp only [chunks_max] at hflushed
    rw [(opened.along_keeps schedule n).1] at htrace
    refine ⟨first, windows, rest, htrace, hentered, hentries, hflushed, ?_, ?_, ?_⟩
    · intro batch hbatch
      rw [hflushed] at hbatch
      obtain ⟨w, _, hchunk⟩ := List.mem_flatMap.mp hbatch
      exact chunk_bounds size w.items batch hchunk
    · rw [hflushed, flatten_windows, hentries]
    · rw [hmemory, hlimit.2]
  · intro k fair quiet
    have halone := (hsound k).alone quiet (by
      rw [(opened.along_keeps schedule k).2.2]
      exact ExceptionHandler.logging_normal name)
    obtain ⟨n, hphase⟩ := Account.exists_finished fair hsound halone.ends k rfl quiet
    exact ⟨n, hphase, ((hsound n).finished hphase).1⟩

/-- Batches of two. The first window is full at its last message, the second ends with an empty slot
and an open batch, the third with an empty slot right after a full batch. The batcher panics at the
second batch and the error handler at the others. -/
theorem flushes_chunks_panicking :
    ∃ (ring : Ring (Message Nat)) (t : FlushTarget Nat Nat Unit)
      (empty : Accumulator (Message Nat)) (scene : Scene Unit)
      (schedule : Nat → Deed (Message Nat) (List (List (Message Nat)) × Unit)),
      Ring.make { capacity := 4 } {} = .ok ring ∧ Accumulator.make 2 = .ok empty ∧
      (∀ n change, schedule n = .world change →
        ∀ scene, (change scene).outside.1 = scene.outside.1) ∧
      let opened := Account.opened ring "worker" (handler t.recorded) empty (.logging "worker")
        (scene.withOutside ([], scene.outside))
      opened.Fair schedule ∧
      (∃ n, (opened.along schedule n).station.worker.phase = .finished ∧
        (opened.along schedule n).ledger.drained = (opened.along schedule n).claimed) ∧
      ∃ (n : Nat) (windows : List (Window (Message Nat))),
        (opened.along schedule n).scene.outside.1.map (·.map (·.payload)) = [[1, 2], [3], [4, 5]] ∧
        (opened.along schedule n).scene.outside.1 =
          windows.flatMap fun w => chunks 2 w.items := by
  let t : FlushTarget Nat Nat Unit :=
    { combine := fun batch =>
        if batch.length = 1 then Act.panic .other else pure ⟨batch.length, .empty⟩
      output := none
      registry := none
      errors := fun _ _ => Act.panic (.text "unheard") }
  let push (n : Nat) : Deed (Message Nat) (List (List (Message Nat)) × Unit) :=
    .call (.push ⟨n, .empty⟩) rfl
  let deeds : List (Deed (Message Nat) (List (List (Message Nat)) × Unit)) :=
    [push 1, push 2] ++ List.replicate 11 .work ++ [push 3, .call .pushEmpty rfl] ++
      List.replicate 10 .work ++ [push 4, push 5, .call .pushEmpty rfl, .call .halt rfl]
  let schedule : Nat → Deed (Message Nat) (List (List (Message Nat)) × Unit) :=
    fun n => deeds[n]?.getD .work
  let scene : Scene Unit := { outside := (), log := [], mint := .spread 0 0 }
  let empty : Accumulator (Message Nat) := ⟨2, []⟩
  obtain ⟨ring, hmake, hclosing, hended, hhalted, hsettled, hflushed⟩ :=
    Ring.exists_make { capacity := 4 } {} (fun ring : Ring (Message Nat) =>
      let done := (Account.opened ring "worker" (handler t.recorded) empty (.logging "worker")
        (scene.withOutside ([], scene.outside))).along schedule 50
      done.station.worker.phase.closing = true ∧ done.station.worker.phase.ended = true ∧
        done.station.ring.halted = true ∧ done.station.ring.outstanding = [] ∧
        done.scene.outside.1.map (·.map (·.payload)) = [[1, 2], [3], [4, 5]]) (by decide +kernel)
  have hlate : ∀ m, 50 ≤ m → schedule m = .work := fun m hm => by
    have hlength : deeds.length = 29 := rfl
    have hnone : deeds[m]? = none := List.getElem?_eq_none (by omega)
    simp [schedule, hnone]
  have hapart : ∀ n change, schedule n = .world change →
      ∀ scene, (change scene).outside.1 = scene.outside.1 := by
    intro n change hn
    have hworld : ∀ deed ∈ deeds, deed ≠ .world change := by
      simp [deeds, push]
    cases hdeed : deeds[n]? with
    | none => simp [schedule, hdeed] at hn
    | some deed =>
      simp only [schedule, hdeed, Option.getD_some] at hn
      exact absurd hn (hworld deed (List.mem_of_getElem? hdeed))
  generalize 50 = k at hclosing hended hhalted hsettled hflushed hlate
  have hroom : Accumulator.make 2 = .ok empty := if_pos (by decide +kernel)
  have hphase := Phase.eq_finished hclosing hended
  have hfair := Account.fair_of_finished hphase hlate
  obtain ⟨hwindows, hfinished⟩ :=
    flushes_chunks hmake "worker" t hroom scene schedule hapart
  obtain ⟨_, windows, _, _, _, _, hchunks, _⟩ := hwindows k (by rw [hphase]; rfl)
  exact ⟨ring, t, empty, scene, schedule, hmake, hroom, hapart, hfair,
    hfinished k hfair ⟨hhalted, hsettled⟩, k, windows, hflushed, hchunks⟩

end Batching
end MessageRing
