import MessageRing.Proofs.Ring.Counts
import MessageRing.Proofs.Worker.Diary

/-!
The contract of a worker.

It speaks of what a recorded worker is observed to do from its beginning to its end: the entries of
its diary, what it logs, the windows it enters and gives back.
-/
namespace MessageRing
variable {α η σ : Type}

namespace Account
variable {a : Account α η (Diary α η σ × σ)} {handler : EventHandler α η σ} {seen : List (Notice α)}

/-- What a deed shows of the worker. -/
def shows (a : Account α η (Diary α η σ × σ)) : Deed α (Diary α η σ × σ) → List (Notice α)
  | .work =>
    match a.station.step a.scene with
    | none => []
    | some (station, scene) => a.station.observed a.scene station scene
  | .call _ _ | .world _ => []

/-- What the first deeds of a schedule show. -/
def observed (a : Account α η (Diary α η σ × σ)) (schedule : Nat → Deed α (Diary α η σ × σ)) :
    Nat → List (Notice α)
  | 0 => []
  | n + 1 => a.observed schedule n ++ (a.along schedule n).shows (schedule n)

theorem trails_next (h : a.station.Trails handler a.trace seen)
    (deed : Deed α (Diary α η σ × σ)) :
    (a.next deed).station.Trails handler (a.next deed).trace (seen ++ a.shows deed) := by
  cases deed with
  | work =>
    cases hstep : a.station.step a.scene with
    | none =>
      rw [next_work_of_none hstep]
      simpa [shows, hstep] using h
    | some next =>
      rw [next_work_of_some hstep]
      simpa [shows, hstep] using h.step hstep
  | call call other =>
    rw [shows, List.append_nil]
    exact h.beside (Ring.answer_path h.counted call)
      (Ring.spared_gating.answer (fun _ => rfl) (fun _ => rfl) other)
  | world change =>
    rw [shows, List.append_nil]
    exact h

/-- What is observed along a schedule trails what the rules say. -/
theorem trails_along (h : a.station.Trails handler a.trace [])
    (schedule : Nat → Deed α (Diary α η σ × σ)) (n : Nat) :
    (a.along schedule n).station.Trails handler (a.along schedule n).trace
      (a.observed schedule n) := by
  induction n with
  | zero => exact h
  | succ n ih => exact trails_next ih (schedule n)

/-- A recorded worker at a new ring, before its first step. -/
def openedRecorded (ring : Ring α) (name : String) (handler : EventHandler α η σ) (memory : η)
    (exceptions : ExceptionHandler σ) (scene : Scene (Diary α η σ × σ)) :
    Account α η (Diary α η σ × σ) :=
  opened ring name handler.recorded memory (exceptions.recorded handler) scene

theorem openedRecorded_trails {ring : Ring α} (counted : ring.Counted) (name : String)
    (handler : EventHandler α η σ) (memory : η) (exceptions : ExceptionHandler σ)
    (scene : Scene (Diary α η σ × σ)) :
    (openedRecorded ring name handler memory exceptions scene).station.Trails handler [] [] :=
  .make counted name handler memory exceptions []

/-- The contract of a worker. On every schedule that is fair to it, and whatever else is done to the
ring and to the world, it ends once the ring is halted and no claim is outstanding. By then the
first call of the handler was its start and the last one its shutdown, and a panic of either was
logged. In between every claimed sequence was taken once and in order, window by window. An item
went to the handler, told whether it was the window's last; an empty slot caused a call only at the
window's end; a call that failed was reported before anything else happened; and each window was
given back after its last entry. -/
theorem loop_contract {config : Config} {metrics : Metrics} {ring : Ring α}
    (made : Ring.make config metrics = .ok ring) (name : String) (handler : EventHandler α η σ)
    (memory : η) (exceptions : ExceptionHandler σ) (normal : exceptions.Normal)
    (scene : Scene (Diary α η σ × σ)) (schedule : Nat → Deed α (Diary α η σ × σ))
    (fair : (openedRecorded ring name handler memory exceptions scene).Fair schedule) (k : Nat)
    (quiet : ((openedRecorded ring name handler memory exceptions scene).along schedule
      k).station.ring.Quiet) :
    ∃ n, let start := openedRecorded ring name handler memory exceptions scene
      let done := start.along schedule n
      done.station.worker.phase = .finished ∧
      (∃ first windows last,
        start.observed schedule n = Notice.opening name first ++ windows.flatMap Window.notices ++
          Notice.closing name last (Visit.items (Window.allVisits windows)) ∧
        (Window.allVisits windows).map Visit.entry = done.claimed) ∧
      Notice.events (start.observed schedule n) = Ledger.events done.claimed ∧
      done.station.ring.gating = done.station.ring.claimed := by
  have hopened : (openedRecorded ring name handler memory exceptions scene).Sound :=
    opened_sound made name handler.recorded memory (exceptions.recorded handler) scene
  have hnormal := normal.recorded handler
  have hsound := hopened.along hnormal schedule
  have halone := (hsound k).alone quiet (by rw [(along_keeps _ schedule k).2.2]; exact hnormal)
  obtain ⟨n, hphase⟩ := exists_finished fair hsound halone.ends k rfl quiet
  obtain ⟨hdrained, hgating⟩ := (hsound n).finished hphase
  obtain ⟨first, windows, last, past, htrace⟩ := ((hsound n).tells.at hphase).told
  -- at its end no call is under way, so what was observed is what the rules say
  have htrails := openedRecorded_trails (Ring.make_counted made) name handler memory exceptions
    scene
  have hobserved := (trails_along htrails schedule n).same (by rw [hphase]; rfl)
  refine ⟨n, hphase, ⟨first, windows, last, ?_, ?_⟩, ?_, hgating⟩
  · rw [hobserved, htrace, past.handled, (along_keeps _ schedule n).1]
    rfl
  · rw [← hdrained]
    exact (past.drained.trans (by rw [List.append_nil])).symm
  · rw [hobserved, ← hdrained]
    exact (hsound n).tells.events

/-- A worker whose handler panics or fails in every call, with items on both sides of an empty slot
and an empty slot at the end. -/
theorem loop_contract_failures :
    ∃ (ring : Ring Nat) (handler : EventHandler Nat Unit Unit)
      (schedule : Nat → Deed Nat (Diary Nat Unit Unit × Unit))
      (scene : Scene (Diary Nat Unit Unit × Unit)),
      let start := openedRecorded ring "worker" handler () (.logging "worker") scene
      Ring.make { capacity := 4 } {} = .ok ring ∧ start.Fair schedule ∧
      (∃ k, (start.along schedule k).station.ring.Quiet) ∧
      ∃ n, (start.along schedule n).station.worker.phase = .finished ∧
        Notice.events (start.observed schedule n) =
          Ledger.events (start.along schedule n).claimed := by
  let handler : EventHandler Nat Unit Unit :=
    { onEvent := fun item _ _ => .finish
        (if item = 5 then .failed (.failed (.text "refused")) else .panicked .other)
      onEndOfBatch := fun _ => .finish (.panicked .other)
      onStart := .finish (.panicked .other)
      onShutdown := .finish (.panicked .other) }
  let deeds : List (Deed Nat (Diary Nat Unit Unit × Unit)) :=
    [.call (.push 5) rfl, .call .pushEmpty rfl, .work, .work, .call (.push 6) rfl, .work, .work,
      .call .pushEmpty rfl, .call .halt rfl]
  let schedule : Nat → Deed Nat (Diary Nat Unit Unit × Unit) := fun n => deeds[n]?.getD .work
  let scene : Scene (Diary Nat Unit Unit × Unit) :=
    { outside := ([], ()), log := [], mint := .spread 0 0 }
  obtain ⟨ring, hmake, hclosing, hended, hhalted, hsettled⟩ :=
    Ring.exists_make { capacity := 4 } {} (fun ring : Ring Nat =>
      let start := openedRecorded ring "worker" handler () (.logging "worker") scene
      let done := start.along schedule 60
      done.station.worker.phase.closing = true ∧ done.station.worker.phase.ended = true ∧
        done.station.ring.halted = true ∧ done.station.ring.outstanding = []) (by decide +kernel)
  have hlate : ∀ m, 60 ≤ m → schedule m = .work := fun m hm => by
    have hlength : deeds.length = 9 := rfl
    have hnone : deeds[m]? = none := List.getElem?_eq_none (by omega)
    simp [schedule, hnone]
  generalize 60 = k at hclosing hended hhalted hsettled hlate
  have hfair := fair_of_finished (Phase.eq_finished hclosing hended) hlate
  obtain ⟨n, hn, _, hevents, _⟩ := loop_contract hmake "worker" handler () (.logging "worker")
    (ExceptionHandler.logging_normal "worker") scene schedule hfair k ⟨hhalted, hsettled⟩
  exact ⟨ring, handler, schedule, scene, hmake, hfair, ⟨k, hhalted, hsettled⟩, n, hn, hevents⟩

end Account
end MessageRing
