import MessageRing.Proofs.Engine.Sights
import MessageRing.Proofs.Worker.Loop

/-!
What the worker of a shift has done.

`Fit` says that a worker has done what was seen of its shift: it was given what was accepted, and it
passed on what it has taken. At its end it has passed on everything.
-/
namespace MessageRing
variable {α η σ : Type}

/-- The items stored under the claims, in order. -/
def Ledger.accepted (l : Ledger α) : List α := l.claims.filterMap l.content

theorem Ledger.accepted_filled {r r' : Ring α} {l : Ledger α} {content : Option α}
    {response : Response Int} (path : r.Path (Ring.filled content response) r')
    (books : r.Books l) :
    (l.read (Ring.filled content response)).accepted =
      l.accepted ++ (Ring.filled content response).filterMap Note.item? := by
  cases response with
  | done s =>
    have hbooks := path.books books (l.read_produced (Ring.filled_produced _ _)).1
    have hclaims : l.claims ++ [s] = sequences (r'.claimed + 1).toNat := hbooks.claims
    have hnodup : (l.claims ++ [s]).Nodup := by
      rw [hclaims]
      exact nodup_sequences _
    -- a sequence is given out once, so what was stored before stays
    have hnew : s ∉ l.claims := fun hs => by
      have := List.disjoint_of_nodup_append hnodup hs
      simp at this
    have hold : l.claims.filterMap (Function.update l.content s content) =
        l.claims.filterMap l.content :=
      List.filterMap_congr fun t ht =>
        Function.update_of_ne (fun he : t = s => hnew (he ▸ ht)) _ _
    change (l.claims ++ [s]).filterMap (Function.update l.content s content) = _
    rw [List.filterMap_append, hold]
    cases content <;> simp [accepted, Ring.filled, Note.item?, List.filterMap_cons]
  | _ => simp [Ring.filled]

/-- A step adds to the accepted items what the handler pushed. -/
theorem Station.Does.accepted {s s' : Station α η σ} {scene scene' : Scene σ}
    {notes : List (Note α)} {notices : List (Notice α)} {l : Ledger α}
    (does : Does s scene notes notices s' scene') (books : s.ring.Books l) :
    (l.read notes).accepted = l.accepted ++ notes.filterMap Note.item? := by
  cases does with
  | @turn _ turn _ _ _ _ resumes phase move =>
    cases turn with
    | attempt item next =>
      cases item with
      | some item => exact Ledger.accepted_filled (Ring.push_path books.counted item) books
      | none => exact Ledger.accepted_filled (Ring.pushEmpty_path books.counted) books
    | _ => exact (List.append_nil _).symm
  | _ => exact (List.append_nil _).symm

/-- The items that the handler was called for. -/
theorem Notice.items_events (trace : List (Notice α)) :
    (events trace).map Prod.snd = (trace.filterMap call?).filterMap HandlerCall.item? := by
  rw [events, List.map_filterMap, List.filterMap_filterMap]
  refine List.filterMap_congr fun notice _ => ?_
  cases notice with
  | called call => cases call <;> rfl
  | _ => rfl

namespace Account.Sound
variable {a : Account α η σ}

/-- What the handler was called for is what the worker has taken. -/
theorem given (h : a.Sound) : (a.trace.filterMap Notice.call?).filterMap HandlerCall.item? =
    (sequences a.ledger.drained.length).filterMap a.ledger.content := by
  have htaken : (Ledger.events a.ledger.drained).map Prod.snd =
      a.ledger.drained.filterMap Prod.snd := by
    rw [Ledger.events, List.map_filterMap]
    refine List.filterMap_congr fun entry _ => ?_
    simp
  have hdrained : a.ledger.drained.filterMap Prod.snd =
      (sequences a.ledger.drained.length).filterMap a.ledger.content := by
    conv_lhs => rw [h.books.drained]
    rw [List.filterMap_map]
    rfl
  rw [← Notice.items_events, h.tells.events, ← hdrained]
  exact htaken

/-- That is a first part of what was accepted. -/
theorem given_prefix (h : a.Sound) :
    (a.trace.filterMap Notice.call?).filterMap HandlerCall.item? <+: a.ledger.accepted := by
  have hcursor := h.books.counted.cursor_le
  have hdrained := h.books.drained_le
  obtain ⟨rest, hrest⟩ : ∃ rest, (a.station.ring.claimed + 1).toNat =
      a.ledger.drained.length + rest := Nat.exists_eq_add_of_le (by omega)
  rw [h.given, Ledger.accepted, h.books.claims, hrest]
  refine List.IsPrefix.filterMap _ ?_
  rw [sequences, sequences, List.range_add, List.map_append]
  exact List.prefix_append _ _

/-- A worker that has come to its end was given all that was accepted. -/
theorem given_eq (h : a.Sound) (phase : a.station.worker.phase = .finished) :
    (a.trace.filterMap Notice.call?).filterMap HandlerCall.item? = a.ledger.accepted := by
  have hlength : a.ledger.drained.length = (a.station.ring.claimed + 1).toNat := by
    rw [(h.finished phase).1, claimed, List.length_map, length_sequences]
  rw [h.given, Ledger.accepted, h.books.claims, hlength]

end Account.Sound

namespace Shift

/-- The worker at a station has done what was seen of the shift. -/
structure Fit (shift : Shift α η σ) (station : Station α η σ) : Prop where
  handler : station.worker.handler = shift.crew.handler
  alive : shift.died = none
  normal : station.worker.exceptions.Normal
  account : ∃ a : Account α η σ, a.Sound ∧ a.station = station ∧
    shift.accepted = a.ledger.accepted ∧
    shift.calls = (a.trace.filterMap Notice.call?).map (shift.crew.handler, ·)

/-- The same of a worker with any exception handler, if that has not been its death. -/
structure Accounted (shift : Shift α η σ) (station : Station α η σ) : Prop where
  handler : station.worker.handler = shift.crew.handler
  alive : shift.died = none
  account : ∃ a : Account α η σ, a.Sound ∧ a.station = station ∧
    shift.accepted = a.ledger.accepted ∧
    shift.calls = (a.trace.filterMap Notice.call?).map (shift.crew.handler, ·)

variable {shift : Shift α η σ} {station : Station α η σ}

theorem passed_of_calls {calls : List (HandlerCall α)} {handler : EventHandler α η σ}
    (h : shift.calls = calls.map (handler, ·)) :
    shift.passed = calls.filterMap HandlerCall.item? := by
  rw [passed, h, List.filterMap_map]
  rfl

namespace Accounted

theorem loyal (h : shift.Accounted station) : shift.Loyal := by
  obtain ⟨a, _, _, _, hcalls⟩ := h.account
  intro call hcall
  rw [hcalls] at hcall
  obtain ⟨_, _, rfl⟩ := List.mem_map.mp hcall
  rfl

/-- What was passed is a first part of what was accepted. -/
theorem passed_prefix (h : shift.Accounted station) : shift.passed <+: shift.accepted := by
  obtain ⟨a, hsound, -, haccepted, hcalls⟩ := h.account
  rw [passed_of_calls hcalls, haccepted]
  exact hsound.given_prefix

/-- A worker that has come to its end has passed on all that was accepted. -/
theorem passed_eq (h : shift.Accounted station) (phase : station.worker.phase = .finished) :
    shift.passed = shift.accepted := by
  obtain ⟨a, hsound, rfl, haccepted, hcalls⟩ := h.account
  rw [passed_of_calls hcalls, haccepted]
  exact hsound.given_eq phase

theorem finished_of_ended (h : shift.Accounted station)
    (ended : station.worker.phase.ended = true) : station.worker.phase = .finished := by
  obtain ⟨a, hsound, rfl, _, _⟩ := h.account
  exact hsound.tells.finished_of_ended ended

/-- A step is seen as work of the shift, or it is the worker's last: then its exception handler has
panicked, and nothing else is seen of it. -/
theorem step (h : shift.Accounted station) {scene scene' : Scene σ} {station' : Station α η σ}
    (step : station.step scene = some (station', scene')) :
    ((station.sights station').foldl see shift).Accounted station' ∨
      ∃ p, station'.worker.phase = .died p ∧ station.worker.exceptions.Panics p ∧
        station.sights station' = [.died p] := by
  obtain ⟨a, hsound, rfl, haccepted, hcalls⟩ := h.account
  have hdoes := Station.step_does step
  by_cases hdied : ∃ p, station'.worker.phase = .died p
  · obtain ⟨p, hdied⟩ := hdied
    obtain ⟨hpanics, hnotes, hnotices⟩ := hdoes.panics hsound.books hsound.tells hdied
    refine .inr ⟨p, hdied, hpanics, ?_⟩
    rw [Station.sights, hnotes, hnotices, hdied]
    rfl
  have halive : station'.worker.phase.panic? = none := by
    cases hphase : station'.worker.phase with
    | died p => exact absurd ⟨p, hphase⟩ hdied
    | _ => rfl
  have hthere : Account.Sound { a with scene } := { hsound with }
  have hnext := hthere.work_of_alive step fun p hp => hdied ⟨p, hp⟩
  left
  rw [Station.foldl_sights, h.handler, halive]
  refine ⟨hdoes.keeps.2.1.trans h.handler, h.alive, _, hnext, ?_, ?_, ?_⟩
  · rw [Account.next_work_of_some step]
  · rw [Account.next_work_of_some step]
    dsimp only
    rw [hdoes.accepted hsound.books, haccepted]
  · rw [Account.next_work_of_some step]
    simp [hcalls]

/-- A caller's push adds its item if it succeeds. -/
theorem push (h : shift.Accounted station) (item : α) :
    ((Happening.published item (station.ring.push item).1).sights.foldl see shift).Accounted
      { station with ring := (station.ring.push item).2 } := by
  obtain ⟨a, hsound, rfl, haccepted, hcalls⟩ := h.account
  have hnext := hsound.call (.push item) rfl
  obtain ⟨hring, hledger⟩ := a.next_push item
  have hstored := Ledger.accepted_filled (Ring.push_path hsound.books.counted item) hsound.books
  rw [← hledger, ← haccepted] at hstored
  cases hresponse : (a.station.ring.push item).1 with
  | done s =>
    rw [hresponse] at hstored
    exact ⟨h.handler, h.alive, _, hnext, hring, hstored.symm, hcalls⟩
  | _ =>
    rw [hresponse] at hstored
    have hsame : shift.accepted = _ := (List.append_nil _).symm.trans hstored.symm
    exact ⟨h.handler, h.alive, _, hnext, hring, hsame, hcalls⟩

theorem halt (h : shift.Accounted station) :
    shift.Accounted { station with ring := station.ring.halt } := by
  obtain ⟨a, hsound, rfl, haccepted, hcalls⟩ := h.account
  exact ⟨h.handler, h.alive, _, hsound.call .halt rfl, rfl, haccepted, hcalls⟩

theorem of_opened {config : Config} {metrics : Metrics} {ring : Ring α}
    (made : Ring.make config metrics = .ok ring) (name : String) (crew : Engine.Crew α η σ)
    (scene : Scene σ) :
    Shift.Accounted { crew }
      (Station.make ring.takeConsumer.2 name crew.handler crew.memory crew.exceptions) :=
  ⟨rfl, rfl, _, Account.opened_sound made name crew.handler crew.memory crew.exceptions scene,
    rfl, rfl, rfl⟩

end Accounted

theorem fit_iff : shift.Fit station ↔
    shift.Accounted station ∧ station.worker.exceptions.Normal :=
  ⟨fun h => ⟨⟨h.handler, h.alive, h.account⟩, h.normal⟩,
    fun h => ⟨h.1.handler, h.1.alive, h.2, h.1.account⟩⟩

theorem Fit.accounted (h : shift.Fit station) : shift.Accounted station := (fit_iff.mp h).1

theorem Fit.loyal (h : shift.Fit station) : shift.Loyal := h.accounted.loyal

theorem Fit.passed_prefix (h : shift.Fit station) : shift.passed <+: shift.accepted :=
  h.accounted.passed_prefix

theorem Fit.step (h : shift.Fit station) {scene scene' : Scene σ} {station' : Station α η σ}
    (step : station.step scene = some (station', scene')) :
    ((station.sights station').foldl see shift).Fit station' := by
  have hnormal : station'.worker.exceptions.Normal := by
    rw [(Station.step_does step).keeps.2.2]
    exact h.normal
  rcases h.accounted.step step with hnext | ⟨p, _, hpanics, _⟩
  · exact fit_iff.mpr ⟨hnext, hnormal⟩
  · exact absurd hpanics (h.normal.not_panics p)

end Shift
end MessageRing
