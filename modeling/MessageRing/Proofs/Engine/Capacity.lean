import MessageRing.Proofs.Engine.Moves
import MessageRing.Proofs.Ring.Counts
import MessageRing.Proofs.Worker.Loop

/-!
The free slots of an engine.

An engine reports free slots for as long as it has a ring, and there are as many as its capacity
leaves beside what was accepted and not given back. A ring lasts until a stop has ended: while a
stop that gave up is still to be finished, the engine is not running and reports them all the same.
-/
namespace MessageRing
variable {α η σ : Type}

theorem length_filter_sequences {r : Int} (h : -1 ≤ r) (n : Nat) :
    ((sequences n).filter (r < ·)).length = (n - (r + 1)).toNat := by
  induction n with
  | zero =>
    change 0 = _
    omega
  | succ n ih =>
    rw [sequences_succ, List.filter_append, List.length_append, ih, List.filter_singleton]
    by_cases hr : r < n <;> simp [hr] <;> omega

namespace Ledger

/-- What was accepted and has not been given back, by sequences: an item, or nothing where a slot
was left empty. -/
def unreleased (l : Ledger α) : List (Int × Option α) :=
  (l.claims.filter (l.released < ·)).map fun s => (s, l.content s)

/-- Something was stored under every claim. -/
def Full (l : Ledger α) : Prop := ∀ s ∈ l.claims, l.content s ≠ none

theorem Full.filled {l : Ledger α} (h : l.Full) {content : Option α} {response : Response Int}
    (written : ∀ s, .stored s none ∉ Ring.filled content response) :
    (l.read (Ring.filled content response)).Full := by
  cases response with
  | done s =>
    cases content with
    | none => exact absurd (by simp [Ring.filled]) (written s)
    | some item =>
      intro t ht
      change Function.update l.content s (some item) t ≠ none
      by_cases hts : t = s
      · simp [hts]
      · rw [Function.update_of_ne hts]
        refine h t ?_
        rcases List.mem_append.mp (show t ∈ l.claims ++ [s] from ht) with ht | ht
        · exact ht
        · exact absurd (List.mem_singleton.mp ht) hts
  | _ => exact h

theorem Full.filterMap_unreleased {l : Ledger α} (h : l.Full) :
    (l.unreleased.filterMap Prod.snd).length = l.unreleased.length := by
  rw [List.length_filterMap_eq_countP, List.countP_eq_length]
  intro entry hentry
  obtain ⟨s, hs, rfl⟩ := List.mem_map.mp hentry
  exact Option.isSome_iff_ne_none.mpr (h s (List.mem_of_mem_filter hs))

end Ledger

namespace Ring.Books
variable {r : Ring α} {l : Ledger α}

theorem length_unreleased (h : r.Books l) :
    (l.unreleased.length : Int) = r.claimed - r.gating := by
  have hstart := h.counted.start
  have hgating := h.counted.gating_le
  have hcursor := h.counted.cursor_le
  rw [Ledger.unreleased, List.length_map, h.claims, h.released, length_filter_sequences hstart]
  omega

theorem remaining_add (h : r.Books l) : r.remaining + l.unreleased.length = r.capacity := by
  have hremaining := h.counted.remaining_eq
  have hlength := h.length_unreleased
  omega

end Ring.Books

namespace Station

theorem Does.full {s s' : Station α η σ} {scene scene' : Scene σ} {notes : List (Note α)}
    {notices : List (Notice α)} {l : Ledger α} (does : Does s scene notes notices s' scene')
    (h : l.Full) (written : ∀ s, .stored s none ∉ notes) : (l.read notes).Full := by
  cases does with
  | @turn _ turn _ _ _ _ resumes phase move =>
    cases turn with
    | attempt item next => cases item <;> exact h.filled written
    | _ => exact h
  | _ => exact h

/-- The ring at the station is as the notes say, and so is its worker, unless that one has died. -/
structure Noted (s : Station α η σ) (config : Config) (notes : List (Note α)) : Prop where
  config_eq : s.ring.config = config
  books : s.ring.Books (.read {} notes)
  worker : (∃ trace, s.Tells (.read {} notes) trace) ∨ s.worker.phase.ended = true
  full : (∀ s, .stored s none ∉ notes) → (Ledger.read {} notes).Full

namespace Noted
variable {s s' : Station α η σ} {config : Config} {notes : List (Note α)} {scene scene' : Scene σ}

theorem of_opened {metrics : Metrics} {ring : Ring α}
    (made : Ring.make config metrics = .ok ring) (name : String) (crew : Engine.Crew α η σ)
    (scene : Scene σ) :
    (Station.make ring.takeConsumer.2 name crew.handler crew.memory crew.exceptions).Noted
      config [] := by
  have hopened :=
    Account.opened_sound made name crew.handler crew.memory crew.exceptions scene
  exact ⟨ring.takeConsumer_config.trans (Ring.make_config made), hopened.books,
    .inl ⟨[], hopened.tells⟩, fun _ _ hs => by cases hs⟩

theorem step (h : s.Noted config notes) (step : s.step scene = some (s', scene')) :
    s'.Noted config (notes ++ s.notes) := by
  have hbusy : s.worker.phase.ended ≠ true := fun hended => by
    rw [step_of_ended scene hended] at step
    cases step
  obtain ⟨trace, htells⟩ := h.worker.resolve_right hbusy
  have hdoes := step_does step
  have hpath := hdoes.path h.books.counted (available_le h.books htells)
  refine ⟨hpath.config_eq.trans h.config_eq, ?_, ?_, fun written => ?_⟩ <;>
    rw [Ledger.read_append]
  · exact hpath.books h.books (hdoes.orderly htells)
  · by_cases hdied : ∃ p, s'.worker.phase = .died p
    · obtain ⟨p, hphase⟩ := hdied
      exact .inr (by rw [hphase]; rfl)
    · exact .inl ⟨_, hdoes.tells (fun p hp => hdied ⟨p, hp⟩) h.books htells⟩
  · refine hdoes.full (h.full fun s hs => ?_) fun s hs => ?_
    · exact written s (List.mem_append_left _ hs)
    · exact written s (List.mem_append_right _ hs)

/-- What others do at the ring. -/
theorem beside (h : s.Noted config notes) {ring : Ring α} {more : List (Note α)}
    (path : s.ring.Path more ring) (produced : ∀ note ∈ more, note.produced = true)
    (full : ∀ {l : Ledger α}, l.Full → (∀ t, .stored t none ∉ more) → (l.read more).Full) :
    Noted { s with ring } config (notes ++ more) := by
  refine ⟨path.config_eq.trans h.config_eq, ?_, ?_, fun written => ?_⟩ <;>
    rw [Ledger.read_append]
  · exact path.books h.books (Ledger.read_produced _ produced).1
  · exact h.worker.imp_left fun ⟨trace, htells⟩ => ⟨trace, htells.produced produced⟩
  · refine full (h.full fun t ht => ?_) fun t ht => ?_
    · exact written t (List.mem_append_left _ ht)
    · exact written t (List.mem_append_right _ ht)

theorem push (h : s.Noted config notes) (item : α) :
    Noted { s with ring := (s.ring.push item).2 } config
      (notes ++ Ring.filled (some item) (s.ring.push item).1) :=
  h.beside (Ring.push_path h.books.counted item) (Ring.filled_produced _ _)
    fun hfull => hfull.filled

theorem halt (h : s.Noted config notes) :
    Noted { s with ring := s.ring.halt } config (notes ++ [.halted]) :=
  h.beside (Ring.Step.halt s.ring).path (by simp [Note.produced]) fun hfull _ => hfull

end Noted
end Station

/-- What there is to note after some notes, of the ring that the engine has in the end: with a start
that takes effect a new ring begins. -/
def Happening.minute (notes : List (Note α)) : Happening α η σ → List (Note α)
  | began _ => []
  | worked s _ _ _ => notes ++ s.notes
  | published item answer => notes ++ Ring.filled (some item) answer
  | halted => notes ++ [.halted]
  | ended => notes

namespace Engine
variable {e e' : Engine α η σ} {notes : List (Note α)} {scene scene' : Scene σ}

/-- A ring that the engine has is as the notes say. -/
def Noted (e : Engine α η σ) (notes : List (Note α)) : Prop :=
  ∀ station, e.station? = some station → station.Noted e.config notes

/-- What there is to note of a run. -/
def minutes (e : Engine α η σ) (scene : Scene σ) (notes : List (Note α))
    (calls : List (Call α η σ)) : List (Note α) :=
  (e.chronicle scene calls).foldl Happening.minute notes

theorem isRunning_iff : e.isRunning = true ↔ e.state = .running := by
  simp [isRunning]

/-- A ring is there exactly while the engine is running or stopping. -/
theorem isSome_remaining? :
    e.remaining?.isSome = true ↔ e.state = .running ∨ e.state = .stopping := by
  cases hstatus : e.status <;> simp [remaining?, station?, state, hstatus]

namespace Noted

theorem of_idle (idle : e.station? = none) (notes : List (Note α)) : e.Noted notes := by
  intro station hthere
  rw [idle] at hthere
  cases hthere

theorem of_station {station : Station α η σ} (there : e.station? = some station)
    (h : station.Noted e.config notes) : e.Noted notes := by
  intro station' hthere
  rw [there] at hthere
  cases hthere
  exact h

theorem move {supply : Supply α η σ} {happenings : List (Happening α η σ)} (h : e.Noted notes)
    (move : Move supply e scene happenings e' scene') :
    e'.Noted (happenings.foldl Happening.minute notes) := by
  cases move with
  | work there there' step config =>
    refine of_station there' ?_
    rw [config]
    exact (h _ there).step step
  | publish _ there _ => exact of_station rfl ((h _ (station?_of_running there)).push _)
  | refuse =>
    change e.Noted (notes ++ [])
    rw [List.append_nil]
    exact h
  | halt _ there => exact of_station rfl (h _ (station?_of_running there)).halt
  | withdraw | finish | breakOff => exact of_idle rfl _
  | launch _ idle known made => exact of_station rfl (.of_opened made e.name _ scene)
  | rest | report => exact h

theorem course {supply : Supply α η σ} {happenings : List (Happening α η σ)} (h : e.Noted notes)
    (course : Course supply e scene happenings e' scene') :
    e'.Noted (happenings.foldl Happening.minute notes) := by
  induction course generalizing notes with
  | nil => exact h
  | cons move rest ih =>
    rw [List.foldl_append]
    exact ih (h.move move)

end Noted

/-- An engine reports free slots as long as it has a ring: while it is running, and while a stop
that gave up is still to be finished. So it does exactly while it is running, at any other time.
There are as many as the capacity leaves beside what was accepted and not given back; that is items
only, unless a handler has left slots empty. -/
theorem remaining_until_stopped {name : String} {config : Config} {new : Engine α η σ}
    (made : Engine.make name config = .ok new) (scene : Scene σ) (calls : List (Call α η σ)) :
    let e := (new.after scene calls).1
    let notes := new.minutes scene [] calls
    let entries := (Ledger.read {} notes).unreleased
    (e.remaining?.isSome ↔ e.isRunning ∨ e.state = .stopping) ∧
    (e.state ≠ .stopping → (e.remaining?.isSome ↔ e.isRunning)) ∧
    ∀ n, e.remaining? = some n →
      n + entries.length = config.capacity.toNat ∧
      ((∀ s, .stored s none ∉ notes) →
        n + (entries.filterMap Prod.snd).length = config.capacity.toNat) := by
  intro e notes entries
  have hthere : e.remaining?.isSome = true ↔ e.isRunning = true ∨ e.state = .stopping := by
    rw [isSome_remaining?, isRunning_iff]
  refine ⟨hthere, fun hstate => hthere.trans (or_iff_left hstate), fun n hn => ?_⟩
  obtain ⟨station, hstation, rfl⟩ := Option.map_eq_some_iff.mp hn
  have hnew : new.Noted [] := by
    rw [make_eq made]
    exact .of_idle rfl []
  have hconfig : e.config = config := by
    rw [new.after_config, make_eq made]
  have hnoted : station.Noted e.config notes :=
    hnew.course (new.chronicle_course scene calls fun _ => Call.within_of_mem) station hstation
  have hcapacity : station.ring.capacity = config.capacity.toNat := by
    rw [Ring.capacity, hnoted.config_eq, hconfig]
  have hremaining : station.ring.remaining + entries.length = config.capacity.toNat :=
    hnoted.books.remaining_add.trans hcapacity
  refine ⟨hremaining, fun written => ?_⟩
  rw [(hnoted.full written).filterMap_unreleased]
  exact hremaining

/-- A second ring, in the midst of a window: one item was given back, one is being handled, one
waits and the handler has just left a slot empty. Then a stop gives up. -/
theorem remaining_until_stopped_midway :
    ∃ (new : Engine Nat Unit Unit) (scene : Scene Unit) (calls : List (Call Nat Unit Unit)),
      Engine.make "worker" { capacity := 4 } = .ok new ∧
      (Ledger.read {} (new.minutes scene [] calls)).unreleased =
        [(1, some 8), (2, some 7), (3, none)] ∧
      (new.after scene calls).1.state = .running ∧
      (new.after scene calls).1.remaining? = some 1 ∧
      (new.after scene (calls ++ [.stop 0])).1.state = .stopping ∧
      (new.after scene (calls ++ [.stop 0])).1.remaining?.isSome = true := by
  let crew : Crew Nat Unit Unit :=
    { handler :=
        { onEvent := fun item _ _ =>
            if item = 8 then .push none fun _ => .finish .ok else .finish .ok }
      memory := ()
      exceptions := .logging "worker" }
  let calls : List (Call Nat Unit Unit) :=
    [.start crew none 0, .publish 5, .work 40, .stop 40, .start crew none 0, .publish 6, .work 8,
      .publish 8, .publish 7, .work 3]
  let scene : Scene Unit := { outside := (), log := [], mint := .spread 0 0 }
  let new : Engine Nat Unit Unit :=
    { name := "worker", config := { capacity := 4 }, status := .stopped {} }
  have hmake : Engine.make "worker" { capacity := 4 } = .ok new :=
    make_of_valid (by decide +kernel) _
  have hentries : (Ledger.read {} (new.minutes scene [] calls)).unreleased =
      [(1, some 8), (2, some 7), (3, none)] := by
    decide +kernel
  have hstate : (new.after scene calls).1.state = .running := by
    decide +kernel
  have hstate' : (new.after scene (calls ++ [.stop 0])).1.state = .stopping := by
    decide +kernel
  obtain ⟨hiff, -, hcount⟩ := remaining_until_stopped hmake scene calls
  obtain ⟨n, hn⟩ := Option.isSome_iff_exists.mp (hiff.mpr (.inl (isRunning_iff.mpr hstate)))
  have hsum := (hcount n hn).1
  rw [hentries] at hsum
  have hone : n = 1 := Nat.add_right_cancel (m := 3) hsum
  obtain ⟨hiff', -⟩ := remaining_until_stopped hmake scene (calls ++ [.stop 0])
  exact ⟨new, scene, calls, hmake, hentries, hstate, hone ▸ hn, hstate', hiff'.mpr (.inr hstate')⟩

/-- A stop gives up while an item is still with the handler: the engine is not running any more, and
goes on reporting three free slots. -/
theorem remaining_after_timeout :
    ∃ (new : Engine Nat Unit Unit) (scene : Scene Unit) (calls : List (Call Nat Unit Unit)),
      Engine.make "worker" { capacity := 4 } = .ok new ∧
      new.answers scene calls =
        [.ok, .sequence 0, .ok, .refused (.shutdownTimeout new.config.patience)] ∧
      (new.after scene calls).1.isRunning = false ∧
      (new.after scene calls).1.remaining? = some 3 := by
  let crew : Crew Nat Unit Unit :=
    { handler := { onEvent := fun _ _ _ => .access fun _ => none }
      memory := ()
      exceptions := .logging "worker" }
  let calls : List (Call Nat Unit Unit) :=
    [.start crew none 0, .publish 1, .work 40, .stop 40]
  let scene : Scene Unit := { outside := (), log := [], mint := .spread 0 0 }
  let new : Engine Nat Unit Unit :=
    { name := "worker", config := { capacity := 4 }, status := .stopped {} }
  have hmake : Engine.make "worker" { capacity := 4 } = .ok new :=
    make_of_valid (by decide +kernel) _
  exact ⟨new, scene, calls, hmake, by decide +kernel, by decide +kernel, by decide +kernel⟩

end Engine
end MessageRing
