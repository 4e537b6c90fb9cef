import MessageRing.Proofs.Engine.Moves
import MessageRing.Proofs.Worker.Steps

/-!
An engine's runs as a sequence of shifts.

The sights of a run are what its callers and its handlers see. A shift lasts from a start that takes
effect to the stop that ends it, and a roster sorts the sights by shifts.
-/
namespace MessageRing
variable {α η σ : Type}

/-- What callers and handlers see of an engine. -/
inductive Sight (α η σ : Type) where
  /-- A start took effect. -/
  | began (crew : Engine.Crew α η σ)
  /-- An item was accepted from a caller, or from the handler itself. -/
  | accepted (item : α)
  | called (handler : EventHandler α η σ) (call : HandlerCall α)
  /-- The worker was lost to a panic. -/
  | died (p : Panic)
  /-- A stop returned without an error, also one within a start, or a dismissal was done. -/
  | ended

/-- Something that a worker does or that happens at its ring. -/
def Sight.ofWork : Sight α η σ → Bool
  | .accepted _ | .called _ _ | .died _ => true
  | .began _ | .ended => false

namespace Sight

def item? : Sight α η σ → Option α
  | .accepted item => some item
  | _ => none

def call? : Sight α η σ → Option (HandlerCall α)
  | .called _ call => some call
  | _ => none

end Sight

/-- What was seen from a start to the stop that ends it. -/
structure Shift (α η σ : Type) where
  crew : Engine.Crew α η σ
  accepted : List α := []
  calls : List (EventHandler α η σ × HandlerCall α) := []
  died : Option Panic := none

namespace Shift

/-- The items that were passed to a handler. -/
def passed (shift : Shift α η σ) : List α := shift.calls.filterMap (·.2.item?)

def see (shift : Shift α η σ) : Sight α η σ → Shift α η σ
  | .accepted item => { shift with accepted := shift.accepted ++ [item] }
  | .called handler call => { shift with calls := shift.calls ++ [(handler, call)] }
  | .died p => { shift with died := some p }
  | .began _ | .ended => shift

/-- Only the handler of the shift was called. -/
def Loyal (shift : Shift α η σ) : Prop := ∀ call ∈ shift.calls, call.1 = shift.crew.handler

theorem foldl_accepted (shift : Shift α η σ) (items : List α) :
    (items.map Sight.accepted).foldl see shift =
      { shift with accepted := shift.accepted ++ items } := by
  induction items generalizing shift with
  | nil => simp
  | cons item items ih => simp [ih, see]

theorem foldl_called (shift : Shift α η σ) (handler : EventHandler α η σ)
    (calls : List (HandlerCall α)) :
    (calls.map (Sight.called handler)).foldl see shift =
      { shift with calls := shift.calls ++ calls.map (handler, ·) } := by
  induction calls generalizing shift with
  | nil => simp
  | cons call calls ih => simp [ih, see]

end Shift

/-- The panic that the worker has died of. -/
def Phase.panic? : Phase α η σ → Option Panic
  | .died p => some p
  | _ => none

namespace Station

/-- What is seen of a step, from the state before it to the state after it. -/
def sights (s s' : Station α η σ) : List (Sight α η σ) :=
  (s.notes.filterMap Note.item?).map .accepted ++
    (s.notices.filterMap Notice.call?).map (.called s.worker.handler) ++
      (s'.worker.phase.panic?.map .died).toList

variable (s s' : Station α η σ)

theorem items_sights : (s.sights s').filterMap Sight.item? = s.notes.filterMap Note.item? := by
  cases hpanic : s'.worker.phase.panic? <;>
    simp [sights, hpanic, List.filterMap_append, List.filterMap_map, Function.comp_def, Sight.item?]

theorem calls_sights : (s.sights s').filterMap Sight.call? = s.notices.filterMap Notice.call? := by
  cases hpanic : s'.worker.phase.panic? <;>
    simp [sights, hpanic, List.filterMap_append, List.filterMap_map, Function.comp_def, Sight.call?]

/-- A step as the shift that it belongs to sees it. -/
theorem foldl_sights (shift : Shift α η σ) :
    (s.sights s').foldl Shift.see shift =
      { shift with
        accepted := shift.accepted ++ s.notes.filterMap Note.item?
        calls := shift.calls ++ (s.notices.filterMap Notice.call?).map (s.worker.handler, ·)
        died := s'.worker.phase.panic?.or shift.died } := by
  rw [sights, List.foldl_append, List.foldl_append, Shift.foldl_accepted, Shift.foldl_called]
  cases s'.worker.phase.panic? <;> rfl

end Station

/-- A run's sights, sorted by shifts. -/
structure Roster (α η σ : Type) where
  /-- The shifts that are over, oldest first. -/
  past : List (Shift α η σ) := []
  present : Option (Shift α η σ) := none
  /-- Sights of work outside any shift. -/
  stray : List (Sight α η σ) := []

namespace Roster

def enter (r : Roster α η σ) : Sight α η σ → Roster α η σ
  | .began crew => { r with past := r.past ++ r.present.toList, present := some { crew } }
  | .ended => { r with past := r.past ++ r.present.toList, present := none }
  | sight =>
    match r.present with
    | some shift => { r with present := some (shift.see sight) }
    | none => { r with stray := r.stray ++ [sight] }

def read (r : Roster α η σ) (sights : List (Sight α η σ)) : Roster α η σ := sights.foldl enter r

theorem read_append (r : Roster α η σ) (sights sights' : List (Sight α η σ)) :
    r.read (sights ++ sights') = (r.read sights).read sights' :=
  List.foldl_append

def shifts (r : Roster α η σ) : List (Shift α η σ) := r.past ++ r.present.toList

/-- The items accepted in all shifts. -/
def accepted (r : Roster α η σ) : List α := r.shifts.flatMap Shift.accepted

/-- The items passed on in all shifts. -/
def passed (r : Roster α η σ) : List α := r.shifts.flatMap Shift.passed

/-- A sight that belongs to a shift adds to what was accepted or to what was passed on. -/
theorem enter_items {r : Roster α η σ} {sight : Sight α η σ} (h : (r.enter sight).stray = []) :
    r.stray = [] ∧ (r.enter sight).accepted = r.accepted ++ sight.item?.toList ∧
      (r.enter sight).passed = r.passed ++ (sight.call?.bind HandlerCall.item?).toList := by
  cases sight with
  | began crew => exact ⟨h, by simp [enter, accepted, shifts, Sight.item?], by
      simp [enter, passed, shifts, Sight.call?, Shift.passed]⟩
  | ended => exact ⟨h, by simp [enter, accepted, shifts, Sight.item?], by
      simp [enter, passed, shifts, Sight.call?]⟩
  | accepted item =>
    cases hpresent : r.present with
    | none => simp [enter, hpresent] at h
    | some shift =>
      simp only [enter, hpresent] at h
      refine ⟨h, ?_, ?_⟩
      · simp [enter, accepted, shifts, Sight.item?, hpresent, Shift.see]
      · simp [enter, passed, shifts, Sight.call?, hpresent, Shift.see, Shift.passed]
  | called handler call =>
    cases hpresent : r.present with
    | none => simp [enter, hpresent] at h
    | some shift =>
      simp only [enter, hpresent] at h
      refine ⟨h, ?_, ?_⟩
      · simp [enter, accepted, shifts, Sight.item?, hpresent, Shift.see]
      · cases hitem : call.item? <;>
          simp [enter, passed, shifts, Sight.call?, hpresent, Shift.see, Shift.passed, hitem]
  | died p =>
    cases hpresent : r.present with
    | none => simp [enter, hpresent] at h
    | some shift =>
      simp only [enter, hpresent] at h
      exact ⟨h, by simp [enter, accepted, shifts, Sight.item?, hpresent, Shift.see],
        by simp [enter, passed, shifts, Sight.call?, hpresent, Shift.see, Shift.passed]⟩

theorem read_items {r : Roster α η σ} {sights : List (Sight α η σ)}
    (h : (r.read sights).stray = []) :
    r.stray = [] ∧ (r.read sights).accepted = r.accepted ++ sights.filterMap Sight.item? ∧
      (r.read sights).passed =
        r.passed ++ (sights.filterMap Sight.call?).filterMap HandlerCall.item? := by
  induction sights generalizing r with
  | nil => exact ⟨h, by simp [read], by simp [read]⟩
  | cons sight sights ih =>
    obtain ⟨hrest, haccepted, hpassed⟩ := ih (r := r.enter sight) h
    obtain ⟨hstray, haccepted', hpassed'⟩ := enter_items hrest
    refine ⟨hstray, haccepted.trans ?_, hpassed.trans ?_⟩
    · rw [haccepted', List.append_assoc, List.filterMap_cons]
      cases sight.item? <;> rfl
    · rw [hpassed', List.append_assoc, List.filterMap_cons]
      cases hcall : sight.call? with
      | none => rfl
      | some call =>
        dsimp only [Option.bind_some]
        rw [List.filterMap_cons]
        cases call.item? <;> rfl

/-- Work concerns the present shift alone. -/
theorem read_work {r : Roster α η σ} {shift : Shift α η σ} (h : r.present = some shift)
    {sights : List (Sight α η σ)} (work : ∀ sight ∈ sights, sight.ofWork = true) :
    r.read sights = { r with present := some (sights.foldl Shift.see shift) } := by
  induction sights generalizing r shift with
  | nil => simp [read, ← h]
  | cons sight sights ih =>
    obtain ⟨hsight, hsights⟩ := List.forall_mem_cons.mp work
    have henter : r.enter sight = { r with present := some (shift.see sight) } := by
      cases sight with
      | began crew | ended => cases hsight
      | accepted item | called handler call | died p => simp [enter, h]
    have hrest := ih (r := { r with present := some (shift.see sight) }) rfl hsights
    rw [← henter] at hrest
    exact hrest.trans (by rw [henter]; rfl)

end Roster

theorem Station.sights_work (s s' : Station α η σ) :
    ∀ sight ∈ s.sights s', sight.ofWork = true := by
  intro sight hsight
  rcases List.mem_append.mp hsight with h | h
  · rcases List.mem_append.mp h with h | h <;> obtain ⟨_, _, rfl⟩ := List.mem_map.mp h <;> rfl
  · obtain ⟨_, _, rfl⟩ := Option.map_eq_some_iff.mp (Option.mem_toList.mp h)
    rfl

namespace Happening

def sights : Happening α η σ → List (Sight α η σ)
  | began crew => [.began crew]
  | worked s _ s' _ => s.sights s'
  | published item (.done _) => [.accepted item]
  | published _ _ | halted => []
  | ended => [.ended]

/-- Publishing shows what it has stored. -/
theorem sights_published (item : α) (answer : Response Int) :
    (published item answer : Happening α η σ).sights =
      ((Ring.filled (some item) answer).filterMap Note.item?).map .accepted := by
  cases answer <;> rfl

theorem published_work (item : α) (answer : Response Int) :
    ∀ sight ∈ (published item answer : Happening α η σ).sights, sight.ofWork = true := by
  intro sight hsight
  rw [sights_published] at hsight
  obtain ⟨_, _, rfl⟩ := List.mem_map.mp hsight
  rfl

end Happening
end MessageRing
