import MessageRing.Proofs.Engine.Diaries
import MessageRing.Proofs.Engine.Rules
import MessageRing.Proofs.Engine.Shifts

/-!
No accepted item is lost by an engine.

`Kept` ties an engine to the roster of its run: every shift that is over has passed on all that it
accepted, and the worker at the engine's ring, if there is one, is that of the present shift. What
recorded handlers have written down then says the same.
-/
namespace MessageRing
variable {α η σ : Type}

namespace Engine

/-- The roster of an engine is in order. -/
structure Kept (e : Engine α η σ) (r : Roster α η σ) : Prop where
  stray : r.stray = []
  past : ∀ shift ∈ r.past, shift.passed = shift.accepted ∧ shift.Loyal
  present : match e.station?, r.present with
    | none, none => True
    | some station, some shift => shift.Fit station
    | _, _ => False

/-- What is asked of each shift of such a roster. -/
def careful : Rule α η σ where
  during := Shift.Fit
  after shift := shift.passed = shift.accepted ∧ shift.Loyal

theorem careful_sustained :
    careful.Sustained fun crew : Crew α η σ => crew.exceptions.Normal where
  opened normal made name scene := Shift.fit_iff.mpr ⟨.of_opened made name _ scene, normal⟩
  step fit step := fit.step step
  push fit item := Shift.fit_iff.mpr ⟨fit.accounted.push item, fit.normal⟩
  halt fit := Shift.fit_iff.mpr ⟨fit.accounted.halt, fit.normal⟩
  ended fit ended := ⟨fit.accounted.passed_eq (fit.accounted.finished_of_ended ended), fit.loyal⟩

namespace Kept
variable {e : Engine α η σ} {r : Roster α η σ}

theorem iff_obeyed : e.Kept r ↔ careful.Obeyed e r :=
  ⟨fun h => ⟨h.stray, h.past, h.present⟩, fun h => ⟨h.stray, h.past, h.present⟩⟩

theorem of_station (h : e.Kept r) {station : Station α η σ} (there : e.station? = some station) :
    ∃ shift, r.present = some shift ∧ shift.Fit station :=
  (iff_obeyed.mp h).of_station there

theorem of_none (h : e.Kept r) (idle : e.station? = none) : r.present = none :=
  (iff_obeyed.mp h).of_none idle

theorem course {supply : Supply α η σ} (h : e.Kept r)
    (normal : ∀ crew, supply.crews crew → crew.exceptions.Normal) {e' : Engine α η σ}
    {scene scene' : Scene σ} {happenings : List (Happening α η σ)}
    (course : Course supply e scene happenings e' scene') :
    e'.Kept (r.read (happenings.flatMap Happening.sights)) :=
  iff_obeyed.mpr ((iff_obeyed.mp h).course careful_sustained normal course)

/-- What was passed on over all shifts is a first part of what was accepted. -/
theorem passed_prefix (h : e.Kept r) : r.passed <+: r.accepted := by
  have hpast : r.past.flatMap Shift.passed = r.past.flatMap Shift.accepted :=
    List.flatMap_congr fun shift hshift => (h.past shift hshift).1
  unfold Roster.passed Roster.accepted Roster.shifts
  rw [List.flatMap_append, List.flatMap_append, hpast]
  refine (List.prefix_append_right_inj _).mpr ?_
  cases hpresent : r.present with
  | none => exact List.prefix_rfl
  | some shift =>
    cases hthere : e.station? with
    | none =>
      rw [h.of_none hthere] at hpresent
      cases hpresent
    | some station =>
      obtain ⟨shift', hshift, hfit⟩ := h.of_station hthere
      cases hpresent.symm.trans hshift
      simpa using hfit.passed_prefix

/-- Without a worker everything has been passed on. -/
theorem passed_eq (h : e.Kept r) (idle : e.station? = none) : r.passed = r.accepted := by
  unfold Roster.passed Roster.accepted Roster.shifts
  rw [h.of_none idle]
  refine List.flatMap_congr fun shift hshift => (h.past shift ?_).1
  simpa using hshift

end Kept

theorem make_kept {name : String} {config : Config} {new : Engine α η σ}
    (made : Engine.make name config = .ok new) : new.Kept {} :=
  Kept.iff_obeyed.mpr (careful.obeyed_of_make made)

theorem Kept.run {e : Engine α η σ} {r : Roster α η σ} (h : e.Kept r) (scene : Scene σ)
    (calls : List (Call α η σ)) (normal : ∀ crew refusal progress,
      .start crew refusal progress ∈ calls → crew.exceptions.Normal) :
    (e.after scene calls).1.Kept
      (r.read ((e.chronicle scene calls).flatMap Happening.sights)) :=
  iff_obeyed.mpr ((iff_obeyed.mp h).run careful_sustained scene calls normal)

/-- A roster of what was written down in a run whose sights are in order. -/
structure Attested (e : Engine α η (Diary α η σ × σ)) (r : Roster α η (Diary α η σ × σ)) :
    Prop where
  past : ∀ shift ∈ r.past, shift.passed = shift.accepted ∧ shift.Loyal
  present : ∀ shift, r.present = some shift → shift.passed <+: shift.accepted ∧ shift.Loyal
  stray : r.stray = []
  idle : e.station? = none ↔ r.present = none

theorem Witnessed.attested {e : Engine α η (Diary α η σ × σ)}
    {full seen : Roster α η (Diary α η σ × σ)} (h : e.Witnessed full seen) (kept : e.Kept full) :
    e.Attested seen := by
  refine ⟨?_, fun shift hshift => ?_, h.stray.trans kept.stray, fun hidle => (h.idle hidle).2,
    fun hnone => ?_⟩
  · rw [h.past]
    exact kept.past
  · cases hthere : e.station? with
    | none =>
      rw [(h.idle hthere).2] at hshift
      cases hshift
    | some station =>
      obtain ⟨before, handler, trace, notices, hcrew, htrails, hfull, hseen⟩ := h.there _ hthere
      obtain ⟨full, hpresent, hfit⟩ := kept.of_station hthere
      cases hfull.symm.trans hpresent
      cases hseen.symm.trans hshift
      -- the calls written down are a first part of those that the rules say
      have hcalls : (before.telling handler notices).passed <+:
          (before.telling handler trace).passed :=
        (htrails.calls_prefix.map _).filterMap _
      refine ⟨hcalls.trans hfit.passed_prefix, fun call hcall => ?_⟩
      obtain ⟨_, -, rfl⟩ := List.mem_map.mp hcall
      exact hcrew.symm
  · cases hthere : e.station? with
    | none => rfl
    | some station =>
      obtain ⟨_, _, _, _, _, _, _, hseen⟩ := h.there _ hthere
      rw [hnone] at hseen
      cases hseen

/-- No accepted item is lost, and no other is passed on. Whatever is called, and however the
progress of the workers falls between and into the calls, a shift that is over has passed exactly
what it accepted to its own handler, once each and in order; the present one, also while a stop has
given up waiting, has passed a first part. No handler is called and no item accepted outside of
these shifts, and while the engine has no worker nothing is left to pass on. The calls are those
that the handlers have written down themselves. -/
theorem no_item_lost {name : String} {config : Config} {new : Engine α η (Diary α η σ × σ)}
    (made : Engine.make name config = .ok new) (scene : Scene (Diary α η σ × σ))
    (calls : List (Call α η σ)) (normal : ∀ crew refusal progress,
      .start crew refusal progress ∈ calls → crew.exceptions.Normal) :
    let run := calls.map Call.recorded
    let r := Roster.read {} ((new.chronicle scene run).flatMap Happening.witnessed)
    (∀ shift ∈ r.past, shift.passed = shift.accepted ∧ shift.Loyal) ∧
    (∀ shift, r.present = some shift → shift.passed <+: shift.accepted ∧ shift.Loyal) ∧
    r.stray = [] ∧ ((new.after scene run).1.station? = none ↔ r.present = none) := by
  intro run r
  have hkept := (make_kept made).run scene run fun crew refusal progress hmem => by
    obtain ⟨inner, hgiven, rfl⟩ := crew_recorded hmem
    exact (normal inner refusal progress hgiven).recorded inner.handler
  have h : (new.after scene run).1.Attested r :=
    (witnessed_of_make made scene calls).attested hkept
  exact ⟨h.past, h.present, h.stray, h.idle⟩

/-- Two shifts on two slots, with a refused item, a stop that gives up, a start that finishes it,
and a start that does nothing. -/
theorem no_item_lost_restarted :
    ∃ (new : Engine Nat Unit (Diary Nat Unit Unit × Unit))
      (scene : Scene (Diary Nat Unit Unit × Unit)) (calls : List (Call Nat Unit Unit)),
      Engine.make "worker" { capacity := 2 } = .ok new ∧
      (∀ crew refusal progress, .start crew refusal progress ∈ calls →
        crew.exceptions.Normal) ∧
      (Roster.read {} ((new.chronicle scene (calls.map Call.recorded)).flatMap
        Happening.witnessed)).past.map Shift.accepted = [[5, 6], [8]] ∧
      ∀ shift ∈ (Roster.read {} ((new.chronicle scene (calls.map Call.recorded)).flatMap
          Happening.witnessed)).past, shift.passed = shift.accepted ∧ shift.Loyal := by
  let handler : EventHandler Nat Unit Unit :=
    { onEvent := fun item _ _ => .finish
        (if item = 5 then .failed (.failed (.text "refused")) else .panicked .other) }
  let crew : Crew Nat Unit Unit :=
    { handler, memory := (), exceptions := .logging "worker" }
  let calls : List (Call Nat Unit Unit) :=
    [.start crew none 0, .publish 5, .publish 6, .publish 7, .work 4, .stop 0,
      .start crew none 60, .start crew none 0, .publish 8, .stopWithin (.ofSeconds 1) 60,
      .publish 9]
  let scene : Scene (Diary Nat Unit Unit × Unit) :=
    { outside := ([], ()), log := [], mint := .spread 0 0 }
  let new : Engine Nat Unit (Diary Nat Unit Unit × Unit) :=
    { name := "worker", config := { capacity := 2 }, status := .stopped {} }
  have hmake : Engine.make "worker" { capacity := 2 } = .ok new :=
    make_of_valid (by decide +kernel) _
  have hnormal : ∀ (crew : Crew Nat Unit Unit) refusal progress,
      .start crew refusal progress ∈ calls → crew.exceptions.Normal := by
    intro crew' refusal progress hmem
    have hcrew : crew' = crew := by
      simp only [calls, List.mem_cons, Call.start.injEq, reduceCtorEq, List.not_mem_nil, or_false,
        false_or] at hmem
      tauto
    rw [hcrew]
    exact ExceptionHandler.logging_normal "worker"
  exact ⟨new, scene, calls, hmake, hnormal, by decide +kernel,
    (no_item_lost hmake scene calls hnormal).1⟩

end Engine
end MessageRing
