import MessageRing.ErrorReport
import MessageRing.Proofs.Acts

/-!
Which channel a failure is published to.

The channel that the failed message names comes first, then the default one, and a failure that can
be sent to neither is logged. There is one exception: a message that names a channel which nobody
has registered keeps its failures from the default channel.
-/
namespace MessageRing
variable {σ : Type} {registry : Registry ErrorReport σ} {fallback : Option String}
  {error : MessagingError} {failed : Option Headers}

namespace ErrorReport

/-- The failed message names this channel for its failures. -/
def Named (failed : Option Headers) (name : String) : Prop :=
  ∃ headers, failed = some headers ∧ headers.get? Key.errorChannel = some (.string name)

theorem named_iff {name : String} :
    Named failed name ↔ failed.bind (·.errorChannel?) = some name := by
  simp [Named, Option.bind_eq_some_iff, Headers.errorChannel?_eq_some]

/-- What follows an attempt to send the message about a failure. -/
def settle (error : MessagingError) (failed : Option Headers) :
    Except MessagingError Unit → Act σ Unit
  | .ok () => pure ()
  | .error sendError => Act.report (.publishFailed (failed.map (·.id)) error sendError)

end ErrorReport

namespace ErrorHandler

/-- The message about a failure is built and then sent to one channel, if the channel is there. -/
theorem publishing_eq (registry : Registry ErrorReport σ) (fallback : Option String)
    (error : MessagingError) (failed : Option Headers) (scene : Scene σ) :
    let built := (ErrorReport.builder error failed).build scene.mint
    publishing registry fallback error failed scene =
      (ErrorReport.send registry built.1 (ErrorReport.target fallback failed) >>=
        ErrorReport.settle error failed) { scene with mint := built.2 } := by
  intro built
  exact Act.bind_ok rfl

theorem publishing_of_target {name : String} {channel : Destination ErrorReport σ}
    (target : ErrorReport.target fallback failed = some name)
    (there : registry.get? name = some channel) (scene : Scene σ) :
    let built := (ErrorReport.builder error failed).build scene.mint
    publishing registry fallback error failed scene =
      (channel built.1 >>= ErrorReport.settle error failed) { scene with mint := built.2 } := by
  intro built
  rw [publishing_eq, target]
  simp only [ErrorReport.send, Registry.resolve, there]
  rfl

theorem publishing_of_no_target
    (nowhere : ∀ name, ErrorReport.target fallback failed = some name → registry.get? name = none)
    (scene : Scene σ) :
    let built := (ErrorReport.builder error failed).build scene.mint
    ∃ sendError, publishing registry fallback error failed scene =
      some (.ok (), { scene with
        mint := built.2
        log := scene.log ++ [.publishFailed (failed.map (·.id)) error sendError] }) := by
  intro built
  rw [publishing_eq]
  cases htarget : ErrorReport.target fallback failed with
  | none => exact ⟨_, rfl⟩
  | some name =>
    simp only [ErrorReport.send, Registry.resolve, nowhere name htarget]
    exact ⟨_, rfl⟩

/-- Apart from a message that names a channel which is not registered while the default one is, a
failure is sent to the channel that the failed message names, and to the default one if the message
names none that is registered. It is logged without having been sent only if neither is
registered. -/
theorem falls_back (apart : ∀ name, ErrorReport.Named failed name → registry.get? name = none →
      ∀ other, fallback = some other → registry.get? other = none) (scene : Scene σ) :
    let built := (ErrorReport.builder error failed).build scene.mint
    let sends := fun channel : Destination ErrorReport σ =>
      publishing registry fallback error failed scene =
        (channel built.1 >>= ErrorReport.settle error failed) { scene with mint := built.2 }
    (∀ name channel, ErrorReport.Named failed name → registry.get? name = some channel →
      sends channel) ∧
    ((∀ name, ErrorReport.Named failed name → registry.get? name = none) →
      ∀ name channel, fallback = some name → registry.get? name = some channel →
        sends channel) ∧
    ((∀ name, ErrorReport.Named failed name ∨ fallback = some name → registry.get? name = none) →
      ∃ sendError, publishing registry fallback error failed scene =
        some (.ok (), { scene with
          mint := built.2
          log := scene.log ++ [.publishFailed (failed.map (·.id)) error sendError] })) := by
  intro built sends
  refine ⟨?_, ?_, ?_⟩
  · intro name channel hnamed hthere
    apply publishing_of_target _ hthere
    rw [ErrorReport.target, ErrorReport.named_iff.mp hnamed, Option.some_or]
  · intro hunknown name channel hfallback hthere
    have hnone : failed.bind (·.errorChannel?) = none := by
      apply Option.eq_none_iff_forall_ne_some.mpr
      intro other hother
      have hnamed := ErrorReport.named_iff.mpr hother
      have hlost := apart other hnamed (hunknown other hnamed) name hfallback
      rw [hthere] at hlost
      cases hlost
    apply publishing_of_target _ hthere
    rw [ErrorReport.target, hnone, Option.none_or, hfallback]
  · intro hneither
    apply publishing_of_no_target
    intro name htarget
    rw [ErrorReport.target, Option.or_eq_some_iff] at htarget
    rcases htarget with hnamed | ⟨-, hfallback⟩
    · exact hneither name (.inl (ErrorReport.named_iff.mpr hnamed))
    · exact hneither name (.inr hfallback)

section Runs

/-- Takes every message and keeps its description. -/
def collecting : Destination ErrorReport (List String) := fun report => do
  Act.modify (· ++ [report.payload.description])
  return .ok ()

/-- A failed message whose header for the channel is no text. -/
theorem falls_back_from_number :
    let failed : Option Headers := some (.ofList [(Key.errorChannel, .int 7)])
    let registry : Registry ErrorReport (List String) := .ofList [("errors", collecting)]
    let scene : Scene (List String) := { outside := [], log := [], mint := .spread 0 0 }
    (∀ name, ErrorReport.Named failed name → registry.get? name = none →
      ∀ other, some "errors" = some other → registry.get? other = none) ∧
    ∃ after, publishing registry (some "errors") .noDestination failed scene =
        some (.ok (), after) ∧
      after.outside = ["no output channel or reply_to header available"] ∧
      after.log.map Record.text = [] := by
  intro failed registry scene
  have hunnamed : ∀ name, ¬ErrorReport.Named failed name := by
    intro name hnamed
    have hnone : failed.bind (·.errorChannel?) = none := by decide +kernel
    rw [ErrorReport.named_iff, hnone] at hnamed
    cases hnamed
  have hapart : ∀ name, ErrorReport.Named failed name → registry.get? name = none →
      ∀ other, some "errors" = some other → registry.get? other = none :=
    fun name hnamed => absurd hnamed (hunnamed name)
  have hsent : publishing registry (some "errors") .noDestination failed scene = _ :=
    (falls_back hapart scene).2.1 (fun name hnamed => absurd hnamed (hunnamed name))
      "errors" collecting rfl rfl
  exact ⟨hapart, _, hsent, rfl, rfl⟩

/-- A channel that nobody has registered is named, and the default channel gets nothing although it
is there: the failure is only logged. -/
theorem default_passed_over :
    let failed : Option Headers := some (.ofList [(Key.errorChannel, .string "nowhere")])
    let registry : Registry ErrorReport (List String) := .ofList [("errors", collecting)]
    let scene : Scene (List String) := { outside := [], log := [], mint := .spread 0 0 }
    ErrorReport.Named failed "nowhere" ∧ registry.get? "nowhere" = none ∧
    registry.get? "errors" = some collecting ∧
    ∃ after, publishing registry (some "errors") .noDestination failed scene =
        some (.ok (), after) ∧
      after.outside = [] ∧ after.log.map Record.text = ["failed to publish error message"] := by
  intro failed registry scene
  have hnamed : failed.bind (·.errorChannel?) = some "nowhere" := by decide +kernel
  refine ⟨ErrorReport.named_iff.mpr hnamed, rfl, rfl, _, rfl, rfl, rfl⟩

end Runs

end ErrorHandler
end MessageRing
