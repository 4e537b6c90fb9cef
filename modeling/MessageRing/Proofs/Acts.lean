import MessageRing.Act

/-!
Acts that leave a record, and acts that keep to a relation.

To speak of what an act does to the world while the world is outside code, the world gets a record
beside it: `recorded` is the same act, and writes down some entries when it has happened. `Keeps`
says of an act that whatever it does to the world stands in a relation to what was there before.
-/
namespace MessageRing
namespace Act
variable {σ β γ ρ : Type}

theorem bind_ok {act : Act σ β} {next : β → Act σ γ} {scene between : Scene σ} {b : β}
    (h : act scene = some (.ok b, between)) : (act >>= next) scene = next b between := by
  change andThen act next scene = _
  simp only [andThen, h]

theorem bind_of_waits {act : Act σ β} (next : β → Act σ γ) {scene : Scene σ}
    (h : act scene = none) : (act >>= next) scene = none := by
  change andThen act next scene = _
  simp only [andThen, h]

/-- An act followed by another one happens in one of two ways. -/
theorem bind_eq_some {act : Act σ β} {next : β → Act σ γ} {scene scene' : Scene σ}
    {result : Except Panic γ} (h : (act >>= next) scene = some (result, scene')) :
    (∃ p, act scene = some (.error p, scene') ∧ result = .error p) ∨
      ∃ b between, act scene = some (.ok b, between) ∧
        next b between = some (result, scene') := by
  change andThen act next scene = _ at h
  unfold andThen at h
  cases hact : act scene with
  | none =>
    rw [hact] at h
    cases h
  | some outcome =>
    obtain ⟨response, between⟩ := outcome
    rw [hact] at h
    cases response with
    | error p =>
      cases h
      exact .inl ⟨p, rfl, rfl⟩
    | ok b => exact .inr ⟨b, between, rfl, h⟩

/-- An act followed by another one waits where one of the two does. -/
theorem bind_eq_none {act : Act σ β} {next : β → Act σ γ} {scene : Scene σ}
    (h : (act >>= next) scene = none) :
    act scene = none ∨ ∃ b between, act scene = some (.ok b, between) ∧ next b between = none := by
  change andThen act next scene = _ at h
  unfold andThen at h
  cases hact : act scene with
  | none => exact .inl rfl
  | some outcome =>
    obtain ⟨response, between⟩ := outcome
    rw [hact] at h
    cases response with
    | error p => cases h
    | ok b => exact .inr ⟨b, between, rfl, h⟩

theorem guarded_eq_some {act : Act σ β} {scene scene' : Scene σ}
    {result : Except Panic (Except Panic β)} (h : act.guarded scene = some (result, scene')) :
    ∃ outcome, result = .ok outcome ∧ act scene = some (outcome, scene') := by
  unfold guarded at h
  cases hact : act scene with
  | none =>
    rw [hact] at h
    cases h
  | some response =>
    rw [hact] at h
    cases h
    exact ⟨_, rfl, rfl⟩

section Focus
variable {τ : Type} {part : σ → τ} {restore : τ → σ → σ} {act : Act τ β} {scene : Scene σ}

theorem focus_of_some {result : Except Panic β} {after : Scene τ}
    (h : act (scene.withOutside (part scene.outside)) = some (result, after)) :
    act.focus part restore scene =
      some (result, after.withOutside (restore after.outside scene.outside)) := by
  simp only [focus, h]

theorem focus_of_waits (h : act (scene.withOutside (part scene.outside)) = none) :
    act.focus part restore scene = none := by
  simp only [focus, h]

end Focus

/-- Whatever the act does to the world keeps to the relation. -/
def Keeps (R : σ → σ → Prop) (act : Act σ β) : Prop :=
  ∀ scene result scene', act scene = some (result, scene') → R scene.outside scene'.outside

namespace Keeps
variable {R : σ → σ → Prop}

theorem pure (refl : ∀ w, R w w) (b : β) : Keeps R (Pure.pure b : Act σ β) := by
  rintro scene result scene' ⟨⟩
  exact refl scene.outside

theorem report (refl : ∀ w, R w w) (r : Record) : Keeps R (Act.report r : Act σ Unit) := by
  rintro scene result scene' ⟨⟩
  exact refl scene.outside

theorem guarded {act : Act σ β} (h : act.Keeps R) : act.guarded.Keeps R := by
  intro scene result scene' hact
  obtain ⟨outcome, -, hinner⟩ := guarded_eq_some hact
  exact h scene outcome scene' hinner

theorem bind (trans : ∀ u v w, R u v → R v w → R u w) {act : Act σ β} {next : β → Act σ γ}
    (h : act.Keeps R) (hnext : ∀ b, (next b).Keeps R) : (act >>= next).Keeps R := by
  intro scene result scene' hact
  rcases bind_eq_some hact with ⟨p, hfirst, -⟩ | ⟨b, between, hfirst, hrest⟩
  · exact h scene _ scene' hfirst
  · exact trans _ _ _ (h scene _ between hfirst) (hnext b between _ scene' hrest)

end Keeps

/-- The same act in a world with a record beside it; when it happens it adds to the record. -/
def recorded (act : Act σ β) (entries : Except Panic β → List ρ) : Act (List ρ × σ) β :=
  fun scene =>
    (act (scene.withOutside scene.outside.2)).map fun (result, after) =>
      (result, after.withOutside (scene.outside.1 ++ entries result, after.outside))

/-- The same act beside a record that it leaves alone. -/
def unrecorded (act : Act σ β) : Act (List ρ × σ) β := act.recorded fun _ => []

theorem recorded_eq_some {act : Act σ β} {entries : Except Panic β → List ρ}
    {scene scene' : Scene (List ρ × σ)} {result : Except Panic β}
    (h : act.recorded entries scene = some (result, scene')) :
    scene'.outside.1 = scene.outside.1 ++ entries result ∧
      act (scene.withOutside scene.outside.2) =
        some (result, scene'.withOutside scene'.outside.2) := by
  obtain ⟨⟨response, after⟩, hact, he⟩ := Option.map_eq_some_iff.mp h
  cases he
  exact ⟨rfl, hact⟩

/-- What comes first can write everything down, if it does not matter how the rest ends. -/
theorem recorded_bind (act : Act σ β) (next : β → Act σ γ) (entries : List ρ) :
    ((act.recorded fun _ => entries) >>= fun b => (next b).unrecorded) =
      (act >>= next).recorded fun _ => entries := by
  funext scene
  change andThen _ _ scene = ((andThen act next) _).map _
  unfold andThen recorded
  cases act (scene.withOutside scene.outside.2) with
  | none => rfl
  | some outcome =>
    obtain ⟨response, after⟩ := outcome
    cases response with
    | error p => rfl
    | ok b =>
      change (next b after).map _ = (next b after).map _
      simp [Scene.withOutside]

theorem unrecorded_bind (act : Act σ β) (next : β → Act σ γ) :
    (act.unrecorded >>= fun b => (next b).unrecorded) =
      (act >>= next).unrecorded (ρ := ρ) :=
  recorded_bind act next []

theorem unrecorded_pure (b : β) :
    (pure b : Act (List ρ × σ) β) = (pure b : Act σ β).unrecorded := by
  funext scene
  change some _ = some (_, scene.withOutside (scene.outside.1 ++ [], scene.outside.2))
  rw [List.append_nil]
  rfl

/-- The first act is the second one in a world with a record beside it, whatever it writes down. -/
def Recording (act' : Act (List ρ × σ) β) (act : Act σ β) : Prop :=
  ∀ scene, act (scene.withOutside scene.outside.2) =
    (act' scene).map fun (result, after) => (result, after.withOutside after.outside.2)

namespace Recording

theorem recorded (act : Act σ β) (entries : Except Panic β → List ρ) :
    (act.recorded entries).Recording act := by
  intro scene
  unfold Act.recorded
  cases act (scene.withOutside scene.outside.2) <;> rfl

theorem pure (b : β) : Recording (ρ := ρ) (σ := σ) (Pure.pure b) (Pure.pure b) :=
  fun _ => rfl

theorem bind {act' : Act (List ρ × σ) β} {act : Act σ β} {next' : β → Act (List ρ × σ) γ}
    {next : β → Act σ γ} (first : act'.Recording act)
    (rest : ∀ b, (next' b).Recording (next b)) :
    (act' >>= next').Recording (act >>= next) := by
  intro scene
  change andThen act next _ = (andThen act' next' scene).map _
  unfold andThen
  rw [first scene]
  cases act' scene with
  | none => rfl
  | some outcome =>
    obtain ⟨result, after⟩ := outcome
    cases result with
    | error p => rfl
    | ok b => exact rest b after

end Recording

end Act
end MessageRing
