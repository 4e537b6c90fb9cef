import Mathlib.Tactic
import MessageRing.Message.Builder
import MessageRing.Proofs.SortedMap

/-!
What a program of steps builds, and the identifiers that builds draw.

A step changes each header by itself: what it leaves under a key depends on nothing but what was
there before (`BuildStep.leave`). So a header of the message is found by going through the program
for its key alone. Many messages may be built from one mint. The identifiers that they draw from one
source are then the next ones of that source, in the order of the builds, however the builds that
draw from other sources lie between them.
-/
namespace MessageRing

namespace BuildStep

/-- What a step leaves under a key that is not assigned, after what was there before. -/
def leave (key : String) (before : Option HeaderValue) : BuildStep → Option HeaderValue
  | .header k value => set k value
  | .copy source => (source.get? key).or before
  | .copyIfAbsent source => before.or (source.get? key)
  | .remove k => if k = key then none else before
  | .replyTo channel => set Key.replyTo (.string channel)
  | .errorChannel channel => set Key.errorChannel (.string channel)
  | .correlationId value => set Key.correlationId value
  | .sequence number size =>
    if Key.sequenceNumber = key then some (.int number) else set Key.sequenceSize (.int size)
  | .ids _ => before
where
  set (k : String) (value : HeaderValue) : Option HeaderValue :=
    if k = key then some value else before

def ids? : BuildStep → Option IdSource
  | .ids source => some source
  | _ => none

end BuildStep

namespace Builder
variable {π : Type} {key : String}

/-- A copy takes over every header that is not assigned, sequence numbers included. -/
theorem valuesOf_copied (free : Key.assigned key = false) (source : Headers) :
    SortedMap.valuesOf key (copied source) = (source.get? key).toList := by
  unfold copied
  rw [SortedMap.valuesOf_filter (fun k => !Key.assigned k), SortedMap.valuesOf_entries]
  simp [free]

theorem get?_step (free : Key.assigned key = false) (b : Builder π) (step : BuildStep) :
    (b.step step).headers.get? key = step.leave key (b.headers.get? key) := by
  cases step with
  | copy source =>
    simp only [Builder.step, BuildStep.leave]
    rw [SortedMap.get?_foldl_insert, valuesOf_copied free]
    cases source.get? key <;> rfl
  | copyIfAbsent source =>
    simp only [Builder.step, BuildStep.leave]
    rw [SortedMap.get?_foldl_insertNew, valuesOf_copied free]
    cases source.get? key <;> rfl
  | remove k => exact SortedMap.get?_erase ..
  | ids source => rfl
  | sequence number size =>
    simp only [Builder.step, BuildStep.leave, BuildStep.leave.set, SortedMap.get?_insert]
    by_cases hnumber : Key.sequenceNumber = key
    · have hsize : Key.sequenceSize ≠ key := hnumber ▸ by decide
      simp [hnumber, hsize]
    · simp [hnumber]
  | _ => exact SortedMap.get?_insert ..

theorem get?_steps (free : Key.assigned key = false) (b : Builder π) (program : List BuildStep) :
    (b.steps program).headers.get? key =
      program.foldl (fun before step => step.leave key before) (b.headers.get? key) := by
  induction program generalizing b with
  | nil => rfl
  | cons step rest ih =>
    rw [List.foldl_cons, ← get?_step free]
    exact ih (b.step step)

theorem ids_step (b : Builder π) (step : BuildStep) : (b.step step).ids = step.ids?.getD b.ids := by
  cases step <;> rfl

theorem ids_steps (b : Builder π) (program : List BuildStep) :
    (b.steps program).ids = (program.filterMap BuildStep.ids?).getLast?.getD b.ids := by
  induction program generalizing b with
  | nil => rfl
  | cons step rest ih =>
    refine (ih (b.step step)).trans ?_
    rw [ids_step, List.filterMap_cons]
    cases step.ids? with
    | none => rfl
    | some source =>
      dsimp only
      rw [List.getLast?_cons]
      cases (rest.filterMap BuildStep.ids?).getLast? <;> rfl

theorem payload_steps (b : Builder π) (program : List BuildStep) :
    (b.steps program).payload = b.payload := by
  induction program generalizing b with
  | nil => rfl
  | cons step rest ih =>
    refine (ih (b.step step)).trans ?_
    cases step <;> rfl

end Builder

/-- What a builder starts from: a payload alone, or a message. -/
inductive Origin (π : Type) where
  | ofPayload (payload : π)
  | ofMessage (message : Message π)

namespace Origin
variable {π : Type}

def content : Origin π → π
  | .ofPayload payload => payload
  | .ofMessage message => message.payload

/-- The header that is there before the first step. -/
def get? (key : String) : Origin π → Option HeaderValue
  | .ofPayload _ => none
  | .ofMessage message => message.headers.get? key

def builder : Origin π → Builder π
  | .ofPayload payload => .ofPayload payload
  | .ofMessage message => .ofMessage message

theorem payload_builder (o : Origin π) : o.builder.payload = o.content := by
  cases o <;> rfl

theorem ids_builder (o : Origin π) : o.builder.ids = .random := by
  cases o <;> rfl

theorem get?_builder {key : String} (free : Key.assigned key = false) (o : Origin π) :
    o.builder.headers.get? key = o.get? key := by
  cases o with
  | ofPayload payload => rfl
  | ofMessage message =>
    refine (Builder.get?_step free _ _).trans ?_
    simp [BuildStep.leave, Builder.ofPayload, get?]

end Origin

/-- All that one message is built from, but the mint. -/
structure Recipe (π : Type) where
  origin : Origin π
  program : List BuildStep

namespace Recipe
variable {π : Type}

def builder (r : Recipe π) : Builder π := r.origin.builder.steps r.program

/-- The source chosen last. -/
def source (r : Recipe π) : IdSource := (r.program.filterMap BuildStep.ids?).getLast?.getD .random

/-- The value that the program leaves under a key that is not assigned. -/
def left (r : Recipe π) (key : String) : Option HeaderValue :=
  r.program.foldl (fun before step => step.leave key before) (r.origin.get? key)

/-- What the recipe makes, with its identity. -/
structure Makes (r : Recipe π) (id : Uuid) (time : Int64) (message : Message π) : Prop where
  payload : message.payload = r.origin.content
  left : ∀ key, Key.assigned key = false → message.headers.get? key = r.left key
  id : message.headers.get? Key.id = some (.uuid id)
  timestamp : message.headers.get? Key.timestamp = some (.int time)

theorem ids_builder (r : Recipe π) : r.builder.ids = r.source := by
  unfold builder source
  rw [Builder.ids_steps, r.origin.ids_builder]

theorem Makes.headers_id {r : Recipe π} {id : Uuid} {time : Int64} {message : Message π}
    (h : r.Makes id time message) : message.headers.id = id := by
  simp [Headers.id, h.id, HeaderValue.asUuid?]

end Recipe

namespace Mint

/-- The identifier that a source will give after `n` others. -/
def nth (m : Mint) (n : Nat) : IdSource → Uuid
  | .random => m.chance (m.drawn + n)
  | .counter number => Uuid.ofNat (m.counts number + n + 1)

theorem draw_eq_nth (m : Mint) (source : IdSource) : (m.draw source).1 = m.nth 0 source := by
  cases source <;> rfl

/-- The mint after one build that draws from this source. -/
def used (m : Mint) (source : IdSource) : Mint := (m.draw source).2.now.2

theorem counts_used (m : Mint) (source : IdSource) (k : Nat) :
    (m.used source).counts k = if source = .counter k then m.counts k + 1 else m.counts k :=
  m.counts_draw source k

/-- One source has moved on, and no other. -/
theorem nth_used (m : Mint) (source other : IdSource) (n : Nat) :
    (m.used source).nth n other = m.nth (if source = other then n + 1 else n) other := by
  cases other with
  | random =>
    have hchance : (m.used source).chance = m.chance := by cases source <;> rfl
    have hdrawn : (m.used source).drawn = if source = .random then m.drawn + 1 else m.drawn :=
      m.drawn_draw source
    simp only [nth, hchance, hdrawn]
    split_ifs <;> congr 1
    omega
  | counter number =>
    simp only [nth, counts_used]
    split_ifs <;> congr 1
    omega

theorem clock_used (m : Mint) (source : IdSource) (n : Nat) :
    (m.used source).clock ((m.used source).readings + n) = m.clock (m.readings + (n + 1)) := by
  cases source <;> exact congrArg m.clock (by change m.readings + 1 + n = _; omega)

end Mint

namespace Recipe
variable {π : Type}

theorem build_mint (r : Recipe π) (mint : Mint) :
    (r.builder.build mint).2 = mint.used r.source :=
  congrArg mint.used r.ids_builder

theorem makes_build (r : Recipe π) (mint : Mint) :
    r.Makes (mint.nth 0 r.source) (mint.clock mint.readings) (r.builder.build mint).1 where
  payload := (Builder.payload_steps ..).trans r.origin.payload_builder
  left key free := by
    change (r.builder.headers.identify r.builder.ids mint).1.get? key = _
    rw [Headers.get?_identify _ _ _ _ free]
    unfold builder left
    rw [Builder.get?_steps free, Origin.get?_builder free]
  id := by
    have hother : Key.timestamp ≠ Key.id := by decide
    rw [← Mint.draw_eq_nth, ← r.ids_builder]
    simp [Builder.build, Headers.identify, SortedMap.get?_insert, hother]
  timestamp := by
    have hclock : ∀ source, (mint.draw source).2.now.1 = mint.clock mint.readings := by
      intro source
      cases source <;> rfl
    simp [Builder.build, Headers.identify, SortedMap.get?_insert, hclock]

/-- Builds a message from each recipe in turn. -/
def buildAll : List (Recipe π) → Mint → List (Message π) × Mint
  | [], mint => ([], mint)
  | recipe :: rest, mint =>
    let (message, mint) := recipe.builder.build mint
    let (messages, mint) := buildAll rest mint
    (message :: messages, mint)

/-- How many of the recipes draw from a source. -/
def draws (source : IdSource) (recipes : List (Recipe π)) : Nat := recipes.countP (·.source = source)

/-- The identifiers of the messages whose recipes draw from a source. -/
def issued (source : IdSource) (recipes : List (Recipe π)) (messages : List (Message π)) :
    List Uuid :=
  ((recipes.zip messages).filter (·.1.source = source)).map (·.2.headers.id)

theorem draws_cons (source : IdSource) (r : Recipe π) (rest : List (Recipe π)) :
    draws source (r :: rest) = if r.source = source then draws source rest + 1 else draws source rest := by
  unfold draws
  by_cases h : r.source = source <;> simp [h]

theorem buildAll_cons (r : Recipe π) (rest : List (Recipe π)) (mint : Mint) :
    buildAll (r :: rest) mint =
      ((r.builder.build mint).1 :: (buildAll rest (mint.used r.source)).1,
        (buildAll rest (mint.used r.source)).2) := by
  rw [← build_mint]
  rfl

theorem length_buildAll (recipes : List (Recipe π)) (mint : Mint) :
    (buildAll recipes mint).1.length = recipes.length := by
  induction recipes generalizing mint with
  | nil => rfl
  | cons r rest ih =>
    rw [buildAll_cons]
    exact congrArg (· + 1) (ih _)

theorem makes_buildAll {recipes : List (Recipe π)} {mint : Mint} {i : Nat} {r : Recipe π}
    {message : Message π} (hr : recipes[i]? = some r)
    (hmessage : (buildAll recipes mint).1[i]? = some message) :
    r.Makes (mint.nth (draws r.source (recipes.take i)) r.source) (mint.clock (mint.readings + i))
      message := by
  induction recipes generalizing mint i with
  | nil => cases hr
  | cons first rest ih =>
    rw [buildAll_cons] at hmessage
    cases i with
    | zero =>
      cases hr
      cases hmessage
      exact r.makes_build mint
    | succ i =>
      rw [List.getElem?_cons_succ] at hr hmessage
      have hrest := ih hr hmessage
      rwa [Mint.nth_used, Mint.clock_used, ← draws_cons, ← List.take_succ_cons] at hrest

/-- The identifiers drawn from a source are its next ones, in the order of the builds. -/
theorem issued_buildAll (source : IdSource) (recipes : List (Recipe π)) (mint : Mint) :
    issued source recipes (buildAll recipes mint).1 =
      (List.range (draws source recipes)).map (mint.nth · source) := by
  induction recipes generalizing mint with
  | nil => rfl
  | cons r rest ih =>
    have hrest := ih (mint.used r.source)
    rw [buildAll_cons, draws_cons]
    unfold issued at hrest ⊢
    rw [List.zip_cons_cons, List.filter_cons]
    simp only [decide_eq_true_eq, Mint.nth_used] at hrest ⊢
    split_ifs with h
    · subst h
      rw [List.map_cons, hrest, (r.makes_build mint).headers_id, List.range_succ_eq_map,
        List.map_cons, List.map_map]
      simp [Function.comp_def]
    · rw [hrest]
      simp [h]

theorem counts_buildAll (recipes : List (Recipe π)) (mint : Mint) (counter : Nat) :
    (buildAll recipes mint).2.counts counter =
      mint.counts counter + draws (.counter counter) recipes := by
  induction recipes generalizing mint with
  | nil => rfl
  | cons r rest ih =>
    rw [buildAll_cons, ih, Mint.counts_used, draws_cons]
    split_ifs <;> omega

theorem toNat_nth {m : Mint} {counter n : Nat} (small : m.counts counter + n + 1 < 2 ^ 64) :
    (m.nth n (.counter counter)).bits.toNat = m.counts counter + 1 + n := by
  have hbits : m.counts counter + n + 1 < 2 ^ 128 := small.trans (by decide)
  change (m.counts counter + n + 1) % 2 ^ 128 = _
  rw [Nat.mod_eq_of_lt hbits]
  omega

/-- Builds follow their programs, however they are interleaved. Each message has the payload that
its builder began with, under every key but the assigned ones the value that the steps leave there
one after another, the next identifier of the source chosen last, and the time of the build. The
identifiers that one counter gives are the numbers in turn, whatever other sources give in between,
so that none is given twice as long as there are fewer than `2 ^ 64`. -/
theorem builds_follow_programs (recipes : List (Recipe π)) (mint : Mint) :
    let messages := (buildAll recipes mint).1
    messages.length = recipes.length ∧
    (∀ (i : Nat) (r : Recipe π) (message : Message π),
      recipes[i]? = some r → messages[i]? = some message →
        r.Makes (mint.nth (draws r.source (recipes.take i)) r.source)
          (mint.clock (mint.readings + i)) message) ∧
    (∀ source, issued source recipes messages =
      (List.range (draws source recipes)).map (mint.nth · source)) ∧
    ∀ counter, (buildAll recipes mint).2.counts counter < 2 ^ 64 →
      (issued (.counter counter) recipes messages).map (·.bits.toNat) =
        List.range' (mint.counts counter + 1) (draws (.counter counter) recipes) ∧
      (issued (.counter counter) recipes messages).Nodup := by
  refine ⟨length_buildAll recipes mint, fun _ _ _ => makes_buildAll,
    fun source => issued_buildAll source recipes mint, fun counter few => ?_⟩
  rw [counts_buildAll] at few
  have hnumbers : (issued (.counter counter) recipes (buildAll recipes mint).1).map
      (·.bits.toNat) =
        List.range' (mint.counts counter + 1) (draws (.counter counter) recipes) := by
    rw [issued_buildAll, List.map_map, List.range'_eq_map_range]
    refine List.map_congr_left fun n hn => toNat_nth ?_
    have hn := List.mem_range.mp hn
    omega
  exact ⟨hnumbers, .of_map _ (hnumbers ▸ List.nodup_range')⟩

/-- Two counters in turn. The last message is built from the first one, whose identifier it neither
keeps nor gets from the header, and overwrites what was copied. -/
theorem builds_follow_programs_interleaved :
    let mint := Mint.spread 7 1000
    let theirs : Headers := .ofList [("id", .int 3), ("a", .int 1), ("b", .int 2)]
    let first : Recipe Nat := ⟨.ofPayload 5, [.header "a" (.int 0), .ids (.counter 1),
      .copyIfAbsent theirs, .sequence 2 5, .ids (.counter 0)]⟩
    let second : Recipe Nat := ⟨.ofPayload 6, [.ids (.counter 1)]⟩
    ∃ message : Message Nat, (buildAll [first] mint).1 = [message] ∧
      let third : Recipe Nat := ⟨.ofMessage message, [.header "id" (.int 9), .copy theirs,
        .remove "b", .remove "timestamp", .ids (.counter 0)]⟩
      ∃ copy : Message Nat, (buildAll [first, second, third] mint).1[2]? = some copy ∧
        copy.payload = 5 ∧ copy.headers.id = .ofNat 2 ∧ copy.headers.get? "a" = some (.int 1) ∧
        copy.headers.get? "b" = none ∧ copy.headers.get? Key.sequenceSize = some (.int 5) ∧
        ((issued (.counter 0) [first, second, third]
          (buildAll [first, second, third] mint).1).map (·.bits.toNat) = [1, 2]) := by
  intro mint theirs first second
  refine ⟨_, rfl, ?_⟩
  intro third
  obtain ⟨hlength, hmakes, -, hcounter⟩ := builds_follow_programs [first, second, third] mint
  refine ⟨_, rfl, ?_⟩
  have hcopy := hmakes 2 third _ rfl rfl
  refine ⟨hcopy.payload, hcopy.headers_id.trans (by decide +kernel),
    (hcopy.left _ (by decide)).trans (by decide +kernel),
    (hcopy.left _ (by decide)).trans (by decide +kernel),
    (hcopy.left _ (by decide)).trans (by decide +kernel),
    ((hcounter 0 (by decide +kernel)).1).trans (by decide +kernel)⟩

end Recipe
end MessageRing
