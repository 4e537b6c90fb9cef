import Mathlib.Data.List.Nodup
import MessageRing.Dispatcher.Call
import MessageRing.Proofs.Channel.Rotation

/-!
Who is subscribed.

The answers of a dispatcher tell who joined and who left. The list of subscribers is what they tell:
everyone whose last change was to join, each once, in the order of those changes. Nothing else moves
the list, a dispatch least of all; when a subscriber calls the dispatcher in the midst of one, that
call changes the list as it would have outside.
-/
namespace MessageRing
namespace Dispatcher
variable {ι π σ : Type}

/-- A subscriber has joined or left. -/
structure Change (ι : Type) where
  subscriber : ι
  joined : Bool
  deriving DecidableEq, Repr

/-- The subscriber has been there since that change: it joined then and has not changed since. -/
def Since (changes : List (Change ι)) (i : ι) (n : Nat) : Prop :=
  ∃ before behind, changes = before ++ ⟨i, true⟩ :: behind ∧ before.length = n ∧
    ∀ c ∈ behind, c.subscriber ≠ i

namespace Since
variable {changes : List (Change ι)} {i : ι} {n : Nat}

theorem lt (h : Since changes i n) : n < changes.length := by
  obtain ⟨before, behind, rfl, rfl, -⟩ := h
  simp

theorem joined (changes : List (Change ι)) (i : ι) :
    Since (changes ++ [⟨i, true⟩]) i changes.length :=
  ⟨changes, [], rfl, rfl, by simp⟩

theorem concat (h : Since changes i n) {c : Change ι} (other : c.subscriber ≠ i) :
    Since (changes ++ [c]) i n := by
  obtain ⟨before, behind, rfl, hlength, hbehind⟩ := h
  refine ⟨before, behind ++ [c], by simp, hlength, fun c' hc' => ?_⟩
  rcases List.mem_append.mp hc' with hc' | hc'
  · exact hbehind c' hc'
  · exact List.mem_singleton.mp hc' ▸ other

/-- Either the last change is the one, or it is about someone else. -/
theorem of_concat {c : Change ι} (h : Since (changes ++ [c]) i n) :
    c = ⟨i, true⟩ ∨ c.subscriber ≠ i ∧ Since changes i n := by
  obtain ⟨before, behind, heq, hlength, hbehind⟩ := h
  rcases behind.eq_nil_or_concat with rfl | ⟨rest, last, rfl⟩
  · exact .inl (List.singleton_inj.mp (List.append_inj' heq rfl).2)
  · rw [List.concat_eq_append, ← List.cons_append, ← List.append_assoc] at heq
    obtain ⟨hchanges, hlast⟩ := List.append_inj' heq rfl
    refine .inr ⟨?_, before, rest, hchanges, hlength, fun c' hc' => hbehind c' (by simp [hc'])⟩
    rw [List.singleton_inj.mp hlast]
    exact hbehind last (by simp)

end Since

/-- One more change leaves those who had been there but the one that it is about. -/
theorem since_concat {changes : List (Change ι)} {c : Change ι} {i : ι} :
    (∃ n, Since (changes ++ [c]) i n) ↔
      c = ⟨i, true⟩ ∨ c.subscriber ≠ i ∧ ∃ n, Since changes i n := by
  constructor
  · rintro ⟨n, h⟩
    rcases h.of_concat with hjoined | ⟨hother, hbefore⟩
    · exact .inl hjoined
    · exact .inr ⟨hother, n, hbefore⟩
  · rintro (rfl | ⟨hother, n, h⟩)
    · exact ⟨changes.length, .joined changes i⟩
    · exact ⟨n, h.concat hother⟩

/-- The list holds those who are subscribed, going by the changes. -/
structure Enrolled (max : Nat) (subscribers : List ι) (changes : List (Change ι)) : Prop where
  once : subscribers.Nodup
  room : subscribers.length ≤ max
  mem_iff : ∀ i, i ∈ subscribers ↔ ∃ n, Since changes i n
  /-- Who is before another has been there for longer. -/
  ordered : subscribers.Pairwise fun i j => ∃ m n, Since changes i m ∧ Since changes j n ∧ m < n

namespace Enrolled
variable {max : Nat} {subscribers : List ι} {changes : List (Change ι)}

theorem nil (max : Nat) : Enrolled max ([] : List ι) [] where
  once := List.nodup_nil
  room := Nat.zero_le max
  mem_iff i := by simp [Since]
  ordered := .nil

theorem join (h : Enrolled max subscribers changes) {i : ι} (new : i ∉ subscribers)
    (room : subscribers.length < max) :
    Enrolled max (subscribers ++ [i]) (changes ++ [⟨i, true⟩]) where
  once := h.once.append (List.nodup_singleton i) (List.disjoint_singleton.mpr new)
  room := by
    rw [List.length_append, List.length_singleton]
    exact room
  mem_iff j := by
    rw [List.mem_append, List.mem_singleton, since_concat, ← h.mem_iff]
    grind
  ordered := by
    have hother : ∀ {j}, j ∈ subscribers → i ≠ j := fun hj he => new (he ▸ hj)
    refine List.pairwise_append.mpr ⟨?_, List.pairwise_singleton _ i, ?_⟩
    · refine h.ordered.imp_of_mem fun {j k} hj hk => ?_
      rintro ⟨m, n, hm, hn, hlt⟩
      exact ⟨m, n, hm.concat (hother hj), hn.concat (hother hk), hlt⟩
    · intro j hj k hk
      obtain ⟨m, hm⟩ := (h.mem_iff j).mp hj
      rw [List.mem_singleton.mp hk]
      exact ⟨m, changes.length, hm.concat (hother hj), .joined changes i, hm.lt⟩

theorem leave [DecidableEq ι] (h : Enrolled max subscribers changes) (i : ι) :
    Enrolled max (subscribers.erase i) (changes ++ [⟨i, false⟩]) where
  once := h.once.erase i
  room := List.length_erase_le.trans h.room
  mem_iff j := by
    rw [h.once.mem_erase_iff, h.mem_iff, since_concat]
    simp [ne_comm]
  ordered := by
    have hother : ∀ {j}, j ∈ subscribers.erase i → i ≠ j :=
      fun hj => (h.once.mem_erase_iff.mp hj).1.symm
    refine (h.ordered.sublist List.erase_sublist).imp_of_mem fun {j k} hj hk => ?_
    rintro ⟨m, n, hm, hn, hlt⟩
    exact ⟨m, n, hm.concat (hother hj), hn.concat (hother hk), hlt⟩

end Enrolled

theorem subscribers_begin (d : Dispatcher ι) : d.begin.2.subscribers = d.subscribers := by
  rw [begin_eq]
  dsimp only
  split_ifs <;> rfl

section Calls
variable [DecidableEq ι] {d : Dispatcher ι} {i : ι}

theorem subscribe_of_mem (there : i ∈ d.subscribers) : d.subscribe i = (.ok false, d) :=
  if_pos there

theorem subscribe_of_full (new : i ∉ d.subscribers) (full : d.max ≤ d.subscribers.length) :
    d.subscribe i = (.error (.tooManySubscribers d.max), d) :=
  (if_neg new).trans (if_pos full)

theorem subscribe_of_room (new : i ∉ d.subscribers) (room : d.subscribers.length < d.max) :
    d.subscribe i = (.ok true, { d with subscribers := d.subscribers ++ [i] }) :=
  (if_neg new).trans (if_neg room.not_ge)

theorem unsubscribe_of_mem (once : d.subscribers.Nodup) (there : i ∈ d.subscribers) :
    d.unsubscribe i = (true, { d with subscribers := d.subscribers.erase i }) := by
  rw [unsubscribe, if_pos there, once.erase_eq_filter]
  congr 3
  funext j
  simp [bne, beq_eq_decide]

theorem unsubscribe_of_not_mem (new : i ∉ d.subscribers) : d.unsubscribe i = (false, d) :=
  if_neg new

/-- Who has joined or left, by the answer to the call. -/
def change? (d : Dispatcher ι) : Call ι → Option (Change ι)
  | .subscribe i =>
    match (d.subscribe i).1 with
    | .ok true => some ⟨i, true⟩
    | .ok false | .error _ => none
  | .unsubscribe i => if (d.unsubscribe i).1 then some ⟨i, false⟩ else none
  | .dispatch => none

/-- What the answers to the calls tell. -/
def changes (d : Dispatcher ι) : List (Call ι) → List (Change ι)
  | [] => []
  | call :: calls => (d.change? call).toList ++ (d.next call).changes calls

/-- A call changes nothing, or one subscriber joins at the end or leaves; the answer tells which. -/
theorem next_cases (once : d.subscribers.Nodup) (call : Call ι) :
    (d.change? call = none ∧ (d.next call).subscribers = d.subscribers) ∨
    (∃ i, call = .subscribe i ∧ d.change? call = some ⟨i, true⟩ ∧ i ∉ d.subscribers ∧
      d.subscribers.length < d.max ∧ (d.next call).subscribers = d.subscribers ++ [i]) ∨
    (∃ i, call = .unsubscribe i ∧ d.change? call = some ⟨i, false⟩ ∧ i ∈ d.subscribers ∧
      (d.next call).subscribers = d.subscribers.erase i) := by
  cases call with
  | subscribe i =>
    by_cases there : i ∈ d.subscribers
    · exact .inl (by simp [change?, next, subscribe_of_mem there])
    · rcases Nat.lt_or_ge d.subscribers.length d.max with room | full
      · refine .inr (.inl ⟨i, rfl, ?_⟩)
        simp [change?, next, subscribe_of_room there room, there, room]
      · exact .inl (by simp [change?, next, subscribe_of_full there full])
  | unsubscribe i =>
    by_cases there : i ∈ d.subscribers
    · refine .inr (.inr ⟨i, rfl, ?_⟩)
      simp [change?, next, unsubscribe_of_mem once there, there]
    · exact .inl (by simp [change?, next, unsubscribe_of_not_mem there])
  | dispatch => exact .inl ⟨rfl, d.subscribers_begin⟩

theorem max_next (d : Dispatcher ι) (call : Call ι) : (d.next call).max = d.max := by
  cases call with
  | subscribe i =>
    simp only [next, subscribe]
    split_ifs <;> rfl
  | unsubscribe i =>
    simp only [next, unsubscribe]
    split_ifs <;> rfl
  | dispatch =>
    simp only [next, begin_eq]
    split_ifs <;> rfl

theorem max_after (d : Dispatcher ι) (calls : List (Call ι)) : (d.after calls).max = d.max := by
  induction calls generalizing d with
  | nil => rfl
  | cons call calls ih => exact (ih (d.next call)).trans (d.max_next call)

theorem Enrolled.next {before : List (Change ι)} (h : Enrolled d.max d.subscribers before)
    (call : Call ι) :
    Enrolled (d.next call).max (d.next call).subscribers (before ++ (d.change? call).toList) := by
  rw [max_next]
  rcases next_cases h.once call with ⟨hchange, hnext⟩ | ⟨i, -, hchange, new, room, hnext⟩ |
    ⟨i, -, hchange, -, hnext⟩
  · rw [hchange, hnext, Option.toList_none, List.append_nil]
    exact h
  · rw [hchange, hnext]
    exact h.join new room
  · rw [hchange, hnext]
    exact h.leave i

theorem Enrolled.after {before : List (Change ι)} (h : Enrolled d.max d.subscribers before)
    (calls : List (Call ι)) :
    Enrolled (d.after calls).max (d.after calls).subscribers (before ++ d.changes calls) := by
  induction calls generalizing d before with
  | nil =>
    rw [changes, List.append_nil]
    exact h
  | cons call calls ih =>
    rw [changes, ← List.append_assoc]
    exact ih (h.next call)

end Calls

/-- Subscribers that leave the subscriptions alone are there after a dispatch as before it. -/
theorem subscribers_dispatch {call : Delivery ι π (Dispatcher ι × σ)}
    {message : Message π} {scene scene' : Scene (Dispatcher ι × σ)}
    {result : Except Panic (Except MessagingError Unit)}
    (aloof : ∀ i message,
      (call i message).Keeps fun w w' => w'.1.subscribers = w.1.subscribers)
    (happens : dispatch call message scene = some (result, scene')) :
    scene'.outside.1.subscribers = scene.outside.1.subscribers := by
  have hdeliver := keeps_deliver
    (R := fun w w' : Dispatcher ι × σ => w'.1.subscribers = w.1.subscribers)
    (fun _ => rfl) (fun _ _ _ h h' => h'.trans h) aloof _ _ result scene' happens
  exact hdeliver.trans (subscribers_begin _)

variable [DecidableEq ι]

/-- After any calls the list holds everyone who is subscribed, once, in the order in which they
joined for the last time, and never more than `max` of them. Who is there already need not join, be
the list full or not; a new one is refused where the list is full and otherwise joins at the end.
Whoever is there can leave, and the rest keep their order. A call whose answer tells of no change
makes none, and no dispatch does: when its subscribers call the dispatcher themselves, it ends where
those calls lead. -/
theorem subscribers_enrolled (failover : Bool) (max : Nat) (balancing : Balancing)
    (calls : List (Call ι)) :
    let d := (make failover max balancing).after calls
    Enrolled max d.subscribers ((make failover max balancing).changes calls) ∧
    (∀ i,
      (i ∈ d.subscribers → d.subscribe i = (.ok false, d)) ∧
      ((d.subscribe i).1 = .error (.tooManySubscribers max) ↔
        i ∉ d.subscribers ∧ d.subscribers.length = max) ∧
      (i ∉ d.subscribers → d.subscribers.length ≠ max →
        d.subscribe i = (.ok true, { d with subscribers := d.subscribers ++ [i] })) ∧
      ((d.unsubscribe i).1 = true ↔ i ∈ d.subscribers) ∧
      (i ∈ d.subscribers →
        (d.unsubscribe i).2 = { d with subscribers := d.subscribers.erase i })) ∧
    (∀ call, d.change? call = none → (d.next call).subscribers = d.subscribers) ∧
    ∀ (call : Delivery ι π (Dispatcher ι × σ)) (message : Message π) scene result scene',
      dispatch call message scene = some (result, scene') → scene.outside.1 = d →
        ((∀ i message, (call i message).Keeps fun w w' => w'.1.subscribers = w.1.subscribers) →
          scene'.outside.1.subscribers = d.subscribers) ∧
        ((∀ i message, Orderly (call i message)) → ∃ inner,
          scene'.outside.1 = (make failover max balancing).after (calls ++ .dispatch :: inner)) := by
  intro d
  have hmax : d.max = max := max_after _ calls
  have henrolled : Enrolled max d.subscribers ((make failover max balancing).changes calls) := by
    have hafter := Enrolled.after (d := make failover max balancing) (.nil max) calls
    rwa [max_after] at hafter
  refine ⟨henrolled, fun i => ?_, ?_, ?_⟩
  · have hfull : d.subscribers.length ≠ max → d.subscribers.length < d.max := fun h => by
      rw [hmax]
      exact lt_of_le_of_ne henrolled.room h
    refine ⟨subscribe_of_mem, ⟨fun h => ?_, ?_⟩, fun new h => subscribe_of_room new (hfull h),
      ⟨fun h => ?_, fun there => by rw [unsubscribe_of_mem henrolled.once there]⟩,
      fun there => by rw [unsubscribe_of_mem henrolled.once there]⟩
    · by_cases there : i ∈ d.subscribers
      · simp [subscribe_of_mem there] at h
      · refine ⟨there, ?_⟩
        by_contra hroom
        simp [subscribe_of_room there (hfull hroom)] at h
    · rintro ⟨new, full⟩
      rw [subscribe_of_full new (by omega), hmax]
    · by_contra new
      simp [unsubscribe_of_not_mem new] at h
  · intro call hnone
    rcases next_cases henrolled.once call with ⟨-, hnext⟩ | ⟨i, -, hchange, -⟩ | ⟨i, -, hchange, -⟩
    · exact hnext
    · simp [hchange] at hnone
    · simp [hchange] at hnone
  · intro call message scene result scene' happens hd
    refine ⟨fun aloof => ?_, fun orderly => ?_⟩
    · rw [subscribers_dispatch aloof happens, hd]
    · obtain ⟨inner, hinner⟩ : ∃ inner, scene'.outside.1 =
          scene.outside.1.after (.dispatch :: inner) := orderly_deliver orderly _ _ _ _ happens
      exact ⟨inner, by rw [hinner, hd, after_append]⟩

/-- Three who come and go where there is room for two. -/
theorem subscribers_enrolled_full :
    let calls : List (Call Nat) := [.subscribe 7, .subscribe 8, .subscribe 7, .subscribe 9,
      .dispatch, .unsubscribe 7, .unsubscribe 9, .subscribe 7]
    let d := (make true 2 .roundRobin).after calls
    d.subscribers = [8, 7] ∧
    (make true 2 .roundRobin).changes calls =
      [⟨7, true⟩, ⟨8, true⟩, ⟨7, false⟩, ⟨7, true⟩] ∧
    d.subscribe 7 = (.ok false, d) ∧
    (d.subscribe 9).1 = .error (.tooManySubscribers 2) ∧
    (d.unsubscribe 8).2 = { d with subscribers := [7] } := by
  intro calls d
  have hlist : d.subscribers = [8, 7] := by decide
  have answers := (subscribers_enrolled (π := Unit) (σ := Unit) true 2 .roundRobin calls).2.1
  refine ⟨hlist, by decide, (answers 7).1 (by rw [hlist]; decide),
    (answers 9).2.1.mpr (by rw [hlist]; decide), ?_⟩
  exact (answers 8).2.2.2.2 (by rw [hlist]; decide)

end Dispatcher
end MessageRing
