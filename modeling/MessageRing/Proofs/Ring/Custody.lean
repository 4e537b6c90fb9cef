import MessageRing.Proofs.Ring.Calls

/-!
Where every item is.

A slot serves one sequence after another, and a consumer may drain it out of turn, more than once or
never. Whatever it does, an item leaves its slot once: it is handed out, or it makes way for another
content of the slot. `Custody` follows each item from the note that stored it to the note that ended
its stay, and `Kept` ties that record to the slots of the ring.
-/
namespace MessageRing

/-- What the consumer took out of a slot. -/
def Note.taken? {α : Type} : Note α → Option α
  | .took _ content => content
  | _ => none

/-- The sequence whose slot was given another content. -/
def Note.changes? {α : Type} : Note α → Option Int
  | .stored s _ | .took s _ => some s
  | _ => none

/-- Where an item is: in its slot, or out of it since the note of that number. -/
inductive Place where
  | resting
  | taken (time : Nat)
  /-- It made way for another content of its slot. -/
  | discarded (time : Nat)
  deriving DecidableEq, Repr

structure Parcel (α : Type) where
  item : α
  /-- The sequence that it was stored under. -/
  sequence : Int
  /-- The number of the note that it was stored with. -/
  since : Nat
  place : Place
  deriving DecidableEq, Repr

/-- All items that were given to a ring, in that order. -/
structure Custody (α : Type) where
  parcels : List (Parcel α) := []
  /-- How many notes have been read. -/
  time : Nat := 0

variable {α : Type} (slot : Int → Nat)

namespace Parcel

/-- The item, if it is in the slot of this sequence. -/
def resting? (s : Int) (p : Parcel α) : Option α :=
  if p.place = .resting ∧ slot p.sequence = slot s then some p.item else none

/-- The item, if it was taken with this note. -/
def taken? (time : Nat) (p : Parcel α) : Option α :=
  if p.place = .taken time then some p.item else none

/-- The item, if it was taken at any time. -/
def takenEver? (p : Parcel α) : Option α :=
  match p.place with
  | .taken _ => some p.item
  | _ => none

/-- Moves the item on if it is in the slot of this sequence. -/
def vacate (s : Int) (next : Place) (p : Parcel α) : Parcel α :=
  if p.place = .resting ∧ slot p.sequence = slot s then { p with place := next } else p

theorem resting?_vacate (s t : Int) {next : Place} (away : next ≠ .resting) (p : Parcel α) :
    (p.vacate slot s next).resting? slot t = if slot s = slot t then none else p.resting? slot t := by
  unfold vacate resting?
  split_ifs <;> simp_all

theorem filterMap_resting?_vacate (s t : Int) {next : Place} (away : next ≠ .resting)
    (ps : List (Parcel α)) :
    (ps.map (vacate slot s next)).filterMap (resting? slot t) =
      if slot s = slot t then [] else ps.filterMap (resting? slot t) := by
  rw [List.filterMap_map]
  simp only [Function.comp_def, resting?_vacate slot s t away]
  split_ifs <;> simp

theorem taken?_vacate_taken (s : Int) (m n : Nat) (p : Parcel α) :
    (p.vacate slot s (.taken m)).taken? n =
      if m = n then (p.resting? slot s).or (p.taken? n) else p.taken? n := by
  unfold vacate resting? taken?
  split_ifs <;> simp_all

theorem taken?_vacate_discarded (s : Int) (m n : Nat) (p : Parcel α) :
    (p.vacate slot s (.discarded m)).taken? n = p.taken? n := by
  unfold vacate taken?
  split_ifs <;> simp_all

theorem takenEver?_vacate_taken (s : Int) (m : Nat) (p : Parcel α) :
    (p.vacate slot s (.taken m)).takenEver? = (p.resting? slot s).or p.takenEver? := by
  unfold vacate resting? takenEver?
  split_ifs <;> simp

theorem takenEver?_vacate_discarded (s : Int) (m : Nat) (p : Parcel α) :
    (p.vacate slot s (.discarded m)).takenEver? = p.takenEver? := by
  unfold vacate takenEver?
  split_ifs with h
  · simp [h.1]
  · rfl

theorem filterMap_takenEver?_sublist (ps : List (Parcel α)) :
    (ps.filterMap takenEver?).Sublist (ps.map (·.item)) := by
  induction ps with
  | nil => exact .slnil
  | cons p ps ih =>
    cases hplace : p.place with
    | taken n => simpa [takenEver?, hplace] using ih
    | resting | discarded n => simpa [takenEver?, hplace] using ih.cons p.item

/-- What rests has not been taken. -/
theorem resting?_or_takenEver? (s : Int) (p : Parcel α) :
    p.resting? slot s = none ∨ p.takenEver? = none := by
  unfold resting? takenEver?
  split_ifs with h
  · simp [h.1]
  · exact .inl rfl

theorem item_vacate (s : Int) (next : Place) (p : Parcel α) :
    (p.vacate slot s next).item = p.item := by
  unfold vacate
  split_ifs <;> rfl

/-- The note with which a stay in a slot ended, if it did: a later note about the same slot. -/
def Ended (notes : List (Note α)) (p : Parcel α) : Place → Prop
  | .resting => True
  | .taken n => p.since < n ∧
    ∃ t, slot t = slot p.sequence ∧ notes[n]? = some (.took t (some p.item))
  | .discarded n => p.since < n ∧
    ∃ t content, slot t = slot p.sequence ∧ notes[n]? = some (.stored t content)

/-- The record of an item agrees with the notes. -/
structure Lived (notes : List (Note α)) (p : Parcel α) : Prop where
  stored : notes[p.since]? = some (.stored p.sequence (some p.item))
  ended : p.Ended slot notes p.place

end Parcel

namespace Custody

def enter (c : Custody α) : Note α → Custody α
  | .stored s content =>
    { parcels := c.parcels.map (Parcel.vacate slot s (.discarded c.time)) ++
        content.toList.map fun item => ⟨item, s, c.time, .resting⟩
      time := c.time + 1 }
  | .took s _ =>
    { parcels := c.parcels.map (Parcel.vacate slot s (.taken c.time))
      time := c.time + 1 }
  | .gave _ | .handedIn _ | .told _ | .released _ | .halted => { c with time := c.time + 1 }

def read (c : Custody α) (notes : List (Note α)) : Custody α := notes.foldl (enter slot) c

end Custody

variable {slot : Int → Nat} {notes : List (Note α)}

/-- Two ways of picking that never pick the same pick apart. -/
theorem filterMap_or_perm {β γ : Type} {f g : β → Option γ} (apart : ∀ b, f b = none ∨ g b = none)
    (l : List β) : (l.filterMap fun b => (f b).or (g b)).Perm (l.filterMap g ++ l.filterMap f) := by
  induction l with
  | nil => exact .nil
  | cons b l ih =>
    cases hf : f b with
    | none => cases hg : g b <;> simp [hf, hg, ih]
    | some c =>
      have hg : g b = none := (apart b).resolve_left (by simp [hf])
      simp only [List.filterMap_cons, hf, hg, Option.some_or]
      exact (ih.cons c).trans List.perm_middle.symm

theorem getElem?_concat_of_ne {note : Note α} {n : Nat} (h : n ≠ notes.length) :
    (notes ++ [note])[n]? = notes[n]? := by
  grind

theorem Parcel.Lived.append {p : Parcel α} (h : p.Lived slot notes) (more : List (Note α)) :
    p.Lived slot (notes ++ more) := by
  have hlater {n : Nat} {note : Note α} (hn : notes[n]? = some note) :
      (notes ++ more)[n]? = some note := by
    rw [List.getElem?_append_left (List.getElem?_eq_some_iff.mp hn).1, hn]
  refine ⟨hlater h.stored, ?_⟩
  have hended := h.ended
  cases hplace : p.place with
  | resting => trivial
  | taken n =>
    rw [hplace] at hended
    obtain ⟨hsince, t, ht, hn⟩ := hended
    exact ⟨hsince, t, ht, hlater hn⟩
  | discarded n =>
    rw [hplace] at hended
    obtain ⟨hsince, t, content, ht, hn⟩ := hended
    exact ⟨hsince, t, content, ht, hlater hn⟩

namespace Ring

/-- Each item that was given to a ring is in one place. A slot holds the one item that rests there,
and a note of what the consumer took tells of the one item that was taken then. -/
structure Kept (r : Ring α) (notes : List (Note α)) (c : Custody α) : Prop where
  time : c.time = notes.length
  given : c.parcels.map (·.item) = notes.filterMap Note.item?
  resting : ∀ s, c.parcels.filterMap (Parcel.resting? r.config.slot s) = (r.peek s).toList
  taken : ∀ n, c.parcels.filterMap (Parcel.taken? n) = (notes[n]?.bind Note.taken?).toList
  /-- All that was taken, in the order in which it was given. -/
  takenEver : (c.parcels.filterMap Parcel.takenEver?).Perm (notes.filterMap Note.taken?)
  lived : ∀ p ∈ c.parcels, p.Lived r.config.slot notes

namespace Kept
variable {r r' : Ring α} {c : Custody α}

theorem of_same (h : r.Kept notes c) (config : r'.config = r.config)
    (peek : ∀ s, r'.peek s = r.peek s) : r'.Kept notes c where
  time := h.time
  given := h.given
  resting s := by rw [config, peek, h.resting]
  taken := h.taken
  takenEver := h.takenEver
  lived := by rw [config]; exact h.lived

/-- A note that tells of no slot moves no item. -/
theorem pass (h : r.Kept notes c) {note : Note α} (elsewhere : note.changes? = none) :
    r.Kept (notes ++ [note]) (c.enter r.config.slot note) := by
  have henter : c.enter r.config.slot note = { c with time := c.time + 1 } := by
    cases note <;> first | rfl | cases elsewhere
  have hitem : note.item? = none := by cases note <;> first | rfl | cases elsewhere
  have htaken : note.taken? = none := by cases note <;> first | rfl | cases elsewhere
  rw [henter]
  refine ⟨by simp [h.time], by simp [h.given, hitem], h.resting, fun n => ?_,
    by simpa [htaken] using h.takenEver, fun p hp => (h.lived p hp).append _⟩
  rw [h.taken]
  by_cases hn : n = notes.length
  · subst hn
    simp [htaken]
  · rw [getElem?_concat_of_ne hn]

/-- No item was taken with a note that has not been read. -/
theorem taken?_time (h : r.Kept notes c) {p : Parcel α} (hp : p ∈ c.parcels) :
    p.taken? c.time = none := by
  unfold Parcel.taken?
  rw [if_neg]
  intro hplace
  have hended := (h.lived p hp).ended
  rw [hplace, h.time] at hended
  obtain ⟨-, t, -, hn⟩ := hended
  simp at hn

/-- The item that rests in a slot is the one found there. -/
theorem peek_of_resting (h : r.Kept notes c) {p : Parcel α} (hp : p ∈ c.parcels) {s : Int}
    (resting : p.place = .resting) (same : r.config.slot p.sequence = r.config.slot s) :
    r.peek s = some p.item := by
  have hmem : p.item ∈ c.parcels.filterMap (Parcel.resting? r.config.slot s) :=
    List.mem_filterMap.mpr ⟨p, hp, if_pos ⟨resting, same⟩⟩
  rw [h.resting] at hmem
  exact Option.mem_toList.mp hmem

theorem since_lt (h : r.Kept notes c) {p : Parcel α} (hp : p ∈ c.parcels) : p.since < c.time := by
  rw [h.time]
  exact (List.getElem?_eq_some_iff.mp (h.lived p hp).stored).1

/-- An item that is moved out of its slot ends its stay with the next note. -/
theorem lived_vacate (h : r.Kept notes c) {p : Parcel α} (hp : p ∈ c.parcels) {s : Int}
    {note : Note α} {next : Place}
    (ends : r.peek s = some p.item → r.config.slot p.sequence = r.config.slot s →
      p.Ended r.config.slot (notes ++ [note]) next) :
    (p.vacate r.config.slot s next).Lived r.config.slot (notes ++ [note]) := by
  have hstays := (h.lived p hp).append [note]
  unfold Parcel.vacate
  split_ifs with hrests
  · obtain ⟨hplace, hsame⟩ := hrests
    exact ⟨hstays.stored, ends (h.peek_of_resting hp hplace hsame) hsame⟩
  · exact hstays

theorem store (h : r.Kept notes c) (s : Int) (content : Option α) :
    (r.put s content).Kept (notes ++ [.stored s content])
      (c.enter r.config.slot (.stored s content)) where
  time := by simp [Custody.enter, h.time]
  given := by
    have hgiven : (c.parcels.map (Parcel.vacate r.config.slot s (.discarded c.time))).map (·.item) =
        notes.filterMap Note.item? := by
      rw [List.map_map, ← h.given]
      exact List.map_congr_left fun p _ => p.item_vacate ..
    simp only [Custody.enter, List.map_append, hgiven, List.filterMap_append]
    cases content <;> rfl
  resting t := by
    have haway : Place.discarded c.time ≠ .resting := nofun
    change List.filterMap (Parcel.resting? r.config.slot t) (_ ++ _) = _
    rw [List.filterMap_append, peek_put, Parcel.filterMap_resting?_vacate r.config.slot s t haway]
    cases content with
    | none => split_ifs <;> simp [h.resting]
    | some item =>
      by_cases hst : r.config.slot s = r.config.slot t <;>
        simp [Parcel.resting?, hst, h.resting]
  taken n := by
    have hnew : (content.toList.map fun item : α =>
        (⟨item, s, c.time, .resting⟩ : Parcel α)).filterMap (Parcel.taken? n) = [] := by
      cases content <;> rfl
    simp only [Custody.enter, List.filterMap_append, List.filterMap_map, hnew, Function.comp_def,
      Parcel.taken?_vacate_discarded, h.taken, List.append_nil]
    by_cases hn : n = notes.length
    · subst hn
      simp [Note.taken?]
    · rw [getElem?_concat_of_ne hn]
  takenEver := by
    have hnew : (content.toList.map fun item : α =>
        (⟨item, s, c.time, .resting⟩ : Parcel α)).filterMap Parcel.takenEver? = [] := by
      cases content <;> rfl
    simp only [Custody.enter, List.filterMap_append, List.filterMap_map, hnew, Function.comp_def,
      Parcel.takenEver?_vacate_discarded, List.append_nil]
    exact h.takenEver.trans (.of_eq (List.append_nil _).symm)
  lived p hp := by
    rcases List.mem_append.mp hp with hold | hnew
    · obtain ⟨q, hq, rfl⟩ := List.mem_map.mp hold
      refine h.lived_vacate hq fun _ hsame => ⟨h.since_lt hq, s, content, hsame.symm, ?_⟩
      simp [h.time]
    · obtain ⟨item, hitem, rfl⟩ := List.mem_map.mp hnew
      refine ⟨?_, trivial⟩
      rw [Option.mem_toList.mp hitem]
      simp [h.time]

theorem take (h : r.Kept notes c) (s : Int) :
    (r.put s none).Kept (notes ++ [.took s (r.peek s)])
      (c.enter r.config.slot (.took s (r.peek s))) where
  time := by simp [Custody.enter, h.time]
  given := by
    simp only [Custody.enter, List.map_map, List.filterMap_append, ← h.given]
    simp [Note.item?, Function.comp_def, Parcel.item_vacate]
  resting t := by
    have haway : Place.taken c.time ≠ .resting := nofun
    change List.filterMap (Parcel.resting? r.config.slot t) (List.map _ _) = _
    rw [peek_put, Parcel.filterMap_resting?_vacate r.config.slot s t haway]
    split_ifs
    · rfl
    · exact h.resting t
  taken n := by
    simp only [Custody.enter, List.filterMap_map, Function.comp_def,
      Parcel.taken?_vacate_taken]
    by_cases hn : c.time = n
    · -- nothing was taken with this note yet, so it tells of what rested in the slot
      subst hn
      have hrested : c.parcels.filterMap (fun p =>
          (p.resting? r.config.slot s).or (p.taken? c.time)) =
            c.parcels.filterMap (Parcel.resting? r.config.slot s) :=
        List.filterMap_congr fun p hp => by rw [h.taken?_time hp, Option.or_none]
      simp only [if_true, hrested, h.resting]
      simp [h.time, Note.taken?]
    · rw [getElem?_concat_of_ne (h.time ▸ Ne.symm hn), ← h.taken]
      simp [hn]
  takenEver := by
    simp only [Custody.enter, List.filterMap_map, Function.comp_def,
      Parcel.takenEver?_vacate_taken, List.filterMap_append]
    refine (filterMap_or_perm (Parcel.resting?_or_takenEver? _ s) _).trans ?_
    refine h.takenEver.append (.of_eq ?_)
    refine (h.resting s).trans ?_
    cases hpeek : r.peek s <;> rfl
  lived p hp := by
    obtain ⟨q, hq, rfl⟩ := List.mem_map.mp hp
    refine h.lived_vacate hq fun hpeek hsame => ⟨h.since_lt hq, s, hsame.symm, ?_⟩
    simp [h.time, hpeek]

end Kept

theorem make_kept {config : Config} {metrics : Metrics} {r : Ring α}
    (h : Ring.make config metrics = .ok r) : r.Kept [] {} where
  time := rfl
  given := rfl
  resting s := by simp [make_peek h]
  taken n := by simp
  takenEver := .nil
  lived := nofun

theorem Step.kept {r r' : Ring α} {c : Custody α} {new : List (Note α)} (step : Step r new r')
    (h : r.Kept notes c) : r'.Kept (notes ++ new) (c.read r.config.slot new) := by
  cases step with
  | store content held => exact h.store _ content
  | take visible => exact h.take _
  | handIn held =>
    exact (h.pass rfl).of_same (r.publish_keeps _).config (r.publish_keeps _).peek
  | tally | glance | attach =>
    rw [List.append_nil]
    exact h.of_same rfl fun _ => rfl
  | grant | tell | release | halt => exact (h.pass rfl).of_same rfl fun _ => rfl

theorem Path.kept {r r' : Ring α} {c : Custody α} {new : List (Note α)} (path : Path r new r')
    (h : r.Kept notes c) : r'.Kept (notes ++ new) (c.read r.config.slot new) := by
  induction path generalizing notes c with
  | nil => simpa [Custody.read] using h
  | cons step rest ih =>
    have hrest := ih (step.kept h)
    rw [step.config_eq] at hrest
    rw [← List.append_assoc, Custody.read, List.foldl_append]
    exact hrest

/-- Each item is in one place, whatever the consumer does. All items that were ever stored in a ring
are on record, each with one place: it rests in the slot of its sequence, or left it with one later
note about the same slot, which either handed it out or put another content in its stead. A slot
holds what rests there and nothing else, and what a note says was taken is the one item that left
with it. So the items taken are among the items given, each at most as often as it was given. -/
theorem each_item_in_one_place {config : Config} {metrics : Metrics} {new : Ring α}
    (made : Ring.make config metrics = .ok new) (calls : List (Call α)) :
    let notes := new.history calls
    let r := new.after calls
    let parcels := (Custody.read config.slot {} notes).parcels
    parcels.map (·.item) = notes.filterMap Note.item? ∧
    (∀ p ∈ parcels, p.Lived config.slot notes) ∧
    (∀ s, parcels.filterMap (Parcel.resting? config.slot s) = (r.peek s).toList) ∧
    (∀ n, parcels.filterMap (Parcel.taken? n) = (notes[n]?.bind Note.taken?).toList) ∧
    (notes.filterMap Note.taken?).Subperm (notes.filterMap Note.item?) ∧
    ((notes.filterMap Note.item?).Nodup → (notes.filterMap Note.taken?).Nodup) := by
  intro notes r parcels
  have hpath := history_path (make_counted made) calls
  have hkept := hpath.kept (make_kept made)
  have hlived := hkept.lived
  have hresting := hkept.resting
  rw [hpath.config_eq, make_config made] at hlived hresting
  rw [make_config made, List.nil_append] at hkept
  have hsublist := hkept.given ▸ Parcel.filterMap_takenEver?_sublist parcels
  exact ⟨hkept.given, hlived, hresting, hkept.taken, ⟨_, hkept.takenEver, hsublist⟩,
    fun distinct => hkept.takenEver.nodup_iff.mp (hsublist.nodup distinct)⟩

/-- A consumer that stops a drain, begins it anew, gives back what it has not drained, and drains a
slot under a sequence of an earlier turn. It is handed two of the five items, once each. -/
theorem each_item_in_one_place_undisciplined :
    ∃ (new : Ring Nat) (calls : List (Call Nat)), Ring.make { capacity := 2 } {} = .ok new ∧
      ((Custody.read new.config.slot {} (new.history calls)).parcels.map fun p =>
        (p.item, p.place)) =
          [(5, .taken 6), (6, .discarded 14), (7, .discarded 11), (8, .taken 16), (9, .resting)] ∧
      (new.history calls).filterMap Note.taken? = [5, 8] ∧
      ((new.history calls).filterMap Note.taken?).Nodup := by
  let calls : List (Call Nat) :=
    [.consumer, .push 5, .push 6, .drain 0 1 1, .drain 0 1 1, .release 1, .claim,
      .set 2 (some 7), .write 2 8, .claim, .abandon 3, .drain 0 2 1, .release 2, .push 9]
  obtain ⟨new, hnew, hparcels, htaken, hgiven⟩ := exists_make { capacity := 2 } {}
    (fun new : Ring Nat =>
      ((Custody.read new.config.slot {} (new.history calls)).parcels.map fun p =>
        (p.item, p.place)) =
          [(5, .taken 6), (6, .discarded 14), (7, .discarded 11), (8, .taken 16), (9, .resting)] ∧
      (new.history calls).filterMap Note.taken? = [5, 8] ∧
      ((new.history calls).filterMap Note.item?).Nodup) (by decide +kernel)
  exact ⟨new, calls, hnew, hparcels, htaken,
    (each_item_in_one_place hnew calls).2.2.2.2.2 hgiven⟩

end Ring
end MessageRing
