import MessageRing.Header.Json
import MessageRing.Proofs.Json
import MessageRing.Proofs.Numeral
import MessageRing.Proofs.Uuid

/-!
Headers are read back from their JSON text.

Every value but a float is read back as it was written, whatever it looks like: the kind that is
written with it decides how its text is read. A float is read back as the number that its text
stands for, so headers with floats come back if these do; and the text of an infinity or a NaN is
no number, so that headers with one are not read at all.
-/
namespace MessageRing

namespace Binary64

def toJson (x : Binary64) : String := String.ofList (Layout.json.write x)

def ofJson? (text : String) : Option Binary64 := Json.whole Json.readFloat text

theorem write_of_not_finite {x : Binary64} (h : x.isFinite = false) :
    Layout.json.write x = "null".toList := by
  unfold Layout.write
  rw [if_pos (by simp [h])]
  rfl

theorem ofJson?_of_not_finite {x : Binary64} (h : x.isFinite = false) :
    ofJson? x.toJson = none := by
  unfold ofJson? toJson
  rw [write_of_not_finite h]
  rfl

theorem clean_write (x : Binary64) :
    ∀ c ∈ Layout.json.write x, Json.isBlank c = false ∧ c ≠ '\x7d' := by
  intro c hc
  cases hfinite : x.isFinite with
  | true =>
    have hpart := Numeral.isPart_write hfinite c hc
    refine ⟨Json.isBlank_of_isPart hpart, ?_⟩
    rintro rfl
    exact absurd hpart (by decide)
  | false =>
    have hnull : c ∈ ['n', 'u', 'l', 'l'] := by
      rw [write_of_not_finite hfinite] at hc
      exact hc
    simp only [List.mem_cons, List.not_mem_nil, or_false] at hnull
    rcases hnull with rfl | rfl | rfl | rfl <;> decide

end Binary64

namespace HeaderValue

/-- What a value is read back as: itself, and for a float what is read from its text. -/
def reread? : HeaderValue → Option HeaderValue
  | .float x => (Binary64.ofJson? x.toJson).map .float
  | v => some v

theorem readContent_closed (v : HeaderValue) (rest : List Char) :
    ((readContent v.kind (v.writeContent ++ '\x7d' :: rest)).bind fun (value, cs) =>
      (Json.expect '\x7d' cs).map (value, ·)) = v.reread?.map (·, rest) := by
  have hclose : Json.expect '\x7d' ('\x7d' :: rest) = some rest := Json.expect_cons (by decide) _
  cases v with
  | bool b => cases b <;> rfl
  | int n =>
    obtain ⟨numeral, hread, hint⟩ := Numeral.read_int64 n
    have hnumeral : Json.readNumeral (n.toInt.repr.toList ++ '\x7d' :: rest) =
        some (numeral, '\x7d' :: rest) := by
      rw [Json.readNumeral_append (by decide) (by decide), Json.readNumeral,
        Json.skipBlank_of_isPart (Numeral.isPart_repr _), hread]
      rfl
    change ((Json.readNumeral (n.toInt.repr.toList ++ '\x7d' :: rest)).bind fun r =>
      r.1.toInt?.bind fun i => some (HeaderValue.int (Int64.ofInt i), r.2)).bind _ = _
    rw [hnumeral]
    dsimp only [Option.bind_some]
    rw [hint]
    dsimp only [Option.bind_some]
    rw [hclose, Int64.ofInt_toInt]
    rfl
  | float x =>
    have hread := congrArg (Option.map (Prod.map HeaderValue.float id))
      (Json.readFloat_closed x.clean_write rest)
    change ((Json.readNumeral (Layout.json.write x ++ '\x7d' :: rest)).bind fun r =>
      r.1.toBinary64?.bind fun y => some (HeaderValue.float y, r.2)).bind _ =
        ((Binary64.ofJson? x.toJson).map HeaderValue.float).map (·, rest)
    rw [Option.map_map] at hread ⊢
    -- both sides read a numeral and make it a float; here the kind is put to it before the brace
    refine .trans ?_ hread
    unfold Json.readFloat
    rcases Json.readNumeral (Layout.json.write x ++ '\x7d' :: rest) with _ | ⟨n, cs⟩
    · rfl
    dsimp only [Option.bind_eq_bind, Option.bind_some]
    rcases n.toBinary64? with _ | y
    · rfl
    dsimp only [Option.bind_some, Option.pure_def]
    rw [Option.map_map]
    rfl
  | uuid u =>
    change ((Json.readText (Json.Quoted.write u.toList ++ '\x7d' :: rest)).bind fun r =>
      (Uuid.ofString? r.1).bind fun u => some (HeaderValue.uuid u, r.2)).bind _ = _
    rw [Json.readText_write]
    dsimp only [Option.bind_some]
    rw [u.ofString?_toList]
    dsimp only [Option.bind_some]
    rw [hclose]
    rfl
  | string text =>
    change ((Json.readText (Json.Quoted.write text.toList ++ '\x7d' :: rest)).map fun r =>
      (HeaderValue.string r.1, r.2)).bind _ = _
    rw [Json.readText_write, String.ofList_toList]
    dsimp only [Option.map_some, Option.bind_some]
    rw [hclose]
    rfl

theorem readJson_append (v : HeaderValue) (rest : List Char) :
    readJson (v.writeJson ++ rest) = v.reread?.map (·, rest) := by
  rw [← readContent_closed]
  unfold readJson writeJson
  rw [List.cons_append, Json.expect_cons (by decide)]
  dsimp only [Option.bind_eq_bind, Option.bind_some]
  rw [List.append_assoc, Json.readText_write, String.ofList_toList]
  dsimp only [Option.bind_some]
  rw [List.cons_append, Json.expect_cons (by decide), List.append_assoc]
  dsimp only [Option.bind_some]
  rw [List.singleton_append]
  simp only [Option.map_eq_bind]
  rfl

end HeaderValue

namespace Headers

/-- Puts in an entry as it is read back. -/
def reinsert? (h : Headers) (e : String × HeaderValue) : Option Headers :=
  e.2.reread?.map (h.insert e.1)

theorem readEntries_entry (fuel : Nat) (h : Headers) (e : String × HeaderValue)
    (rest : List Char) : readEntries (fuel + 1) h (writeEntry e ++ rest) =
      (h.reinsert? e).bind fun h => (Json.readNext '\x7d' rest).bind fun
        | .more cs => readEntries fuel h cs
        | .finished cs => some (h, cs) := by
  rw [readEntries]
  unfold writeEntry reinsert?
  rw [List.append_assoc, Json.readText_write, String.ofList_toList]
  dsimp only [Option.bind_eq_bind, Option.bind_some]
  rw [List.cons_append, Json.expect_cons (by decide)]
  dsimp only [Option.bind_some]
  rw [HeaderValue.readJson_append]
  rcases e.2.reread? with _ | v <;> rfl

/-- Entries with commas between them. -/
def writeEntries (es : List (String × HeaderValue)) : List Char :=
  ((es.map writeEntry).intersperse [',']).flatten

theorem readEntries_append {es : List (String × HeaderValue)} (ne : es ≠ []) (rest : List Char)
    {fuel : Nat} (enough : es.length ≤ fuel) (h : Headers) :
    readEntries fuel h (writeEntries es ++ '\x7d' :: rest) =
      (es.foldlM reinsert? h).map (·, rest) := by
  induction es generalizing fuel h with
  | nil => exact absurd rfl ne
  | cons e es ih =>
    rcases fuel with _ | fuel
    · exact absurd enough (Nat.not_succ_le_zero _)
    rw [List.foldlM_cons]
    cases es with
    | nil =>
      have hone : writeEntries [e] = writeEntry e := by simp [writeEntries]
      rw [hone, readEntries_entry]
      cases h.reinsert? e <;> rfl
    | cons e' es =>
      have hmore : writeEntries (e :: e' :: es) ++ '\x7d' :: rest =
          writeEntry e ++ ',' :: (writeEntries (e' :: es) ++ '\x7d' :: rest) := by
        simp [writeEntries]
      rw [hmore, readEntries_entry]
      cases h.reinsert? e with
      | none => rfl
      | some h => exact ih (List.cons_ne_nil _ _) (Nat.le_of_succ_le_succ enough) h

theorem length_writeEntries (es : List (String × HeaderValue)) :
    es.length ≤ (writeEntries es).length + 1 := by
  induction es with
  | nil => simp
  | cons e es ih =>
    cases es with
    | nil => simp
    | cons e' es =>
      simp [writeEntries] at ih ⊢
      omega

theorem readMap_append (es : List (String × HeaderValue)) (rest : List Char) :
    readMap ('\x7b' :: (writeEntries es ++ '\x7d' :: rest)) =
      (es.foldlM reinsert? .empty).map (·, rest) := by
  unfold readMap
  rw [Json.expect_cons (by decide)]
  dsimp only [Option.bind_eq_bind, Option.bind_some]
  cases es with
  | nil => rfl
  | cons e es =>
    have hlen := length_writeEntries (e :: es)
    have hopen : Json.expect '\x7d' (writeEntries (e :: es) ++ '\x7d' :: rest) = none := by
      obtain ⟨cs, hcs⟩ : ∃ cs, writeEntries (e :: es) ++ '\x7d' :: rest = '"' :: cs := by
        cases es <;> exact ⟨_, rfl⟩
      rw [hcs]
      exact Json.expect_of_ne (by decide) (by decide) cs
    rw [hopen]
    exact readEntries_append (List.cons_ne_nil _ _) rest (by simp at hlen ⊢; omega) _

theorem readJson_append (h : Headers) (rest : List Char) :
    readJson (h.writeJson ++ rest) = (h.entries.foldlM reinsert? .empty).map (·, rest) := by
  have htext : h.writeJson ++ rest = '\x7b' :: (Json.Quoted.write "entries".toList ++
      ':' :: '\x7b' :: (writeEntries h.entries ++ '\x7d' :: '\x7d' :: rest)) := by
    simp [writeJson, writeEntries]
  unfold readJson
  rw [htext, Json.expect_of_ne (by decide) (by decide), Json.expect_cons (by decide)]
  dsimp only [Option.bind_eq_bind, Option.bind_some]
  rw [readFields, Json.readText_write, String.ofList_toList]
  dsimp only [Option.bind_eq_bind, Option.bind_some]
  rw [Json.expect_cons (by decide), Option.bind_some, if_pos rfl, readMap_append]
  cases h.entries.foldlM reinsert? .empty <;> rfl

theorem ofJson?_toJson (h : Headers) : ofJson? h.toJson = h.entries.foldlM reinsert? .empty := by
  have hread := h.readJson_append []
  rw [List.append_nil] at hread
  unfold ofJson? toJson Json.whole
  rw [String.toList_ofList, hread]
  cases h.entries.foldlM reinsert? .empty <;> rfl

theorem foldlM_reinsert? {es : List (String × HeaderValue)}
    (intact : ∀ e ∈ es, e.2.reread? = some e.2) (h : Headers) :
    es.foldlM reinsert? h = some (es.foldl (fun m e => m.insert e.1 e.2) h) := by
  induction es generalizing h with
  | nil => rfl
  | cons e es ih =>
    rw [List.forall_mem_cons] at intact
    have hfirst : h.reinsert? e = some (h.insert e.1 e.2) := by
      rw [reinsert?, intact.1]
      rfl
    rw [List.foldlM_cons, hfirst]
    exact ih intact.2 _

theorem foldlM_reinsert?_eq_none {es : List (String × HeaderValue)} {e : String × HeaderValue}
    (mem : e ∈ es) (lost : e.2.reread? = none) (h : Headers) : es.foldlM reinsert? h = none := by
  induction es generalizing h with
  | nil => cases mem
  | cons e' es ih =>
    rw [List.foldlM_cons]
    rcases List.mem_cons.1 mem with rfl | mem
    · rw [reinsert?, lost]
      rfl
    · cases h.reinsert? e' with
      | none => rfl
      | some h => exact ih mem h

/-- The floats among the values. -/
def floats (h : Headers) : List Binary64 :=
  h.entries.filterMap fun e => match e.2 with
    | .float x => some x
    | _ => none

theorem mem_floats {h : Headers} {x : Binary64} :
    x ∈ h.floats ↔ ∃ key, (key, HeaderValue.float x) ∈ h.entries := by
  unfold floats
  rw [List.mem_filterMap]
  constructor
  · rintro ⟨⟨key, v⟩, he, hv⟩
    cases v with
    | float y =>
      cases hv
      exact ⟨key, he⟩
    | _ => cases hv
  · rintro ⟨key, he⟩
    exact ⟨_, he, rfl⟩

/-- Headers whose floats are finite and are read back from their texts are read back themselves,
and headers with a float that is not finite are not read. -/
theorem json_round_trip (h : Headers) :
    ((∀ x ∈ h.floats, x.isFinite = true ∧ Binary64.ofJson? x.toJson = some x) →
        ofJson? h.toJson = some h) ∧
      ((∃ x ∈ h.floats, x.isFinite = false) → ofJson? h.toJson = none) := by
  rw [ofJson?_toJson]
  constructor
  · intro floats
    have hintact : ∀ e ∈ h.entries, e.2.reread? = some e.2 := by
      rintro ⟨key, v⟩ he
      cases v with
      | float x =>
        obtain ⟨-, hx⟩ := floats x (mem_floats.2 ⟨key, he⟩)
        simp only [HeaderValue.reread?, hx, Option.map_some]
      | _ => rfl
    rw [foldlM_reinsert? hintact]
    exact congrArg some (SortedMap.ofList_entries h)
  · rintro ⟨x, hmem, hx⟩
    obtain ⟨key, he⟩ := mem_floats.1 hmem
    refine foldlM_reinsert?_eq_none he ?_ _
    simp only [HeaderValue.reread?, Binary64.ofJson?_of_not_finite hx, Option.map_none]

/-- Texts that could pass for other values, and a key and values that are hard to write. -/
def lookalikes : Headers := .ofList [("uuid", .uuid (.ofNat 10)),
  ("text", .string "00000000-0000-0000-0000-00000000000a"), ("number", .string "-1"),
  ("say \"no\" \\ \n\x01 é", .string "true"), ("int", .int Int64.minValue), ("bool", .bool true),
  ("float", .float ⟨0x3FF8000000000000⟩), ("zero", .float ⟨0x8000000000000000⟩)]

def lookalikesWithNaN : Headers := lookalikes.insert "nan" (.float ⟨0x7FF8000000000000⟩)

theorem json_round_trip_lookalikes :
    ((∀ x ∈ lookalikes.floats, x.isFinite = true ∧ Binary64.ofJson? x.toJson = some x) ∧
      ofJson? lookalikes.toJson = some lookalikes) ∧
    ((∃ x ∈ lookalikesWithNaN.floats, x.isFinite = false) ∧
      ofJson? lookalikesWithNaN.toJson = none) := by
  have hfloats : ∀ x ∈ lookalikes.floats,
      x.isFinite = true ∧ Binary64.ofJson? x.toJson = some x := by decide +kernel
  have hnan : ∃ x ∈ lookalikesWithNaN.floats, x.isFinite = false := by decide +kernel
  exact ⟨⟨hfloats, (json_round_trip lookalikes).1 hfloats⟩, hnan,
    (json_round_trip lookalikesWithNaN).2 hnan⟩

/-- Finite is not enough. The 17 digits of 1.5094074428837205 are rounded before they are divided by
a power of ten, and so the text is read as the float below. -/
theorem json_reads_float_below :
    ∃ h : Headers, (∀ x ∈ h.floats, x.isFinite = true) ∧ ofJson? h.toJson ≠ some h ∧
      ofJson? h.toJson = some (.ofList [("float", .float ⟨0x3FF826886B3864A0⟩)]) := by
  refine ⟨.ofList [("float", .float ⟨0x3FF826886B3864A1⟩)], ?_⟩
  decide +kernel

end Headers
end MessageRing
