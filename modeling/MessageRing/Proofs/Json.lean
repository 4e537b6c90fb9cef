import MessageRing.Json.Scan
import MessageRing.Proofs.Numeral

/-!
Texts in quotes are read back as they were written, and numbers up to what follows them.

What is written for a text ends at its closing quote, so that it is read back from the front of any
longer text. A number has no such end: it is read up to the first character that is not a part of
one.
-/
namespace MessageRing.Json
namespace Quoted

/-- A character that stands for itself. -/
theorem readBody_plain {c : Char} (quote : c ≠ '"') (backslash : c ≠ '\\') (visible : ¬ c < ' ')
    (rest : List Char) :
    readBody (c :: rest) = (readBody rest).map fun (text, rest) => (c :: text, rest) := by
  rw [readBody.eq_6 c rest quote (fun _ _ _ _ _ _ _ _ _ h => absurd h backslash)
    (fun _ _ _ _ _ h => absurd h backslash) (fun _ _ h => absurd h backslash), if_neg visible]

/-- A letter after a backslash. -/
theorem readBody_letter {c char : Char} (letter : c ≠ 'u') (stands : unescape? c = some char)
    (rest : List Char) :
    readBody ('\\' :: c :: rest) = (readBody rest).map fun (text, rest) => (char :: text, rest) := by
  rw [readBody.eq_5 c rest (fun _ _ _ _ _ _ _ _ _ h => absurd h letter)
    (fun _ _ _ _ _ h => absurd h letter), stands]

/-- A unit that is a character on its own, whether or not another unit follows. -/
theorem readBody_unit {a b c d char : Char} {n : Nat} (unit : unit? a b c d = some n)
    (stands : ofUnit? n = some char) (rest : List Char) :
    readBody ('\\' :: 'u' :: a :: b :: c :: d :: rest) =
      (readBody rest).map fun (text, rest) => (char :: text, rest) := by
  by_cases hpair : ∃ e f g h rest', rest = '\\' :: 'u' :: e :: f :: g :: h :: rest'
  · obtain ⟨e, f, g, h, rest', rfl⟩ := hpair
    rw [readBody.eq_3, unit]
    cases hnext : unit? e f g h with
    | some m =>
      dsimp only
      rw [stands]
    | none =>
      -- then the second unit is not read either
      by_cases hthird : ∃ i j k l rest'', rest' = '\\' :: 'u' :: i :: j :: k :: l :: rest''
      · obtain ⟨i, j, k, l, rest'', rfl⟩ := hthird
        rw [readBody.eq_3, hnext]
        rfl
      · rw [readBody.eq_4 e f g h rest' fun i j k l rest'' he => hthird ⟨i, j, k, l, rest'', he⟩,
          hnext]
        rfl
  · rw [readBody.eq_4 a b c d rest fun e f g h rest' he => hpair ⟨e, f, g, h, rest', he⟩, unit,
      Option.bind_some, stands]

theorem unit?_hexDigit {n : Nat} (h : n < 32) :
    unit? '0' '0' (hexDigit (n / 16)) (hexDigit (n % 16)) = some n := by
  revert n
  decide

theorem readBody_escape (c : Char) (rest : List Char) :
    readBody (escape c ++ rest) = (readBody rest).map fun (text, rest) => (c :: text, rest) := by
  unfold escape
  split_ifs with hquote hbackslash hback htab hline hform hreturn hhidden
  · subst hquote
    exact readBody_letter (by decide) (by decide) rest
  · subst hbackslash
    exact readBody_letter (by decide) (by decide) rest
  · subst hback
    exact readBody_letter (by decide) (by decide) rest
  · subst htab
    exact readBody_letter (by decide) (by decide) rest
  · subst hline
    exact readBody_letter (by decide) (by decide) rest
  · subst hform
    exact readBody_letter (by decide) (by decide) rest
  · subst hreturn
    exact readBody_letter (by decide) (by decide) rest
  · have hlt : c.toNat < 32 := hhidden
    have hchar : ofUnit? c.toNat = some c := by
      unfold ofUnit?
      rw [if_neg (by omega), Char.ofNat_toNat]
    exact readBody_unit (unit?_hexDigit hlt) hchar rest
  · exact readBody_plain hquote hbackslash hhidden rest

/-- A text that was written is read back, and nothing after it. -/
theorem readBody_written (text rest : List Char) :
    readBody (text.flatMap escape ++ '"' :: rest) = some (text, rest) := by
  induction text with
  | nil => rfl
  | cons c text ih =>
    rw [List.flatMap_cons, List.append_assoc, readBody_escape, ih]
    rfl

end Quoted

theorem skipBlank_cons {c : Char} (h : isBlank c = false) (rest : List Char) :
    skipBlank (c :: rest) = c :: rest := by
  simp [skipBlank, h]

theorem skipBlank_append {c : Char} (h : isBlank c = false) (w rest : List Char) :
    skipBlank (w ++ c :: rest) = skipBlank w ++ c :: rest := by
  induction w with
  | nil => exact skipBlank_cons h rest
  | cons d w ih =>
    cases hd : isBlank d with
    | true => simpa [skipBlank, hd] using ih
    | false => simp [skipBlank, hd]

theorem expect_cons {c : Char} (h : isBlank c = false) (rest : List Char) :
    expect c (c :: rest) = some rest := by
  unfold expect
  rw [skipBlank_cons h]
  exact if_pos rfl

theorem expect_of_ne {c d : Char} (h : isBlank d = false) (ne : d ≠ c) (rest : List Char) :
    expect c (d :: rest) = none := by
  unfold expect
  rw [skipBlank_cons h]
  exact if_neg ne

theorem readText_write (text rest : List Char) :
    readText (Quoted.write text ++ rest) = some (String.ofList text, rest) := by
  have hexpect : expect '"' (Quoted.write text ++ rest) =
      some (text.flatMap Quoted.escape ++ '"' :: rest) := by
    unfold Quoted.write
    rw [List.cons_append, List.append_assoc]
    exact expect_cons (by decide) _
  unfold readText
  rw [hexpect]
  dsimp only [Option.bind_eq_bind, Option.bind_some]
  rw [Quoted.readBody_written]
  rfl

section Numbers
open Numeral (followed isPart)

theorem isBlank_of_isPart {c : Char} (h : isPart c = true) : isBlank c = false := by
  cases hblank : isBlank c with
  | false => rfl
  | true =>
    simp only [isBlank, decide_eq_true_eq] at hblank
    rcases hblank with rfl | rfl | rfl | rfl <;> exact absurd h (by decide)

theorem skipBlank_of_isPart {w : List Char} (h : ∀ c ∈ w, isPart c = true) : skipBlank w = w := by
  cases w with
  | nil => rfl
  | cons c w => exact skipBlank_cons (isBlank_of_isPart (h c List.mem_cons_self)) w

theorem readNumeral_append {c : Char} (blank : isBlank c = false) (stop : isPart c = false)
    (w rest : List Char) :
    readNumeral (w ++ c :: rest) = (readNumeral w).map (followed (c :: rest)) := by
  unfold readNumeral
  rw [skipBlank_append blank, Numeral.read_append stop]

/-- A float at the front of a text. -/
def readFloat (cs : List Char) : Option (Binary64 × List Char) := do
  let (n, rest) ← readNumeral cs
  return (← n.toBinary64?, rest)

/-- A float inside braces is read like one that stands alone. -/
theorem readFloat_closed {w : List Char} (clean : ∀ c ∈ w, isBlank c = false ∧ c ≠ '\x7d')
    (rest : List Char) :
    ((readFloat (w ++ '\x7d' :: rest)).bind fun (x, cs) => (expect '\x7d' cs).map (x, ·)) =
      (whole readFloat (String.ofList w)).map (·, rest) := by
  unfold whole readFloat
  rw [String.toList_ofList, readNumeral_append (by decide) (by decide)]
  rcases hread : readNumeral w with _ | ⟨n, left⟩
  · rfl
  dsimp only [Option.map_some, followed, Option.bind_eq_bind, Option.bind_some]
  rcases n.toBinary64? with _ | x
  · rfl
  dsimp only [Option.bind_some, Option.pure_def]
  rcases left with _ | ⟨d, left⟩
  · rw [List.nil_append, expect_cons (by decide)]
    rfl
  · -- then something is left of `w` that is neither blank nor the brace
    have hsuffix : (d :: left) <:+ w :=
      (Numeral.read_suffix hread).trans (List.dropWhile_suffix _)
    obtain ⟨hblank, hbrace⟩ := clean d (hsuffix.mem List.mem_cons_self)
    rw [List.cons_append, expect_of_ne hblank hbrace, skipBlank_cons hblank]
    rfl

end Numbers

end MessageRing.Json
