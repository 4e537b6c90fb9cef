import MessageRing.Json.Quoted
import MessageRing.Number.Numeral

/-!
Moving through a JSON text. Each function takes the text still to be read and gives what is left
after the part that it reads, or nothing if the text does not begin with such a part.
-/
namespace MessageRing.Json

def isBlank (c : Char) : Bool := c = ' ' ∨ c = '\n' ∨ c = '\t' ∨ c = '\r'

def skipBlank (cs : List Char) : List Char := cs.dropWhile isBlank

/-- One character, after blanks. -/
def expect (c : Char) (cs : List Char) : Option (List Char) :=
  match skipBlank cs with
  | d :: rest => if d = c then some rest else none
  | [] => none

/-- A word, letter by letter. -/
def word : List Char → List Char → Option (List Char)
  | [], cs => some cs
  | w :: ws, c :: cs => if w = c then word ws cs else none
  | _ :: _, [] => none

/-- A text in quotes, after blanks. -/
def readText (cs : List Char) : Option (String × List Char) := do
  let (text, rest) ← Quoted.readBody (← expect '"' cs)
  return (String.ofList text, rest)

def readBool (cs : List Char) : Option (Bool × List Char) :=
  let cs := skipBlank cs
  match word "true".toList cs, word "false".toList cs with
  | some rest, _ => some (true, rest)
  | _, some rest => some (false, rest)
  | none, none => none

def readNumeral (cs : List Char) : Option (Numeral × List Char) := Numeral.read (skipBlank cs)

/-- What comes after one member of a list or an object: a comma and more, or the end. -/
inductive Next where
  | more (rest : List Char)
  | finished (rest : List Char)
  deriving DecidableEq, Repr

def readNext (close : Char) (cs : List Char) : Option Next :=
  match skipBlank cs with
  | c :: rest => if c = ',' then some (.more rest) else if c = close then some (.finished rest) else none
  | [] => none

mutual

/-- Any value, passed over. -/
def skipValue : Nat → List Char → Option (List Char)
  | 0, _ => none
  | fuel + 1, cs =>
    match skipBlank cs with
    | [] => none
    | c :: rest =>
      if c = '"' then Quoted.skipBody rest
      else if c = '[' then (expect ']' rest).orElse fun _ => skipItems fuel rest
      else if c = '\x7b' then (expect '\x7d' rest).orElse fun _ => skipMembers fuel rest
      else if c = 'n' then word "ull".toList rest
      else if c = 't' then word "rue".toList rest
      else if c = 'f' then word "alse".toList rest
      else (Numeral.read (c :: rest)).map (·.2)

def skipItems : Nat → List Char → Option (List Char)
  | 0, _ => none
  | fuel + 1, cs => do
    match ← readNext ']' (← skipValue fuel cs) with
    | .more rest => skipItems fuel rest
    | .finished rest => return rest

def skipMembers : Nat → List Char → Option (List Char)
  | 0, _ => none
  | fuel + 1, cs => do
    let cs ← Quoted.skipBody (← expect '"' cs)
    let cs ← expect ':' cs
    match ← readNext '\x7d' (← skipValue fuel cs) with
    | .more rest => skipMembers fuel rest
    | .finished rest => return rest

end

/-- Passes over a value; twice the length of the text bounds the nesting and the members. -/
def skipAny (cs : List Char) : Option (List Char) := skipValue (2 * cs.length + 1) cs

/-- A whole text: what `read` takes, with nothing but blanks after it. -/
def whole {ρ : Type} (read : List Char → Option (ρ × List Char)) (text : String) : Option ρ :=
  match read text.toList with
  | some (value, rest) => if (skipBlank rest).isEmpty then some value else none
  | none => none

end MessageRing.Json
