/-!
Texts in quotes, as JSON writes them.

`Quoted.write` escapes what has to be; `Quoted.readBody` accepts every escape and refuses control
characters and surrogates without a partner.
-/
namespace MessageRing.Json.Quoted

def hexDigit (n : Nat) : Char := Nat.digitChar n

/-- The escape of a character, or the character itself. -/
def escape (c : Char) : List Char :=
  if c = '"' then ['\\', '"']
  else if c = '\\' then ['\\', '\\']
  else if c = '\x08' then ['\\', 'b']
  else if c = '\t' then ['\\', 't']
  else if c = '\n' then ['\\', 'n']
  else if c = '\x0c' then ['\\', 'f']
  else if c = '\r' then ['\\', 'r']
  else if c < ' ' then ['\\', 'u', '0', '0', hexDigit (c.toNat / 16), hexDigit (c.toNat % 16)]
  else [c]

def write (text : List Char) : List Char := '"' :: (text.flatMap escape ++ ['"'])

def hexValue? (c : Char) : Option Nat :=
  if '0' ≤ c ∧ c ≤ '9' then some (c.toNat - '0'.toNat)
  else if 'a' ≤ c ∧ c ≤ 'f' then some (c.toNat - 'a'.toNat + 10)
  else if 'A' ≤ c ∧ c ≤ 'F' then some (c.toNat - 'A'.toNat + 10)
  else none

/-- Four hexadecimal digits. -/
def unit? (a b c d : Char) : Option Nat := do
  return ((← hexValue? a) * 16 + (← hexValue? b)) * 256 + ((← hexValue? c) * 16 + (← hexValue? d))

/-- What a single letter after a backslash stands for. -/
def unescape? (c : Char) : Option Char :=
  if c = '"' ∨ c = '\\' ∨ c = '/' then some c
  else if c = 'b' then some '\x08'
  else if c = 'f' then some '\x0c'
  else if c = 'n' then some '\n'
  else if c = 'r' then some '\r'
  else if c = 't' then some '\t'
  else none

/-- The character of one unit, unless it is half of a pair. -/
def ofUnit? (n : Nat) : Option Char :=
  if 0xD800 ≤ n ∧ n < 0xE000 then none else some (Char.ofNat n)

/-- The character of two units, the higher half first. -/
def ofPair? (high low : Nat) : Option Char :=
  if 0xD800 ≤ high ∧ high < 0xDC00 ∧ 0xDC00 ≤ low ∧ low < 0xE000 then
    some (Char.ofNat (0x10000 + (high - 0xD800) * 1024 + (low - 0xDC00)))
  else none

/-- Reads up to the closing quote; gives the text and what follows the quote. -/
def readBody : List Char → Option (List Char × List Char)
  | [] => none
  | '"' :: rest => some ([], rest)
  | '\\' :: 'u' :: a :: b :: c :: d :: '\\' :: 'u' :: e :: f :: g :: h :: rest =>
    match unit? a b c d, unit? e f g h with
    | some m, some n =>
      match ofUnit? m with
      | some first =>
        -- The second escape is read on its own.
        (readBody ('\\' :: 'u' :: e :: f :: g :: h :: rest)).map fun (text, rest) =>
          (first :: text, rest)
      | none =>
        match ofPair? m n with
        | some char => (readBody rest).map fun (text, rest) => (char :: text, rest)
        | none => none
    | _, _ => none
  | '\\' :: 'u' :: a :: b :: c :: d :: rest =>
    match (unit? a b c d).bind ofUnit? with
    | some char => (readBody rest).map fun (text, rest) => (char :: text, rest)
    | none => none
  | '\\' :: c :: rest =>
    match unescape? c with
    | some char => (readBody rest).map fun (text, rest) => (char :: text, rest)
    | none => none
  | c :: rest =>
    if c < ' ' then none else (readBody rest).map fun (text, rest) => (c :: text, rest)

/-- Passes over a text up to the closing quote without making sense of its escapes. -/
def skipBody : List Char → Option (List Char)
  | [] => none
  | '"' :: rest => some rest
  | '\\' :: 'u' :: a :: b :: c :: d :: rest => if (unit? a b c d).isSome then skipBody rest else none
  | '\\' :: c :: rest => if (unescape? c).isSome then skipBody rest else none
  | c :: rest => if c < ' ' then none else skipBody rest

example : write "a\"\n\x01é".toList = "\"a\\\"\\n\\u0001é\"".toList := by decide +kernel

example : readBody "\\u00e9\\ud83d\\ude00\\/\"x".toList = some ("é😀/".toList, ['x']) ∧
    readBody "\\ud83d\"".toList = none := by decide +kernel

end MessageRing.Json.Quoted
