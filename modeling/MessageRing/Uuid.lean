/-! Identifiers of 128 bits and the texts they are read from. -/
namespace MessageRing

structure Uuid where
  bits : BitVec 128
  deriving DecidableEq, Repr, Inhabited

namespace Uuid

def nil : Uuid := ⟨0⟩

def ofNat (n : Nat) : Uuid := ⟨BitVec.ofNat 128 n⟩

/-- The four bits that name how the identifier was made; 4 is at random. -/
def version (u : Uuid) : Nat := (u.bits >>> 76).toNat % 16

/-- The identifier with the marks of one made at random. -/
def asRandom (u : Uuid) : Uuid :=
  ⟨(u.bits &&& ~~~(0xF000C000000000000000#128)) ||| 0x40008000000000000000#128⟩

def hexDigits (u : Uuid) : List Char :=
  let written := Nat.toDigits 16 u.bits.toNat
  List.replicate (32 - written.length) '0' ++ written

/-- Cuts a text into pieces of the given lengths. -/
def cut : List Nat → List Char → List (List Char)
  | [], _ => []
  | n :: ns, cs => cs.take n :: cut ns (cs.drop n)

/-- 8, 4, 4, 4 and 12 digits, in lower case, with hyphens between them. -/
def toList (u : Uuid) : List Char :=
  ((cut [8, 4, 4, 4, 12] u.hexDigits).intersperse ['-']).flatten

def toString (u : Uuid) : String := String.ofList u.toList

def hexValue? (c : Char) : Option Nat :=
  if '0' ≤ c ∧ c ≤ '9' then some (c.toNat - '0'.toNat)
  else if 'a' ≤ c ∧ c ≤ 'f' then some (c.toNat - 'a'.toNat + 10)
  else if 'A' ≤ c ∧ c ≤ 'F' then some (c.toNat - 'A'.toNat + 10)
  else none

/-- 32 hexadecimal digits of either case. -/
def ofDigits? (cs : List Char) : Option Uuid :=
  if cs.length = 32 then (cs.mapM hexValue?).map fun ds => ofNat (ds.foldl (16 * · + ·) 0)
  else none

/-- Digits with hyphens at the four places. -/
def ofHyphenated? (cs : List Char) : Option Uuid :=
  let hyphens := [8, 13, 18, 23].all (cs[·]? = some '-')
  if cs.length = 36 ∧ hyphens then
    ofDigits? (cs.take 8 ++ (cs.drop 9).take 4 ++ (cs.drop 14).take 4 ++ (cs.drop 19).take 4 ++
      cs.drop 24)
  else none

/-- What stands before an identifier that is written as a URN, in either case. -/
def isUrnStart (cs : List Char) : Bool := cs.map Char.toLower = "urn:uuid:".toList

/-- Reads an identifier: bare digits, with hyphens, and the latter in braces or as a URN. -/
def ofList? (cs : List Char) : Option Uuid :=
  match cs.length with
  | 32 => ofDigits? cs
  | 36 => ofHyphenated? cs
  | 38 => if cs.head? = some '\x7b' ∧ cs.getLast? = some '\x7d' then
      ofHyphenated? ((cs.drop 1).take 36) else none
  | 45 => if isUrnStart (cs.take 9) then ofHyphenated? (cs.drop 9) else none
  | _ => none

def ofString? (text : String) : Option Uuid := ofList? text.toList

example : (ofNat 10).toString = "00000000-0000-0000-0000-00000000000a" ∧
    (ofNat 7).asRandom.version = 4 := by decide +kernel

end Uuid
end MessageRing
