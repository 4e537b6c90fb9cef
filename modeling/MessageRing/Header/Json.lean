import MessageRing.Header.Map
import MessageRing.Json.Scan

/-!
Header values and headers as JSON texts.

A value is an object with one member, whose key names the kind of the value; so a text that could
pass for an identifier stays a text.
-/
namespace MessageRing

namespace HeaderValue

def kind : HeaderValue → String
  | .bool _ => "Bool"
  | .int _ => "Int"
  | .float _ => "Float"
  | .uuid _ => "Uuid"
  | .string _ => "String"

/-- The value itself, as a member of the object. -/
def writeContent : HeaderValue → List Char
  | .bool b => (if b then "true" else "false").toList
  | .int n => n.toInt.repr.toList
  | .float x => Layout.json.write x
  | .uuid u => Json.Quoted.write u.toList
  | .string text => Json.Quoted.write text.toList

def writeJson (v : HeaderValue) : List Char :=
  '\x7b' :: (Json.Quoted.write v.kind.toList ++ ':' :: (v.writeContent ++ ['\x7d']))

def readContent (kind : String) (cs : List Char) : Option (HeaderValue × List Char) :=
  match kind with
  | "Bool" => (Json.readBool cs).map fun (b, rest) => (.bool b, rest)
  | "Int" => do
    let (n, rest) ← Json.readNumeral cs
    return (.int (Int64.ofInt (← n.toInt?)), rest)
  | "Float" => do
    let (n, rest) ← Json.readNumeral cs
    return (.float (← n.toBinary64?), rest)
  | "Uuid" => do
    let (text, rest) ← Json.readText cs
    return (.uuid (← Uuid.ofString? text), rest)
  | "String" => (Json.readText cs).map fun (text, rest) => (.string text, rest)
  | _ => none

def readJson (cs : List Char) : Option (HeaderValue × List Char) := do
  let cs ← Json.expect '\x7b' cs
  let (kind, cs) ← Json.readText cs
  let cs ← Json.expect ':' cs
  let (value, cs) ← readContent kind cs
  let cs ← Json.expect '\x7d' cs
  return (value, cs)

def toJson (v : HeaderValue) : String := String.ofList v.writeJson

def ofJson? (text : String) : Option HeaderValue := Json.whole readJson text

end HeaderValue

namespace Headers

def writeEntry (e : String × HeaderValue) : List Char :=
  Json.Quoted.write e.1.toList ++ ':' :: e.2.writeJson

/-- An object with the one field `entries`, an object in the order of the map. -/
def writeJson (h : Headers) : List Char :=
  '\x7b' :: (Json.Quoted.write "entries".toList ++ ':' :: '\x7b' ::
    (((h.entries.map writeEntry).intersperse [',']).flatten ++ ['\x7d', '\x7d']))

/-- Reads members up to the closing brace; of two equal keys the last one stays. -/
def readEntries : Nat → Headers → List Char → Option (Headers × List Char)
  | 0, _, _ => none
  | fuel + 1, h, cs => do
    let (key, cs) ← Json.readText cs
    let (value, cs) ← HeaderValue.readJson (← Json.expect ':' cs)
    match ← Json.readNext '\x7d' cs with
    | .more cs => readEntries fuel (h.insert key value) cs
    | .finished cs => return (h.insert key value, cs)

def readMap (cs : List Char) : Option (Headers × List Char) := do
  let cs ← Json.expect '\x7b' cs
  match Json.expect '\x7d' cs with
  | some rest => return (.empty, rest)
  | none => readEntries (cs.length + 1) .empty cs

/-- Reads fields up to the closing brace: `entries` exactly once, and any others, which are passed
over. -/
def readFields : Nat → Option Headers → List Char → Option (Headers × List Char)
  | 0, _, _ => none
  | fuel + 1, found, cs => do
    let (key, cs) ← Json.readText cs
    let cs ← Json.expect ':' cs
    let (found, cs) ←
      if key = "entries" then
        match found with
        | some _ => none
        | none => (readMap cs).map fun (h, rest) => (some h, rest)
      else (Json.skipAny cs).map fun rest => (found, rest)
    match ← Json.readNext '\x7d' cs with
    | .more cs => readFields fuel found cs
    | .finished cs => found.map (·, cs)

/-- Reads headers: an object with the field `entries`, or a list that holds just its value. -/
def readJson (cs : List Char) : Option (Headers × List Char) :=
  match Json.expect '[' cs with
  | some cs => do
    let (h, cs) ← readMap cs
    return (h, ← Json.expect ']' cs)
  | none => do
    let cs ← Json.expect '\x7b' cs
    readFields (cs.length + 1) none cs

def toJson (h : Headers) : String := String.ofList h.writeJson

def ofJson? (text : String) : Option Headers := Json.whole readJson text

end Headers
end MessageRing
