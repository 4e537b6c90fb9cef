import MessageRing.Header.Map

/-!
Merging the headers of several messages into one map.

Keys that identify a single message never merge. Of two strategies the first or the last value
wins; the third keeps only keys on whose value all messages that have them agree.
-/
namespace MessageRing

inductive MergeStrategy where
  | conflictDiscarding
  | firstWins
  | lastWins
  deriving DecidableEq, Repr, Inhabited

namespace MergeStrategy

/-- What a merge gives: the merged headers, and the keys left out because of a conflict. -/
structure Result where
  merged : Headers
  /-- In the order of the keys. -/
  excluded : List String

/-- The entries that take part in a merge, in the order of the messages. -/
def mergeable (headers : List Headers) : List (String × HeaderValue) :=
  (headers.flatMap (·.entries)).filter fun e => !Key.identity e.1

/-- The first value of each key, and the keys that a later value disagrees on. -/
def noteConflict (state : Headers × SortedMap Unit) (e : String × HeaderValue) :
    Headers × SortedMap Unit :=
  match state.1.get? e.1 with
  | none => (state.1.insert e.1 e.2, state.2)
  | some first => if first == e.2 then state else (state.1, state.2.insert e.1 ())

def merge (strategy : MergeStrategy) (headers : List Headers) : Result :=
  let entries := mergeable headers
  match strategy with
  | .firstWins => ⟨entries.foldl (fun m e => m.insertNew e.1 e.2) .empty, []⟩
  | .lastWins => ⟨entries.foldl (fun m e => m.insert e.1 e.2) .empty, []⟩
  | .conflictDiscarding =>
    let (firsts, conflicts) := entries.foldl noteConflict (.empty, .empty)
    ⟨conflicts.keys.foldl (·.erase ·) firsts, conflicts.keys⟩

end MergeStrategy
end MessageRing
