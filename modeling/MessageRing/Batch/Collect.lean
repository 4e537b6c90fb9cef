import MessageRing.Act
import MessageRing.Header.Merge
import MessageRing.Message.Builder

/-! The usual way to make one message out of a batch. -/
namespace MessageRing

variable {π σ : Type}

/-- Merges headers and reports what was left out. -/
def MergeStrategy.perform (strategy : MergeStrategy) (headers : List Headers) : Act σ Headers := do
  let result := strategy.merge headers
  result.excluded.forM fun key => Act.report (.headerExcluded key)
  return result.merged

/-- A message with the payloads in order, under the merged headers. -/
def collect (strategy : MergeStrategy) (batch : List (Message π)) : Act σ (Message (List π)) := do
  let merged ← strategy.perform (batch.map (·.headers))
  Act.minting ((Builder.ofPayload (batch.map (·.payload))).step (.copy merged)).build

end MessageRing
