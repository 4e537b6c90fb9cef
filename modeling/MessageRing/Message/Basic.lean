import MessageRing.Header.Map
import MessageRing.Mint

/-! Messages: a payload under headers that identify it. -/
namespace MessageRing

/-- Headers with an identity of their own: an identifier from `source` and the time, whatever
stood under those keys. -/
def Headers.identify (h : Headers) (source : IdSource) (mint : Mint) : Headers × Mint :=
  let (id, mint) := mint.draw source
  let (time, mint) := mint.now
  ((h.insert Key.id (.uuid id)).insert Key.timestamp (.int time), mint)

theorem Headers.get?_identify (h : Headers) (source : IdSource) (mint : Mint) (key : String)
    (free : Key.assigned key = false) : (h.identify source mint).1.get? key = h.get? key := by
  have ⟨notId, notTime⟩ : key ≠ Key.id ∧ key ≠ Key.timestamp := by
    simpa [Key.assigned] using free
  simp [identify, SortedMap.get?_insert, Ne.symm notId, Ne.symm notTime]

structure Message (π : Type) where
  payload : π
  headers : Headers

namespace Message
variable {π : Type}

/-- A message with nothing but its identity. -/
def ofPayload (payload : π) (mint : Mint) : Message π × Mint :=
  let (headers, mint) := Headers.identify .empty .random mint
  (⟨payload, headers⟩, mint)

end Message
end MessageRing
