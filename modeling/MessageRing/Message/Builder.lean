import MessageRing.Message.Basic

/-!
Building messages step by step.

A program of steps decides every header but the identity, which is assigned when the message is
built, whatever the steps did under those keys.
-/
namespace MessageRing

inductive BuildStep where
  | header (key : String) (value : HeaderValue)
  /-- Copies all headers but the identity. -/
  | copy (source : Headers)
  /-- Copies the headers whose keys are not yet there, but not the identity. -/
  | copyIfAbsent (source : Headers)
  | remove (key : String)
  | replyTo (channel : String)
  | errorChannel (channel : String)
  | correlationId (value : HeaderValue)
  | sequence (number size : Int64)
  /-- Takes the identifier from this source. -/
  | ids (source : IdSource)

structure Builder (π : Type) where
  payload : π
  headers : Headers
  ids : IdSource

namespace Builder
variable {π : Type}

def ofPayload (payload : π) : Builder π := ⟨payload, .empty, .random⟩

/-- The entries that a copy takes over. -/
def copied (source : Headers) : List (String × HeaderValue) :=
  source.entries.filter fun e => !Key.assigned e.1

def step (b : Builder π) : BuildStep → Builder π
  | .header key value => { b with headers := b.headers.insert key value }
  | .copy source =>
    { b with headers := (copied source).foldl (fun h e => h.insert e.1 e.2) b.headers }
  | .copyIfAbsent source =>
    { b with headers := (copied source).foldl (fun h e => h.insertNew e.1 e.2) b.headers }
  | .remove key => { b with headers := b.headers.erase key }
  | .replyTo channel => { b with headers := b.headers.insert Key.replyTo (.string channel) }
  | .errorChannel channel =>
    { b with headers := b.headers.insert Key.errorChannel (.string channel) }
  | .correlationId value => { b with headers := b.headers.insert Key.correlationId value }
  | .sequence number size =>
    { b with headers :=
        (b.headers.insert Key.sequenceNumber (.int number)).insert Key.sequenceSize (.int size) }
  | .ids source => { b with ids := source }

def steps (b : Builder π) (program : List BuildStep) : Builder π := program.foldl step b

/-- A copy of a message's payload and of its headers but the identity. -/
def ofMessage (m : Message π) : Builder π := (ofPayload m.payload).step (.copy m.headers)

/-- The message, with an identity of its own. -/
def build (b : Builder π) (mint : Mint) : Message π × Mint :=
  let (headers, mint) := b.headers.identify b.ids mint
  (⟨b.payload, headers⟩, mint)

end Builder
end MessageRing
