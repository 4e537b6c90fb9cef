import Mathlib.Data.List.Basic
import MessageRing.Failure

/-!
Descriptions of errors.

An error has one source at most, and a description follows the sources to the last one. An error
that only passes another one on stands for it: leaving all of these out, however deep, changes
neither a text nor the number of sources.
-/
namespace MessageRing

def RingError.source? : RingError → Option Cause
  | .spawn reason => some (.text reason)
  | _ => none

def HandlerError.source? : HandlerError → Option Cause
  | .failed source => some source
  | .panicked _ => none

/-- What the error comes from. One that is passed on comes from what it would come from alone. -/
def MessagingError.source? : MessagingError → Option Cause
  | .ring error => error.source?
  | .handler error => error.source?
  | .deliveryFailed _ source => some source
  | .noSubscribers | .tooManySubscribers _ | .noDestination | .unknownChannel _ => none

namespace Cause

def source? : Cause → Option Cause
  | .text _ => none
  | .ring error => error.source?
  | .handler error => error.source?
  | .messaging error => error.source?

/-- The sources from the first one on, to one that has none. -/
inductive Chain : Option Cause → List Cause → Prop
  | nil : Chain none []
  | cons {cause : Cause} {chain : List Cause} (rest : Chain cause.source? chain) :
    Chain (some cause) (cause :: chain)

theorem Chain.unique {first : Option Cause} {chain chain' : List Cause} (h : Chain first chain)
    (h' : Chain first chain') : chain = chain' := by
  induction h generalizing chain' with
  | nil =>
    cases h'
    rfl
  | cons rest ih =>
    cases h' with
    | cons rest' => rw [ih rest']

end Cause

theorem RingError.chain (e : RingError) :
    ∃ chain, Cause.Chain e.source? chain ∧ chain.map Cause.message = e.sources := by
  cases e with
  | spawn reason => exact ⟨[.text reason], .cons .nil, rfl⟩
  | _ => exact ⟨[], .nil, rfl⟩

mutual

/-- An error holds its source, so its sources come to an end; a description takes their texts. -/
theorem HandlerError.chain (e : HandlerError) :
    ∃ chain, Cause.Chain e.source? chain ∧ chain.map Cause.message = e.sources := by
  cases e with
  | failed source =>
    obtain ⟨chain, hchain, htexts⟩ := source.chain
    exact ⟨source :: chain, .cons hchain, by rw [List.map_cons, htexts, HandlerError.sources]⟩
  | panicked message => exact ⟨[], .nil, by rw [HandlerError.sources]; rfl⟩

theorem MessagingError.chain (e : MessagingError) :
    ∃ chain, Cause.Chain e.source? chain ∧ chain.map Cause.message = e.sources := by
  cases e with
  | ring error =>
    rw [MessagingError.sources]
    exact error.chain
  | handler error =>
    rw [MessagingError.sources]
    exact error.chain
  | deliveryFailed attempts source =>
    obtain ⟨chain, hchain, htexts⟩ := source.chain
    exact ⟨source :: chain, .cons hchain, by rw [List.map_cons, htexts, MessagingError.sources]⟩
  | _ => exact ⟨[], .nil, by rw [MessagingError.sources]; rfl⟩

theorem Cause.chain (c : Cause) :
    ∃ chain, Cause.Chain c.source? chain ∧ chain.map Cause.message = c.sources := by
  cases c with
  | text message => exact ⟨[], .nil, by rw [Cause.sources]; rfl⟩
  | ring error =>
    rw [Cause.sources]
    exact error.chain
  | handler error =>
    rw [Cause.sources]
    exact error.chain
  | messaging error =>
    rw [Cause.sources]
    exact error.chain

end

mutual

/-- The same error, with no error in it that only passes another one on. -/
def HandlerError.bare : HandlerError → HandlerError
  | .failed source => .failed source.bare
  | .panicked message => .panicked message

def MessagingError.bare : MessagingError → Cause
  | .ring error => .ring error
  | .handler error => .handler error.bare
  | .deliveryFailed attempts source => .messaging (.deliveryFailed attempts source.bare)
  | .noSubscribers => .messaging .noSubscribers
  | .tooManySubscribers max => .messaging (.tooManySubscribers max)
  | .noDestination => .messaging .noDestination
  | .unknownChannel name => .messaging (.unknownChannel name)

def Cause.bare : Cause → Cause
  | .text message => .text message
  | .ring error => .ring error
  | .handler error => .handler error.bare
  | .messaging error => error.bare

end

mutual

theorem HandlerError.message_bare (e : HandlerError) : e.bare.message = e.message := by
  cases e with
  | failed source =>
    rw [HandlerError.bare, HandlerError.message, HandlerError.message, source.message_bare]
  | panicked message => rw [HandlerError.bare]

theorem MessagingError.message_bare (e : MessagingError) : e.bare.message = e.message := by
  cases e with
  | handler error =>
    rw [MessagingError.bare, Cause.message, MessagingError.message, error.message_bare]
  | _ => simp [MessagingError.bare, Cause.message, MessagingError.message]

theorem Cause.message_bare (c : Cause) : c.bare.message = c.message := by
  cases c with
  | handler error => rw [Cause.bare, Cause.message, Cause.message, error.message_bare]
  | messaging error => rw [Cause.bare, error.message_bare, Cause.message]
  | _ => rw [Cause.bare]

end

theorem RingError.source?_bare (e : RingError) : e.source? = e.source?.map Cause.bare := by
  cases e with
  | spawn reason => simp [RingError.source?, Cause.bare]
  | _ => rfl

theorem HandlerError.source?_bare (e : HandlerError) :
    e.bare.source? = e.source?.map Cause.bare := by
  cases e <;> simp [HandlerError.bare, HandlerError.source?]

theorem MessagingError.source?_bare (e : MessagingError) :
    e.bare.source? = e.source?.map Cause.bare := by
  cases e with
  | ring error =>
    rw [MessagingError.bare]
    exact error.source?_bare
  | handler error =>
    rw [MessagingError.bare]
    exact error.source?_bare
  | _ => simp [MessagingError.bare, Cause.source?, MessagingError.source?]

namespace Cause

theorem source?_bare (c : Cause) : c.bare.source? = c.source?.map Cause.bare := by
  cases c with
  | text message => simp [Cause.bare, Cause.source?]
  | ring error =>
    rw [Cause.bare]
    exact error.source?_bare
  | handler error =>
    rw [Cause.bare]
    exact error.source?_bare
  | messaging error =>
    rw [Cause.bare]
    exact error.source?_bare

theorem Chain.bare {first : Option Cause} {chain : List Cause} (h : Chain first chain) :
    Chain (first.map Cause.bare) (chain.map Cause.bare) := by
  induction h with
  | nil => exact .nil
  | @cons cause chain rest ih =>
    rw [← source?_bare] at ih
    exact .cons ih

/-- The error only passes another one on. -/
def passing : Cause → Bool
  | .messaging (.ring _) | .messaging (.handler _) => true
  | _ => false

theorem passing_bare (c : Cause) : c.bare.passing = false := by
  cases c with
  | messaging error => cases error <;> simp [Cause.bare, MessagingError.bare, passing]
  | _ => simp [Cause.bare, passing]

end Cause

theorem MessagingError.passing_bare (e : MessagingError) : e.bare.passing = false := by
  have h := Cause.passing_bare (.messaging e)
  rwa [Cause.bare] at h

namespace MessagingError

theorem foldl_texts (line : String) (texts : List String) :
    texts.foldl (fun line text => line ++ ": " ++ text) line =
      line ++ String.join (texts.map (": " ++ ·)) := by
  induction texts generalizing line with
  | nil => simp [String.join]
  | cons text texts ih =>
    rw [List.foldl_cons, ih, List.map_cons]
    simp [String.append_assoc]

/-- The error's text and then the text of each source. -/
theorem describe_eq {e : MessagingError} {chain : List Cause} (h : Cause.Chain e.source? chain) :
    e.describe = e.message ++ String.join (chain.map fun cause => ": " ++ cause.message) := by
  obtain ⟨chain', hchain', htexts⟩ := e.chain
  obtain rfl := h.unique hchain'
  rw [describe, foldl_texts, ← htexts, List.map_map]
  rfl

end MessagingError
end MessageRing
