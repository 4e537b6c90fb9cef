import MessageRing.Number.Layout
import MessageRing.Uuid

/-! The values of headers. -/
namespace MessageRing

inductive HeaderValue where
  | bool (value : Bool)
  | int (value : Int64)
  | float (value : Binary64)
  | uuid (value : Uuid)
  | string (value : String)
  deriving DecidableEq, Repr

namespace HeaderValue

/-- Equality of values: the same kind, and for floats equality of numbers. -/
def eq : HeaderValue → HeaderValue → Bool
  | .bool a, .bool b => a = b
  | .int a, .int b => a = b
  | .float a, .float b => a == b
  | .uuid a, .uuid b => a = b
  | .string a, .string b => a = b
  | _, _ => false

instance : BEq HeaderValue := ⟨eq⟩

def asString? : HeaderValue → Option String
  | .string text => some text
  | _ => none

theorem asString?_eq_some {v : HeaderValue} {text : String} :
    v.asString? = some text ↔ v = .string text := by
  cases v <;> simp [asString?]

def asInt? : HeaderValue → Option Int64
  | .int n => some n
  | _ => none

def asUuid? : HeaderValue → Option Uuid
  | .uuid u => some u
  | _ => none

/-- The value as people read it. -/
def display : HeaderValue → String
  | .bool b => if b then "true" else "false"
  | .int n => n.toInt.repr
  | .float x => String.ofList (Layout.plain.write x)
  | .uuid u => u.toString
  | .string text => text

end HeaderValue
end MessageRing
