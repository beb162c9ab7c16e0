import KitiumJobQueue.Foundations.Json

/-!
# Thrown values and white space

A program may throw anything. Code that needs an error object converts what it caught: an `Error`
stays what it is, any other value is printed into the message of a new one.

The white space of the language is here as well, since checks of arguments trim their strings.
-/

namespace JavaScript

/-- An error object: its message, its stack text, and the properties set on it besides. -/
structure JsError where
  message : String
  stack : Option String
  fields : List (String × Json) := []
  deriving DecidableEq

/-- A thrown value: an error object, or another value, of which only its text matters. Values that
`String` throws for are left out. -/
inductive Thrown
  | error (e : JsError)
  | value (text : String)
  deriving DecidableEq

/-- `e instanceof Error ? e : new Error(String(e))`; a new error records the stack given. -/
def Thrown.toError (stack : String) : Thrown → JsError
  | .error e => e
  | .value text => { message := text, stack := some stack }

/-- The letters that `trim` takes off. -/
def isWhiteSpace (c : Char) : Bool :=
  c ∈ ['\t', '\n', '\x0b', '\x0c', '\r', ' ', '\u00a0', '\u1680', '\u2028', '\u2029', '\u202f',
    '\u205f', '\u3000', '\ufeff'] || ('\u2000' ≤ c && c ≤ '\u200a')

/-- `!s.trim()` -/
def isBlank (s : String) : Bool := s.toList.all isWhiteSpace

end JavaScript
