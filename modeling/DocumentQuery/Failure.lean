import DocumentQuery.Configuration
import DocumentQuery.DocumentError
import DocumentQuery.Json.Fault

/-!
# Failures

Why a call or a configuration has no answer: the fault of the part where it arose, with the words
that tell which part that is.
-/

namespace DocumentQuery
set_option autoImplicit false

/-- Why there is no answer. -/
inductive Failure where
  | document (e : DocumentError)
  | statement (e : StatementError)
  | configuration (e : ConfigurationError)
  | json (e : Json.Fault)
  /-- A file that is not there, or is not text. -/
  | unreadable
  deriving DecidableEq, Inhabited

/-- The wording of a failure; a text that is not JSON and a file that cannot be read have none. -/
def Failure.message? : Failure → Option String
  | .document e => some ("parse error: " ++ e.message)
  | .statement e => some ("compile error: " ++ e.message)
  | .configuration e => some ("configuration error: " ++ e.message)
  | .json e => e.message?
  | .unreadable => none

end DocumentQuery
