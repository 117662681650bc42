import DocumentQuery.Json.Fault
import DocumentQuery.Json.Outline

/-!
# Readers of JSON shapes

A reader takes the outline of a text and gives what a part of the program needs, or the first
fault of the text. Arrays and objects are gone through from the left, and that a container is
closed is asked for after all that stands in it.
-/

namespace DocumentQuery.Json
set_option autoImplicit false

abbrev Reader (α : Type) := Outline → Except Fault α

namespace Reader

variable {α σ : Type}

/-- The fault of something else in the place of what was expected. An outline that lacks its
value is no JSON in the first place. -/
def misfit (expected : String) : Outline → Fault
  | .null => .wrongType .null expected
  | .bool b => .wrongType (.bool b) expected
  | .number (some n) => .wrongType (.number n) expected
  | .text (some s) => .wrongType (.text s) expected
  | .array .. => .wrongType .sequence expected
  | .object .. => .wrongType .map expected
  | .number none | .text none | .broken => .malformed

def text : Reader String
  | .text (some s) => .ok s
  | other => .error (misfit "a string" other)

def unit : Reader Unit
  | .null => .ok ()
  | other => .error (misfit "unit" other)

/-- Any document, with containers at most `depth` deep. -/
def json (depth : Nat) : Reader Json := fun outline =>
  match outline.json? depth with
  | some json => .ok json
  | none => .error .malformed

/-- Passes over a value of which nothing is needed. -/
def skip : Reader Unit := fun outline => if outline.isWhole then .ok () else .error .malformed

/-- Asks that a container ends here. -/
def close (closed : Bool) : Except Fault Unit := if closed then .ok () else .error .malformed

def sequence (item : Reader α) : Reader (List α)
  | .array items closed => do
    let values ← items.mapM item
    close closed
    .ok values
  | other => .error (misfit "a sequence" other)

/-- What `item` reads, or nothing for null. -/
def optional (item : Reader α) : Reader (Option α)
  | .null => .ok none
  | other => (item other).map some

/-- The next item of an array, or what stands for it where the array has ended before. -/
def item (read : Reader α) (absent : Except Fault α) (closed : Bool) :
    List Outline → Except Fault (α × List Outline)
  | [] => do
    close closed
    .ok (← absent, [])
  | outline :: rest => do
    .ok (← read outline, rest)

/-- Asks that an array ends behind the items that were read. -/
def lastItem (closed : Bool) (rest : List Outline) : Except Fault Unit :=
  close (rest.isEmpty && closed)

/-- Takes a field that must not come twice. The fault of a repeated name comes before those of
its value. -/
def once (name : String) (read : Reader α) (before : Option α) (value : Outline) :
    Except Fault (Option α) :=
  if before.isSome then .error (.duplicateField name) else (read value).map some

/-- Goes through an object's entries. -/
def entries (step : σ → String → Outline → Except Fault σ) (start : σ)
    (named : List (Option String × Outline)) (closed : Bool) : Except Fault σ := do
  let result ← named.foldlM (fun state entry =>
    match entry.1 with
    | some name => step state name entry.2
    | none => .error .malformed) start
  close closed
  .ok result

/-- What a text is for a reader. Behind the document nothing else may stand; a fault of the
document itself comes first. -/
def ofText (read : Reader α) (text : String) : Except Fault α := do
  let (outline, ended) := Outline.ofText text
  let result ← read outline
  close ended
  .ok result

end Reader

/-- The document that a text is. -/
def ofText (text : String) : Except Fault Json := Reader.ofText (Reader.json maxDepth) text

end DocumentQuery.Json

namespace DocumentQuery

/-- The query document of a JSON text. -/
def Value.ofText (text : String) : Except Json.Fault Value := (Json.ofText text).map ofJson

end DocumentQuery
