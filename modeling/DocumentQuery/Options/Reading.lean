import DocumentQuery.Json.Reader
import DocumentQuery.Options

/-!
# Reading options

Options as a JSON text or as a JSON document, in an object of fields or an array of them in
order. Only the fields of the call may be given; their values are read as they are.
-/

namespace DocumentQuery
set_option autoImplicit false

open Json (Fault Outline Reader)

namespace Method

/-- What a call's options are, in messages. -/
def optionsName : Method → String
  | .select => "struct SelectOptions"
  | .count => "struct CountOptions"
  | .delete => "struct DeleteOptions"
  | .insert => "struct InsertOptions"
  | .upsert => "struct UpsertOptions"

/-- A value of a field, which stands inside the options. -/
def fieldReader : Reader Value := fun outline =>
  (Reader.json (Json.maxDepth - 1) outline).map Value.ofJson

/-- Adds a field of the text. A name is judged before its value is read. -/
def optionsStep (m : Method) (options : Document) (name : String) (value : Outline) :
    Except Fault Document :=
  if m.fields.contains name then do
    let value ← Reader.once name fieldReader (Entries.get? name options) value
    .ok (options ++ value.toList.map (name, ·))
  else
    .error (.unknownField name m.fields)

/-- The options that an array gives for the fields in order. -/
def optionsOfItems (closed : Bool) : List String → List Outline → Except Fault Document
  | name :: names, item :: items => do
    let value ← fieldReader item
    let options ← optionsOfItems closed names items
    .ok ((name, value) :: options)
  | _, items => (Reader.lastItem closed items).map fun _ => []

def optionsReader (m : Method) : Reader Document
  | .object entries closed => Reader.entries m.optionsStep [] entries closed
  | .array items closed => optionsOfItems closed m.fields items
  | other => .error (Reader.misfit m.optionsName other)

/-- The options of a JSON text. -/
def optionsOfText (m : Method) (text : String) : Except Fault Document :=
  Reader.ofText m.optionsReader text

/-- The options of a JSON document. -/
def optionsOfJson (m : Method) : Json → Except Fault Document
  | .object entries =>
    match entries.find? (!m.fields.contains ·.1) with
    | some (name, _) => .error (.unknownField name m.fields)
    | none => .ok (entries.map fun entry => (entry.1, Value.ofJson entry.2))
  | .array items =>
    if m.fields.length < items.length then
      .error (.wrongLength items.length "fewer elements in array")
    else
      .ok (m.fields.zip (items.map Value.ofJson))
  | other => .error (.wrongType other.unexpected m.optionsName)

end Method

end DocumentQuery
