import DocumentQuery.Json.Token

/-!
# Outlines of JSON texts

An outline is what can be told of a text from the left, up to its first error of grammar: a
document some of whose branches may end open. Readers of a shape go through an outline from the
left, so of all faults of a text they meet the first one, whether it is one of grammar or of
shape.
-/

namespace DocumentQuery.Json
set_option autoImplicit false

/-- A document as far as its text is good. An array or an object is closed if its end was read. -/
inductive Outline where
  | null
  | bool (b : Bool)
  | number (n : Option Number)
  | text (s : Option String)
  | array (items : List Outline) (closed : Bool)
  | object (entries : List (Option String × Outline)) (closed : Bool)
  | broken
  deriving Inhabited

namespace Outline

/-- A container around what is being read, with what it holds so far, last things first. -/
inductive Frame where
  | items (done : List Outline)
  | entries (done : List (Option String × Outline))
  | entry (done : List (Option String × Outline)) (name : Option String)

/-- What may come next. -/
inductive Expecting where
  /-- A value, or the end of the array if it may end here. -/
  | value (mayEnd : Bool)
  /-- A name, or the end of the object if it may end here. -/
  | name (mayEnd : Bool)
  | colon
  /-- A comma or the end of the container, behind the value read last. -/
  | more (last : Outline)

/-- The outline of a text that breaks off within or behind `inner`, when that is the last thing
read. -/
def abandon (inner : Outline) : List Frame → Outline
  | [] => inner
  | .items done :: frames => abandon (.array (inner :: done).reverse false) frames
  | .entries done :: frames => abandon (.object done.reverse false) frames
  | .entry done name :: frames =>
    abandon (.object ((name, inner) :: done).reverse false) frames

/-- The outline of a value made of one token. -/
def scalar? : Token → Option Outline
  | .null => some .null
  | .bool b => some (.bool b)
  | .number n => some (.number n)
  | .text s => some (.text s)
  | _ => none

/-- The outline of the value that tokens make up, and whether they are used up by it without an
error. -/
def ofTokensIn : Expecting → List Frame → List Token → Outline × Bool
  | .more last, [], rest => (last, rest.isEmpty)
  | .more last, frames, [] => (abandon last frames, false)
  | _, frames, [] => (abandon .broken frames, false)
  | .value mayEnd, frames, token :: rest =>
    match token, frames with
    | .openArray, _ => ofTokensIn (.value true) (.items [] :: frames) rest
    | .openObject, _ => ofTokensIn (.name true) (.entries [] :: frames) rest
    | .closeArray, .items done :: outer =>
      if mayEnd then ofTokensIn (.more (.array done.reverse true)) outer rest
      else (abandon .broken frames, false)
    | _, _ =>
      match scalar? token with
      | some value => ofTokensIn (.more value) frames rest
      | none => (abandon .broken frames, false)
  | .name mayEnd, frames, token :: rest =>
    match token, frames with
    | .text name, .entries done :: outer => ofTokensIn .colon (.entry done name :: outer) rest
    | .closeObject, .entries done :: outer =>
      if mayEnd then ofTokensIn (.more (.object done.reverse true)) outer rest
      else (abandon .broken frames, false)
    | _, _ => (abandon .broken frames, false)
  | .colon, frames, token :: rest =>
    if token = .colon then ofTokensIn (.value false) frames rest
    else (abandon .broken frames, false)
  | .more last, frame :: outer, token :: rest =>
    match token, frame with
    | .comma, .items done => ofTokensIn (.value false) (.items (last :: done) :: outer) rest
    | .closeArray, .items done =>
      ofTokensIn (.more (.array (last :: done).reverse true)) outer rest
    | .comma, .entry done name =>
      ofTokensIn (.name false) (.entries ((name, last) :: done) :: outer) rest
    | .closeObject, .entry done name =>
      ofTokensIn (.more (.object ((name, last) :: done).reverse true)) outer rest
    | _, _ => (abandon last (frame :: outer), false)

/-- The outline of a text, and whether the text is one document and nothing else. -/
def ofText (text : String) : Outline × Bool := ofTokensIn (.value false) [] (Token.scan text)

mutual

/-- Whether the text of an outline is good to its end, whatever values it lacks. -/
def isWhole : Outline → Bool
  | .broken => false
  | .array items closed => areWhole items && closed
  | .object entries closed => entriesAreWhole entries && closed
  | _ => true

def areWhole : List Outline → Bool
  | [] => true
  | item :: rest => isWhole item && areWhole rest

def entriesAreWhole : List (Option String × Outline) → Bool
  | [] => true
  | (_, value) :: rest => isWhole value && entriesAreWhole rest

end

mutual

/-- The document of an outline with containers at most `depth` deep; none if the text is not
good, lacks a value or goes deeper. A name that comes again keeps its first place and its last
value. -/
def json? (depth : Nat) : Outline → Option Json
  | .null => some .null
  | .bool b => some (.bool b)
  | .number n => n.map .number
  | .text s => s.map .text
  | .array items closed =>
    match depth with
    | 0 => none
    | depth + 1 => if closed then (items? depth items).map .array else none
  | .object entries closed =>
    match depth with
    | 0 => none
    | depth + 1 =>
      if closed then (entries? depth entries).map fun named => .object (Entries.ofList named)
      else none
  | .broken => none

def items? (depth : Nat) : List Outline → Option (List Json)
  | [] => some []
  | item :: rest => do
    let value ← json? depth item
    let values ← items? depth rest
    some (value :: values)

def entries? (depth : Nat) : List (Option String × Outline) → Option (List (String × Json))
  | [] => some []
  | (name, value) :: rest => do
    let name ← name
    let value ← json? depth value
    let named ← entries? depth rest
    some ((name, value) :: named)

end

end Outline

/-- How many containers may stand inside each other in a text. -/
def maxDepth : Nat := 127

end DocumentQuery.Json
