import DocumentQuery.Selection.Operand

/-!
# Selectors

Reading a document as a selection. A scalar or an array stands for the primary key; the entries
of an object are a conjunction in their order; `$and` and `$or` combine selectors, and a field
name narrows its object to comparisons of that field.
-/

namespace DocumentQuery
set_option autoImplicit false

/-- The way in which an operator joins selectors. -/
inductive Connective where
  | and
  | or
  deriving DecidableEq

namespace Connective

def name : Connective → String
  | .and => "$and"
  | .or => "$or"

def join : Connective → List Selection → Selection
  | .and => Selection.conjunction
  | .or => Selection.disjunction

end Connective

/-- What the name of a selector's entry says about its value. -/
inductive EntryName where
  /-- The value is the operand of a comparison. -/
  | operator (op : Operator)
  /-- The value is an array of selectors. -/
  | connective (c : Connective)
  /-- The value is about this key. -/
  | key (k : Key)
  | unknown (name : String)
  deriving DecidableEq

def EntryName.ofName (name : String) : EntryName :=
  match Operator.ofName? name with
  | some op => .operator op
  | none =>
    if name = Connective.and.name then .connective .and
    else if name = Connective.or.name then .connective .or
    else if Key.isReserved name && name != Key.idName then .unknown name
    else .key (Key.ofName name)

namespace Selection

mutual

/-- The selection of a selector that stands under `field`, if it stands under one. An object with
a single entry is that entry; any other object is the conjunction of its entries. -/
def ofSelector (field : Option Key) : Value → Except DocumentError Selection
  | .null => .ok .everything
  | .array items => (Comparison.ofValue .oneOf .id (.array items)).map comparing
  | .object entries => do
    match ← ofEntries field entries with
    | [only] => .ok only
    | parts => .ok (conjunction parts)
  | scalar => (Comparison.ofValue .eq .id scalar).map comparing

/-- The selections of an object's entries; the first fault counts. -/
def ofEntries (field : Option Key) : List (String × Value) → Except DocumentError (List Selection)
  | [] => .ok []
  | entry :: rest => do
    let part ← ofEntry field entry
    let parts ← ofEntries field rest
    .ok (part :: parts)

/-- The selection of one entry. A comparison is about the innermost field around it; a field
whose value is not an object is compared for equality with it. -/
def ofEntry (field : Option Key) : String × Value → Except DocumentError Selection
  | (name, value) =>
    match EntryName.ofName name with
    | .operator op =>
      match field with
      | some key => (Comparison.ofValue op key value).map comparing
      | none => .error (.missingField op.name)
    | .connective c =>
      match value with
      | .array [] => .error (.emptyArray c.name)
      | .array items => (ofItems field items).map c.join
      | other => .error (.operand c.name "non-empty array" other.kind)
    | .unknown name => .error (.unknownOperator name)
    | .key key =>
      match value with
      | .object entries => ofSelector (some key) (.object entries)
      | other => (Comparison.ofValue .eq key other).map comparing

/-- The selections of the selectors in an array; the first fault counts. -/
def ofItems (field : Option Key) : List Value → Except DocumentError (List Selection)
  | [] => .ok []
  | item :: rest => do
    let part ← ofSelector field item
    let parts ← ofItems field rest
    .ok (part :: parts)

end

/-- The selection that a document describes. -/
def ofValue (v : Value) : Except DocumentError Selection := ofSelector none v

/-- The selection of an array of selectors that `c` joins, outside every field. -/
def ofConnective (c : Connective) (v : Value) : Except DocumentError Selection :=
  ofEntry none (c.name, v)

end Selection

/-- The key that a text names. -/
def Key.ofValue : Value → Except DocumentError Key
  | .text name => .ok (Key.ofName name)
  | other => .error (.argument "string" other.kind)

end DocumentQuery
