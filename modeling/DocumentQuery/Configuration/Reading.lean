import DocumentQuery.Failure
import DocumentQuery.Json.Reader

/-!
# Reading configurations

The JSON text of a configuration. A configuration and a table may be given as an object or as an
array of their fields in order; fields that are not known are passed over.
-/

namespace DocumentQuery
set_option autoImplicit false

open Json (Fault Outline Reader)

/-- The dialect of a name. -/
def Dialect.named (name : String) : Except Fault Dialect :=
  match ofName? name with
  | some d => .ok d
  | none => .error (.unknownVariant name knownNames)

/-- A dialect by its name, or as an object that has the name with null under it. -/
def Dialect.reader : Reader Dialect
  | .text (some name) => named name
  | .object ((some name, value) :: rest) closed => do
    let d ← named name
    Reader.unit value
    Reader.close (rest.isEmpty && closed)
    .ok d
  | _ => .error .malformed

namespace Table

/-- The fields of a table that were read so far. -/
structure Fields where
  name : Option String := none
  primaryKey : Option (List String) := none
  columns : Option (Option (List String)) := none

namespace Fields

def step (fields : Fields) (name : String) (value : Outline) : Except Fault Fields :=
  if name = "name" then
    (Reader.once name Reader.text fields.name value).map ({ fields with name := · })
  else if name = "primary_key" then
    (Reader.once name (Reader.sequence Reader.text) fields.primaryKey value).map
      ({ fields with primaryKey := · })
  else if name = "columns" then
    (Reader.once name (Reader.optional (Reader.sequence Reader.text)) fields.columns value).map
      ({ fields with columns := · })
  else
    (Reader.skip value).map fun _ => fields

def table (fields : Fields) : Except Fault Table :=
  match fields.name with
  | some name =>
    .ok { name
          primaryKey := fields.primaryKey.getD ["id"]
          columns := fields.columns.getD none }
  | none => .error (.missingField "name")

end Fields

def reader : Reader Table
  | .object entries closed => do (← Reader.entries Fields.step {} entries closed).table
  | .array items closed => do
    let noName := .error (.wrongLength 0 "struct TableConfig with 3 elements")
    let (name, items) ← Reader.item Reader.text noName closed items
    let (primaryKey, items) ←
      Reader.item (Reader.sequence Reader.text) (.ok ["id"]) closed items
    let (columns, items) ←
      Reader.item (Reader.optional (Reader.sequence Reader.text)) (.ok none) closed items
    Reader.lastItem closed items
    .ok { name, primaryKey, columns }
  | other => .error (Reader.misfit "struct TableConfig" other)

end Table

namespace Configuration

/-- The fields of a configuration that were read so far. -/
structure Fields where
  dialect : Option Dialect := none
  tables : Option (List Table) := none

namespace Fields

def step (fields : Fields) (name : String) (value : Outline) : Except Fault Fields :=
  if name = "dialect" then
    (Reader.once name Dialect.reader fields.dialect value).map ({ fields with dialect := · })
  else if name = "tables" then
    (Reader.once name (Reader.sequence Table.reader) fields.tables value).map
      ({ fields with tables := · })
  else
    (Reader.skip value).map fun _ => fields

def configuration (fields : Fields) : Except Fault Configuration :=
  match fields.dialect with
  | some dialect => .ok { dialect, tables := fields.tables.getD [] }
  | none => .error (.missingField "dialect")

end Fields

def reader : Reader Configuration
  | .object entries closed => do (← Reader.entries Fields.step {} entries closed).configuration
  | .array items closed => do
    let noDialect := .error (.wrongLength 0 "struct CompilerConfig with 2 elements")
    let (dialect, items) ← Reader.item Dialect.reader noDialect closed items
    let (tables, items) ← Reader.item (Reader.sequence Table.reader) (.ok []) closed items
    Reader.lastItem closed items
    .ok { dialect, tables }
  | other => .error (Reader.misfit "struct CompilerConfig" other)

/-- The configuration of a JSON text, if it is consistent. -/
def ofText (text : String) : Except Failure Configuration := do
  let c ← (Reader.ofText reader text).mapError .json
  c.checked.mapError .configuration

/-- The configuration of a file with these bytes, or of a file that is not there. -/
def ofFile (bytes : Option (List UInt8)) : Except Failure Configuration :=
  match bytes.bind fun bs => String.fromUTF8? ⟨bs.toArray⟩ with
  | some text => ofText text
  | none => .error .unreadable

end Configuration

end DocumentQuery
