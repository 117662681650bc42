/-!
# SQL dialects

What the two dialects spell differently from the outset: their names and the character around
identifiers. A name goes between the quote characters as it is.
-/

namespace DocumentQuery
set_option autoImplicit false

inductive Dialect where
  | mysql
  | postgres
  deriving DecidableEq, Inhabited

namespace Dialect

/-- The name in configurations. -/
def name : Dialect → String
  | .mysql => "mysql"
  | .postgres => "postgres"

/-- The name in messages. -/
def title : Dialect → String
  | .mysql => "mysql"
  | .postgres => "postgresql"

/-- The names that a configuration may use, aliases included. -/
def knownNames : List String := ["mysql", "postgres", "postgresql"]

def ofName? (s : String) : Option Dialect :=
  if s = "mysql" then some .mysql
  else if s = "postgres" ∨ s = "postgresql" then some .postgres
  else none

/-- The character on both sides of an identifier. -/
def quote : Dialect → Char
  | .mysql => '\x60'
  | .postgres => '\x22'

def quoted (d : Dialect) (name : String) : String :=
  d.quote.toString ++ name ++ d.quote.toString

end Dialect

end DocumentQuery
