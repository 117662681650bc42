import DocumentQuery.Clause.Paging
import DocumentQuery.Clause.Projection
import DocumentQuery.Clause.SortOrder
import DocumentQuery.Selection

/-!
# Tagged notation

The text of the parts of a query in nested brackets, each opened by the tag of what it is. Names
and texts are quoted, so brackets and commas inside them cannot be taken for structure.
-/

namespace DocumentQuery
set_option autoImplicit false

/-- A bracket: its tag and its members. -/
def bracket (tag : String) (members : List String) : String :=
  "[\"" ++ tag ++ "\"" ++ String.join (members.map (", " ++ ·)) ++ "]"

def Key.tagged : Key → String
  | .id => bracket "ID" []
  | .column name => bracket "KEY" [Text.quoted name]

def Element.tagged : Element → String
  | .literal p => p.tagged
  | .predicate op p => bracket op.tag [p.tagged]

def Operand.tagged : Operand → String
  | .value p => bracket "VALUE" [p.tagged]
  | .values elements => bracket "VALUES" (elements.map Element.tagged)

def Comparison.tagged (c : Comparison) : String :=
  bracket c.op.tag [c.key.tagged, c.operand.tagged]

namespace Node

mutual

def tagged : Node → String
  | .comparison c => c.tagged
  | .and children => bracket "AND" (taggedEach children)
  | .or children => bracket "OR" (taggedEach children)

def taggedEach : List Node → List String
  | [] => []
  | child :: rest => tagged child :: taggedEach rest

end

end Node

def Selection.tagged : Selection → String
  | .everything => bracket "SELECTION" ["null"]
  | .matching node => bracket "SELECTION" [node.tagged]

def Projection.tagged : Projection → String
  | .everything => bracket "PROJECTION" ["null"]
  | .including keys => bracket "PROJECTION" [bracket "INCLUDE" (keys.map Key.tagged)]
  | .excluding keys => bracket "NPROJECTION" [bracket "EXCLUDE" (keys.map Key.tagged)]

def SortTerm.tagged (term : SortTerm) : String := bracket term.direction.sql [term.key.tagged]

def SortOrder.tagged : SortOrder → String
  | .unspecified => bracket "ORDERBY" ["null"]
  | .terms ts => bracket "ORDERBY" (ts.map SortTerm.tagged)

/-- A row count, or null for none. -/
def rowsTagged : Option Nat → String
  | none => "null"
  | some n => toString n

def Limit.tagged (limit : Limit) : String := bracket "LIMIT" [rowsTagged limit.rows]

def Offset.tagged (offset : Offset) : String := bracket "OFFSET" [rowsTagged offset.rows]

end DocumentQuery
