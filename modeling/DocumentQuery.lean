import DocumentQuery.Catalog
import DocumentQuery.Configuration.Reading
import DocumentQuery.Options.Reading
import DocumentQuery.Proofs.Draft.Condition
import DocumentQuery.Proofs.Selection.Selector
import DocumentQuery.Proofs.Statement.Placeholders
import DocumentQuery.Proofs.Statement.Restriction
import DocumentQuery.Statement.Step
import DocumentQuery.Tagged
import DocumentQuery.Proofs.Selection.Expressible
import DocumentQuery.Proofs.Selection.Grammar
import DocumentQuery.Proofs.Selection.Fault
import DocumentQuery.Proofs.Selection.Shape
import DocumentQuery.Proofs.Draft.Related
import DocumentQuery.Proofs.Statement.Shape
import DocumentQuery.Proofs.Sql.Grammar
import DocumentQuery.Proofs.Sql.Spelling
import DocumentQuery.Proofs.Draft.Spelling
import DocumentQuery.Proofs.Statement.Grammar
import DocumentQuery.Proofs.Draft.Tokens
import DocumentQuery.Proofs.Statement.Tokens
import DocumentQuery.Proofs.Sql.Rows
import DocumentQuery.Proofs.Draft.Rows
import DocumentQuery.Proofs.Statement.Deletion
import DocumentQuery.Proofs.Statement.Answer
import DocumentQuery.Proofs.Statement.Dialects
import DocumentQuery.Proofs.Draft.Bound
import DocumentQuery.Proofs.Statement.Upsert
import DocumentQuery.Proofs.Statement.Renaming
import DocumentQuery.Proofs.Selection.Explicit
import DocumentQuery.Proofs.Statement.PrimaryKey
import DocumentQuery.Proofs.Statement.Refusal
import DocumentQuery.Proofs.Selection.Membership
import DocumentQuery.Proofs.Draft.NullTests
import DocumentQuery.Proofs.Selection.Nulls
import DocumentQuery.Proofs.Binary64.Rational
import DocumentQuery.Proofs.Clause.Paging
import DocumentQuery.Proofs.Clause.ColumnNames
import DocumentQuery.Proofs.Draft.Text
import DocumentQuery.Proofs.Sql.Counting
import DocumentQuery.Proofs.Statement.Counting
import DocumentQuery.Proofs.Clause.Listing
import DocumentQuery.Proofs.Statement.SelectList
import DocumentQuery.Proofs.Statement.OrderClause
import DocumentQuery.Proofs.Statement.WrittenColumns
import DocumentQuery.Proofs.Configuration
import DocumentQuery.Proofs.Catalog
import DocumentQuery.Proofs.Entries
import DocumentQuery.Proofs.Document
import DocumentQuery.Proofs.Statement.Appending
import DocumentQuery.Proofs.Text.Quoted
import DocumentQuery.Proofs.Parameter
import DocumentQuery.Proofs.Selection.Tagged
