import GraphQuery.Conditional
import GraphQuery.Proofs.Text.Spans
import GraphQuery.Proofs.Merging.Binding
import GraphQuery.Proofs.Merging.Delivery
import GraphQuery.Proofs.Number.Shortest
import GraphQuery.Proofs.Rendering.Expr
import GraphQuery.Proofs.Rendering.Fragment
import GraphQuery.Proofs.Rendering.Draws
import GraphQuery.Proofs.Number.Decimal
import GraphQuery.Proofs.Number.ReadBack
import GraphQuery.Proofs.Reading.Expr
import GraphQuery.Proofs.Rendering.Edited
import GraphQuery.Proofs.Quoting.Quotations
import GraphQuery.Proofs.Quoting.Spans
import GraphQuery.Proofs.Rendering.Line
import GraphQuery.Proofs.Rendering.Scope
import GraphQuery.Proofs.Merging.Compiling
import GraphQuery.Proofs.Renaming.Syntax
import GraphQuery.Proofs.Renaming.Text
import GraphQuery.Proofs.Merging.Text
import GraphQuery.Proofs.Layout.Balance
import GraphQuery.Proofs.Layout.Inline
import GraphQuery.Proofs.Layout.Levels
import GraphQuery.Proofs.Layout.Lines
import GraphQuery.Proofs.Renaming.Inverse
import GraphQuery.Proofs.Rendering.Selectors
import GraphQuery.Proofs.Layout.Unions
import GraphQuery.Proofs.Rendering.Routing
import GraphQuery.Proofs.Binding.Matching
import GraphQuery.Proofs.Building.Nested
import GraphQuery.Proofs.Compiling.Declared
import GraphQuery.Proofs.Building.WellFormed
import GraphQuery.Proofs.Words.Bare
import GraphQuery.Proofs.Words.Numerals
import GraphQuery.Proofs.Words.Classified
import GraphQuery.Proofs.Binding.Laws
import GraphQuery.Proofs.Binding.Renamed
import GraphQuery.Proofs.Merging.Rebinding
import GraphQuery.Proofs.Merging.Agreement
import GraphQuery.Proofs.Merging.Refusals
import GraphQuery.Proofs.Sameness.Keys
import GraphQuery.Proofs.Sameness.Placeholders
import GraphQuery.Proofs.Sameness.Columns
import GraphQuery.Proofs.Sameness.Congruence
import GraphQuery.Proofs.Kinds.Fitting
import GraphQuery.Proofs.Binding.Payload
import GraphQuery.Proofs.Reading.Path
import GraphQuery.Proofs.Quoting.Doubling
import GraphQuery.Proofs.Naming.Numbering
import GraphQuery.Proofs.Naming.History
import GraphQuery.Proofs.Reporting.Events
import GraphQuery.Proofs.Building.Declarations
