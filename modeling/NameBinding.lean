import NameBinding.Binary64.Basic
import NameBinding.Binary64.Layout
import NameBinding.Binary64.Shortest
import NameBinding.Expr
import NameBinding.Ids
import NameBinding.Line
import NameBinding.NameTable
import NameBinding.Operator
import NameBinding.Options
import NameBinding.Options.Document
import NameBinding.Options.Setting
import NameBinding.OrderedMap
import NameBinding.Outline.Expression
import NameBinding.Outline.Tree
import NameBinding.Program.Basic
import NameBinding.Program.Bindings
import NameBinding.Program.Build
import NameBinding.Program.BuildError
import NameBinding.Resolve
import NameBinding.Resolve.Bases
import NameBinding.Resolve.Bodies
import NameBinding.Resolve.Diagnostic
import NameBinding.Resolve.Inheritance
import NameBinding.Resolve.Journal
import NameBinding.Resolve.Names
import NameBinding.Resolve.Pass
import NameBinding.Resolve.Report
import NameBinding.Resolve.Switches
import NameBinding.Resolve.Trace
import NameBinding.Scope
import NameBinding.Stmt
import NameBinding.Suggestion
import NameBinding.Symbol
import NameBinding.Text.CombiningMark
import NameBinding.Text.Numeral
import NameBinding.Text.Quoted
import NameBinding.Text.Unprintable
import NameBinding.Walk
import NameBinding.Proofs.BodyScopes
import NameBinding.Proofs.Building
import NameBinding.Proofs.WellFormed
import NameBinding.Proofs.WellFormed.Changes
import NameBinding.Proofs.WellFormed.Operations
import NameBinding.Proofs.Frames
import NameBinding.Proofs.Script
import NameBinding.Proofs.Steps
import NameBinding.Proofs.BaseClasses
import NameBinding.Proofs.FrameRefinement
import NameBinding.Proofs.LexicalResolution
import NameBinding.Proofs.History
import NameBinding.Proofs.Success
import NameBinding.Proofs.MemberTypes
import NameBinding.Proofs.Coverage
import NameBinding.Proofs.Openings
import NameBinding.Proofs.RecordKeys
import NameBinding.Proofs.RecordedScopes
import NameBinding.Proofs.Occurrences
import NameBinding.Proofs.WalkTrails
import NameBinding.Proofs.SwitchRules
import NameBinding.Proofs.FailureErrors
import NameBinding.Proofs.FreeBases
import NameBinding.Proofs.ScopeLayers
import NameBinding.Proofs.BoundTables
import NameBinding.Proofs.Reresolution
import NameBinding.Proofs.Growth
import NameBinding.Proofs.TypeTables
import NameBinding.Proofs.EditDistance
import NameBinding.Proofs.Refusals
import NameBinding.Proofs.ProperTrees
import NameBinding.Proofs.MetExpressions
import NameBinding.Proofs.Checked.Bodies
import NameBinding.Proofs.Checked.Trees
import NameBinding.Proofs.Traversals
import NameBinding.Proofs.AppliedBindings
import NameBinding.Proofs.NearestNames
import NameBinding.Proofs.InheritanceCycles
import NameBinding.Proofs.NearestAncestors
import NameBinding.Proofs.SelectorChains
import NameBinding.Proofs.NamePreservation
import NameBinding.Proofs.ScopeChains
import NameBinding.Proofs.ScopeDeclarations
import NameBinding.Proofs.TreeEquality
import NameBinding.Proofs.LookupMoments
import NameBinding.Proofs.OfferedNames
import NameBinding.Proofs.InternedNames
import NameBinding.Proofs.Numerals
import NameBinding.Proofs.OptionDocuments
import NameBinding.Proofs.QuotedText
import NameBinding.Proofs.ExpressionTrees
import NameBinding.Proofs.ExpressionReading
import NameBinding.Proofs.OutlineLayout
import NameBinding.Proofs.OneLineTexts
import NameBinding.Proofs.Printing
import NameBinding.Proofs.Indentation
