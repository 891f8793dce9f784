import Ergo.Argument.CaseText
import Ergo.Argument.Category
import Ergo.Argument.Compiler
import Ergo.Argument.CuratedCase
import Ergo.Argument.Definitions
import Ergo.Argument.Pattern
import Ergo.Argument.Shapes
import Ergo.Argument.Translation
import Ergo.Constraint.Basic
import Ergo.Constraint.Calculation
import Ergo.Constraint.Equation
import Ergo.Constraint.Printer
import Ergo.Constraint.Reader
import Ergo.Constraint.Solver
import Ergo.Engine
import Ergo.English.Headword
import Ergo.English.Lexicon
import Ergo.English.NamedEntity
import Ergo.English.Naming
import Ergo.English.Negation
import Ergo.English.PartOfSpeech
import Ergo.English.Sentence
import Ergo.English.Tagging
import Ergo.English.Tokens
import Ergo.English.Toolkit
import Ergo.English.Triple
import Ergo.English.Vocabulary
import Ergo.Formula.Basic
import Ergo.Formula.Expansion
import Ergo.Formula.Names
import Ergo.Formula.NegationNormal
import Ergo.Formula.Printer
import Ergo.Formula.Reader
import Ergo.Formula.Skolem
import Ergo.Formula.Substitution
import Ergo.FreshName
import Ergo.Ground.Facts
import Ergo.Ground.Search
import Ergo.Ground.Sentence
import Ergo.Ground.Solver
import Ergo.Json.Basic
import Ergo.Json.Printer
import Ergo.Json.Reader
import Ergo.Json.Token
import Ergo.Language.Comparison
import Ergo.Language.Expression
import Ergo.Language.Grammar
import Ergo.Language.Keyword
import Ergo.Language.ParseError
import Ergo.Language.Token
import Ergo.Linear.Elimination
import Ergo.Linear.Row
import Ergo.NameSet
import Ergo.Program.Basic
import Ergo.Program.Json
import Ergo.Program.Reader
import Ergo.Proof.Basic
import Ergo.Proof.Refutation
import Ergo.Quantity.Basic
import Ergo.Quantity.Bounded
import Ergo.Quantity.Printer
import Ergo.Quantity.Reader
import Ergo.Quantity.Simplify
import Ergo.RelationStore
import Ergo.Session.Basic
import Ergo.Session.Request
import Ergo.Settings.Basic
import Ergo.Settings.Json
import Ergo.Text.Alphanumeric
import Ergo.Text.CaseMapping
import Ergo.Text.CodePoint
import Ergo.Text.LetterCase
import Ergo.Text.Words
import Ergo.Theory.Basic
import Ergo.Theory.WellFormed
import Ergo.Verdict
import Ergo.Proofs.Argument.Acceptance
import Ergo.Proofs.Argument.KeyWords
import Ergo.Proofs.Argument.Matching
import Ergo.Proofs.Argument.Predication
import Ergo.Proofs.Argument.Provenance
import Ergo.Proofs.Argument.Quantification
import Ergo.Proofs.Argument.Registration
import Ergo.Proofs.Argument.Repetition
import Ergo.Proofs.Argument.StatedRelations
import Ergo.Proofs.Argument.TransitiveCases
import Ergo.Proofs.Argument.WrittenForm
import Ergo.Proofs.Constraint.WrittenForm
import Ergo.Proofs.English.Impairment
import Ergo.Proofs.English.StableNames
import Ergo.Proofs.English.Tokens
import Ergo.Proofs.ErrorPositions
import Ergo.Proofs.Formula.Exactness
import Ergo.Proofs.Formula.SkolemForm
import Ergo.Proofs.Program.Reading
import Ergo.Proofs.Quantity.Bounded
import Ergo.Proofs.Quantity.Linear
import Ergo.Proofs.Quantity.NormalForm
import Ergo.Proofs.Refutation.Countermodel
import Ergo.Proofs.Refutation.Invention
import Ergo.Proofs.Refutation.SortDiscipline
import Ergo.Proofs.Refutation.Soundness
import Ergo.Proofs.Refutation.Universal
import Ergo.Proofs.Session.Agreement
import Ergo.Proofs.Session.Batches
import Ergo.Proofs.Session.Boards
import Ergo.Proofs.Session.DeclaredNames
import Ergo.Proofs.Session.Linearization
import Ergo.Proofs.Session.Restoration
import Ergo.Proofs.Session.Runs
import Ergo.Proofs.Theory.Attempts
import Ergo.Proofs.Theory.Execution
