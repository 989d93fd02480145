import ComponentLint.Config.Basic
import ComponentLint.Config.Options
import ComponentLint.Config.Reader
import ComponentLint.Diagnostic.Basic
import ComponentLint.Diagnostic.Fixes
import ComponentLint.Diagnostic.Template
import ComponentLint.Files.Probe
import ComponentLint.Files.Tree
import ComponentLint.Json.Data
import ComponentLint.Json.Reader
import ComponentLint.Json.Value
import ComponentLint.Json.Writer
import ComponentLint.Naming.Arrays
import ComponentLint.Naming.Words
import ComponentLint.Number.Double
import ComponentLint.Number.Notation
import ComponentLint.Number.Shortest
import ComponentLint.Path
import ComponentLint.Proofs.AccessFixes
import ComponentLint.Proofs.AccessPaths
import ComponentLint.Proofs.AccessReports
import ComponentLint.Proofs.AnnotationLayout
import ComponentLint.Proofs.AnnotationScan
import ComponentLint.Proofs.ArrayForms
import ComponentLint.Proofs.BalancedTexts
import ComponentLint.Proofs.BracketScan
import ComponentLint.Proofs.ByteScans
import ComponentLint.Proofs.CallDeletion
import ComponentLint.Proofs.ComponentExports
import ComponentLint.Proofs.CompoundSelectors
import ComponentLint.Proofs.ConfigFaults
import ComponentLint.Proofs.ConfigTexts
import ComponentLint.Proofs.Configured
import ComponentLint.Proofs.ContainerNameReports
import ComponentLint.Proofs.Decimals
import ComponentLint.Proofs.DeclaredTypes
import ComponentLint.Proofs.DeletionOrder
import ComponentLint.Proofs.EffectReports
import ComponentLint.Proofs.Failures
import ComponentLint.Proofs.FixOrder
import ComponentLint.Proofs.ImportReports
import ComponentLint.Proofs.Independence
import ComponentLint.Proofs.IndexTexts
import ComponentLint.Proofs.JsonGrammar
import ComponentLint.Proofs.JsonShapes
import ComponentLint.Proofs.JsonTexts
import ComponentLint.Proofs.Located
import ComponentLint.Proofs.MessageTexts
import ComponentLint.Proofs.MissingMembers
import ComponentLint.Proofs.NearestDoubles
import ComponentLint.Proofs.Nesting
import ComponentLint.Proofs.NumeralTexts
import ComponentLint.Proofs.OptionShapes
import ComponentLint.Proofs.OwnSelectors
import ComponentLint.Proofs.Parentheses
import ComponentLint.Proofs.ParsedOptions
import ComponentLint.Proofs.Places
import ComponentLint.Proofs.PositionalNotation
import ComponentLint.Proofs.ReceiverParentheses
import ComponentLint.Proofs.Repeats
import ComponentLint.Proofs.Rounding
import ComponentLint.Proofs.RuleNames
import ComponentLint.Proofs.Runs
import ComponentLint.Proofs.SelectorKeys
import ComponentLint.Proofs.SelectorLists
import ComponentLint.Proofs.SelectorReports
import ComponentLint.Proofs.SelectorResidue
import ComponentLint.Proofs.SharedContext
import ComponentLint.Proofs.StableOrder
import ComponentLint.Proofs.StyleModules
import ComponentLint.Proofs.StyleNameReports
import ComponentLint.Proofs.Targets
import ComponentLint.Proofs.TextBytes
import ComponentLint.Proofs.TreeEdits
import ComponentLint.Proofs.Trimming
import ComponentLint.Proofs.TypeChains
import ComponentLint.Proofs.TypeEdges
import ComponentLint.Proofs.TypeGrammar
import ComponentLint.Proofs.TypeVerdicts
import ComponentLint.Proofs.UnionTexts
import ComponentLint.Proofs.WrittenTargets
import ComponentLint.Proofs.WrittenUnions
import ComponentLint.Rule.ArrayAccess
import ComponentLint.Rule.Basic
import ComponentLint.Rule.ChildSelectors
import ComponentLint.Rule.ComponentNames
import ComponentLint.Rule.ContainerNames
import ComponentLint.Rule.Context
import ComponentLint.Rule.EffectComments
import ComponentLint.Rule.SourceFile
import ComponentLint.Rule.StyleImports
import ComponentLint.Rule.StyleNames
import ComponentLint.RuleSet
import ComponentLint.Run
import ComponentLint.Script.Dialect
import ComponentLint.Script.Lexer
import ComponentLint.Script.Lexer.Escape
import ComponentLint.Script.Lexer.Numeral
import ComponentLint.Script.Lexer.Quoted
import ComponentLint.Script.Lexer.Trivia
import ComponentLint.Script.Parser
import ComponentLint.Script.Parser.Basic
import ComponentLint.Script.Parser.Binding
import ComponentLint.Script.Parser.Expression
import ComponentLint.Script.Parser.Function
import ComponentLint.Script.Parser.Grammar
import ComponentLint.Script.Parser.Markup
import ComponentLint.Script.Parser.Modifier
import ComponentLint.Script.Parser.Module
import ComponentLint.Script.Parser.Statement
import ComponentLint.Script.Parser.Types
import ComponentLint.Script.Scope
import ComponentLint.Script.Shape
import ComponentLint.Script.Target
import ComponentLint.Script.Token
import ComponentLint.Script.Tree
import ComponentLint.Script.Walk
import ComponentLint.Selector
import ComponentLint.Span
import ComponentLint.Text.Affix
import ComponentLint.Text.Blank
import ComponentLint.Text.HiddenRanges
import ComponentLint.Text.NameRanges
import ComponentLint.Text.Quoted
import ComponentLint.Text.Ranges
import ComponentLint.Text.Word
import ComponentLint.Types.Annotation
import ComponentLint.Types.Query
