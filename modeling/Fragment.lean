import Fragment.CommandLine.Arguments
import Fragment.CommandLine.Respond
import Fragment.Compilation
import Fragment.CompileError
import Fragment.Data
import Fragment.Data.Json
import Fragment.Declarations
import Fragment.Diagnostic
import Fragment.Double.Binary
import Fragment.Double.Decimal
import Fragment.Double.Functions
import Fragment.Double.Layout
import Fragment.Double.Read
import Fragment.Emit.Context
import Fragment.Emit.Lower
import Fragment.Emit.Names
import Fragment.Emit.Operator
import Fragment.Emit.Scan
import Fragment.Fault
import Fragment.Files
import Fragment.Library
import Fragment.Main
import Fragment.Number
import Fragment.Options
import Fragment.Parameter
import Fragment.Request.Compile
import Fragment.Request.Description
import Fragment.Request.Output
import Fragment.Request.Structure
import Fragment.Source.Automaton
import Fragment.Source.Build
import Fragment.Source.Extent
import Fragment.Source.Grammar
import Fragment.Source.Layout
import Fragment.Source.Lexer
import Fragment.Source.Literal
import Fragment.Source.Parse
import Fragment.Source.Program
import Fragment.Source.References
import Fragment.Source.Sites
import Fragment.Source.Token
import Fragment.Source.Tree
import Fragment.Target.Code
import Fragment.Target.Legality
import Fragment.Target.Machine
import Fragment.Target.Operators
import Fragment.Target.Text
import Fragment.Text.Blank
import Fragment.Text.Case
import Fragment.Text.Digit
import Fragment.Text.Printable
import Fragment.Text.Quoted
import Fragment.Text.Ranges
import Fragment.Text.Search
import Fragment.Typing.Annotation
import Fragment.Typing.Bind
import Fragment.Typing.Checker
import Fragment.Typing.Constant
import Fragment.Typing.Construct
import Fragment.Typing.Expression
import Fragment.Typing.Flags
import Fragment.Typing.Instance
import Fragment.Typing.Member
import Fragment.Typing.Message
import Fragment.Typing.Print
import Fragment.Typing.Queries
import Fragment.Typing.Reachability
import Fragment.Typing.Related
import Fragment.Typing.Result
import Fragment.Typing.State
import Fragment.Typing.Statement
import Fragment.Typing.SymbolType
import Fragment.Value.Access
import Fragment.Value.Arith
import Fragment.Value.Basic
import Fragment.Value.Convert
import Fragment.Value.Equality
import Fragment.Value.Library
import Fragment.Value.Member
import Fragment.Proofs.Arity
import Fragment.Proofs.LegalCode
import Fragment.Proofs.LineBreak
import Fragment.Proofs.Loading
import Fragment.Proofs.RelationCache
import Fragment.Proofs.RelationRefusal
import Fragment.Proofs.RequiredRead
import Fragment.Proofs.RoundTrip
import Fragment.Proofs.Shapes
import Fragment.Proofs.Interning
import Fragment.Proofs.SharedLoads
import Fragment.Proofs.BlockStructure
import Fragment.Proofs.NameSupply
import Fragment.Proofs.ObjectsApart
import Fragment.Proofs.TokensKept
import Fragment.Proofs.AsyncResults
import Fragment.Proofs.Running
import Fragment.Proofs.InlinedConstants
import Fragment.Proofs.ArgumentsKept
import Fragment.Proofs.FoldedConstants
import Fragment.Proofs.Endings
import Fragment.Proofs.ReturnTypes
import Fragment.Proofs.Overloads
import Fragment.Proofs.Replies
import Fragment.Proofs.Comparability
import Fragment.Proofs.UnionParts
import Fragment.Proofs.UnionJoin
import Fragment.Proofs.UnionCalls
import Fragment.Proofs.ObjectLiterals
import Fragment.Proofs.Widening
import Fragment.Proofs.Printing
import Fragment.Proofs.EmissionKept
import Fragment.Proofs.Asking
import Fragment.Proofs.Unmoved
import Fragment.Proofs.Collecting
import Fragment.Proofs.Declaring
import Fragment.Proofs.MergedMembers
import Fragment.Proofs.Filing
import Fragment.Proofs.ArrowMisread
import Fragment.Proofs.LayoutEdits
import Fragment.Proofs.Terminators
import Fragment.Proofs.OperatorBreaks
import Fragment.Proofs.WrittenRoots
import Fragment.Proofs.StoreLaws
import Fragment.Proofs.Temporaries
import Fragment.Proofs.GenericForms
import Fragment.Proofs.NodeNumbers
import Fragment.Proofs.BinderSteps
import Fragment.Proofs.ClosureText
import Fragment.Proofs.RadixDigits
import Fragment.Proofs.EqualityLaws
import Fragment.Proofs.RowReads
import Fragment.Proofs.ConversionFailures
import Fragment.Proofs.WireValues
import Fragment.Proofs.TextPieces
import Fragment.Proofs.LiteralText
import Fragment.Proofs.OptionReading
import Fragment.Proofs.Awaiting
import Fragment.Proofs.EarlyUses
import Fragment.Proofs.Settled
