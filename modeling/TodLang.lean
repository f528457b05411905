import TodLang.Main
import TodLang.Proofs.Source.Slice
import TodLang.Proofs.Token.Tiling
import TodLang.Proofs.Grammar.Spelling
import TodLang.Proofs.Grammar.Reads
import TodLang.Proofs.Grammar.Expression
import TodLang.Proofs.Grammar.Soundness
import TodLang.Proofs.Token.Respelling
import TodLang.Proofs.Token.Dialect
import TodLang.Proofs.Token.Scanned
import TodLang.Proofs.Token.TextLiteral
import TodLang.Proofs.Token.QuotedText
import TodLang.Proofs.Token.NumberLiteral
import TodLang.Proofs.Tree.Written
import TodLang.Proofs.Grammar.Layout
import TodLang.Proofs.Grammar.Lockstep
import TodLang.Proofs.Grammar.Outcome
import TodLang.Proofs.Grammar.TypeReadings
import TodLang.Proofs.Grammar.PartReadings
import TodLang.Proofs.Grammar.ExpressionReadings
import TodLang.Proofs.Grammar.Reread
import TodLang.Proofs.Grammar.RereadExpression
import TodLang.Proofs.Grammar.RereadProgram
import TodLang.Proofs.Grammar.Legible
import TodLang.Proofs.Grammar.Stability
import TodLang.Proofs.Grammar.Readings
import TodLang.Proofs.Grammar.Insertion
import TodLang.Proofs.Grammar.InsertionExpression
import TodLang.Proofs.Grammar.InsertionProgram
import TodLang.Proofs.Grammar.Extent
import TodLang.Proofs.Grammar.Stops
import TodLang.Proofs.Grammar.Semicolons
import TodLang.Proofs.Grammar.Comments
import TodLang.Proofs.Symbol.Fingerprint
import TodLang.Proofs.Tree.Node
import TodLang.Proofs.Tree.Nesting
import TodLang.Proofs.Tree.Siblings
import TodLang.Proofs.Tree.Lexical
import TodLang.Proofs.Grammar.TypeText
import TodLang.Proofs.Tree.Structures
import TodLang.Proofs.Binding.Lexical
import TodLang.Proofs.Binding.Agreement
import TodLang.Proofs.Binding.Answers
import TodLang.Proofs.Binding.Resolution
import TodLang.Proofs.Binding.References
import TodLang.Proofs.Binding.Outcome
import TodLang.Proofs.Binding.Sites
import TodLang.Proofs.Binding.Stages
import TodLang.Proofs.Binding.Accepted
import TodLang.Proofs.Binding.Unresolved
import TodLang.Proofs.Binding.Placement
import TodLang.Proofs.Binding.Order
import TodLang.Proofs.Binding.Numbers
import TodLang.Proofs.Binding.Variables
import TodLang.Proofs.Binding.Alike
import TodLang.Proofs.Binding.Correspondence
import TodLang.Proofs.Binding.Permutation
import TodLang.Proofs.Binding.Hiding
import TodLang.Proofs.Binding.Reordering
import TodLang.Grammar.Cursor
import TodLang.Grammar.Steps
import TodLang.Proofs.Token.Joined
import TodLang.Proofs.Token.Spaced
import TodLang.Tree.Relocation
import TodLang.Proofs.Grammar.Congruence
import TodLang.Proofs.Grammar.Files
import TodLang.Proofs.Symbol.Mapping
import TodLang.Proofs.Binding.Relocation
import TodLang.Proofs.Binding.RelocatedProgram
import TodLang.Proofs.Binding.Issuing
import TodLang.Proofs.Binding.Origin
import TodLang.Proofs.Binding.Places
import TodLang.Proofs.Binding.PackageCalls
import TodLang.Proofs.Session.Run
import TodLang.Proofs.Session.Unreadable
import TodLang.Proofs.Session.Numbers
import TodLang.Proofs.Session.Exports
import TodLang.Proofs.Cursor.Ending
import TodLang.Proofs.Cursor.Layout
import TodLang.Proofs.Cursor.Progress
import TodLang.Proofs.Grammar.Chain
import TodLang.Proofs.Cursor.Outcome
import TodLang.Proofs.Cursor.Chain
import TodLang.Proofs.Cursor.Bracket
import TodLang.Proofs.Grammar.Everywhere
import TodLang.Proofs.Grammar.LeftParts
import TodLang.Proofs.Tree.Render
import TodLang.Proofs.Tree.Dump
import TodLang.Proofs.Grammar.Qualified
import TodLang.Proofs.Binding.Bodies
import TodLang.Proofs.Binding.Outside
import TodLang.Proofs.Binding.MainNames
import TodLang.Proofs.Binding.Occurrences
import TodLang.Proofs.Binding.Assignments
import TodLang.Proofs.Binding.Calls
import TodLang.Proofs.Binding.CallTypes
import TodLang.Proofs.Binding.Fields
import TodLang.Proofs.Binding.Firsts
import TodLang.Proofs.Binding.Doubles
import TodLang.Proofs.Binding.Regions
import TodLang.Proofs.Binding.ProgramRegion
import TodLang.Proofs.Binding.Locals
import TodLang.Proofs.Binding.SymbolDump
import TodLang.Proofs.Binding.TypeSources
import TodLang.Proofs.Binding.TypeFunctions
import TodLang.Proofs.Symbol.Queries
import TodLang.Proofs.Binding.TypeMeaning
import TodLang.Proofs.Source.Lines
import TodLang.Proofs.Token.Beginnings
import TodLang.Proofs.Diagnostic.Rows
import TodLang.Proofs.Diagnostic.Underline
import TodLang.Proofs.Grammar.Kept
import TodLang.Proofs.Binding.FaultPlaces
import TodLang.Proofs.Diagnostic.Shown
import TodLang.Proofs.Symbol.Signature
import TodLang.Proofs.Cursor.Attempt
import TodLang.Proofs.Source.Cover
