import Polish.Main
import Polish.Proofs.CallTree.Faithful
import Polish.Proofs.CallTree.Pieces
import Polish.Proofs.CommandLine.Report
import Polish.Proofs.Expression.Parenthesised
import Polish.Proofs.Expression.Shown
import Polish.Proofs.Expression.Substitution
import Polish.Proofs.Expression.Trace
import Polish.Proofs.Lexer.Continuation
import Polish.Proofs.CallTree.Counting
import Polish.Proofs.CallTree.Listing
import Polish.Proofs.CallTree.Depth
import Polish.Proofs.Expression.Depth
import Polish.Proofs.ShuntingYard.LastFirst
import Polish.Proofs.ShuntingYard.Waiting
import Polish.Proofs.ShuntingYard.Release
import Polish.Proofs.ShuntingYard.Stack
import Polish.Proofs.Binary64.Spacing
import Polish.Proofs.Binary64.Nearest
import Polish.Proofs.Decimal.Value
import Polish.Proofs.Binary64.Shortest
import Polish.Proofs.Decimal.Digits
import Polish.Proofs.Decimal.PlainNumber
import Polish.Proofs.Binary64.Literal
import Polish.Proofs.Expression.Caret
import Polish.Proofs.Expression.LeadingSpace
import Polish.Proofs.Expression.OrdinaryNumbers
import Polish.Proofs.ShuntingYard.Literals
import Polish.Proofs.Lexer.Records
