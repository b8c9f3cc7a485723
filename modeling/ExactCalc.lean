import ExactCalc.Expr.Written
import ExactCalc.Main
import ExactCalc.Sample
import ExactCalc.Proofs.ArgumentList.Items
import ExactCalc.Proofs.ArgumentList.RoundTrip
import ExactCalc.Proofs.Command.Places
import ExactCalc.Proofs.Command.Registry
import ExactCalc.Proofs.Console.Lines
import ExactCalc.Proofs.Console.Transcript
import ExactCalc.Proofs.Effect
import ExactCalc.Proofs.Lexeme.Cut
import ExactCalc.Proofs.Lexeme.Line
import ExactCalc.Proofs.Lexeme.Meaning
import ExactCalc.Proofs.Lexeme.Numbers
import ExactCalc.Proofs.Lexeme.Replacement
import ExactCalc.Proofs.Lexeme.Slice
import ExactCalc.Proofs.Lexeme.Spelling
import ExactCalc.Proofs.Lexeme.Words
import ExactCalc.Proofs.Numeral.Correspondence
import ExactCalc.Proofs.Numeral.Display
import ExactCalc.Proofs.Numeral.Grammar
import ExactCalc.Proofs.Numeral.Integer
import ExactCalc.Proofs.Numeral.Literal
import ExactCalc.Proofs.Numeral.Places
import ExactCalc.Proofs.Numeral.Positional
import ExactCalc.Proofs.Numeral.Shape
import ExactCalc.Proofs.Numeral.Style
import ExactCalc.Proofs.Reading.Alternation
import ExactCalc.Proofs.Reading.Completeness
import ExactCalc.Proofs.Reading.Defects
import ExactCalc.Proofs.Reading.Evaluation
import ExactCalc.Proofs.Reading.Expressed
import ExactCalc.Proofs.Reading.Filling
import ExactCalc.Proofs.Reading.Indentation
import ExactCalc.Proofs.Reading.Layout
import ExactCalc.Proofs.Reading.Loads
import ExactCalc.Proofs.Reading.Negations
import ExactCalc.Proofs.Reading.Parentheses
import ExactCalc.Proofs.Reading.Places
import ExactCalc.Proofs.Reading.Relocation
import ExactCalc.Proofs.Reading.Replacement
import ExactCalc.Proofs.Reading.Row
import ExactCalc.Proofs.Reading.Soundness
import ExactCalc.Proofs.Reading.Standing
import ExactCalc.Proofs.Reading.Subtrees
import ExactCalc.Proofs.Reading.Transport
import ExactCalc.Proofs.Reading.Valueless
import ExactCalc.Proofs.Result
import ExactCalc.Proofs.Root.Accuracy
import ExactCalc.Proofs.Root.BelowOne
import ExactCalc.Proofs.Root.Divisors
import ExactCalc.Proofs.Root.Exponents
import ExactCalc.Proofs.Root.GridFloor
import ExactCalc.Proofs.Root.IntegerSearch
import ExactCalc.Proofs.Root.Loops
import ExactCalc.Proofs.Root.Newton
import ExactCalc.Proofs.Root.OddRoots
import ExactCalc.Proofs.Root.PerfectPowers
import ExactCalc.Proofs.Root.Rounding
import ExactCalc.Proofs.Root.Ways
import ExactCalc.Proofs.Sample.Agreement
import ExactCalc.Proofs.Sample.Draws
import ExactCalc.Proofs.Session.Arguments
import ExactCalc.Proofs.Session.Blame
import ExactCalc.Proofs.Session.Blanks
import ExactCalc.Proofs.Session.Commands
import ExactCalc.Proofs.Session.Failure
import ExactCalc.Proofs.Session.Indentation
import ExactCalc.Proofs.Session.Marks
import ExactCalc.Proofs.Session.Noninterference
import ExactCalc.Proofs.Session.Outcome
import ExactCalc.Proofs.Session.Ownership
import ExactCalc.Proofs.Session.Purging
import ExactCalc.Proofs.Session.ReadBack
import ExactCalc.Proofs.Session.Refusals
import ExactCalc.Proofs.Session.Relocation
import ExactCalc.Proofs.Session.Replacement
import ExactCalc.Proofs.Session.StoreLaw
import ExactCalc.Proofs.Session.Writes
import ExactCalc.Proofs.Settings.Validity
