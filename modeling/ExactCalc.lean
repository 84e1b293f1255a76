import ExactCalc.Main
import ExactCalc.Proofs.Chain.Phrase
import ExactCalc.Proofs.Chain.Balance
import ExactCalc.Proofs.Chain.Parsing
import ExactCalc.Proofs.Chain.Sentences
import ExactCalc.Proofs.Chain.RoundTrip
import ExactCalc.Proofs.Evaluation.Outcome
import ExactCalc.Proofs.Grammar.Derivation
import ExactCalc.Proofs.Grammar.Denotation
import ExactCalc.Proofs.Evaluation.Precedence
import ExactCalc.Proofs.Decimal.Value
import ExactCalc.Proofs.Decimal.ExactArithmetic
import ExactCalc.Proofs.Decimal.ExactDivision
import ExactCalc.Proofs.Decimal.ExactReading
import ExactCalc.Proofs.Evaluation.Exactness
import ExactCalc.Proofs.Evaluation.Rewriting
import ExactCalc.Proofs.Decimal.LiteralReading
import ExactCalc.Proofs.Evaluation.Literal
import ExactCalc.Proofs.Decimal.Bounds
import ExactCalc.Proofs.Decimal.SignedZero
import ExactCalc.Proofs.Decimal.RoundTrip
import ExactCalc.Proofs.Evaluation.Bounds
import ExactCalc.Proofs.Evaluation.SignedZero
import ExactCalc.Proofs.Evaluation.Replacement
import ExactCalc.Proofs.Evaluation.GroupValue
import ExactCalc.Proofs.Reading
import ExactCalc.Proofs.Chain.ViablePrefix
import ExactCalc.Proofs.Chain.Unbalanced
import ExactCalc.Proofs.Chain.Mirror
import ExactCalc.Proofs.Evaluation.Misplaced
import ExactCalc.Proofs.Evaluation.SyntaxFirst
import ExactCalc.Proofs.Evaluation.Marker
import ExactCalc.Proofs.Evaluation.Account
import ExactCalc.Proofs.Evaluation.Parts
import ExactCalc.Proofs.Evaluation.Composition
import ExactCalc.Proofs.Evaluation.Replay
import ExactCalc.Proofs.Evaluation.Transcript
import ExactCalc.Proofs.CommandLine.Answer
import ExactCalc.Proofs.Evaluation.PrintedValue
import ExactCalc.Proofs.Decimal.Turned
import ExactCalc.Proofs.Grammar.Continuation
import ExactCalc.Proofs.Evaluation.HeadMinus
import ExactCalc.Proofs.Evaluation.LooserLimits
import ExactCalc.Proofs.Window.Coherence
import ExactCalc.Proofs.Window.IdleFrames
import ExactCalc.Proofs.Window.LineAgreement
import ExactCalc.Proofs.Decimal.NearestEven
import ExactCalc.Proofs.Decimal.RoundedDivision
import ExactCalc.Proofs.Decimal.CorrectRounding
import ExactCalc.Proofs.Evaluation.KeptProperty
import ExactCalc.Proofs.CommandLine.Logging
import ExactCalc.Proofs.CommandLine.Switches
import ExactCalc.Proofs.CommandLine.Intake
import ExactCalc.Proofs.CommandLine.Interleaving
import ExactCalc.Proofs.Token.Lossless
import ExactCalc.Proofs.Text.Trimming
import ExactCalc.Proofs.Window.SurroundingBlanks
import ExactCalc.Proofs.Decimal.KeptDecimals
import ExactCalc.Proofs.Evaluation.AccountText
import ExactCalc.Proofs.Window.Effects
import ExactCalc.Proofs.Evaluation.KeptDecimals
import ExactCalc.Proofs.CommandLine.Independence
