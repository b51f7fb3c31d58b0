import UzScript.Directory
import UzScript.Evaluation.Outline
import UzScript.Main
import UzScript.Proofs.Erasure
import UzScript.Proofs.Grammar
import UzScript.Proofs.ParserRuns
import UzScript.Proofs.ExpressionRecognition
import UzScript.Proofs.ProgramRecognition
import UzScript.Proofs.PrintedTokens
import UzScript.Proofs.WrittenTokens
import UzScript.Proofs.PrintedText
import UzScript.Proofs.RoundTrip
import UzScript.Proofs.Allowances
import UzScript.Proofs.Frames
import UzScript.Proofs.Lockstep
import UzScript.Proofs.Positions
import UzScript.Proofs.Tiling
import UzScript.Proofs.Prediction
import UzScript.Proofs.EarliestFault
import UzScript.Proofs.Placement
import UzScript.Proofs.FaultPlaces
import UzScript.Proofs.JoinedScripts
import UzScript.Proofs.SessionFaults
import UzScript.Proofs.LongestMatch
import UzScript.Proofs.Stepping
import UzScript.Proofs.Termination
import UzScript.Proofs.TreeHeight
import UzScript.Proofs.Resemblance
import UzScript.Proofs.VisibleBindings
import UzScript.Proofs.DeadCode
import UzScript.Proofs.TextOrigins
import UzScript.Proofs.Relocation
import UzScript.Proofs.BuiltinSum
import UzScript.Proofs.ExactArithmetic
import UzScript.Proofs.GuardedSessions
import UzScript.Proofs.NodePlaces
import UzScript.Proofs.Excerpts
import UzScript.Proofs.BalancedBrackets
import UzScript.Proofs.OperationRuns
import UzScript.Proofs.OperationPlaces
import UzScript.Proofs.SpacedTokens
import UzScript.Proofs.MarkedEnds
import UzScript.Proofs.RepeatedReading
import UzScript.Proofs.PrintedLiterals
import UzScript.Proofs.Utf8Encoding
import UzScript.Proofs.RunFlags
import UzScript.Proofs.LoopRuns
import UzScript.Proofs.LexemeWindow
import UzScript.Proofs.ParserOperations
import UzScript.Proofs.StackDiscipline
