import CucumberExpressions.Main
import CucumberExpressions.Proofs.Acceptance
import CucumberExpressions.Proofs.Agreement
import CucumberExpressions.Proofs.CommandLine.Choice
import CucumberExpressions.Proofs.CommandLine.Verbose
import CucumberExpressions.Proofs.Concatenation
import CucumberExpressions.Proofs.Diagnostic
import CucumberExpressions.Proofs.Dump
import CucumberExpressions.Proofs.EditorPosition
import CucumberExpressions.Proofs.Encoding
import CucumberExpressions.Proofs.ExitStatus
import CucumberExpressions.Proofs.ExpressionList
import CucumberExpressions.Proofs.Json.Grammar
import CucumberExpressions.Proofs.Json.Layout
import CucumberExpressions.Proofs.Json.Reader
import CucumberExpressions.Proofs.Json.Scalar
import CucumberExpressions.Proofs.Locality
import CucumberExpressions.Proofs.Precedence
import CucumberExpressions.Proofs.Quoted
import CucumberExpressions.Proofs.Recovery
import CucumberExpressions.Proofs.Report
import CucumberExpressions.Proofs.Report.Lossless
import CucumberExpressions.Proofs.Requests
import CucumberExpressions.Proofs.Resolution
import CucumberExpressions.Proofs.RoundTrip
import CucumberExpressions.Proofs.Scanner.Bookkeeping
import CucumberExpressions.Proofs.Scanner.Course
import CucumberExpressions.Proofs.Scanner.Pool
import CucumberExpressions.Proofs.Session
import CucumberExpressions.Proofs.Status
import CucumberExpressions.Proofs.TwoPhases
import CucumberExpressions.Scanner.Pool
import CucumberExpressions.Session
