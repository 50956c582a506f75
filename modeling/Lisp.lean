import Lisp.Text.Class
import Lisp.Text.Printable
import Lisp.Text.Upper
import Lisp.Number.Binary
import Lisp.Number.Decimal
import Lisp.Number.Layout
import Lisp.Number
import Lisp.Number.Arithmetic
import Lisp.Operator
import Lisp.Expr
import Lisp.Reader.Cursor
import Lisp.Reader.Fault
import Lisp.Reader.Token
import Lisp.Reader
import Lisp.Literal
import Lisp.Printer
import Lisp.Table
import Lisp.Env
import Lisp.Eval.Outcome
import Lisp.Eval.Forms
import Lisp.Eval
import Lisp.Session
import Lisp.Path
import Lisp.History
import Lisp.Settings
import Lisp.Log
import Lisp.Options
import Lisp.Folder
import Lisp.Console
import Lisp.Main
import Lisp.Proofs.Binding
import Lisp.Proofs.Effect
import Lisp.Proofs.Closure
import Lisp.Proofs.Lockstep
import Lisp.Proofs.Limit
import Lisp.Proofs.Growth
import Lisp.Proofs.Grammar
import Lisp.Proofs.Word
import Lisp.Proofs.Numeral
import Lisp.Proofs.Literal
import Lisp.Proofs.Parsing
import Lisp.Proofs.Digits
import Lisp.Proofs.Acceptance
import Lisp.Proofs.Rounding
import Lisp.Proofs.Shortest
import Lisp.Proofs.Double
import Lisp.Proofs.Layout
import Lisp.Proofs.RoundTrip
import Lisp.Proofs.Transcript
import Lisp.Proofs.Unbroken
import Lisp.Proofs.Replies
import Lisp.Proofs.Listing
import Lisp.Proofs.Padding
import Lisp.Proofs.Extension
import Lisp.Proofs.Overflow
import Lisp.Proofs.Decoding
import Lisp.Proofs.Calls
import Lisp.Proofs.Alias
import Lisp.Proofs.Operation
import Lisp.Proofs.Operands
import Lisp.Proofs.Exactness
import Lisp.Proofs.Formula
import Lisp.Proofs.Completion
import Lisp.Proofs.Ahead
import Lisp.Proofs.Scan
import Lisp.Proofs.Progress
