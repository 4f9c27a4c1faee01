import Formwork.Value

/-!
Advisory findings, and the advisory outcome of a field.
-/

namespace Formwork

/-- Errors block a submission; warnings and hints are only shown. -/
inductive Severity
  | error
  | warning
  | info
deriving DecidableEq, Repr

namespace Severity

def all : List Severity := [error, warning, info]

def name : Severity → String
  | error => "error"
  | warning => "warning"
  | info => "info"

end Severity

structure Finding where
  severity : Severity
  message : String
  confidence : Number
  code : String := ""
  field : Option String := none
deriving DecidableEq, Repr

namespace Finding

def toValue (f : Finding) : Value :=
  .record [("severity", .text f.severity.name), ("message", .text f.message),
    ("confidence", .number f.confidence), ("code", .text f.code), ("field", .ofText? f.field)]

def isError (f : Finding) : Bool := f.severity = .error

/-- The greatest confidence, the first of equals. -/
def greatestConfidence? : List Finding → Option Number
  | [] => none
  | f :: fs => some (fs.foldl
      (fun best g => if best.lt g.confidence then g.confidence else best) f.confidence)

def totalConfidence (fs : List Finding) : Number :=
  fs.foldl (fun (sum : Number) f => sum.add f.confidence) (.int 0)

def meanConfidence? (fs : List Finding) : Option Binary64 :=
  if fs.isEmpty then none else some ((totalConfidence fs).divNat fs.length)

end Finding

inductive AdvisoryStatus
  | idle
  | pending
  | resolved
deriving DecidableEq, Repr

namespace AdvisoryStatus

def all : List AdvisoryStatus := [idle, pending, resolved]

def name : AdvisoryStatus → String
  | idle => "idle"
  | pending => "pending"
  | resolved => "resolved"

end AdvisoryStatus

structure AdvisoryOutcome where
  status : AdvisoryStatus := .idle
  findings : List Finding := []
deriving DecidableEq, Repr

namespace AdvisoryOutcome

def hasErrors (o : AdvisoryOutcome) : Bool := o.findings.any Finding.isError

def toValue (o : AdvisoryOutcome) : Value :=
  .record [("status", .text o.status.name), ("findings", .list (o.findings.map Finding.toValue))]

end AdvisoryOutcome

end Formwork
