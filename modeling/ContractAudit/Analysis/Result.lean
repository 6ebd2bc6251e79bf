import ContractAudit.Report.Record

/-! The result of one analysis: the issues in order, the errors in order and the time. -/

namespace ContractAudit

structure ErrorEntry where
  detector : String
  message : String
deriving DecidableEq, Repr

def ErrorEntry.toValue (e : ErrorEntry) : Value :=
  Record.errorValue (.string e.detector) (.string e.message)

structure Result where
  issues : List Issue
  errors : List ErrorEntry
  time : Binary64
deriving Repr

def Result.record (r : Result) : Record :=
  ⟨r.issues.map Issue.toValue, r.errors.map ErrorEntry.toValue, .float r.time⟩

end ContractAudit
