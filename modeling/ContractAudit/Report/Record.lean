import ContractAudit.Issue
import ContractAudit.Value.Access

/-! The record of an analysis as reports see it: issues and errors are dictionaries, and a field
may hold any value. -/

namespace ContractAudit

structure Record where
  issues : List Value
  errors : List Value
  time : Value
deriving Repr

namespace Record

def empty : Record := ⟨[], [], .int 0⟩

def issueValue (kind severity description lineStart lineEnd snippet recommendation : Value) :
    Value :=
  .object [("type", kind), ("severity", severity), ("description", description),
    ("line_start", lineStart), ("line_end", lineEnd), ("code_snippet", snippet),
    ("recommendation", recommendation)]

def errorValue (detector message : Value) : Value :=
  .object [("detector", detector), ("message", message)]

def addIssue (r : Record) (issue : Value) : Record := { r with issues := r.issues ++ [issue] }

def addError (r : Record) (error : Value) : Record := { r with errors := r.errors ++ [error] }

def hasIssues (r : Record) : Bool := !r.issues.isEmpty

def hasErrors (r : Record) : Bool := !r.errors.isEmpty

/-- The dictionary of a record as it reads later on: it shares the lists with the record, which
may have grown, while the count and the time are those of the moment when it was made. -/
def sharedValue (made later : Record) : Value :=
  .object [("issues", .list later.issues), ("total_issues", .int made.issues.length),
    ("errors", .list later.errors), ("analysis_time_seconds", made.time)]

def toValue (r : Record) : Value := sharedValue r r

end Record

def Issue.toValue (i : Issue) : Value :=
  Record.issueValue (.string i.kind) (.string i.severity.name) (.string i.description)
    (.int i.lineStart) (.int i.lineEnd) (.string i.snippet) (.string i.recommendation)

end ContractAudit
