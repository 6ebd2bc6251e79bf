import ContractAudit.Issue
import ContractAudit.Solidity.Section

/-! Unchecked transfers in Solidity text: functions with `transfer` in their header that make a
low-level call and do not require its success. -/

namespace ContractAudit.Solidity

def isHeader (line : Text) : Bool := line.has "function " && line.has "transfer"

def headerName (line : Text) : Text :=
  (((line.after "function ").before "function ").before "(").trim

/-- The lines of a function body: from the first line with an opening brace to the first line
with a closing brace after which as many braces are closed as were opened. -/
def bodyLines (depth : Int) (inside : Bool) : List Text → List Text
  | [] => []
  | line :: rest =>
    let opened := line.count '{'
    let closed := line.count '}'
    let inside := inside || opened != 0
    let depth := depth + opened - closed
    let more := if closed ≠ 0 ∧ depth = 0 ∧ inside then [] else bodyLines depth inside rest
    if inside then line :: more else more

def callsTransfer (body : Text) : Bool :=
  body.has ".call(" && body.hasAny ["transfer(", "transferFrom("]

def requiresSuccess (body : Text) : Bool :=
  body.hasAny ["(bool", "success"] && body.has "require"

def isTransferCall (line : Text) : Bool := line.has ".call(" && line.has "transfer"

/-- The issue of the function whose header is the first of the given lines. `line` is the number
of the header, and places count from it along the body. -/
def headerIssue? (line : Int) (header : Text) (rest : List Text) : Option Issue :=
  let name := headerName header
  let lines := bodyLines 0 false (header :: rest)
  let body := lines.flatMap (· ++ ['\n'])
  if name ≠ [] ∧ callsTransfer body ∧ ¬ requiresSuccess body then
    match lines.findIdx? isTransferCall with
    | some k =>
      if line + k = 0 then none
      else some {
        kind := "unchecked_transfer"
        severity := .high
        description := "Solidity function '" ++ String.ofList name ++
          "' contains unchecked transfer call. This can lead to silent failures."
        lineStart := line + k
        lineEnd := line + k
        snippet := String.ofList (lines.getD k []).trim
        recommendation := "Check the return value using `(bool success, bytes memory " ++
          "returnData) = ...` and verify success with require." }
    | none => none
  else none

def issuesFrom (line : Int) : List Text → List Issue
  | [] => []
  | header :: rest =>
    (if isHeader header then (headerIssue? line header rest).toList else []) ++
      issuesFrom (line + 1) rest

def transferIssues (code : Text) (startLine : Int) : List Issue :=
  issuesFrom startLine code.lines

def sectionIssues (code : Text) : List Issue :=
  (sections code).flatMap fun s => transferIssues s.code s.startLine

end ContractAudit.Solidity
