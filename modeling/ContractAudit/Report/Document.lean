import ContractAudit.Report.Group

/-! The report of one or more records as a document: paragraphs, spaces, tables and page breaks
in order. -/

namespace ContractAudit.Report

inductive Style where
  | title
  | heading
  | subheading
  | normal
  | code
deriving DecidableEq, Repr

def Style.name : Style → String
  | title => "Title"
  | heading => "Heading1"
  | subheading => "Heading2"
  | normal => "Normal"
  | code => "CodeStyle"

inductive Cell where
  | text (s : String)
  | paragraph (style : Style) (s : String)
deriving DecidableEq, Repr

inductive Flowable where
  | paragraph (style : Style) (s : String)
  | space (height : Nat)
  | pageBreak
  | table (rows : List (List Cell))
deriving DecidableEq, Repr

def heightText (tenths : Nat) : String := toString (tenths / 10) ++ "." ++ toString (tenths % 10)

def wideSpace : Flowable := .space 180

def narrowSpace : Flowable := .space 72

def middleSpace : Flowable := .space 144

def plain (s : String) : Flowable := .paragraph .normal s

def severityOrUnknown (issue : Value) : Except Value.Fault Value :=
  issue.getOr "severity" (.string "Unknown")

def textOr (v : Value) (name default : String) : Except Value.Fault String := do
  pure (← v.getOr name (.string default)).text

def detailTable (issue : Value) : Except Value.Fault Flowable := do
  let start ← textOr issue "line_start" "?"
  let stop ← textOr issue "line_end" "?"
  let description ← textOr issue "description" "No description provided"
  let snippet ← issue.getOr "code_snippet" (.string "")
  let recommendation ← textOr issue "recommendation" "No recommendation provided"
  pure (.table [
    [.text "Location", .text ("Lines " ++ start ++ "-" ++ stop ++ "`")],
    [.text "Description", .paragraph .normal description],
    [.text "Code Snippet",
      if snippet.isTruthy then .paragraph .code snippet.text else .text ""],
    [.text "Recommendation", .paragraph .normal recommendation]])

def issuePart (number : Nat) (issue : Value) : Except Value.Fault (List Flowable) := do
  let kind ← issue.demand "type"
  let table ← detailTable issue
  pure [plain ("Issue " ++ toString number ++ ": " ++ kind.text), table, middleSpace]

def groupPart (g : Group) : Except Value.Fault (List Flowable) := do
  let parts ← g.numbered.mapM fun (n, issue) => issuePart n issue
  pure (plain (g.severity.name ++ " Severity Issues:") :: narrowSpace :: parts.flatten)

def errorPart (error : Value) : Except Value.Fault Flowable := do
  let detector ← textOr error "detector" "Unknown"
  let message ← textOr error "message" "Unknown error"
  pure (plain ("Error in " ++ detector ++ ": " ++ message))

def errorsPart (errors : Value) : Except Value.Fault (List Flowable) := do
  if errors.isTruthy then
    let parts ← (← errors.walked).mapM errorPart
    pure (plain "Analysis Errors:" :: narrowSpace :: parts ++ [middleSpace])
  else pure []

def documentTable (issues : List Value) : Except Value.Fault Table :=
  Table.fill severityOrUnknown [] issues

def resultPart (result : Value) : Except Value.Fault (List Flowable) := do
  let issues ← result.getOr "issues" (.list [])
  if issues.isTruthy then
    let table ← documentTable (← issues.walked)
    let issueParts ← (groups table).mapM groupPart
    let errorParts ← errorsPart (← result.getOr "errors" (.list []))
    let time ← (← result.getOr "analysis_time_seconds" (.int 0)).twoPlaces
    pure (issueParts.flatten ++ errorParts ++
      [plain ("Analysis completed in " ++ time ++ " seconds")])
  else pure [plain "No issues found in this file."]

abbrev Counts := List (Severity × Nat)

def Counts.zero : Counts := listedSeverities.map (·, 0)

def Counts.add (c : Counts) (severity : Value) : Counts :=
  c.map fun (s, n) => (s, if severity.isSameKey (.string s.name) then n + 1 else n)

def Counts.addAll (c : Counts) : List Value → Except Value.Fault Counts
  | [] => .ok c
  | issue :: rest => do
    let severity ← severityOrUnknown issue
    addAll (c.add (← severity.lookedUp)) rest

def Counts.addResult (c : Counts) (result : Value) : Except Value.Fault Counts := do
  let issues ← result.getOr "issues" (.list [])
  c.addAll (← issues.walked)

def Counts.lines (c : Counts) : List String :=
  c.filterMap fun (s, n) =>
    if 0 < n then some (s.name ++ " Severity Issues: " ++ toString n) else none

def documentHead (now : String) : List Flowable := [
  .paragraph .title "Stylus Analyzer Security Report",
  plain ("Generated on: " ++ now),
  wideSpace,
  .paragraph .heading "Analysis Summary"]

def summary (lines : List String) : List Flowable := lines.map plain ++ [wideSpace]

def single (result : Value) : Except Value.Fault (List Flowable) := do
  let count ← result.getOr "total_issues" (.int 0)
  let counts ← Counts.zero.addResult result
  let part ← resultPart result
  pure (summary (("Found " ++ count.text ++ " total issues") :: counts.lines) ++ part)

def isObject : Value → Bool
  | .object _ => true
  | _ => false

def filePart (path : String) (result : Value) : Except Value.Fault (List Flowable) := do
  let part ← resultPart result
  pure (.paragraph .subheading ("File: " ++ path) :: narrowSpace :: part ++ [.pageBreak])

def several (results : List (String × Value)) : Except Value.Fault (List Flowable) := do
  let totals ← (results.filter (isObject ·.2)).mapM fun (_, r) => r.getOr "total_issues" (.int 0)
  let count ← Value.total totals
  let reported := results.filter (·.2.hasMember "issues")
  let counts ← reported.foldlM (fun c (_, r) => Counts.addResult c r) Counts.zero
  let parts ← reported.mapM fun (path, r) => filePart path r
  pure (summary (("Analyzed " ++ toString results.length ++ " files") ::
    ("Found " ++ count.text ++ " total issues") :: counts.lines) ++ parts.flatten)

/-- A dictionary with a result inside is a collection of results by path; anything else is one
result. -/
def body : Value → Except Value.Fault (List Flowable)
  | .object members =>
    if members.any (·.2.hasMember "issues") then several members else single (.object members)
  | v => single v

def document (now : String) (results : Value) : Except Value.Fault (List Flowable) := do
  pure (documentHead now ++ (← body results))

def savedLine (file : String) : String := "PDF report generated: " ++ file

end ContractAudit.Report
