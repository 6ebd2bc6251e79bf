import ContractAudit.Report.Group

/-! The report of a record as lines of text. A line that needs a missing member ends it. -/

namespace ContractAudit.Report

structure Printed where
  lines : List String
  fault : Option Value.Fault
deriving DecidableEq, Repr

namespace Printed

def nothing : Printed := ⟨[], none⟩

def line (s : String) : Printed := ⟨[s], none⟩

def failed (fault : Value.Fault) : Printed := ⟨[], some fault⟩

def attempt : Except Value.Fault String → Printed
  | .ok s => line s
  | .error fault => failed fault

def append (a b : Printed) : Printed :=
  match a.fault with
  | none => ⟨a.lines ++ b.lines, b.fault⟩
  | some _ => a

instance : Append Printed := ⟨append⟩

def concat : List Printed → Printed
  | [] => nothing
  | p :: ps => p ++ concat ps

def text (p : Printed) : String := String.join (p.lines.map (· ++ "\n"))

end Printed

def listingTable (issues : List Value) : Except Value.Fault Table :=
  Table.fill (·.demand "severity") [] issues

def followed (front : String) (v : Value) : Except Value.Fault String := do
  pure (front ++ (← v.shown front.length))

def labelled (label : String) (v : Value) (name : String) : Except Value.Fault String := do
  followed label (← v.demand name)

def linesOf (issue : Value) : Except Value.Fault String := do
  let start ← issue.demand "line_start"
  let stop ← issue.demand "line_end"
  followed ((← followed "      Lines " start) ++ "-") stop

def listIssue (verbose : Bool) (number : Nat) (issue : Value) : Printed :=
  .concat ([
      .attempt (labelled ("  [" ++ toString number ++ "] ") issue "type"),
      .attempt (linesOf issue)]
    ++ (if verbose then [
      .attempt (labelled "      Description: " issue "description"),
      .attempt (labelled "      Code: " issue "code_snippet")] else [])
    ++ [.attempt (labelled "      Recommendation: " issue "recommendation")])

def listGroup (verbose : Bool) (g : Group) : Printed :=
  .line ("\n" ++ g.severity.name ++ " severity issues:") ++
    .concat (g.numbered.map fun (n, issue) => listIssue verbose n issue)

def listIssues (verbose : Bool) (issues : List Value) : Printed :=
  .line ("\nFound " ++ toString issues.length ++ " issues:") ++
    match listingTable issues with
    | .ok table => .concat ((groups table).map (listGroup verbose))
    | .error fault => .failed fault

def listError (error : Value) : Printed :=
  .attempt do
    let detector ← error.demand "detector"
    let message ← error.demand "message"
    followed ((← followed "  Error in " detector) ++ ": ") message

def listErrors (errors : List Value) : Printed :=
  .line ("\nAnalysis encountered " ++ toString errors.length ++ " errors:") ++
    .concat (errors.map listError)

def listing (verbose : Bool) (r : Record) : Printed :=
  (if r.hasIssues then listIssues verbose r.issues else .line "No issues found.") ++
    (if r.hasErrors then listErrors r.errors else .nothing)

end ContractAudit.Report
