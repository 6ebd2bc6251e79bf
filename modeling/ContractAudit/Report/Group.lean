import ContractAudit.Report.Record

/-! Issues in groups of one severity. A loop over the issues enters each under its severity in a
table, and groups are looked up in it. Four severities are looked up, the gravest first; issues of
any other severity are in no group. -/

namespace ContractAudit.Report

def listedSeverities : List Severity := [.critical, .high, .medium, .low]

abbrev Table := List (Value × List Value)

namespace Table

def enter (severity issue : Value) : Table → Table
  | [] => [(severity, [issue])]
  | (key, issues) :: rest =>
    if key.isSameKey severity then (key, issues ++ [issue]) :: rest
    else (key, issues) :: enter severity issue rest

def lookup? (t : Table) (severity : Value) : Option (List Value) :=
  (List.find? (·.1.isSameKey severity) t).map (·.2)

/-- The loop over the issues. A severity has to be a value that can be looked up. -/
def fill (severityOf : Value → Except Value.Fault Value) (t : Table) :
    List Value → Except Value.Fault Table
  | [] => .ok t
  | issue :: rest => do
    let severity ← severityOf issue
    fill severityOf (t.enter (← severity.lookedUp) issue) rest

end Table

structure Group where
  severity : Severity
  issues : List Value
deriving Repr

def Group.numbered (g : Group) : List (Nat × Value) :=
  (g.issues.zipIdx 1).map fun (issue, n) => (n, issue)

def groups (t : Table) : List Group :=
  listedSeverities.filterMap fun s => (t.lookup? (.string s.name)).map (Group.mk s)

end ContractAudit.Report
