import ContractAudit.Tree.Node

/-! What detectors report: issues with a place and a severity, and the reasons why a detector
can stop early. -/

namespace ContractAudit

inductive Severity where
  | critical
  | high
  | medium
  | low
  | warning
deriving DecidableEq, Repr

def Severity.name : Severity → String
  | critical => "Critical"
  | high => "High"
  | medium => "Medium"
  | low => "Low"
  | warning => "Warning"

structure Issue where
  kind : String
  severity : Severity
  description : String
  lineStart : Int
  lineEnd : Int
  snippet : String
  recommendation : String
deriving DecidableEq, Repr

/-- Why a detector gave up. The issues it found before stay reported. -/
inductive Failure where
  | rootHasNoParent
  | noRule
  | stopped (message : String)
deriving DecidableEq, Repr

def Failure.message : Failure → String
  | rootHasNoParent => "'NoneType' object has no attribute 'type'"
  | noRule => "Detector classes must implement detect()"
  | stopped message => message

structure Findings where
  issues : List Issue
  failure : Option Failure
deriving DecidableEq, Repr

def Findings.complete (issues : List Issue) : Findings := ⟨issues, none⟩

end ContractAudit
