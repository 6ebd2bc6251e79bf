import ContractAudit.Number.Decimal

/-! Dates of the calendar from seconds since the start of 1970. -/

namespace ContractAudit.Report

structure Date where
  year : Nat
  month : Nat
  day : Nat
deriving DecidableEq, Repr

/-- The date of a day, counted from the start of 1970. Years are taken from March on, so that a
leap day ends one; a cycle of 400 years has 146097 days. -/
def Date.ofDay (n : Nat) : Date :=
  let n := n + 719468
  let cycle := n / 146097
  let inCycle := n % 146097
  let year := (inCycle - inCycle / 1460 + inCycle / 36524 - inCycle / 146096) / 365
  let inYear := inCycle - (365 * year + year / 4 - year / 100)
  let month := (5 * inYear + 2) / 153
  let day := inYear - (153 * month + 2) / 5 + 1
  let month := if month < 10 then month + 3 else month - 9
  ⟨cycle * 400 + year + (if month ≤ 2 then 1 else 0), month, day⟩

def twoDigits (n : Nat) : String := Binary64.padLeft 2 (toString n)

def timestamp (seconds : Nat) : String :=
  let d := Date.ofDay (seconds / 86400)
  let s := seconds % 86400
  Binary64.padLeft 4 (toString d.year) ++ "-" ++ twoDigits d.month ++ "-" ++ twoDigits d.day ++
    " " ++ twoDigits (s / 3600) ++ ":" ++ twoDigits (s / 60 % 60) ++ ":" ++ twoDigits (s % 60)

example : timestamp 1704164645 = "2024-01-02 03:04:05" := by decide +kernel

example : Date.ofDay 19782 = ⟨2024, 2, 29⟩ := by decide

end ContractAudit.Report
