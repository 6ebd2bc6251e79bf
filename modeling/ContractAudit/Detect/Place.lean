import ContractAudit.Issue

/-! Findings of which one per place is reported: a place is a range of rows, and the first
finding in pre-order speaks for all that share its rows. -/

namespace ContractAudit.Detect

structure Places where
  seen : List (Int × Int)
  issues : List Issue
deriving DecidableEq, Repr

def Places.add (find : Visit → Option Issue) (p : Places) (v : Visit) : Places :=
  match find v with
  | none => p
  | some issue =>
    if v.node.rowSpan ∈ p.seen then p else ⟨p.seen ++ [v.node.rowSpan], p.issues ++ [issue]⟩

def onePerPlace (find : Visit → Option Issue) (p : Places) (root : Node) : Places :=
  root.walk (Places.add find) p

def itemName (text : Node → Text → Text) (code : Text) (item : Node) : String :=
  match item.childOfKind? "identifier" with
  | some child => String.ofList (text child code)
  | none => "unknown"

def enclosingName (text : Node → Text → Text) (code : Text) (v : Visit) : String :=
  match v.enclosingItem? with
  | some item => itemName text code item
  | none => "unknown"

end ContractAudit.Detect
