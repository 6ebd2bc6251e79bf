import ContractAudit.Detect.Place

/-! Invocations of `panic!`, which end the program at once. -/

namespace ContractAudit.Detect.Panic

def qualifies (code : Text) (v : Visit) : Bool :=
  v.node.kind = "macro_invocation" && (v.node.forwardText code).startsWith "panic!"

def issue (code : Text) (v : Visit) : Issue where
  kind := "unsafe_panic"
  severity := .high
  description := "Unsafe call to panic!() macro in function '" ++
    enclosingName Node.forwardText code v ++
    "'. This causes immediate termination and cannot be caught."
  lineStart := v.node.firstLine
  lineEnd := v.node.lastLine
  snippet := String.ofList (v.node.forwardText code)
  recommendation := "Use Result/Option types with explicit error handling or the ? operator " ++
    "instead of panic!()."

def find (code : Text) (v : Visit) : Option Issue :=
  if qualifies code v then some (issue code v) else none

def places (code : Text) (p : Places) (root : Node) : Places := onePerPlace (find code) p root

end ContractAudit.Detect.Panic
