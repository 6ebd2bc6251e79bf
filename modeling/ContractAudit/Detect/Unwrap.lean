import ContractAudit.Detect.Place

/-! Calls of `unwrap`, which stop the program when there is no value. -/

namespace ContractAudit.Detect.Unwrap

def methodName (call : Node) (code : Text) : Text :=
  let fields := (call.children.filter (·.kind = "field_expression")).flatMap (·.children)
  match fields.find? (·.kind = "field_identifier") with
  | some field => field.text code
  | none => []

def qualifies (code : Text) (v : Visit) : Bool :=
  v.node.kind = "call_expression" && methodName v.node code = "unwrap".toList

def issue (code : Text) (v : Visit) : Issue where
  kind := "unsafe_unwrap"
  severity := .medium
  description := "Potentially unsafe call to .unwrap() in function '" ++
    enclosingName Node.text code v ++
    "'. This can cause runtime panics if the value is None/Err."
  lineStart := v.node.firstLine
  lineEnd := v.node.lastLine
  snippet := String.ofList (v.node.text code)
  recommendation := "Use pattern matching, if let, or explicit error handling (like ? operator) " ++
    "instead of unwrap()."

def find (code : Text) (v : Visit) : Option Issue :=
  if qualifies code v then some (issue code v) else none

def places (code : Text) (p : Places) (root : Node) : Places := onePerPlace (find code) p root

end ContractAudit.Detect.Unwrap
