import ContractAudit.Solidity.Transfer

/-! Transfers whose result nobody looks at: token calls, low-level calls, matches that drop the
error, and the Solidity sections of the source. -/

namespace ContractAudit.Detect.Transfer

def transferCalls : List String := [".transfer(", ".transferFrom("]

/-- Whether a call is one of a token interface: the interface is named in the enclosing function
or somewhere before the call. -/
def isTokenCall (code : Text) (v : Visit) : Bool :=
  (v.node.forwardText code).hasAny [".transfer(", ".transferFrom(", ".approve("] &&
    ((match v.enclosingFunction? with
      | some f => (f.forwardText code).has "IERC20"
      | none => false) ||
      (code.upTo v.node.extent.startByte).has "IERC20")

def boundName (binding : Text) : Text := (((binding.before "=").trim).remove "let").trim

/-- Whether one of the `window` rows after the first row that holds `text` passes the test. -/
def laterRow (rows : List Text) (text : Text) (window : Nat) (test : Text → Bool) : Bool :=
  match rows.findIdx? (Text.occurs text) with
  | some i => ((rows.drop (i + 1)).take window).any test
  | none => false

def testsName (name : Text) (text : Text) : Bool :=
  Text.occurs ("if ".toList ++ name) text || Text.occurs ("if !".toList ++ name) text

def testsOutcome (row : Text) : Bool :=
  row.has "if" && row.hasAny ["success", "result", "!"]

def isDiscard (name : Text) : Bool := name = ['_']

def statementChecked (code : Text) (v : Visit) (statement : Node) : Bool :=
  let text := statement.forwardText code
  if text.has "let _ =" then false
  else if !text.trim.startsWith "let" then false
  else match v.enclosingFunction? with
    | some f => laterRow (f.forwardText code).rows (v.node.forwardText code) 4 testsOutcome
    | none => false

def bindingChecked (code : Text) (v : Visit) (binding : Node) : Bool :=
  let text := binding.forwardText code
  let name := boundName text
  if isDiscard name then false
  else match v.enclosingFunction? with
    | some f => laterRow (f.forwardText code).rows text 9 (testsName name)
    | none => false

def triedBindingChecked (code : Text) (v : Visit) (binding : Node) : Bool :=
  let name := boundName (binding.forwardText code)
  if isDiscard name then false
  else match v.enclosingFunction? with
    | some f => testsName name (f.forwardText code)
    | none => false

def isBinding (n : Node) : Bool := n.kind = "assignment_expression" || n.kind = "let_declaration"

def isBranch (n : Node) : Bool := n.kind = "if_expression" || n.kind = "match_expression"

def valueChecked (code : Text) (v : Visit) : Except Failure Bool :=
  match v.parent? with
  | none => .error .rootHasNoParent
  | some parent =>
    if parent.kind = "expression_statement" then .ok (statementChecked code v parent)
    else if isBinding parent then .ok (bindingChecked code v parent)
    else if parent.kind = "try_expression" then
      match v.grandparent? with
      | none => .error .rootHasNoParent
      | some binding =>
        .ok (if isBinding binding then triedBindingChecked code v binding else false)
    else .ok (isBranch parent)

def resultChecked (code : Text) (v : Visit) : Except Failure Bool :=
  match v.parent? with
  | none => .error .rootHasNoParent
  | some parent => if isBinding parent then valueChecked code v else .ok (isBranch parent)

def ignoresError (code : Text) (n : Node) : Bool :=
  let text := n.forwardText code
  text.has "transfer" &&
    text.hasAny ["Err(_) => \x7b\x7d", "Err(_) => ()", "Err(_) => Ok(())"]

def issue (code : Text) (n : Node) (description recommendation : String) : Issue where
  kind := "unchecked_transfer"
  severity := .high
  description := description
  lineStart := n.firstLine
  lineEnd := n.lastLine
  snippet := String.ofList (n.forwardText code)
  recommendation := recommendation

def tokenIssue (code : Text) (n : Node) : Issue :=
  issue code n "ERC20 transfer call with unchecked return value. This can lead to silent failures."
    "Check the boolean return value of transfer calls (e.g., `if !success \x7b revert \x7d`)."

def callIssue (code : Text) (n : Node) : Issue :=
  issue code n "Low-level call to transfer function without checking return value."
    ("Check the return value using `(bool success, bytes memory returnData) = ...` " ++
      "and verify success.")

def matchIssue (code : Text) (n : Node) : Issue :=
  issue code n
    "Transfer errors are explicitly caught and ignored. This can lead to silent failures."
    "Handle errors appropriately by propagating them or providing fallback behavior."

def find (code : Text) (v : Visit) : Except Failure (Option Issue) :=
  if v.node.kind = "call_expression" then
    let text := v.node.forwardText code
    if text.hasAny transferCalls then
      if isTokenCall code v then
        (valueChecked code v).map fun checked =>
          if checked then none else some (tokenIssue code v.node)
      else .ok none
    else if text.has ".call(" && text.has "transfer" then
      (resultChecked code v).map fun checked =>
        if checked then none else some (callIssue code v.node)
    else .ok none
  else if v.node.kind = "match_expression" then
    .ok (if ignoresError code v.node then some (matchIssue code v.node) else none)
  else .ok none

def step (code : Text) (found : Findings) (v : Visit) : Findings :=
  match found.failure with
  | some _ => found
  | none =>
    match find code v with
    | .error failure => { found with failure := some failure }
    | .ok none => found
    | .ok (some i) => { found with issues := found.issues ++ [i] }

def treeFindings (code : Text) (reported : List Issue) (root : Node) : Findings :=
  root.walk (step code) (.complete reported)

def findings (code : Text) (reported : List Issue) (root : Node) : Findings :=
  let found := treeFindings code reported root
  match found.failure with
  | some _ => found
  | none => .complete (found.issues ++ Solidity.sectionIssues code)

def signature (n : Node) (code : Text) : Text :=
  if n.kind = "function_item" then
    Text.trim ((n.children.takeWhile (·.kind ≠ "block")).flatMap (·.forwardText code))
  else []

end ContractAudit.Detect.Transfer
