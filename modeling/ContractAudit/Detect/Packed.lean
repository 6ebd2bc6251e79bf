import ContractAudit.Detect.Place

/-! Packed encodings of values of no fixed size, where different values can give the same bytes:
calls of `encode_packed`, calls of `concat`, and arrays on which `concat` is called. -/

namespace ContractAudit.Detect.Packed

def isUnsafePacking (code : Text) (v : Visit) : Bool :=
  let call := v.node.forwardText code
  if call.hasAny ["String", "string", "SOLString"] then true
  else if call.has "Address" && call.has "U256" && !call.has "String" then false
  else match v.enclosingItem? with
    | some item =>
      let body := item.forwardText code
      body.has "SOLString" && body.has "encode_packed"
    | none => false

def isUnsafeJoin (code : Text) (call : Node) : Bool :=
  let text := call.forwardText code
  text.hasAny ["as_bytes", "as_bytes()"] && text.has ".concat" &&
    !text.has "delimiter" && !text.has "0u8"

inductive Finding where
  | packing
  | join
  | array
deriving DecidableEq, Repr

def isByteArrayJoin (code : Text) (array receiver : Node) : Bool :=
  let text := array.forwardText code
  (receiver.forwardText code).has "concat" && text.has "as_bytes" && text.has ".as_bytes(), "

def classify (code : Text) (v : Visit) : Option Finding :=
  if v.node.kind = "call_expression" then
    let text := v.node.forwardText code
    if text.hasAny ["encode_packed", "abi_encode_packed"] then
      if isUnsafePacking code v then some .packing else none
    else if text.hasAny [".concat()", ".concat("] then
      if isUnsafeJoin code v.node then some .join else none
    else none
  else if v.node.kind = "array_expression" then
    match v.parent? with
    | some parent =>
      if parent.kind = "field_expression" && isByteArrayJoin code v.node parent then some .array
      else none
    | none => none
  else none

def Finding.description (name : String) : Finding → String
  | packing => "Potentially unsafe use of encode_packed in function '" ++ name ++
      "'. When used with dynamic types like strings, it may lead to hash collisions."
  | join => "Potentially unsafe manual byte concatenation in function '" ++ name ++
      "'. Concatenating dynamic types without delimiters can lead to collisions."
  | array => "Manual byte packing without delimiters in function '" ++ name ++
      "'. This can cause hash collisions with different inputs."

def Finding.recommendation : Finding → String
  | packing => "Use regular abi_encode instead, or ensure you're only using fixed-size types " ++
      "with encode_packed, or add delimiters between dynamic values."
  | join => "Add a delimiter (e.g., a zero byte) between concatenated dynamic values."
  | array => "Add a delimiter (e.g., a zero byte) between concatenated string/byte values."

def Finding.shown (v : Visit) : Finding → Node
  | packing => v.node
  | join => v.node
  | array => v.parent?.getD v.node

def issue (code : Text) (v : Visit) (f : Finding) : Issue where
  kind := "unsafe_encode_packed"
  severity := .medium
  description := f.description (enclosingName Node.forwardText code v)
  lineStart := v.node.firstLine
  lineEnd := v.node.lastLine
  snippet := String.ofList ((f.shown v).forwardText code)
  recommendation := f.recommendation

def find (code : Text) (v : Visit) : Option Issue := (classify code v).map (issue code v)

def places (code : Text) (p : Places) (root : Node) : Places := onePerPlace (find code) p root

end ContractAudit.Detect.Packed
