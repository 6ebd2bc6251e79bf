import ContractAudit.Rust.TokenTree

/-! The rules that refer to each other, and the parts that expressions, types and patterns
share: paths, macro invocations and attributes. -/

namespace ContractAudit.Rust

inductive Rule where
  /-- An expression whose operators bind more tightly than `floor`. A plain one has no structure
  literal at its top, and one that stops at `&&` leaves that operator to the condition around. -/
  | expr (plain stopAtAnd : Bool) (floor : Int)
  | type
  | pattern (bars : Bool)
  | block
  | blockLike
  | statement
  | declaration

abbrev Grammar := Rule → Parse Nodes

def lowest : Int := -100

def Rule.value : Rule := .expr false false lowest

def Rule.header : Rule := .expr true false lowest

def mutable : Parse Nodes := keywordAs "mutable_specifier" "mut"

def pathWords : List String := ["self", "super", "crate"]

def typeArguments (g : Grammar) : Parse Nodes := do
  let binding : Parse Nodes := do
    let type ← g .type
    let s ← peek
    if startsWith s "=" then return wrap "type_binding" (type ++ (← mark "=") ++ (← g .type))
    else return type
  let block : Parse Nodes := do
    failure? (← atMark "\x7b")
    g .block
  let item := block <|> literal <|> binding <|> lifetime
  return wrap "type_arguments" ((← mark "<") ++ (← sepBy (mark ",") item) ++ (← mark ">"))

def bracketedType (g : Grammar) : Parse Nodes := do
  let opening ← mark "<"
  let type ← g .type
  let viewed ← optional do return (← keyword "as") ++ (← g .type)
  let inner := if viewed.isEmpty then type else wrap "qualified_type" (type ++ viewed)
  return wrap "bracketed_type" (opening ++ inner ++ (← mark ">"))

def pathStart (g : Grammar) : Parse Nodes := do
  let s ← peek
  if startsWith s "<" then
    return wrap "scoped_identifier" ((← bracketedType g) ++ (← mark "::") ++ (← word "identifier"))
  else if startsWith s "::" then
    return wrap "scoped_identifier" ((← mark "::") ++ (← word "identifier"))
  else if startsWith s "$" then metavariable
  else
    let w := wordOf s
    word (if pathWords.contains w then w else "identifier")

def pathFrom (g : Grammar) : Nat → Nodes → Parse Nodes
  | 0, left => pure left
  | fuel + 1, left => do
    let named : Parse Nodes := do
      return wrap "scoped_identifier" (left ++ (← mark "::") ++ (← word "identifier"))
    let generic : Parse Nodes := do
      let type := wrap "generic_type" (left ++ (← mark "::") ++ (← typeArguments g))
      return wrap "scoped_identifier" (type ++ (← mark "::") ++ (← word "identifier"))
    let longer : Parse (Option Nodes) := (some <$> (named <|> generic)) <|> pure none
    match ← longer with
    | some path => pathFrom g fuel path
    | none => return left

def path (g : Grammar) : Parse Nodes := do
  let left ← pathStart g
  pathFrom g (← get).left left

def atBang (s : List Char) : Bool := startsWith s "!" && !startsWith s "!="

def invocation (left : Nodes) : Parse Nodes := do
  failure? (atBang (← peek))
  return wrap "macro_invocation" (left ++ (← mark "!") ++ (← tokenTree false))

def attributeBody (g : Grammar) : Parse Nodes := do
  let name ← path g
  let value : Parse Nodes := do return (← mark "=") ++ (← g .value)
  return wrap "attribute" (name ++ (← optional (value <|> tokenTree false)))

def attributeItem (g : Grammar) : Parse Nodes := do
  return wrap "attribute_item" ((← mark "#") ++ (← mark "[") ++ (← attributeBody g) ++ (← mark "]"))

def innerAttributeItem (g : Grammar) : Parse Nodes := do
  return wrap "inner_attribute_item"
    ((← mark "#") ++ (← mark "!") ++ (← mark "[") ++ (← attributeBody g) ++ (← mark "]"))

def attributeItems (g : Grammar) : Parse Nodes := many (attributeItem g)

end ContractAudit.Rust
