import ContractAudit.Rust.Block

/-! Expressions: an operand and the operators that extend it. -/

namespace ContractAudit.Rust

def arrayExpression (g : Grammar) : Parse Nodes := do
  let opening := (← mark "[") ++ (← attributeItems g)
  let first ← optional (g .value)
  let rest : Parse Nodes := do
    if ← atMark ";" then return (← mark ";") ++ (← g .value)
    else
      let more ← many do return (← mark ",") ++ (← g .value)
      return more ++ (← optional (mark ","))
  return wrap "array_expression" (opening ++ first ++ (← rest) ++ (← mark "]"))

def bracketed (g : Grammar) : Parse Nodes := do
  let opening ← mark "("
  if ← atMark ")" then return wrap "unit_expression" (opening ++ (← mark ")"))
  else
    let first := (← attributeItems g) ++ (← g .value)
    if ← atMark ")" then
      return wrap "parenthesized_expression" (opening ++ first ++ (← mark ")"))
    else
      let comma ← mark ","
      let more ← sepBy (mark ",") (g .value)
      return wrap "tuple_expression" (opening ++ first ++ comma ++ more ++ (← mark ")"))

def structureFrom (g : Grammar) (name : Nodes) : Parse Nodes := do
  let base : Parse Nodes := do
    return wrap "base_field_initializer" ((← mark "..") ++ (← g .value))
  let field : Parse Nodes := do
    let head := (← attributeItems g) ++ (← word "field_identifier")
    if ← atMark ":" then return wrap "field_initializer" (head ++ (← mark ":") ++ (← g .value))
    else return wrap "shorthand_field_initializer" head
  let fields := wrap "field_initializer_list"
    ((← mark "\x7b") ++ (← sepBy (mark ",") (base <|> field)) ++ (← mark "\x7d"))
  return wrap "struct_expression" (name ++ fields)

def pathExpression (g : Grammar) (plain : Bool) : Parse Nodes := do
  let left ← path g
  let s ← peek
  let named := lastKind left = "identifier" || lastKind left = "scoped_identifier"
  if atBang s && named then invocation left
  else if startsWith s "\x7b" && named && !plain then structureFrom g left
  else if startsWith s "::" then
    let generic := left ++ (← mark "::") ++ (← typeArguments g)
    if !plain && (← atMark "\x7b") then
      structureFrom g (wrap "generic_type_with_turbofish" generic)
    else return wrap "generic_function" generic
  else return left

def closure (g : Grammar) (plain : Bool) : Parse Nodes := do
  let moved ← optional (keyword "move")
  let parameter := typedPattern g false <|> g (.pattern false)
  let parameters := wrap "closure_parameters"
    ((← mark "|") ++ (← sepBy (mark ",") parameter) ++ (← mark "|"))
  if ← atMark "->" then
    return wrap "closure_expression" (moved ++ parameters ++ (← arrow g) ++ (← g .block))
  else
    return wrap "closure_expression"
      (moved ++ parameters ++ (← g (.expr plain false closureLevel)))

def leave (g : Grammar) (plain : Bool) (w : String) : Parse Nodes := do
  let head ← keyword w
  let value := if startsExpression (← peek) then g (.expr plain false assignmentLevel) else pure []
  return wrap (w ++ "_expression") (head ++ (← value))

def breakExpression (g : Grammar) (plain : Bool) : Parse Nodes := do
  let head := (← keyword "break") ++ (← optional loopLabel)
  let value :=
    if startsOperand plain (← peek) then g (.expr plain false assignmentLevel) else pure []
  return wrap "break_expression" (head ++ (← value))

def wordExpression (g : Grammar) (plain : Bool) : Parse Nodes := do
  match ← peekWord with
  | "return" => leave g plain "return"
  | "yield" => leave g plain "yield"
  | "break" => breakExpression g plain
  | "continue" =>
    return wrap "continue_expression" ((← keyword "continue") ++ (← optional loopLabel))
  | "move" => closure g plain
  | _ => pathExpression g plain

def operand (g : Grammar) (plain : Bool) : Parse Nodes := do
  let s ← peek
  let unary (m : String) : Parse Nodes := do
    return wrap "unary_expression" ((← mark m) ++ (← g (.expr plain false unaryLevel)))
  if ← startsBlock then blockExpression g
  else match s with
    | '-' :: _ => unary "-"
    | '*' :: _ => unary "*"
    | '!' :: _ => unary "!"
    | '&' :: _ =>
      return wrap "reference_expression"
        ((← mark "&") ++ (← optional mutable) ++ (← g (.expr plain false unaryLevel)))
    | '|' :: _ => closure g plain
    | '(' :: _ => bracketed g
    | '[' :: _ => arrayExpression g
    | '.' :: '.' :: _ => return wrap "range_expression" ((← mark "..") ++ (← rangeEnd g plain))
    | _ => literal <|> wordExpression g plain

def expression (g : Grammar) (plain stopAtAnd : Bool) (floor : Int) : Parse Nodes := do
  let first ← operand g plain
  climb g plain stopAtAnd floor (← get).left first

end ContractAudit.Rust
