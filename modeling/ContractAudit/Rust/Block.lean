import ContractAudit.Rust.Operator

/-! Expressions that end with a block: branches, loops, matches and marked blocks. -/

namespace ContractAudit.Rust

def letCondition (g : Grammar) (plain : Bool) : Parse Nodes := do
  return wrap "let_condition" ((← keyword "let") ++ (← g (.pattern true)) ++ (← mark "=") ++
    (← g (.expr plain true lowest)))

def condition (g : Grammar) (plain : Bool) : Parse Nodes := do
  let first ← letCondition g plain <|> g (.expr plain false lowest)
  let more ← many do
    return (← mark "&&") ++ (← letCondition g plain <|> g (.expr plain true lowest))
  return if more.isEmpty then first else wrap "let_chain" (first ++ more)

def ifExpression (g : Grammar) : Nat → Parse Nodes
  | 0 => failure
  | fuel + 1 => do
    let head := (← keyword "if") ++ (← condition g true) ++ (← g .block)
    if ← atWord "else" then
      let other ← keyword "else"
      let branch := if ← atWord "if" then ifExpression g fuel else g .block
      return wrap "if_expression" (head ++ wrap "else_clause" (other ++ (← branch)))
    else return wrap "if_expression" head

def loopFrom (g : Grammar) (label : Nodes) : Parse Nodes := do
  match ← peekWord with
  | "while" =>
    return wrap "while_expression"
      (label ++ (← keyword "while") ++ (← condition g true) ++ (← g .block))
  | "loop" => return wrap "loop_expression" (label ++ (← keyword "loop") ++ (← g .block))
  | "for" =>
    return wrap "for_expression" (label ++ (← keyword "for") ++ (← g (.pattern true)) ++
      (← keyword "in") ++ (← g .header) ++ (← g .block))
  | _ => failure

def startsBlock : Parse Bool := do
  let c := ahead (← get)
  let second ← peekSecond
  return match wordOf c.rest with
    | "if" | "match" | "while" | "loop" | "for" => true
    | "unsafe" | "const" => startsWith second "\x7b"
    | "async" => startsWith second "\x7b" || wordOf second = "move"
    | _ => startsWith c.rest "\x7b" || (startsWith c.rest "'" && (charBodyEnd c).isNone)

def armValue (g : Grammar) : Parse Nodes := do
  if ← startsBlock then
    let block ← g .blockLike
    if ← extendsBlock patternStarters then climbAll g block else return block
  else g .value

def matchArm (g : Grammar) : Parse Nodes := do
  let attributes ← attributeItems g
  let guarded : Parse Nodes := do return (← keyword "if") ++ (← condition g false)
  let pattern := wrap "match_pattern" ((← g (.pattern true)) ++ (← optional guarded))
  return wrap "match_arm"
    (attributes ++ pattern ++ (← mark "=>") ++ (← armValue g) ++ (← optional (mark ",")))

def matchExpression (g : Grammar) : Parse Nodes := do
  let head := (← keyword "match") ++ (← g .header)
  let body := wrap "match_block" ((← mark "\x7b") ++ (← many (matchArm g)) ++ (← mark "\x7d"))
  return wrap "match_expression" (head ++ body)

def blockExpression (g : Grammar) : Parse Nodes := do
  match ← peekWord with
  | "if" => ifExpression g (← get).left
  | "match" => matchExpression g
  | "unsafe" => return wrap "unsafe_block" ((← keyword "unsafe") ++ (← g .block))
  | "const" => return wrap "const_block" ((← keyword "const") ++ (← g .block))
  | "async" =>
    return wrap "async_block" ((← keyword "async") ++ (← optional (keyword "move")) ++ (← g .block))
  | "while" | "loop" | "for" => loopFrom g []
  | _ =>
    if ← atMark "\x7b" then g .block
    else loopFrom g ((← loopLabel) ++ (← mark ":"))

end ContractAudit.Rust
