import ContractAudit.Rust.Type

/-! Patterns. -/

namespace ContractAudit.Rust

def negativeLiteral : Parse Nodes := do
  let number : Parse Nodes := lexeme "integer_literal" fun c => (numberEnd c).map (·.2)
  return wrap "negative_literal" ((← mark "-") ++ (← number))

def patternLiteral : Parse Nodes := literal <|> negativeLiteral

def rangeAfter (g : Grammar) (left : Nodes) : Parse Nodes := do
  let range : Parse Nodes := do
    return wrap "range_pattern"
      (left ++ (← mark "..=" <|> mark "...") ++ (← patternLiteral <|> path g))
  range <|> pure left

def fieldPattern (g : Grammar) : Parse Nodes := do
  let modifiers := (← optional (keyword "ref")) ++ (← optional mutable)
  let name ← word "field_identifier"
  let inner ← optional do return (← mark ":") ++ (← g (.pattern true))
  return wrap "field_pattern" (modifiers ++ name ++ inner)

def remainingFields : Parse Nodes := do return wrap "remaining_field_pattern" (← mark "..")

def pathPattern (g : Grammar) : Parse Nodes := do
  let left ← path g
  let s ← peek
  if atBang s then invocation left
  else if startsWith s "(" then
    return wrap "tuple_struct_pattern"
      (left ++ (← mark "(") ++ (← sepBy (mark ",") (g (.pattern true))) ++ (← mark ")"))
  else if startsWith s "\x7b" then
    return wrap "struct_pattern" (left ++ (← mark "\x7b") ++
      (← sepBy (mark ",") (fieldPattern g <|> remainingFields)) ++ (← mark "\x7d"))
  else if startsWith s "@" then
    return wrap "captured_pattern" (left ++ (← mark "@") ++ (← g (.pattern false)))
  else rangeAfter g left

def patternAtom (g : Grammar) : Parse Nodes := do
  let s ← peek
  let w := wordOf s
  if startsWith s "(" then
    return wrap "tuple_pattern"
      ((← mark "(") ++ (← sepBy (mark ",") (g (.pattern true))) ++ (← mark ")"))
  else if startsWith s "[" then
    return wrap "slice_pattern"
      ((← mark "[") ++ (← sepBy (mark ",") (g (.pattern true))) ++ (← mark "]"))
  else if startsWith s "&" then
    return wrap "reference_pattern" ((← mark "&") ++ (← optional mutable) ++ (← g (.pattern false)))
  else if startsWith s ".." then remainingFields
  else if w = "_" then keyword "_"
  else if w = "ref" then return wrap "ref_pattern" ((← keyword "ref") ++ (← g (.pattern false)))
  else if w = "mut" then return wrap "mut_pattern" ((← mutable) ++ (← g (.pattern false)))
  else if w = "const" then return wrap "const_block" ((← keyword "const") ++ (← g .block))
  else
    let bound : Parse Nodes := do rangeAfter g (← patternLiteral)
    bound <|> pathPattern g

def patternFrom (g : Grammar) : Nat → Nodes → Parse Nodes
  | 0, left => pure left
  | fuel + 1, left => do
    if ← atMark "|" then
      patternFrom g fuel (wrap "or_pattern" (left ++ (← mark "|") ++ (← patternAtom g)))
    else return left

def patternRule (g : Grammar) (bars : Bool) : Parse Nodes := do
  let first ← patternAtom g
  if bars then patternFrom g (← get).left first else return first

end ContractAudit.Rust
