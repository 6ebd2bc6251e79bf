import ContractAudit.Rust.Pattern

/-! Operators: how an operand is extended to the right, level by level. An operator is taken
when its level lies above the floor, which is the level of the operator to the left; operators
of one level group to the left. -/

namespace ContractAudit.Rust

def operators : List (String × Int) :=
  [("...", 15), ("..=", 15), ("<<=", 0), (">>=", 0),
   ("..", 15), ("&&", 3), ("||", 2), ("==", 4), ("!=", 4), ("<=", 4), (">=", 4), ("<<", 8),
   (">>", 8), ("+=", 0), ("-=", 0), ("*=", 0), ("/=", 0), ("%=", 0), ("^=", 0), ("&=", 0),
   ("|=", 0),
   ("=", 0), ("<", 4), (">", 4), ("+", 9), ("-", 9), ("*", 10), ("/", 10), ("%", 10),
   ("^", 6), ("&", 7), ("|", 5), ("?", 0), ("(", 16), ("[", 14), (".", 13)]

def operatorOf? (s : List Char) : Option (String × Int) :=
  if wordOf s = "as" then some ("as", 11)
  else if startsWith s "=>" then none
  else operators.find? fun (op, _) => startsWith s op

def unaryLevel : Int := 12

def rangeLevel : Int := 15

def closureLevel : Int := -1

def assignmentLevel : Int := 0

def compoundAssignments : List String :=
  ["+=", "-=", "*=", "/=", "%=", "^=", "&=", "|=", "<<=", ">>="]

def followerWords : List String := ["as", "else", "in"]

def startsOperand (plain : Bool) (s : List Char) : Bool :=
  match s with
  | [] => false
  | c :: _ =>
    if Text.isWordStart c then !followerWords.contains (wordOf s)
    else isDigit c || c = '"' || c = '\'' || c = '$' || startsWith s "::" || atBang s ||
      (c = '{' && !plain)

def startsExpression (s : List Char) : Bool :=
  startsOperand false s || ["-", "*", "&", "|", "<", "[", "(", ".."].any (startsWith s ·)

def arguments (g : Grammar) : Parse Nodes := do
  let argument : Parse Nodes := do return (← attributeItems g) ++ (← g .value)
  return wrap "arguments" ((← mark "(") ++ (← sepBy (mark ",") argument) ++ (← mark ")"))

def rangeEnd (g : Grammar) (plain : Bool) : Parse Nodes := do
  let s ← peek
  if startsOperand plain s || startsWith s "(" then g (.expr plain false rangeLevel)
  else return []

def extend (g : Grammar) (plain : Bool) (op : String) (level : Int) (left : Nodes) :
    Parse Nodes := do
  match op with
  | "(" => return wrap "call_expression" (left ++ (← arguments g))
  | "[" => return wrap "index_expression" (left ++ (← mark "[") ++ (← g .value) ++ (← mark "]"))
  | "?" => return wrap "try_expression" (left ++ (← mark "?"))
  | "as" => return wrap "type_cast_expression" (left ++ (← keyword "as") ++ (← typeTerm g))
  | ".." => return wrap "range_expression" (left ++ (← mark "..") ++ (← rangeEnd g plain))
  | "." =>
    let dot ← mark "."
    if ← atWord "await" then return wrap "await_expression" (left ++ dot ++ (← keyword "await"))
    else return wrap "field_expression" (left ++ dot ++ (← integer <|> word "field_identifier"))
  | _ =>
    let kind :=
      if op = "=" then "assignment_expression"
      else if op = "..." || op = "..=" then "range_expression"
      else if compoundAssignments.contains op then "compound_assignment_expr"
      else "binary_expression"
    return wrap kind (left ++ (← mark op) ++ (← g (.expr plain false level)))

/-- Whether `&&` joins a condition here: before a binding, or where the expression stops at it. -/
def joinsCondition (stopAtAnd : Bool) : Parse Bool := do
  let c := ahead (← get)
  return startsWith c.rest "&&" && (stopAtAnd || wordOf (ahead (c.skip 2)).rest = "let")

def climb (g : Grammar) (plain stopAtAnd : Bool) (floor : Int) : Nat → Nodes → Parse Nodes
  | 0, left => pure left
  | fuel + 1, left => do
    let s ← peek
    if lastKind left = "field_expression" && startsWith s "::" then
      let generic := left ++ (← mark "::") ++ (← typeArguments g)
      climb g plain stopAtAnd floor fuel (wrap "generic_function" generic)
    else match operatorOf? s with
      | none => return left
      | some (op, level) =>
        if level ≤ floor || (← joinsCondition stopAtAnd) ||
            (op = "(" && lastKind left = "range_expression") then return left
        else climb g plain stopAtAnd floor fuel (← extend g plain op level left)

def climbAll (g : Grammar) (left : Nodes) : Parse Nodes := do
  climb g false false lowest (← get).left left

def extendsBlock (starters : List String) : Parse Bool := do
  return match operatorOf? (← peek) with
    | some (op, _) => !starters.contains op
    | none => false

def statementStarters : List String := ["(", "[", "-", "*", "&", "|", "<", ".."]

def patternStarters : List String := ["(", "[", "-", "&", "<", ".."]

end ContractAudit.Rust
