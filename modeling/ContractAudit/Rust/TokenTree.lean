import ContractAudit.Rust.Lexeme

/-! Token trees: the bracketed text of macro invocations and macro definitions. Inside of it
only lexemes count, and every bracket needs its partner. -/

namespace ContractAudit.Rust

/-- The characters of the marks inside token trees. A run of them is one lexeme, so a comment
sign right after another mark opens no comment. -/
def isRunChar (c : Char) : Bool := "/_-=>,;:!?.@*&#%^+<|~".toList.contains c

def closerOf? : Char → Option Char
  | '(' => some ')'
  | '[' => some ']'
  | '{' => some '}'
  | _ => none

def isCloser (c : Char) : Bool := c = ')' || c = ']' || c = '}'

structure OpenBracket where
  closer : Char
  repetition : Bool

def looseEnd (c : Cursor) : Option Cursor :=
  match comment? c with
  | some (_, stop) => some stop
  | none =>
    match literalEnd? c with
    | some (_, stop) => some stop
    | none =>
      let run := (c.rest.takeWhile isRunChar).length
      let word := wordLength c.rest
      if word > 0 || run > 0 then some (c.skip (max word run))
      else match c.rest with
        | '\'' :: _ => some c.next
        | '$' :: _ => some c.next
        | _ => none

def repetitionEnd (c : Cursor) : Option Cursor :=
  let isSign (x : Char) : Bool := x = '+' || x = '*' || x = '?'
  let stop := c.skipWhile (! isSign ·)
  match stop.rest with
  | [] => none
  | _ :: _ => some stop.next

def treeEnd (definition : Bool) : Nat → List OpenBracket → Cursor → Option Cursor
  | 0, _, _ => none
  | _ + 1, [], c => some c
  | fuel + 1, b :: outer, c =>
    let c := c.skipWhile isSkipped
    match c.rest with
    | [] => none
    | x :: rest =>
      if x = b.closer then
        if b.repetition then (repetitionEnd c.next).bind (treeEnd definition fuel outer)
        else treeEnd definition fuel outer c.next
      else if isCloser x then none
      else match closerOf? x with
        | some closer => treeEnd definition fuel (⟨closer, false⟩ :: b :: outer) c.next
        | none =>
          if definition && x = '$' && (rest.dropWhile isSkipped).head? = some '(' then
            let bracket := (c.next.skipWhile isSkipped).next
            treeEnd definition fuel (⟨')', true⟩ :: b :: outer) bracket
          else (looseEnd c).bind (treeEnd definition fuel (b :: outer))

def tokenTree (definition : Bool) : Parse Nodes :=
  lexeme "token_tree" fun c =>
    match c.rest with
    | x :: _ =>
      match closerOf? x with
      | some closer => treeEnd definition (2 * c.left + 2) [⟨closer, false⟩] c.next
      | none => none
    | [] => none

def macroRules : Parse Nodes :=
  many do
    let rule := wrap "macro_rule" ((← tokenTree true) ++ (← mark "=>") ++ (← tokenTree true))
    return rule ++ (← optional (mark ";"))

def macroDefinition : Parse Nodes := do
  let head := (← mark "macro_rules!") ++ (← word "identifier")
  let braces : Parse Nodes := do
    return (← mark "\x7b") ++ (← macroRules) ++ (← mark "\x7d")
  let brackets : Parse Nodes := do
    return (← mark "(") ++ (← macroRules) ++ (← mark ")") ++ (← mark ";")
  return wrap "macro_definition" (head ++ (← braces <|> brackets))

end ContractAudit.Rust
