import ContractAudit.Rust.Cursor
import ContractAudit.Text.Blank
import ContractAudit.Text.Word

/-! Lexemes: blanks and comments, words, literals and marks. Which of them is read depends on
what the grammar asks for. -/

namespace ContractAudit.Rust

def isSkipped (c : Char) : Bool := c = ' ' || c = '\t' || c = '\n' || c = '\r'

def blockCommentEnd : Nat → Nat → Bool → Cursor → Option Cursor
  | 0, _, _, _ => none
  | fuel + 1, depth, afterStar, c =>
    match c.rest with
    | [] => none
    | '*' :: _ => blockCommentEnd fuel depth true c.next
    | '/' :: rest =>
      if afterStar then
        if depth = 1 then some c.next else blockCommentEnd fuel (depth - 1) false c.next
      else match rest with
        | '*' :: _ => blockCommentEnd fuel (depth + 1) false c.next.next
        | _ => blockCommentEnd fuel depth false c.next
    | _ => blockCommentEnd fuel depth false c.next

def comment? (c : Cursor) : Option (Node × Cursor) :=
  match c.rest with
  | '/' :: '/' :: _ =>
    let stop := c.skipWhile (· ≠ '\n')
    some (leaf "line_comment" c stop, stop)
  | '/' :: '*' :: _ =>
    (blockCommentEnd c.left 1 false (c.skip 2)).map fun stop =>
      (leaf "block_comment" c stop, stop)
  | _ => none

def trivia : Nat → Cursor → Nodes × Cursor
  | 0, c => ([], c)
  | fuel + 1, c =>
    let c := c.skipWhile isSkipped
    match comment? c with
    | none => ([], c)
    | some (n, c) =>
      let (ns, c) := trivia fuel c
      (n :: ns, c)

def skipTrivia (c : Cursor) : Nodes × Cursor := trivia (c.left + 1) c

def ahead (c : Cursor) : Cursor := (skipTrivia c).2

def peek : Parse (List Char) := fun c => some ((ahead c).rest, c)

def lexeme (kind : String) (stop? : Cursor → Option Cursor) : Parse Nodes := fun c =>
  let (comments, c) := skipTrivia c
  (stop? c).map fun stop => (comments ++ [leaf kind c stop], stop)

def wordLength (s : List Char) : Nat :=
  match s with
  | 'r' :: '#' :: x :: rest =>
    if Text.isWordStart x then 3 + (rest.takeWhile Text.isWordPart).length else 1
  | x :: rest => if Text.isWordStart x then 1 + (rest.takeWhile Text.isWordPart).length else 0
  | [] => 0

def wordOf (s : List Char) : String := String.ofList (s.take (wordLength s))

def peekWord : Parse String := do return wordOf (← peek)

def startsWith (s : List Char) (mark : String) : Bool := mark.toList.isPrefixOf s

def atMark (mark : String) : Parse Bool := do return startsWith (← peek) mark

def atWord (word : String) : Parse Bool := do return (← peekWord) = word

def mark (m : String) : Parse Nodes :=
  lexeme m fun c => if startsWith c.rest m then some (c.skip m.length) else none

def keywordAs (kind w : String) : Parse Nodes :=
  lexeme kind fun c => if wordOf c.rest = w then some (c.skip w.length) else none

def keyword (w : String) : Parse Nodes := keywordAs w w

def peekSecond : Parse (List Char) := fun c =>
  let first := ahead c
  some ((ahead (first.skip (wordLength first.rest))).rest, c)

def word (kind : String) : Parse Nodes :=
  lexeme kind fun c =>
    let n := wordLength c.rest
    if n = 0 then none else some (c.skip n)

def metavariable : Parse Nodes :=
  lexeme "metavariable" fun c =>
    match c.rest with
    | '$' :: x :: _ =>
      if Text.isAsciiLetter x || x = '_' then some ((c.skip 2).skipWhile Text.isWordPart) else none
    | _ => none

def isDigit (c : Char) : Bool := '0' ≤ c && c ≤ '9'

def isNumberPart (c : Char) : Bool := isDigit c || c = '_'

def isHexDigit (c : Char) : Bool := isDigit c || ('a' ≤ c && c ≤ 'f') || ('A' ≤ c && c ≤ 'F')

def numericTypes : List String :=
  ["u8", "i8", "u16", "i16", "u32", "i32", "u64", "i64", "u128", "i128", "isize", "usize",
   "f32", "f64"]

def primitiveTypes : List String := numericTypes ++ ["bool", "str", "char"]

def skipNumericSuffix (c : Cursor) : Cursor :=
  let lengths := (numericTypes.filter (startsWith c.rest ·)).map String.length
  c.skip (lengths.foldl max 0)

def integerEnd (c : Cursor) : Option Cursor :=
  let based (test : Char → Bool) : Option Cursor :=
    let stop := (c.skip 2).skipWhile test
    if stop.byte > c.byte + 2 then some (skipNumericSuffix stop)
    else some (skipNumericSuffix c.next)
  match c.rest with
  | '0' :: 'x' :: _ => based fun x => isHexDigit x || x = '_'
  | '0' :: 'b' :: _ => based fun x => x = '0' || x = '1' || x = '_'
  | '0' :: 'o' :: _ => based fun x => ('0' ≤ x && x ≤ '7') || x = '_'
  | x :: _ => if isDigit x then some (skipNumericSuffix (c.skipWhile isNumberPart)) else none
  | [] => none

def floatSuffixEnd (c : Cursor) : Cursor :=
  match c.rest with
  | x :: d :: _ =>
    if (x = 'u' || x = 'i' || x = 'f') && isDigit d then c.next.skipWhile isDigit else c
  | _ => c

/-- The end of the exponent of a float. The letter may stand without digits, and then the
number ends before it. -/
def exponentEnd? (c : Cursor) : Option Cursor :=
  match c.rest with
  | x :: rest =>
    if x = 'e' || x = 'E' then
      let digits := match rest with
        | '+' :: _ => c.skip 2
        | '-' :: _ => c.skip 2
        | _ => c.next
      match digits.rest with
      | d :: _ =>
        if isNumberPart d then some (floatSuffixEnd (digits.skipWhile isNumberPart)) else some c
      | [] => some c
    else none
  | [] => none

/-- The end of a float literal: a number with a fraction or an exponent. A point before a
letter or another point does not belong to it. -/
def floatEnd (c : Cursor) : Option Cursor :=
  match c.rest with
  | x :: _ =>
    if isDigit x then
      let whole := c.skipWhile isNumberPart
      match whole.rest with
      | '.' :: y :: _ =>
        if Text.isWordStart y && y ≠ '_' || y = '.' then none
        else
          let fraction := whole.next.skipWhile isNumberPart
          some ((exponentEnd? fraction).getD (floatSuffixEnd fraction))
      | ['.'] => some whole.next
      | _ => exponentEnd? whole
    else none
  | [] => none

def stringEnd : Nat → Cursor → Option Cursor
  | 0, _ => none
  | fuel + 1, c =>
    match c.rest with
    | [] => none
    | '"' :: _ => some c.next
    | '\\' :: _ => stringEnd fuel (c.skip 2)
    | _ => stringEnd fuel c.next

def rawStringEnd (hashes : Nat) : Nat → Cursor → Option Cursor
  | 0, _ => none
  | fuel + 1, c =>
    match c.rest with
    | [] => none
    | '"' :: rest =>
      let found := ((rest.take hashes).takeWhile (· = '#')).length
      if found = hashes then some (c.skip (1 + hashes))
      else rawStringEnd hashes fuel (c.skip (1 + found))
    | _ => rawStringEnd hashes fuel c.next

def rawLiteralEnd (c : Cursor) : Option Cursor :=
  let body := match c.rest with
    | 'b' :: 'r' :: _ => some (c.skip 2)
    | 'r' :: _ => some c.next
    | _ => none
  match body with
  | none => none
  | some hashes =>
    let count := (hashes.rest.takeWhile (· = '#')).length
    let quote := hashes.skip count
    match quote.rest with
    | '"' :: _ => rawStringEnd count quote.left quote.next
    | _ => none

def stringLiteralEnd (c : Cursor) : Option Cursor :=
  match c.rest with
  | '"' :: _ => stringEnd c.left c.next
  | 'b' :: '"' :: _ => stringEnd c.left (c.skip 2)
  | _ => none

def closeChar (c : Cursor) : Option Cursor :=
  match c.rest with
  | '\'' :: _ => some c.next
  | _ => none

def charEscapeEnd (c : Cursor) : Option Cursor :=
  match c.rest with
  | 'u' :: '{' :: _ =>
    let stop := (c.skip 2).skipWhile isHexDigit
    if stop.byte > c.byte + 2 && startsWith stop.rest "\x7d" then some stop.next else none
  | 'u' :: rest =>
    if (rest.take 4).length = 4 && (rest.take 4).all isHexDigit then some (c.skip 5) else none
  | 'x' :: rest =>
    if (rest.take 2).length = 2 && (rest.take 2).all isHexDigit then some (c.skip 3) else none
  | _ :: _ => some c.next
  | [] => none

def charBodyEnd (c : Cursor) : Option Cursor :=
  match c.rest with
  | '\'' :: '\'' :: _ => some (c.skip 2)
  | '\'' :: '\\' :: _ => (charEscapeEnd (c.skip 2)).bind closeChar
  | '\'' :: _ :: '\'' :: _ => some (c.skip 3)
  | _ => none

def charLiteralEnd (c : Cursor) : Option Cursor :=
  match c.rest with
  | 'b' :: '\'' :: _ => charBodyEnd c.next
  | _ => charBodyEnd c

def numberEnd (c : Cursor) : Option (String × Cursor) :=
  match floatEnd c with
  | some stop => some ("float_literal", stop)
  | none => (integerEnd c).map fun stop => ("integer_literal", stop)

def literalEnd? (c : Cursor) : Option (String × Cursor) :=
  match rawLiteralEnd c with
  | some stop => some ("raw_string_literal", stop)
  | none =>
    match stringLiteralEnd c with
    | some stop => some ("string_literal", stop)
    | none =>
      match charLiteralEnd c with
      | some stop => some ("char_literal", stop)
      | none => numberEnd c

def literal : Parse Nodes := fun c =>
  let (comments, c) := skipTrivia c
  match literalEnd? c with
  | some (kind, stop) => some (comments ++ [leaf kind c stop], stop)
  | none =>
    let w := wordOf c.rest
    if w = "true" || w = "false" then
      let stop := c.skip w.length
      some (comments ++ [leaf "boolean_literal" c stop], stop)
    else none

def integer : Parse Nodes := lexeme "integer_literal" integerEnd

def tickName (kind : String) : Parse Nodes := do
  let c := ahead (← get)
  failure? (startsWith c.rest "'" && (charBodyEnd c).isNone)
  return wrap kind ((← mark "'") ++ (← word "identifier"))

def lifetime : Parse Nodes := tickName "lifetime"

def loopLabel : Parse Nodes := tickName "loop_label"

end ContractAudit.Rust
