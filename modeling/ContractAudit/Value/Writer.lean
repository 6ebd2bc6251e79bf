import ContractAudit.Value.Basic

/-! JSON documents of values in plain characters: every other character is written by its
UTF-16 units. A document is laid out over lines with two spaces a level, or on one line. -/

namespace ContractAudit.Value

def units (c : Char) : List Nat :=
  let n := c.toNat
  if n < 0x10000 then [n]
  else [0xD800 + (n - 0x10000) / 0x400, 0xDC00 + (n - 0x10000) % 0x400]

def escapeChar (c : Char) : List Char :=
  if c = '"' then ['\\', '"']
  else if c = '\\' then ['\\', '\\']
  else if c = '\n' then ['\\', 'n']
  else if c = '\r' then ['\\', 'r']
  else if c = '\t' then ['\\', 't']
  else if c = '\x08' then ['\\', 'b']
  else if c = '\x0c' then ['\\', 'f']
  else if 0x20 ≤ c.toNat && c.toNat < 0x7F then [c]
  else (units c).flatMap fun u => '\\' :: 'u' :: Text.hexDigits 4 u

def writeString (s : String) : String :=
  String.ofList ('"' :: s.toList.flatMap escapeChar ++ ['"'])

def writeRough (r : Rough) : String :=
  String.ofList ('"' :: r.points.flatMap (fun
    | .char c => escapeChar c
    | .half n => Point.escapedHalf n) ++ ['"'])

def writeFloat : Binary64 → String
  | .nan => "NaN"
  | .infinite negative => if negative then "-Infinity" else "Infinity"
  | x => x.shortestText

structure Layout where
  opening : String
  between : String
  closing : String

def Layout.indented (level : Nat) : Layout where
  opening := "\n" ++ "".pushn ' ' (2 * (level + 1))
  between := ",\n" ++ "".pushn ' ' (2 * (level + 1))
  closing := "\n" ++ "".pushn ' ' (2 * level)

def Layout.oneLine (_level : Nat) : Layout := ⟨"", ",", ""⟩

def Layout.wrap (l : Layout) (left right : String) (items : List String) : String :=
  match items with
  | [] => left ++ right
  | _ => left ++ l.opening ++ l.between.intercalate items ++ l.closing ++ right

mutual

def write (layout : Nat → Layout) (level : Nat) : Value → String
  | null => "null"
  | bool true => "true"
  | bool false => "false"
  | int i => toString i
  | float x => writeFloat x
  | string s => writeString s
  | rough s => writeRough s
  | list items => (layout level).wrap "[" "]" (writeItems layout (level + 1) items)
  | object members => (layout level).wrap "\x7b" "\x7d" (writeMembers layout (level + 1) members)

def writeItems (layout : Nat → Layout) (level : Nat) : List Value → List String
  | [] => []
  | v :: vs => write layout level v :: writeItems layout level vs

def writeMembers (layout : Nat → Layout) (level : Nat) : List (String × Value) → List String
  | [] => []
  | (name, v) :: rest =>
    (writeString name ++ ": " ++ write layout level v) :: writeMembers layout level rest

end

def document (v : Value) : String := write .indented 0 v

def line (v : Value) : String := write .oneLine 0 v

end ContractAudit.Value
