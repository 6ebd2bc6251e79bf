import ContractAudit.Tree.Node

/-! A position in a source, and parses from a position: a parse gives sibling nodes, comments
among them, and the position after them. -/

namespace ContractAudit.Rust

structure Cursor where
  rest : List Char
  left : Nat
  byte : Nat
  row : Nat

namespace Cursor

def start (source : List Char) : Cursor := ⟨source, source.length, 0, 0⟩

def next (c : Cursor) : Cursor :=
  match c.rest with
  | [] => c
  | x :: xs => ⟨xs, c.left - 1, c.byte + x.utf8Size, if x = '\n' then c.row + 1 else c.row⟩

def skip : Nat → Cursor → Cursor
  | 0, c => c
  | n + 1, c => skip n c.next

def skipWhile (test : Char → Bool) (c : Cursor) : Cursor :=
  skip (c.rest.takeWhile test).length c

end Cursor

abbrev Parse := StateT Cursor Option

abbrev Nodes := List Node

def leaf (kind : String) (first last : Cursor) : Node :=
  .mk kind ⟨first.byte, last.byte, first.row, last.row⟩ []

def isComment (n : Node) : Bool := n.kind = "line_comment" || n.kind = "block_comment"

def cover : Nodes → Extent
  | [] => ⟨0, 0, 0, 0⟩
  | first :: rest =>
    let last := (rest.getLast?).getD first
    ⟨first.extent.startByte, last.extent.endByte, first.extent.startRow, last.extent.endRow⟩

/-- Makes a node of the children. Comments in front of the first child stay outside of it. -/
def wrap (kind : String) (children : Nodes) : Nodes :=
  let (comments, rest) := children.span isComment
  comments ++ [.mk kind (cover rest) rest]

def lastKind (ns : Nodes) : String := (ns.getLast?).elim "" (·.kind)

def failure? (b : Bool) : Parse Unit := if b then pure () else failure

/-- Parses as often as possible, at most `n` times; a parse that reads nothing ends the loop. -/
def repeatUpTo (p : Parse Nodes) : Nat → Parse Nodes
  | 0 => pure []
  | n + 1 => fun c =>
    match p c with
    | none => some ([], c)
    | some (ns, c') =>
      if c'.left < c.left then
        match repeatUpTo p n c' with
        | some (ms, c'') => some (ns ++ ms, c'')
        | none => none
      else some ([], c)

def many (p : Parse Nodes) : Parse Nodes := fun c => repeatUpTo p (c.left + 1) c

def optional (p : Parse Nodes) : Parse Nodes := p <|> pure []

def sepBy1 (sep p : Parse Nodes) : Parse Nodes := do
  let first ← p
  let rest ← many do return (← sep) ++ (← p)
  return first ++ rest

def sepBy (sep p : Parse Nodes) : Parse Nodes := do
  let items ← optional (sepBy1 sep p)
  return items ++ (← optional sep)

end ContractAudit.Rust
