import ContractAudit.Rust.Item

/-! The grammar tied together, and the tree of a whole source. -/

namespace ContractAudit.Rust

def ruleBody (g : Grammar) : Rule → Parse Nodes
  | .expr plain stopAtAnd floor => expression g plain stopAtAnd floor
  | .type => typeRule g
  | .pattern bars => patternRule g bars
  | .block => block g
  | .blockLike => blockExpression g
  | .statement => statement g
  | .declaration => declaration g

def grammar : Nat → Grammar
  | 0 => fun _ => failure
  | n + 1 => ruleBody (grammar n)

def sourceStart (source : Text) : Cursor :=
  let c := Cursor.start source
  match source with
  | c0 :: _ => if c0.toNat = 0xFEFF then c.next else c
  | [] => c

/-- The root over the given nodes and the comments after them. What cannot be read is one node
of its own. -/
def sourceFile (nodes : Nodes) (c : Cursor) : Node :=
  let (comments, stop) := skipTrivia c
  let finish := stop.skip stop.left
  let unread := if stop.left = 0 then [] else [leaf "ERROR" stop finish]
  let children := nodes ++ comments ++ unread
  let whole := leaf "source_file" stop finish
  let first := (children.head?).getD whole
  .mk "source_file"
    ⟨first.extent.startByte, finish.byte, first.extent.startRow, finish.row⟩ children

/-- The tree of a source. Rules nest a few levels deep for each character at most, so
the source bounds their depth. -/
def parse (source : Text) : Node :=
  let c := sourceStart source
  let g := grammar (4 * c.left + 16)
  match many (g .statement) c with
  | some (nodes, stop) => sourceFile nodes stop
  | none => sourceFile [] c

end ContractAudit.Rust
