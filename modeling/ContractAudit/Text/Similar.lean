/-! Similarity of words: twice the characters in common blocks over all characters. Common blocks
are found from the longest one outwards. -/

namespace ContractAudit.Similar

def commonStart : List Char → List Char → Nat
  | a :: as, b :: bs => if a = b then commonStart as bs + 1 else 0
  | _, _ => 0

structure Block where
  left : Nat
  right : Nat
  length : Nat
deriving DecidableEq, Repr

def longestBlock (a b : List Char) : Block :=
  let starts := (List.range a.length).flatMap fun i => (List.range b.length).map fun j => (i, j)
  starts.foldl (fun best (i, j) =>
    let n := commonStart (a.drop i) (b.drop j)
    if best.length < n then ⟨i, j, n⟩ else best) ⟨0, 0, 0⟩

def shared : Nat → List Char → List Char → Nat
  | 0, _, _ => 0
  | fuel + 1, a, b =>
    let block := longestBlock a b
    if block.length = 0 then 0
    else block.length + shared fuel (a.take block.left) (b.take block.right) +
      shared fuel (a.drop (block.left + block.length)) (b.drop (block.right + block.length))

def sharedBy (a b : String) : Nat := shared (a.length + 1) a.toList b.toList

def isClose (a b : String) : Bool := 3 * (a.length + b.length) ≤ 10 * sharedBy a b

def closer (word a b : String) : Bool :=
  let x := sharedBy a word * (b.length + word.length)
  let y := sharedBy b word * (a.length + word.length)
  y < x || (x = y && b ≤ a)

def suggestions (word : String) (words : List String) : List String :=
  let close := words.filter (isClose · word)
  ((close.mergeSort (closer word)).take 3).mergeSort fun a b => a ≤ b

end ContractAudit.Similar
