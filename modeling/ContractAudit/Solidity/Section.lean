import ContractAudit.Text.Blank

/-! Solidity sections: the lines between an opening line `sol! {` and the next line that ends
with a closing brace. An opening line restarts an unfinished section, and a section that is
unfinished at the end of the text is dropped. -/

namespace ContractAudit.Solidity

structure Section where
  code : Text
  startLine : Nat
deriving DecidableEq, Repr

def isOpening (line : Text) : Bool := line.has "sol! \x7b"

def isClosing (line : Text) : Bool := line.trim.endsWith "\x7d"

structure Search where
  current : Option Section
  found : List Section

def Search.step (s : Search) : Text × Nat → Search
  | (line, i) =>
    if isOpening line then { s with current := some ⟨[], i + 1⟩ }
    else match s.current with
      | none => s
      | some sect =>
        let sect : Section := ⟨sect.code ++ line ++ ['\n'], sect.startLine⟩
        if isClosing line then ⟨none, s.found ++ [sect]⟩ else { s with current := some sect }

def sections (code : Text) : List Section :=
  (code.lines.zipIdx.foldl Search.step ⟨none, []⟩).found

end ContractAudit.Solidity
