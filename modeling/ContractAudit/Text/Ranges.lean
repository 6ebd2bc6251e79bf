/-! Tables of character ranges, searched by halving. -/

namespace ContractAudit.Text

def inRanges (ranges : Array (Nat × Nat)) (n : Nat) : Nat → Nat → Nat → Bool
  | 0, _, _ => false
  | fuel + 1, low, high =>
    if low ≥ high then false
    else
      let middle := (low + high) / 2
      match ranges[middle]? with
      | none => false
      | some (first, last) =>
        if n < first then inRanges ranges n fuel low middle
        else if n > last then inRanges ranges n fuel (middle + 1) high
        else true

def memRanges (ranges : Array (Nat × Nat)) (n : Nat) : Bool :=
  inRanges ranges n 32 0 ranges.size

end ContractAudit.Text
