import ContractAudit.Text.Quoted

/-! Texts in which half of a surrogate pair stands alone. They have no encoding. -/

namespace ContractAudit

inductive Point where
  | char (c : Char)
  | half (n : Fin 0x800)
deriving DecidableEq, Repr

namespace Point

def isHalf : Point → Bool
  | char _ => false
  | half _ => true

def chars : Point → List Char
  | char c => [c]
  | half _ => []

def escapedHalf (n : Fin 0x800) : List Char := '\\' :: 'u' :: Text.hexDigits 4 (0xD800 + n)

end Point

structure Rough where
  points : List Point
  hasHalf : points.any Point.isHalf = true
deriving DecidableEq, Repr

namespace Rough

def replaced (r : Rough) : String :=
  String.ofList (r.points.map fun
    | .char c => c
    | .half _ => Char.ofNat 0xFFFD)

def quoted (r : Rough) : String :=
  let q := Text.quoteMark (r.points.flatMap Point.chars)
  String.ofList (q :: r.points.flatMap (fun
    | .char c => Text.quoteChar q c
    | .half n => Point.escapedHalf n) ++ [q])

def problem (before : Nat) (r : Rough) : String :=
  let front := r.points.takeWhile (!Point.isHalf ·)
  let halves := (r.points.drop front.length).takeWhile Point.isHalf
  let first := before + front.length
  let place := match halves with
    | [.half n] => "character '" ++ String.ofList (Point.escapedHalf n) ++ "' in position " ++
        toString first
    | _ => "characters in position " ++ toString first ++ "-" ++
        toString (first + halves.length - 1)
  "'utf-8' codec can't encode " ++ place ++ ": surrogates not allowed"

end Rough
end ContractAudit
