import ContractAudit.Number.Binary64

/-! Decimal texts of binary numbers: the fewest digits that read back as the same number, and a
fixed number of places. -/

namespace ContractAudit.Binary64

structure Numeral where
  digits : Nat
  power : Int
deriving DecidableEq, Repr

/-- The numbers that read back as a given one lie between two ratios over a common denominator;
the ends belong to them when the significand is even. -/
structure ReadBack where
  low : Nat
  value : Nat
  high : Nat
  den : Nat
  closed : Bool

/-- Four times the number and the bounds half-way to its neighbours. Below a power of two the
lower neighbour is half as far. -/
def readBack (significand : Nat) (exponent : Int) : ReadBack :=
  let narrow := significand = pow2 52 && exponent > -1074
  let value := 4 * significand
  let low := if narrow then value - 1 else value - 2
  let closed := significand % 2 == 0
  if exponent < 0 then ⟨low, value, value + 2, 4 * pow2 exponent.natAbs, closed⟩
  else
    let unit := pow2 exponent.natAbs
    ⟨low * unit, value * unit, (value + 2) * unit, 4, closed⟩

def ReadBack.holds (r : ReadBack) (candidate : Nat) (power : Int) : Bool :=
  let (lhs, scale) :=
    if power < 0 then (candidate * r.den, pow10 power.natAbs)
    else (candidate * r.den * pow10 power.natAbs, 1)
  if r.closed then r.low * scale ≤ lhs && lhs ≤ r.high * scale
  else r.low * scale < lhs && lhs < r.high * scale

def decimalOrder (num den : Nat) : Nat → Int → Int
  | 0, k => k
  | fuel + 1, k =>
    let below := if k < 0 then num * pow10 k.natAbs < den else num < den * pow10 k.natAbs
    if below then k else decimalOrder num den fuel (k + 1)

def ReadBack.onGrid? (r : ReadBack) (power : Int) : Option Nat :=
  let (num, den) :=
    if power < 0 then (r.value * pow10 power.natAbs, r.den)
    else (r.value, r.den * pow10 power.natAbs)
  let low := num / den
  let nearest := roundDiv num den
  let other := if nearest = low then low + 1 else low
  if r.holds nearest power then some nearest
  else if r.holds other power then some other
  else none

def ReadBack.search (r : ReadBack) (order : Int) : Nat → Nat → Numeral
  | 0, n => ⟨(r.onGrid? (order - n)).getD 0, order - n⟩
  | fuel + 1, n =>
    match r.onGrid? (order - n) with
    | some digits => ⟨digits, order - n⟩
    | none => r.search order fuel (n + 1)

def shortest (significand : Nat) (exponent : Int) : Numeral :=
  let r := readBack significand exponent
  r.search (decimalOrder r.value r.den 700 (-330)) 16 1

def padLeft (width : Nat) (s : String) : String :=
  "".pushn '0' (width - s.length) ++ s

def dropZeros (fuel : Nat) (n : Numeral) : Numeral :=
  match fuel with
  | 0 => n
  | fuel + 1 =>
    if n.digits ≠ 0 ∧ n.digits % 10 = 0 then dropZeros fuel ⟨n.digits / 10, n.power + 1⟩ else n

/-- Positional from `0.0001` up to below `10 ^ 16`, and with a two-digit exponent outside. -/
def Numeral.write (n : Numeral) : String :=
  let digits := toString n.digits
  let point : Int := digits.length + n.power
  if -4 < point ∧ point ≤ 16 then
    if point ≤ 0 then "0." ++ "".pushn '0' point.natAbs ++ digits
    else if n.power ≥ 0 then digits ++ "".pushn '0' n.power.natAbs ++ ".0"
    else
      let (whole, part) := digits.toList.splitAt point.natAbs
      String.ofList whole ++ "." ++ String.ofList part
  else
    let e := point - 1
    let mark := if e < 0 then "e-" else "e+"
    let head := match digits.toList with
      | [] => ""
      | [d] => String.ofList [d]
      | d :: rest => String.ofList (d :: '.' :: rest)
    head ++ mark ++ padLeft 2 (toString e.natAbs)

def signText (negative : Bool) : String := if negative then "-" else ""

def shortestText : Binary64 → String
  | nan => "nan"
  | infinite negative => signText negative ++ "inf"
  | finite negative 0 _ => signText negative ++ "0.0"
  | finite negative m e => signText negative ++ (dropZeros 20 (shortest m e)).write

def twoPlaces : Binary64 → String
  | nan => "nan"
  | infinite negative => signText negative ++ "inf"
  | finite negative m e =>
    let hundredths :=
      if e < 0 then roundDiv (m * 100) (pow2 e.natAbs) else m * 100 * pow2 e.natAbs
    signText negative ++ toString (hundredths / 100) ++ "." ++
      padLeft 2 (toString (hundredths % 100))

end ContractAudit.Binary64
