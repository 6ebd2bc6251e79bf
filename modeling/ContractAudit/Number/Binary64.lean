/-! Binary floating-point numbers of 53 bits, exactly: a number is a sign, a significand and a
power of two. Ratios are rounded to the nearest number, ties to the even significand. -/

namespace ContractAudit

/-- A number of the 64-bit format. A finite one is `significand * 2 ^ exponent`. -/
inductive Binary64 where
  | finite (negative : Bool) (significand : Nat) (exponent : Int)
  | infinite (negative : Bool)
  | nan
deriving DecidableEq, Repr

namespace Binary64

def pow2 (n : Nat) : Nat := Nat.pow 2 n

def pow10 (n : Nat) : Nat := Nat.pow 10 n

def zero : Binary64 := finite false 0 0

def roundDiv (num den : Nat) : Nat :=
  let q := num / den
  let twice := 2 * (num % den)
  if twice > den || (twice == den && q % 2 == 1) then q + 1 else q

def scaled (num den : Nat) (exponent : Int) : Nat :=
  if exponent < 0 then roundDiv (num * pow2 exponent.natAbs) den
  else roundDiv num (den * pow2 exponent.natAbs)

def reaches (num den : Nat) (e : Int) : Bool :=
  if e < 0 then num * pow2 e.natAbs ≥ den else num ≥ den * pow2 e.natAbs

def binaryOrder (num den : Nat) : Int :=
  let e : Int := (num.log2 : Int) - den.log2
  if reaches num den e then e else e - 1

def ofRatio (negative : Bool) (num den : Nat) : Binary64 :=
  if num = 0 then finite negative 0 0
  else
    let exponent := max (binaryOrder num den - 52) (-1074)
    let significand := scaled num den exponent
    let (significand, exponent) :=
      if significand = pow2 53 then (pow2 52, exponent + 1) else (significand, exponent)
    if exponent > 971 then infinite negative else finite negative significand exponent

def ofDecimal (negative : Bool) (digits : Nat) (power : Int) : Binary64 :=
  if power < 0 then ofRatio negative digits (pow10 power.natAbs)
  else ofRatio negative (digits * pow10 power.natAbs) 1

def ofInt (i : Int) : Binary64 := ofRatio (i < 0) i.natAbs 1

def ratio (negative : Bool) (significand : Nat) (exponent : Int) : Int × Nat :=
  let signed : Int := if negative then -(significand : Int) else significand
  if exponent < 0 then (signed, pow2 exponent.natAbs) else (signed * pow2 exponent.natAbs, 1)

def isEqual : Binary64 → Binary64 → Bool
  | finite s m e, finite s' m' e' =>
    (ratio s m e).1 * (ratio s' m' e').2 = (ratio s' m' e').1 * (ratio s m e).2
  | infinite a, infinite b => a = b
  | _, _ => false

def isInt (i : Int) : Binary64 → Bool
  | finite s m e => (ratio s m e).1 = i * (ratio s m e).2
  | _ => false

def add : Binary64 → Binary64 → Binary64
  | nan, _ => nan
  | _, nan => nan
  | infinite a, infinite b => if a = b then infinite a else nan
  | infinite a, finite .. => infinite a
  | finite .., infinite b => infinite b
  | finite s m e, finite s' m' e' =>
    if m = 0 ∧ m' = 0 then finite (s && s') 0 0
    else
      let (a, b) := ratio s m e
      let (c, d) := ratio s' m' e'
      let num := a * d + c * b
      if num = 0 then zero else ofRatio (num < 0) num.natAbs (b * d)

end Binary64
end ContractAudit
