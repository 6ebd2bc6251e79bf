import ContractAudit.Value.Basic

/-! Reading JSON documents. Of members with the same name the last counts, at the place of the
first. -/

namespace ContractAudit.Value

abbrev Reader (α : Type) := List Char → Option (α × List Char)

def isSpace (c : Char) : Bool := c = ' ' || c = '\n' || c = '\r' || c = '\t'

def skipSpace (s : List Char) : List Char := s.dropWhile isSpace

def hexValue? (c : Char) : Option Nat :=
  if '0' ≤ c && c ≤ '9' then some (c.toNat - 48)
  else if 'a' ≤ c && c ≤ 'f' then some (c.toNat - 87)
  else if 'A' ≤ c && c ≤ 'F' then some (c.toNat - 55)
  else none

def readUnit : Reader Nat
  | a :: b :: c :: d :: rest => do
    let n := (← hexValue? a) * 4096 + (← hexValue? b) * 256 + (← hexValue? c) * 16 + (← hexValue? d)
    some (n, rest)
  | _ => none

def isHighUnit (n : Nat) : Bool := 0xD800 ≤ n && n < 0xDC00

def isLowUnit (n : Nat) : Bool := 0xDC00 ≤ n && n < 0xE000

def readEscapedUnit (s : List Char) : Option (Point × List Char) := do
  let (n, rest) ← readUnit s
  let alone : Point := .half (Fin.ofNat 0x800 (n - 0xD800))
  if isHighUnit n then
    match rest with
    | '\\' :: 'u' :: more =>
      match readUnit more with
      | some (m, rest') =>
        if isLowUnit m then
          some (.char (Char.ofNat (0x10000 + (n - 0xD800) * 0x400 + (m - 0xDC00))), rest')
        else some (alone, rest)
      | none => some (alone, rest)
    | _ => some (alone, rest)
  else if isLowUnit n then some (alone, rest)
  else some (.char (Char.ofNat n), rest)

def readPoints (done : List Point) : Nat → Reader (List Point)
  | 0, _ => none
  | fuel + 1, s =>
    match s with
    | '"' :: rest => some (done.reverse, rest)
    | '\\' :: 'n' :: rest => readPoints (.char '\n' :: done) fuel rest
    | '\\' :: 't' :: rest => readPoints (.char '\t' :: done) fuel rest
    | '\\' :: 'r' :: rest => readPoints (.char '\r' :: done) fuel rest
    | '\\' :: 'b' :: rest => readPoints (.char '\x08' :: done) fuel rest
    | '\\' :: 'f' :: rest => readPoints (.char '\x0c' :: done) fuel rest
    | '\\' :: 'u' :: rest =>
      match readEscapedUnit rest with
      | some (p, rest) => readPoints (p :: done) fuel rest
      | none => none
    | '\\' :: c :: rest => readPoints (.char c :: done) fuel rest
    | c :: rest => readPoints (.char c :: done) fuel rest
    | [] => none

def ofPoints (points : List Point) : Value :=
  if h : points.any Point.isHalf = true then rough ⟨points, h⟩
  else string (String.ofList (points.flatMap Point.chars))

def isDigit (c : Char) : Bool := '0' ≤ c && c ≤ '9'

def digitsValue (ds : List Char) : Nat := ds.foldl (fun n c => n * 10 + (c.toNat - 48)) 0

def readExponent (s : List Char) : Option Int × List Char :=
  match s with
  | c :: rest =>
    if c = 'e' || c = 'E' then
      let (sign, rest) : Int × List Char := match rest with
        | '-' :: r => (-1, r)
        | '+' :: r => (1, r)
        | r => (1, r)
      let (ds, rest') := rest.span isDigit
      if ds.isEmpty then (none, s) else (some (sign * digitsValue ds), rest')
    else (none, s)
  | [] => (none, s)

def readNumber (s : List Char) : Option (Value × List Char) :=
  let (negative, s) := match s with
    | '-' :: r => (true, r)
    | r => (false, r)
  let (whole, s) := s.span isDigit
  if whole.isEmpty then none
  else
    let (part, s) := match s with
      | '.' :: r =>
        let (ds, r') := r.span isDigit
        if ds.isEmpty then (none, s) else (some ds, r')
      | _ => (none, s)
    let (exponent, s) := readExponent s
    match part, exponent with
    | none, none =>
      let n : Int := digitsValue whole
      some (int (if negative then -n else n), s)
    | _, _ =>
      let ds := part.getD []
      let power := exponent.getD 0 - ds.length
      some (float (.ofDecimal negative (digitsValue (whole ++ ds)) power), s)

mutual

def readValue : Nat → Reader Value
  | 0, _ => none
  | fuel + 1, s =>
    match skipSpace s with
    | '"' :: rest =>
      (readPoints [] (rest.length + 1) rest).map fun (points, r) => (ofPoints points, r)
    | '[' :: rest =>
      match skipSpace rest with
      | ']' :: r => some (list [], r)
      | r => readItems fuel [] r
    | '{' :: rest =>
      match skipSpace rest with
      | '}' :: r => some (object [], r)
      | r => readMembers fuel [] r
    | 't' :: 'r' :: 'u' :: 'e' :: rest => some (bool true, rest)
    | 'f' :: 'a' :: 'l' :: 's' :: 'e' :: rest => some (bool false, rest)
    | 'n' :: 'u' :: 'l' :: 'l' :: rest => some (null, rest)
    | rest => readNumber rest

def readItems : Nat → List Value → Reader Value
  | 0, _, _ => none
  | fuel + 1, done, s => do
    let (v, rest) ← readValue fuel s
    match skipSpace rest with
    | ',' :: r => readItems fuel (v :: done) r
    | ']' :: r => some (list (v :: done).reverse, r)
    | _ => none

def readMembers : Nat → List (String × Value) → Reader Value
  | 0, _, _ => none
  | fuel + 1, done, s =>
    match skipSpace s with
    | '"' :: rest => do
      let (points, rest) ← readPoints [] (rest.length + 1) rest
      let name := (ofPoints points).text
      match skipSpace rest with
      | ':' :: rest =>
        let (v, rest) ← readValue fuel rest
        match skipSpace rest with
        | ',' :: r => readMembers fuel (setMember done name v) r
        | '}' :: r => some (object (setMember done name v), r)
        | _ => none
      | _ => none
    | _ => none

end

def ofDocument? (s : String) : Option Value :=
  let chars := s.toList
  match readValue (chars.length + 2) chars with
  | some (v, rest) => if (skipSpace rest).isEmpty then some v else none
  | none => none

end ContractAudit.Value
