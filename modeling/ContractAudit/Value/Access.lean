import ContractAudit.Value.Basic

/-! Using dynamic values where a certain shape is expected, and what goes wrong when a value has
another shape. -/

namespace ContractAudit.Value

inductive Fault where
  | noMember (name : String)
  | noField (type name : String)
  | notSubscriptable (type : String)
  | notIterable (type : String)
  | noLength (type : String)
  | unhashable (type : String)
  | cannotAdd (left right : String)
  | noFormatCode (type : String)
  | noFormat (type : String)
  | tooLarge
  | unpaired (before : Nat) (s : Rough)
deriving DecidableEq, Repr

def Fault.message : Fault → String
  | noMember name => Text.quoted name
  | noField type name => "'" ++ type ++ "' object has no attribute '" ++ name ++ "'"
  | notSubscriptable type => "'" ++ type ++ "' object is not subscriptable"
  | notIterable type => "'" ++ type ++ "' object is not iterable"
  | noLength type => "object of type '" ++ type ++ "' has no len()"
  | unhashable type => "unhashable type: '" ++ type ++ "'"
  | cannotAdd left right =>
    "unsupported operand type(s) for +: '" ++ left ++ "' and '" ++ right ++ "'"
  | noFormatCode type => "Unknown format code 'f' for object of type '" ++ type ++ "'"
  | noFormat type => "unsupported format string passed to " ++ type ++ ".__format__"
  | tooLarge => "int too large to convert to float"
  | unpaired before s => s.problem before

def hasMember (name : String) : Value → Bool
  | object members => (member? members name).isSome
  | _ => false

def demand (v : Value) (name : String) : Except Fault Value :=
  match v with
  | object members =>
    match member? members name with
    | some m => .ok m
    | none => .error (.noMember name)
  | _ => .error (.notSubscriptable v.typeName)

def getOr (v : Value) (name : String) (default : Value) : Except Fault Value :=
  match v with
  | object members => .ok ((member? members name).getD default)
  | _ => .error (.noField v.typeName "get")

def ofPoint : Point → Value
  | .char c => string c.toString
  | .half n => rough ⟨[.half n], rfl⟩

def walked : Value → Except Fault (List Value)
  | list items => .ok items
  | object members => .ok (members.map fun m => string m.1)
  | string s => .ok (s.toList.map fun c => string c.toString)
  | rough s => .ok (s.points.map ofPoint)
  | v => .error (.notIterable v.typeName)

def shown (before : Nat) : Value → Except Fault String
  | rough s => .error (.unpaired before s)
  | v => .ok v.text

def lookedUp (v : Value) : Except Fault Value :=
  match v with
  | list _ | object _ => .error (.unhashable v.typeName)
  | _ => .ok v

inductive Number where
  | int (i : Int)
  | float (x : Binary64)

def number? : Value → Option Number
  | bool b => some (.int (if b then 1 else 0))
  | int i => some (.int i)
  | float x => some (.float x)
  | _ => none

def Number.isEqual : Number → Number → Bool
  | int i, int j => i = j
  | int i, float x => x.isInt i
  | float x, int i => x.isInt i
  | float x, float y => x.isEqual y

/-- Whether two values are one key of a table: texts by their characters, numbers by their
value. -/
def isSameKey (a b : Value) : Bool :=
  match number? a, number? b with
  | some x, some y => x.isEqual y
  | none, none =>
    match a, b with
    | null, null => true
    | string s, string t => s = t
    | rough s, rough t => s = t
    | _, _ => false
  | _, _ => false

def asFloat (i : Int) : Except Fault Binary64 :=
  match Binary64.ofInt i with
  | .infinite _ => .error .tooLarge
  | x => .ok x

def plus (a b : Value) : Except Fault Value :=
  match number? a, number? b with
  | some (.int i), some (.int j) => .ok (int (i + j))
  | some (.int i), some (.float y) => do pure (float ((← asFloat i).add y))
  | some (.float x), some (.int j) => do pure (float (x.add (← asFloat j)))
  | some (.float x), some (.float y) => .ok (float (x.add y))
  | _, _ => .error (.cannotAdd a.typeName b.typeName)

def total (values : List Value) : Except Fault Value := values.foldlM plus (int 0)

def twoPlaces (v : Value) : Except Fault String :=
  match number? v, v with
  | some (.int i), _ => do pure (← asFloat i).twoPlaces
  | some (.float x), _ => .ok x.twoPlaces
  | none, string _ | none, rough _ => .error (.noFormatCode v.typeName)
  | none, _ => .error (.noFormat v.typeName)

end ContractAudit.Value
