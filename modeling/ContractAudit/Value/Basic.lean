import ContractAudit.Number.Decimal
import ContractAudit.Text.Rough

/-! Dynamic values: what a result may hold in its fields and what a JSON document denotes.
Members of a dictionary keep their order. -/

namespace ContractAudit

inductive Value where
  | null
  | bool (b : Bool)
  | int (i : Int)
  | float (x : Binary64)
  | string (s : String)
  | rough (s : Rough)
  | list (items : List Value)
  | object (members : List (String × Value))
deriving Repr

namespace Value

def setMember (members : List (String × Value)) (name : String) (v : Value) :
    List (String × Value) :=
  if members.any (·.1 = name) then members.map fun m => if m.1 = name then (name, v) else m
  else members ++ [(name, v)]

def member? (members : List (String × Value)) (name : String) : Option Value :=
  (members.find? (·.1 = name)).map (·.2)

def typeName : Value → String
  | null => "NoneType"
  | bool _ => "bool"
  | int _ => "int"
  | float _ => "float"
  | string _ => "str"
  | rough _ => "str"
  | list _ => "list"
  | object _ => "dict"

def isTruthy : Value → Bool
  | null => false
  | bool b => b
  | int i => i ≠ 0
  | float (.finite _ 0 _) => false
  | float _ => true
  | string s => s ≠ ""
  | rough _ => true
  | list items => !items.isEmpty
  | object members => !members.isEmpty

mutual

def quoted : Value → String
  | null => "None"
  | bool true => "True"
  | bool false => "False"
  | int i => toString i
  | float x => x.shortestText
  | string s => Text.quoted s
  | rough s => s.quoted
  | list items => "[" ++ ", ".intercalate (quotedItems items) ++ "]"
  | object members => "\x7b" ++ ", ".intercalate (quotedMembers members) ++ "\x7d"

def quotedItems : List Value → List String
  | [] => []
  | v :: vs => quoted v :: quotedItems vs

def quotedMembers : List (String × Value) → List String
  | [] => []
  | (name, v) :: rest => (Text.quoted name ++ ": " ++ quoted v) :: quotedMembers rest

end

def text : Value → String
  | string s => s
  | rough s => s.replaced
  | v => quoted v

end Value
end ContractAudit
