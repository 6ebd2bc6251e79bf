/-! What a piece of work leaves behind: text on the standard output and lines in the log, in the
order in which they come. -/

namespace ContractAudit

inductive Level where
  | info
  | warning
  | error
deriving DecidableEq, Repr

def Level.name : Level → String
  | info => "INFO"
  | warning => "WARNING"
  | error => "ERROR"

inductive Event where
  | wrote (text : String)
  | noted (level : Level) (message : String)
deriving DecidableEq, Repr

structure Journal where
  events : List Event
deriving DecidableEq, Repr

namespace Journal

def empty : Journal := ⟨[]⟩

def append (a b : Journal) : Journal := ⟨a.events ++ b.events⟩

instance : Append Journal := ⟨append⟩

def text (s : String) : Journal := ⟨[.wrote s]⟩

def line (s : String) : Journal := text (s ++ "\n")

def note (level : Level) (message : String) : Journal := ⟨[.noted level message]⟩

def out (j : Journal) : String :=
  String.join (j.events.filterMap fun
    | .wrote s => some s
    | .noted _ _ => none)

def log (j : Journal) : List (Level × String) :=
  j.events.filterMap fun
    | .wrote _ => none
    | .noted level message => some (level, message)

end Journal
end ContractAudit
