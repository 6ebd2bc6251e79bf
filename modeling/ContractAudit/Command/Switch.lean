import ContractAudit.Text.Quoted
import ContractAudit.Text.Similar

/-! Reading the words of a command line into switches and arguments. Switches may stand between
and after the arguments, short ones may share a word, and two dashes end them. -/

namespace ContractAudit.Command

inductive Switch where
  | output
  | model
  | verbose
  | readme
  | pdf
  | help
deriving DecidableEq, Repr

namespace Switch

def long : Switch → String
  | output => "--output"
  | model => "--model"
  | verbose => "--verbose"
  | readme => "--readme"
  | pdf => "--pdf"
  | help => "--help"

def letter? : Switch → Option Char
  | output => some 'o'
  | model => some 'm'
  | verbose => some 'v'
  | readme => some 'r'
  | pdf => some 'p'
  | help => none

def takesValue : Switch → Bool
  | output | model | readme | pdf => true
  | verbose | help => false

end Switch

inductive Mistake where
  | missingCommand
  | noSuchCommand (name : String)
  | noSuchSwitch (written : String) (similar : List String)
  | needsValue (written : String)
  | takesNoValue (written : String)
  | missingArgument (label : String)
  | badValue (label problem : String)
  | extraArguments (words : List String)
deriving DecidableEq, Repr

def Mistake.message : Mistake → String
  | missingCommand => "Missing command."
  | noSuchCommand name => "No such command " ++ Text.quoted name ++ "."
  | noSuchSwitch written [] => "No such option: " ++ written
  | noSuchSwitch written [one] => "No such option: " ++ written ++ " Did you mean " ++ one ++ "?"
  | noSuchSwitch written several =>
    "No such option: " ++ written ++ " (Possible options: " ++ ", ".intercalate several ++ ")"
  | needsValue written => "Option " ++ Text.quoted written ++ " requires an argument."
  | takesNoValue written => "Option " ++ Text.quoted written ++ " does not take a value."
  | missingArgument label => "Missing argument '" ++ label ++ "'."
  | badValue label problem => "Invalid value for " ++ label ++ ": " ++ problem
  | extraArguments [word] => "Got unexpected extra argument (" ++ word ++ ")"
  | extraArguments words => "Got unexpected extra arguments (" ++ " ".intercalate words ++ ")"

structure Words where
  switches : List (Switch × String)
  arguments : List String
deriving DecidableEq, Repr

def Words.value? (w : Words) (s : Switch) : Option String :=
  ((w.switches.filter (·.1 = s)).getLast?).map (·.2)

def Words.has (w : Words) (s : Switch) : Bool := (w.value? s).isSome

def looksLikeSwitch (word : String) : Bool := word.startsWith "-" && word.length > 1

def splitEquals (word : String) : String × Option String :=
  let chars := word.toList
  let name := String.ofList (chars.takeWhile (· ≠ '='))
  match chars.dropWhile (· ≠ '=') with
  | _ :: value => (name, some (String.ofList value))
  | [] => (name, none)

/-- What one word gives: switches that are complete, and one whose value is the next word. -/
structure Cluster where
  complete : List (Switch × String)
  pending : Option (Switch × String)

def readLetters (known : List Switch) : List Char → Except Mistake Cluster
  | [] => .ok ⟨[], none⟩
  | c :: rest =>
    let written := String.ofList ['-', c]
    match known.find? (·.letter? = some c) with
    | none => .error (.noSuchSwitch written [])
    | some s =>
      if s.takesValue then
        if rest.isEmpty then .ok ⟨[], some (s, written)⟩
        else .ok ⟨[(s, String.ofList rest)], none⟩
      else do
        let more ← readLetters known rest
        pure { more with complete := (s, "") :: more.complete }

def readSwitch (known : List Switch) (word : String) : Except Mistake Cluster :=
  let (name, value) := splitEquals word
  match known.find? (·.long = name), value with
  | some s, some v =>
    if s.takesValue then .ok ⟨[(s, v)], none⟩ else .error (.takesNoValue name)
  | some s, none => if s.takesValue then .ok ⟨[], some (s, name)⟩ else .ok ⟨[(s, "")], none⟩
  | none, _ =>
    if word.startsWith "--" then
      .error (.noSuchSwitch name (Similar.suggestions name (known.map Switch.long)))
    else readLetters known (word.toList.drop 1)

/-- Reads words, the first as the value of a pending switch if there is one. Unless switches may
stand between arguments, the first argument ends them. -/
def readFrom (known : List Switch) (between : Bool) :
    Option (Switch × String) → List String → Except Mistake Words
  | some (_, written), [] => .error (.needsValue written)
  | some (s, _), value :: rest => do
    let words ← readFrom known between none rest
    pure { words with switches := (s, value) :: words.switches }
  | none, [] => .ok ⟨[], []⟩
  | none, word :: rest =>
    if word = "--" then .ok ⟨[], rest⟩
    else if looksLikeSwitch word then do
      let cluster ← readSwitch known word
      let words ← readFrom known between cluster.pending rest
      pure { words with switches := cluster.complete ++ words.switches }
    else if between then do
      let words ← readFrom known between none rest
      pure { words with arguments := word :: words.arguments }
    else .ok ⟨[], word :: rest⟩

def readWords (known : List Switch) (between : Bool) (words : List String) :
    Except Mistake Words :=
  readFrom known between none words

end ContractAudit.Command
