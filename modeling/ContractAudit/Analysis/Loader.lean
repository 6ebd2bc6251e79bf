import ContractAudit.Journal
import ContractAudit.Tree.Node

/-! Getting the parser: it is set up at the first request and held for later ones. A failed
step is reported. -/

namespace ContractAudit.Loader

inductive Step where
  | makeDirectory
  | build
  | load
  | setLanguage
deriving DecidableEq, Repr

def Step.all : List Step := [makeDirectory, build, load, setLanguage]

structure Parser where
  hasLanguage : Bool
deriving DecidableEq, Repr

/-- What is held once a step is done. A parser is made and held as soon as the library is loaded,
which is before its language is set. -/
def Step.done : Step → Option Parser → Option Parser
  | makeDirectory, held => held
  | build, held => held
  | load, _ => some ⟨false⟩
  | setLanguage, _ => some ⟨true⟩

structure Trouble where
  step : Step
  message : String
deriving DecidableEq, Repr

def Trouble.report (t : Trouble) : Journal :=
  .line ("Error initializing Rust parser: " ++ t.message)

/-- Does steps one after the other. The first that fails is reported, the rest are left out, and
what was held before it stays held. -/
def setUp (trouble : Option Trouble) : List Step → Option Parser → Journal × Option Parser
  | [], held => (.empty, held)
  | step :: rest, held =>
    match trouble.filter (·.step = step) with
    | some t => (t.report, held)
    | none => setUp trouble rest (step.done held)

def request (held : Option Parser) (trouble : Option Trouble) : Journal × Option Parser :=
  match held with
  | some parser => (.empty, some parser)
  | none => setUp trouble Step.all none

inductive ParseFault where
  | noLanguage
deriving DecidableEq, Repr

def ParseFault.message : ParseFault → String
  | noLanguage => "Parsing failed"

def tree (parse : Text → Node) (parser : Option Parser) (code : Text) :
    Except ParseFault (Option Node) :=
  match parser with
  | none => .ok none
  | some ⟨true⟩ => .ok (some (parse code))
  | some ⟨false⟩ => .error .noLanguage

end ContractAudit.Loader
