import ContractAudit.Analysis.Detector
import ContractAudit.Analysis.Expansion
import ContractAudit.Analysis.Loader
import ContractAudit.Analysis.Manifest
import ContractAudit.Analysis.Result

/-! An analyzer runs its detectors one after the other on a source. A detector that fails leaves
an error, and the next one runs. -/

namespace ContractAudit

/-- What an analysis finds around it: the files, what the expansion command does, the parser that
is held or the trouble in getting one, what a parser makes of a source, and the time. -/
structure Surroundings where
  files : FileSystem
  cargo : Cargo
  held : Option Loader.Parser
  trouble : Option Loader.Trouble
  parse : Text → Node
  elapsed : Binary64

inductive AnalysisFault where
  | noPath
  | parse (fault : Loader.ParseFault)
  | manifest (fault : ReadFault)
deriving DecidableEq, Repr

def AnalysisFault.message : AnalysisFault → String
  | noPath => "expected str, bytes or os.PathLike object, not NoneType"
  | parse fault => fault.message
  | manifest fault => fault.message

structure Analyzer where
  detectors : List Detector

namespace Analyzer

def default : Analyzer := ⟨Detector.defaults⟩

def register (a : Analyzer) (d : Detector) : Analyzer := ⟨a.detectors ++ [d]⟩

def clear (_a : Analyzer) : Analyzer := ⟨[]⟩

structure Sweep where
  detectors : List Detector
  journal : Journal
  issues : List Issue
  errors : List ErrorEntry

def failureJournal (name : String) : Option Failure → Journal
  | none => .empty
  | some failure => .note .error ("Error in detector " ++ name ++ ": " ++ failure.message)

def failureErrors (name : String) : Option Failure → List ErrorEntry
  | none => []
  | some failure => [⟨name, failure.message⟩]

def Sweep.step (code : Text) (root : Node) (s : Sweep) (d : Detector) : Sweep :=
  let (d', findings) := d.run code s.issues root
  { detectors := s.detectors ++ [d']
    journal := s.journal ++ failureJournal d.name findings.failure
    issues := findings.issues
    errors := s.errors ++ failureErrors d.name findings.failure }

def sweep (code : Text) (root : Node) (errors : List ErrorEntry) (ds : List Detector) : Sweep :=
  ds.foldl (Sweep.step code root) ⟨[], .empty, [], errors⟩

def preprocessorError : ErrorEntry :=
  ⟨"preprocessor", "Failed to preprocess code with cargo expand"⟩

def prepare (s : Surroundings) (code : Text) (path : Option String) :
    Journal × Text × List ErrorEntry :=
  match path with
  | none => (.empty, code, [])
  | some path =>
    if path = "" then (.empty, code, [])
    else
      let (journal, expanded) := s.cargo.expand s.files path
      match expanded with
      | some (c :: cs) => (journal, c :: cs, [])
      | _ => (journal, code, [preprocessorError])

def reentrancyIssue : Issue where
  kind := "reentrancy_feature"
  severity := .warning
  description := "Reentrancy feature is disabled for stylus-sdk."
  lineStart := 0
  lineEnd := 0
  snippet := ""
  recommendation := "Consider removing the reentrant feature with caution."

def manifestIssues (files : FileSystem) (path : Option String) :
    Except AnalysisFault (List Issue) :=
  match path with
  | none => .error .noPath
  | some path =>
    match Manifest.reentrantAt files (Path.dirname path) with
    | .error fault => .error (.manifest fault)
    | .ok true => .ok [reentrancyIssue]
    | .ok false => .ok []

structure Outcome where
  analyzer : Analyzer
  held : Option Loader.Parser
  journal : Journal
  result : Except AnalysisFault Result

def analyze (a : Analyzer) (s : Surroundings) (code : Text) (path : Option String) : Outcome :=
  let (prepared, code, errors) := prepare s code path
  let (loaded, held) := Loader.request s.held s.trouble
  match Loader.tree s.parse held code with
  | .error fault => ⟨a, held, prepared ++ loaded, .error (.parse fault)⟩
  | .ok none =>
    { analyzer := a
      held := held
      journal := prepared ++ loaded ++ .note .error "Failed to generate AST"
      result := .ok ⟨[],
        errors ++ [⟨"parser", "Failed to generate AST for the provided code"⟩], s.elapsed⟩ }
  | .ok (some root) =>
    let swept := sweep code root errors a.detectors
    { analyzer := ⟨swept.detectors⟩
      held := held
      journal := prepared ++ loaded ++ swept.journal
      result := (manifestIssues s.files path).map fun more =>
        ⟨swept.issues ++ more, swept.errors, s.elapsed⟩ }

end Analyzer
end ContractAudit
