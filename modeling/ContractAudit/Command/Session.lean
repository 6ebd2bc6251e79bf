import ContractAudit.Advice.Basic
import ContractAudit.Analysis.Analyzer
import ContractAudit.Command.Console
import ContractAudit.Report.Document
import ContractAudit.Report.Listing
import ContractAudit.Value.Writer

/-! What a command works in: the files, what it has printed and logged, the documents it made, the
requests it sent and the parser it holds. Work can stop with a status or a fault, and what was done
before stays. -/

namespace ContractAudit.Command

structure Setting where
  console : Console
  cargo : Cargo
  trouble : Option Loader.Trouble
  parse : Text → Node
  apiKey : Option String
  /-- The reply to each request, by its number from zero on. -/
  service : Nat → Advice.Reply
  elapsed : Binary64
  now : String

structure Session where
  files : FileSystem
  journal : Journal
  documents : List (String × List Report.Flowable)
  requests : List Advice.Request
  parser : Option Loader.Parser

def Session.start (files : FileSystem) : Session := ⟨files, .empty, [], [], none⟩

inductive Fault where
  | noKey
  | refused (message : String)
  | file (fault : FileFault)
  | manifest (fault : ReadFault)
  | analysis (fault : AnalysisFault)
  | value (fault : Value.Fault)
deriving DecidableEq, Repr

def Fault.message : Fault → String
  | noKey => Advice.noKeyMessage
  | refused message => message
  | file fault => fault.message
  | manifest fault => fault.message
  | analysis fault => fault.message
  | value fault => fault.message

inductive Stop where
  | exit (status : Nat)
  | fault (fault : Fault)
deriving DecidableEq, Repr

abbrev Job := ExceptT Stop (StateM Session)

namespace Job

def fail {α : Type} (fault : Fault) : Job α := throw (.fault fault)

def record (setting : Setting) (journal : Journal) : Job Unit := do
  let (played, refused) := setting.console.play journal.events
  modify fun s => { s with journal := s.journal ++ ⟨played⟩ }
  match refused with
  | none => pure ()
  | some message => fail (.refused message)

def say (setting : Setting) (line : String) : Job Unit :=
  record setting (.text (setting.console.echoed line))

def log (level : Level) (message : String) : Job Unit :=
  modify fun s => { s with journal := s.journal ++ .note level message }

def files : Job FileSystem := do pure (← get).files

def readFile (setting : Setting) (path : String) : Job (Option Text) := do
  let (journal, content) := readContent (← files) path
  record setting journal
  pure content

def saveValue (path : String) (v : Value) : Job Unit := do
  match (← files).write path (Utf8.encode v.document) with
  | .ok after => modify fun s => { s with files := after }
  | .error fault => fail (.file fault)

def saveDocument (setting : Setting) (path : String) (results : Value) : Job Unit := do
  match Report.document setting.now results with
  | .ok parts =>
    modify fun s => { s with documents := s.documents ++ [(path, parts)] }
    say setting (Report.savedLine path)
  | .error fault => fail (.value fault)

def print (setting : Setting) (verbose : Bool) (r : Record) : Job Unit := do
  let printed := Report.listing verbose r
  printed.lines.forM (say setting)
  match printed.fault with
  | none => pure ()
  | some fault => fail (.value fault)

def isReentrant (dir : String) : Job Bool := do
  match Manifest.reentrantAt (← files) dir with
  | .ok b => pure b
  | .error fault => fail (.manifest fault)

def surroundings (setting : Setting) (s : Session) : Surroundings :=
  ⟨s.files, setting.cargo, s.parser, setting.trouble, setting.parse, setting.elapsed⟩

def analyze (setting : Setting) (a : Analyzer) (code : Text) (path : String) :
    Job (Analyzer × Result) := do
  let outcome := a.analyze (surroundings setting (← get)) code (some path)
  modify fun s => { s with parser := outcome.held }
  record setting outcome.journal
  match outcome.result with
  | .ok result => pure (outcome.analyzer, result)
  | .error fault => fail (.analysis fault)

def requireKey (setting : Setting) : Job Unit := do
  if Advice.hasKey setting.apiKey then pure ()
  else
    log .error Advice.noKeyMessage
    fail .noKey

def ask (setting : Setting) (request : Advice.Request) : Job Advice := do
  let number := (← get).requests.length
  modify fun s => { s with requests := s.requests ++ [request] }
  let (journal, advice) := Advice.ofReply (setting.service number)
  record setting journal
  pure advice

def sayAdvice (setting : Setting) (advice : Advice) : Job Unit :=
  match advice.shown with
  | .ok line => say setting line
  | .error fault => fail (.value fault)

end Job
end ContractAudit.Command
