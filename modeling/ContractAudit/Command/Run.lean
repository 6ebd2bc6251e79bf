import ContractAudit.Command.Invocation
import ContractAudit.Command.Session

/-! Running commands. -/

namespace ContractAudit.Command

open Job

def versionText : String := "Stylus Analyzer v0.1.0"

def present? : Option String → Option String
  | some s => if s = "" then none else some s
  | none => none

def showAdvice (setting : Setting) (shortPath : String) (advice : Advice) : Job Unit := do
  say setting ("\n===== AI Analysis for " ++ shortPath ++ " =====")
  sayAdvice setting advice

def adviseOne (setting : Setting) (project : Project) (modelName : String) (loud : Bool)
    (path : String) (content : Text) : Job (String × Value) := do
  let shortPath := Path.relative (← files).cwd path project.directory
  log .info ("Analyzing contract: " ++ shortPath)
  let advice ← ask setting (Advice.request modelName content project.readme)
  if loud then showAdvice setting shortPath advice
  pure (shortPath, advice.toValue)

def adviseAll (setting : Setting) (project : Project) (modelName : String) (loud : Bool)
    (results : List (String × Value)) :
    List (String × Text) → Job (List (String × Value))
  | [] => pure results
  | (path, content) :: rest => do
    let (shortPath, advice) ← adviseOne setting project modelName loud path content
    adviseAll setting project modelName loud (Value.setMember results shortPath advice) rest

def saveResults (output : Option String) (what : String) (v : Value) : Job Unit :=
  match present? output with
  | none => pure ()
  | some path => do
    saveValue path v
    log .info (what ++ " results saved to: " ++ path)

def runAnalyze (setting : Setting) (dir : String) (output : Option String) (modelName : String)
    (verbose : Bool) : Job Unit := do
  log .info ("Analyzing Stylus project in: " ++ dir)
  let (journal, project) := Project.collect (← files) dir
  record setting journal
  if project.contracts.isEmpty then
    log .error "No Rust contract files found in the project directory"
    throw (.exit 1)
  requireKey setting
  let loud := verbose || (present? output).isNone
  let results ← adviseAll setting project modelName loud [] project.contracts
  saveResults output "Analysis" (.object results)

def filled? : Option Text → Option Text
  | some (c :: cs) => some (c :: cs)
  | _ => none

def readReadme (setting : Setting) (path : Option String) : Job (Option Text) :=
  match present? path with
  | none => pure none
  | some path => do
    let content ← readFile setting path
    if (filled? content).isNone then log .warning ("Could not read README file: " ++ path)
    pure content

def runAnalyzeFile (setting : Setting) (path : String) (readme output : Option String)
    (modelName : String) : Job Unit := do
  log .info ("Analyzing file: " ++ path)
  match filled? (← readFile setting path) with
  | none =>
    log .error ("Could not read file: " ++ path)
    throw (.exit 1)
  | some content =>
    let context ← readReadme setting readme
    requireKey setting
    let advice ← ask setting (Advice.request modelName content context)
    sayAdvice setting advice
    saveResults output "Analysis" advice.toValue

def reentrancyNotice : List String := [
  "\nHigh severity issues:",
  "  [1] Reentrancy feature status",
  "      Status: You have disabled for stylus-sdk",
  "\n  [dependencies]\n  stylus-sdk = \x7b version = \"0.6.0\", features = [\"reentrant\"] \x7d\n",
  "  Recommendation: You can remove reentrant from features so it can handle automatically by " ++
    "stylus-sdk.",
  "  Ensure that your contract logic is designed to handle reentrancy appropriately."]

/-- The notice about the manifest of a directory. No file has been analysed when it is printed,
so the number of issues in it is zero. -/
def sayReentrancy (setting : Setting) (dir : String) (fileCount : Nat) : Job Unit := do
  if ← isReentrant dir then
    reentrancyNotice.forM (say setting)
    say setting "\n===== Analysis Summary ====="
    say setting ("Analyzed " ++ toString fileCount ++ " files")
    say setting "Found 0 total issues"
  else say setting "Reentrancy feature is enabled for stylus-sdk."

def sayTime (setting : Setting) (result : Result) : Job Unit :=
  say setting ("Analysis completed in " ++ result.time.twoPlaces ++ " seconds")

def analyzeAll (setting : Setting) (dir : String) (verbose : Bool) (a : Analyzer)
    (results : List (String × Value)) : List String → Job (List (String × Value))
  | [] => pure results
  | path :: rest => do
    let shortPath := Path.relative (← files).cwd path dir
    say setting ("\n===== Static Analysis for " ++ shortPath ++ " =====")
    match filled? (← readFile setting path) with
    | none =>
      say setting ("Could not read file: " ++ path)
      analyzeAll setting dir verbose a results rest
    | some code =>
      let (a, result) ← Job.analyze setting a code path
      print setting verbose result.record
      sayTime setting result
      analyzeAll setting dir verbose a
        (Value.setMember results shortPath result.record.toValue) rest

def saveReport (setting : Setting) (pdf : Option String) (v : Value) : Job Unit :=
  match present? pdf with
  | none => pure ()
  | some path => saveDocument setting path v

def analyzeDirectory (setting : Setting) (dir : String) (output pdf : Option String)
    (verbose : Bool) : Job Unit := do
  match Project.contractPaths (← files) dir with
  | [] => say setting "No Rust contract files found in the directory."
  | paths =>
    sayReentrancy setting dir paths.length
    let results ← analyzeAll setting dir verbose .default [] paths
    saveResults output "Static analysis" (.object results)
    saveReport setting pdf (.object results)

def analyzeOne (setting : Setting) (path : String) (output pdf : Option String)
    (verbose : Bool) : Job Unit := do
  match filled? (← readFile setting path) with
  | none => say setting ("Could not read file: " ++ path)
  | some code =>
    let (_, result) ← Job.analyze setting .default code path
    print setting verbose result.record
    sayTime setting result
    saveResults output "Static analysis" result.record.toValue
    saveReport setting pdf result.record.toValue
    sayReentrancy setting path 0

def runStaticAnalyze (setting : Setting) (target : String) (output pdf : Option String)
    (verbose : Bool) : Job Unit := do
  if (← files).isDirAt target then analyzeDirectory setting target output pdf verbose
  else analyzeOne setting target output pdf verbose

def Invocation.run (setting : Setting) : Invocation → Job Unit
  | .help usage => say setting usage.line
  | .version => say setting versionText
  | .analyze dir output modelName verbose => runAnalyze setting dir output modelName verbose
  | .analyzeFile path readme output modelName =>
    runAnalyzeFile setting path readme output modelName
  | .staticAnalyze target output pdf verbose =>
    runStaticAnalyze setting target output pdf verbose

structure Outcome where
  status : Nat
  err : String
  session : Session

def Invocation.execute (setting : Setting) (files : FileSystem) (i : Invocation) : Outcome :=
  match (i.run setting).run.run (Session.start files) with
  | (.ok (), s) => ⟨0, "", s⟩
  | (.error (.exit status), s) => ⟨status, "", s⟩
  | (.error (.fault fault), s) =>
    ⟨1, "", { s with journal := s.journal ++ .note .error ("Error: " ++ fault.message) }⟩

def call (setting : Setting) (files : FileSystem) (words : List String) : Outcome :=
  match ofWords files words with
  | .ok invocation => invocation.execute setting files
  | .error (usage, mistake) => ⟨2, usage.report mistake, Session.start files⟩

end ContractAudit.Command
