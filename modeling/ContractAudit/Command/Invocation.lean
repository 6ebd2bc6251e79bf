import ContractAudit.Advice.Basic
import ContractAudit.Command.Switch
import ContractAudit.Files.FileSystem

/-! The commands, and the command that the words of a command line ask for. -/

namespace ContractAudit.Command

inductive Name where
  | analyze
  | analyzeFile
  | version
  | staticAnalyze
deriving DecidableEq, Repr

namespace Name

def all : List Name := [analyze, analyzeFile, version, staticAnalyze]

def text : Name → String
  | analyze => "analyze"
  | analyzeFile => "analyze-file"
  | version => "version"
  | staticAnalyze => "static-analyze"

def ofText? (s : String) : Option Name := all.find? (·.text = s)

def switches : Name → List Switch
  | analyze => [.output, .model, .verbose, .help]
  | analyzeFile => [.readme, .output, .model, .help]
  | version => [.help]
  | staticAnalyze => [.output, .pdf, .verbose, .help]

end Name

def program : String := "stylus-analyzer"

structure Usage where
  path : String
  words : String
deriving DecidableEq, Repr

def Usage.ofProgram : Usage := ⟨program, "[OPTIONS] COMMAND [ARGS]..."⟩

def Name.usage (n : Name) : Usage where
  path := program ++ " " ++ n.text
  words := match n with
    | .analyze => "[OPTIONS] [PROJECT_DIR]"
    | .analyzeFile => "[OPTIONS] FILE_PATH"
    | .version => "[OPTIONS]"
    | .staticAnalyze => "[OPTIONS] TARGET"

def Usage.line (u : Usage) : String := "Usage: " ++ u.path ++ " " ++ u.words

def Usage.report (u : Usage) (m : Mistake) : String :=
  let error := "Error: " ++ m.message ++ "\n"
  match m with
  | .needsValue _ | .takesNoValue _ => error
  | _ => u.line ++ "\nTry '" ++ u.path ++ " --help' for help.\n\n" ++ error

inductive Invocation where
  | help (usage : Usage)
  | version
  | analyze (dir : String) (output : Option String) (model : String) (verbose : Bool)
  | analyzeFile (path : String) (readme output : Option String) (model : String)
  | staticAnalyze (target : String) (output pdf : Option String) (verbose : Bool)
deriving DecidableEq, Repr

inductive PathKind where
  | directory
  | file
  | either
deriving DecidableEq, Repr

def PathKind.title : PathKind → String
  | directory => "Directory"
  | file => "File"
  | either => "Path"

def checkPath (files : FileSystem) (kind : PathKind) (label path : String) :
    Except Mistake String :=
  let bad (problem : String) : Except Mistake String :=
    .error (.badValue label (kind.title ++ " " ++ Text.quoted path ++ " " ++ problem ++ "."))
  match files.get path, kind with
  | .error _, _ => bad "does not exist"
  | .ok (.file _), .directory => bad "is a file"
  | .ok (.dir _), .file => bad "is a directory"
  | .ok _, _ => .ok path

def label (s : String) : String := "'" ++ s ++ "'"

def pathArgument (files : FileSystem) (kind : PathKind) (name : String) (default : Option String)
    (w : Words) : Except Mistake String :=
  match w.arguments.head?.or default with
  | none => .error (.missingArgument name)
  | some path => checkPath files kind (label name) path

def noMore (count : Nat) (w : Words) : Except Mistake Unit :=
  match w.arguments.drop count with
  | [] => .ok ()
  | extra => .error (.extraArguments extra)

def readmeSwitch (files : FileSystem) (w : Words) : Except Mistake (Option String) :=
  match w.value? .readme with
  | none => .ok none
  | some path => do
    pure (some (← checkPath files .either
      (label Switch.readme.long ++ " / " ++ label "-r") path))

def model (w : Words) : String := (w.value? .model).getD Advice.defaultModel

def Name.invocation (n : Name) (files : FileSystem) (w : Words) : Except Mistake Invocation :=
  if w.has .help then .ok (.help n.usage)
  else match n with
  | .version => do
    noMore 0 w
    pure .version
  | .analyze => do
    let dir ← pathArgument files .directory "[PROJECT_DIR]" (some ".") w
    noMore 1 w
    pure (.analyze dir (w.value? .output) (model w) (w.has .verbose))
  | .analyzeFile => do
    let readme ← readmeSwitch files w
    let path ← pathArgument files .file "FILE_PATH" none w
    noMore 1 w
    pure (.analyzeFile path readme (w.value? .output) (model w))
  | .staticAnalyze => do
    let target ← pathArgument files .either "TARGET" none w
    noMore 1 w
    pure (.staticAnalyze target (w.value? .output) (w.value? .pdf) (w.has .verbose))

def ofWords (files : FileSystem) (words : List String) : Except (Usage × Mistake) Invocation :=
  let top (m : Mistake) : Except (Usage × Mistake) Invocation := .error (Usage.ofProgram, m)
  if words.isEmpty then .ok (.help Usage.ofProgram)
  else match readWords [.help] false words with
  | .error m => top m
  | .ok w =>
    if w.has .help then .ok (.help Usage.ofProgram)
    else match w.arguments with
    | [] => top .missingCommand
    | first :: rest =>
      match Name.ofText? first with
      | none => top (.noSuchCommand first)
      | some n =>
        match (readWords n.switches true rest).bind (n.invocation files) with
        | .ok invocation => .ok invocation
        | .error m => .error (n.usage, m)

end ContractAudit.Command
