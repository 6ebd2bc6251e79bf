import ContractAudit.Command.Run
import ContractAudit.Files.Change
import ContractAudit.Report.Timestamp
import ContractAudit.Rust.Parser

/-! The program: it reads the working directory, runs the command line on it, and writes what
came of it. Nothing outside of the working directory is there for it, and links to directories are
left out. It starts no other programs and opens no connections, so macros are not expanded and the
advice service cannot be reached; the time of an analysis is not measured. -/

open ContractAudit

partial def readEntries (entries : Array IO.FS.DirEntry) : IO (List (String × Entry)) := do
  let mut found := []
  for e in entries do
    try
      if (← e.path.symlinkMetadata).type == .dir then
        found := (e.fileName, Entry.dir (← readEntries (← e.path.readDir))) :: found
      else found := (e.fileName, Entry.file (← IO.FS.readBinFile e.path).toList) :: found
    catch _ => pure ()
  return found.reverse

def readFiles : IO FileSystem := do
  let dir ← IO.currentDir
  let cwd := Path.names [] dir.toString
  let root := Entry.insertAt (.dir (← readEntries (← dir.readDir))) cwd (.dir [])
  if h : root.isRegular = true ∧ ∀ name ∈ cwd, Path.isName name = true then
    return .ofRoot root cwd h
  else throw (IO.userError "the working directory cannot be read")

def currentSeconds : IO Nat := do
  let (_, path) ← IO.FS.createTempFile
  let written ← path.metadata
  IO.FS.removeFile path
  return written.modified.sec.toNat

def plainText : Report.Flowable → String
  | .paragraph _ s => s ++ "\n"
  | .space _ => "\n"
  | .pageBreak => "\x0c\n"
  | .table rows => String.join (rows.map fun row =>
      ": ".intercalate (row.map fun
        | .text s => s
        | .paragraph _ s => s) ++ "\n")

def listFiles (files : FileSystem) : List (String × Option Bytes) :=
  (((files.root.at? files.cwd).map (Entry.listing "")).getD [])

def main (args : List String) : IO UInt32 := do
  let files ← readFiles
  let setting : Command.Setting := {
    console := ⟨← (← IO.getStdout).isTty, fun _ => none⟩
    cargo := .missing
    trouble := none
    parse := Rust.parse
    apiKey := ← IO.getEnv "OPENAI_API_KEY"
    service := fun _ => .refused "Connection error."
    elapsed := .zero
    now := Report.timestamp (← currentSeconds) }
  let outcome := Command.call setting files args
  let before := listFiles files
  for (path, bytes) in listFiles outcome.session.files do
    if let some bytes := bytes then
      unless before.contains (path, some bytes) do
        IO.FS.writeBinFile path ⟨bytes.toArray⟩
  for (path, parts) in outcome.session.documents do
    IO.FS.writeFile path (String.join (parts.map plainText))
  for event in outcome.session.journal.events do
    match event with
    | .wrote text => IO.print text
    | .noted level message => IO.eprintln (level.name ++ " - " ++ message)
  IO.eprint outcome.err
  return outcome.status.toUInt32
