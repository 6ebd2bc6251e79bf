import ContractAudit.Files.Project

/-! Macro expansion by an outside command before an analysis. When the command does not work the
file is taken as it is. -/

namespace ContractAudit

inductive Cargo where
  | fails
  | missing
  | prints (code : Text)
deriving DecidableEq, Repr

namespace Cargo

def failedMessage (path : String) : String :=
  "Command '['cargo', 'expand', '--file', " ++ Text.quoted path ++
    "]' returned non-zero exit status 101."

def missingFault : FileFault := ⟨.missing, "cargo"⟩

def expand (cargo : Cargo) (files : FileSystem) (path : String) : Journal × Option Text :=
  let fallBack (message : String) : Journal × Option Text :=
    let (journal, content) := readContent files path
    (.note .warning ("Failed to expand macros: " ++ message ++
      ". Falling back to original code.") ++ journal, content)
  match cargo with
  | prints code => (.empty, some code)
  | fails => fallBack (failedMessage path)
  | missing => fallBack missingFault.message

/-- The expanded code, or the text of the file with a printed warning. Without the command there
is nothing to fall back from. -/
def expandLoudly (cargo : Cargo) (files : FileSystem) (path : String) :
    Journal × Except FileFault (Option Text) :=
  match cargo with
  | prints code => (.empty, .ok (some code))
  | fails =>
    let (journal, content) := readContent files path
    (.line ("Warning: Failed to expand macros: " ++ failedMessage path) ++ journal, .ok content)
  | missing => (.empty, .error missingFault)

end Cargo
end ContractAudit
