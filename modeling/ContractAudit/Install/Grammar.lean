import ContractAudit.Files.Change
import ContractAudit.Install.Library

/-! Setting the parser up from the files of the installed package. -/

namespace ContractAudit.Install

def libraryFunction : String := "tree_sitter_rust"

/-- Tries to set the parser up in a package directory. The library is built there when it is
missing, for which the generated parser has to be there. -/
def prepareGrammar (files : FileSystem) (package : String) : FileSystem × Option Loader.Trouble :=
  let build := Path.join package "build"
  let library := Path.join build "my-languages.so"
  let made := files.makeDirs build
  match made.fault with
  | some fault => (made.files, some ⟨.makeDirectory, fault.message⟩)
  | none =>
    match made.files.get library with
    | .ok e => (made.files, (Library.fault libraryFunction e).map (Library.Fault.trouble library))
    | .error _ =>
      let source := Path.join (Path.join (Path.join package "tree-sitter-rust") "src") "parser.c"
      match made.files.get source with
      | .ok _ => (made.files, none)
      | .error cause => (made.files, some ⟨.build, (⟨cause, source⟩ : FileFault).message⟩)

def requestParser (held : Option Loader.Parser) (files : FileSystem) (package : String) :
    FileSystem × Journal × Option Loader.Parser :=
  match held with
  | some parser => (files, .empty, some parser)
  | none =>
    let (after, trouble) := prepareGrammar files package
    (after, Loader.request none trouble)

end ContractAudit.Install
