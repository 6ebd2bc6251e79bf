import ContractAudit.Files.Change
import ContractAudit.Files.Glob
import ContractAudit.Value.Basic

/-! Installing the analyzer: the grammar is copied into the package, the packages are found, and
the readme becomes the long description. -/

namespace ContractAudit.Install

def grammarSource : String := "tree-sitter-rust"

def grammarTarget : String := "stylus_analyzer/tree-sitter-rust"

inductive Fault where
  | copy (fault : FileSystem.CopyFault)
  | readme (fault : ReadFault)
deriving DecidableEq, Repr

def Fault.message : Fault → String
  | copy fault => fault.message
  | readme fault => fault.message

def copyGrammar (files : FileSystem) : FileSystem × Option FileSystem.CopyFault :=
  let made := files.makeDirs grammarTarget
  match made.fault with
  | some fault => (made.files, some (.file fault))
  | none =>
    match made.files.get grammarSource with
    | .ok (.dir _) =>
      made.files.copyUntilFault grammarSource grammarTarget (made.files.listed grammarSource)
    | .ok _ => (made.files, some (.file ⟨.notDirectory, grammarSource⟩))
    | .error _ => (made.files, none)

/-- Packages that are not listed. What is below them is. -/
def isLeftOut (package : String) : Bool :=
  package = "ez_setup" || Glob.matchesName "*__pycache__" package

def packagesTo (files : FileSystem) : Nat → String → String → List String
  | 0, _, _ => []
  | depth + 1, dir, above =>
    (files.listed dir).flatMap fun name =>
      let path := Path.join dir name
      let package := if above = "" then name else above ++ "." ++ name
      if name.toList.contains '.' || !files.isFileAt (Path.join path "__init__.py") then []
      else (if isLeftOut package then [] else [package]) ++ packagesTo files depth path package

def packages (files : FileSystem) : List String :=
  (packagesTo files files.longest "." "").mergeSort fun a b => a ≤ b

def strings (xs : List String) : Value := .list (xs.map .string)

structure Contact where
  author : String
  email : String
  url : String

def declaration (contact : Contact) (packages : List String) (description : Text) :
    Value := .object [
  ("name", .string "stylus-analyzer"),
  ("version", .string "0.1.9"),
  ("packages", strings packages),
  ("package_data", .object [("stylus_analyzer", strings [
    "tree-sitter-rust/src/*",
    "tree-sitter-rust/src/**/*",
    "tree-sitter-rust/grammar.js",
    "tree-sitter-rust/package.json",
    "tree-sitter-rust/README.md",
    "tree-sitter-rust/binding.gyp",
    "tree-sitter-rust/Cargo.toml",
    "build/*",
    "build/**/*"])]),
  ("include_package_data", .bool true),
  ("install_requires", strings [
    "openai>=1.0.0",
    "python-dotenv>=1.0.0",
    "click>=8.0.0",
    "tree-sitter==0.20.2",
    "setuptools>=42.0.0",
    "reportlab>=3.0.0"]),
  ("entry_points", .object [("console_scripts",
    strings ["stylus-analyzer=stylus_analyzer.cli:main"])]),
  ("description", .string "AI-powered bug detection tool for Stylus/Rust contracts"),
  ("long_description", .string (String.ofList description)),
  ("long_description_content_type", .string "text/markdown"),
  ("author", .string contact.author),
  ("author_email", .string contact.email),
  ("url", .string contact.url),
  ("keywords", .string "stylus, rust, security, smart-contracts, analysis, ai"),
  ("classifiers", strings [
    "Development Status :: 3 - Alpha",
    "Intended Audience :: Developers",
    "Topic :: Software Development :: Quality Assurance",
    "Programming Language :: Python :: 3",
    "Programming Language :: Python :: 3.8",
    "Programming Language :: Python :: 3.9",
    "Programming Language :: Python :: 3.10",
    "License :: OSI Approved :: MIT License"]),
  ("python_requires", .string ">=3.8")]

def run (contact : Contact) (files : FileSystem) : FileSystem × Except Fault Value :=
  match copyGrammar files with
  | (files, some fault) => (files, .error (.copy fault))
  | (files, none) =>
    match files.readText "README.md" with
    | .error fault => (files, .error (.readme fault))
    | .ok description => (files, .ok (declaration contact (packages files) description))

end ContractAudit.Install
