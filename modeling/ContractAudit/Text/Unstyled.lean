import ContractAudit.Text.Basic

/-! Texts without the codes that style a terminal. A code is an escape character, a bracket,
parameters and a letter. -/

namespace ContractAudit.Text

def isParameter (c : Char) : Bool := c = ';' || c = '?' || ('0' ≤ c && c ≤ '9')

def isPlainLetter (c : Char) : Bool := ('a' ≤ c && c ≤ 'z') || ('A' ≤ c && c ≤ 'Z')

def codeLength? : Text → Option Nat
  | '[' :: rest =>
    match rest.dropWhile isParameter with
    | c :: _ => if isPlainLetter c then some ((rest.takeWhile isParameter).length + 2) else none
    | [] => none
  | _ => none

def isEscape (c : Char) : Bool := c = '\x1b'

def unstyledFrom : Nat → Text → Text
  | _, [] => []
  | 0, c :: rest =>
    match if isEscape c then codeLength? rest else none with
    | some n => unstyledFrom n rest
    | none => c :: unstyledFrom 0 rest
  | n + 1, _ :: rest => unstyledFrom n rest

def unstyled (t : Text) : Text := unstyledFrom 0 t

end ContractAudit.Text
