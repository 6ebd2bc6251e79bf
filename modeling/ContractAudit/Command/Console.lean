import ContractAudit.Journal
import ContractAudit.Text.Unstyled

/-! The standard output of a command. It may refuse a text, for which it has a message; then
nothing of the text is written. Text that is echoed loses the codes that style a terminal unless
there is one. -/

namespace ContractAudit.Command

structure Console where
  isTerminal : Bool
  refusal : String → Option String

namespace Console

def plain : Console := ⟨false, fun _ => none⟩

def echoed (c : Console) (line : String) : String :=
  let text := line ++ "\n"
  if c.isTerminal then text else String.ofList (Text.unstyled text.toList)

def play (c : Console) : List Event → List Event × Option String
  | [] => ([], none)
  | .noted level message :: rest =>
    let (played, refused) := c.play rest
    (.noted level message :: played, refused)
  | .wrote text :: rest =>
    match c.refusal text with
    | some message => ([], some message)
    | none =>
      let (played, refused) := c.play rest
      (.wrote text :: played, refused)

end Console
end ContractAudit.Command
