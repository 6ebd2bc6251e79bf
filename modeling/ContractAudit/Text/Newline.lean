import ContractAudit.Text.Basic

/-! Line ends of text files: a carriage return, with or without a line feed after it, reads as
one line feed. -/

namespace ContractAudit.Text

def unifyNewlines : Text → Text
  | [] => []
  | '\r' :: '\n' :: rest => '\n' :: unifyNewlines rest
  | '\r' :: rest => '\n' :: unifyNewlines rest
  | c :: rest => c :: unifyNewlines rest

end ContractAudit.Text
