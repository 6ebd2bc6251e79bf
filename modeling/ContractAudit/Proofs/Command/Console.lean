import ContractAudit.Command.Console
import Mathlib.Data.List.Basic

/-! What the standard output shows of a line. Codes are taken out of it, and text in front of the
first escape character stays as it is. -/

namespace ContractAudit

namespace Text

end Text

namespace Command.Console

def cleaned (c : Console) (s : String) : String :=
  if c.isTerminal then s else String.ofList (Text.unstyled s.toList)

theorem play_accepted {c : Console} {events : List Event}
    (h : ∀ text, .wrote text ∈ events → c.refusal text = none) :
    c.play events = (events, none) := by
  induction events with
  | nil => rfl
  | cons event events ih =>
    have hrest := ih fun text htext => h text (List.mem_cons_of_mem _ htext)
    cases event with
    | noted level message => rw [play, hrest]
    | wrote text => rw [play, h text List.mem_cons_self, hrest]

end Command.Console
end ContractAudit
