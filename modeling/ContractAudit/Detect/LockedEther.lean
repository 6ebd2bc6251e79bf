import ContractAudit.Issue
import ContractAudit.Solidity.Section

/-! Ether that can come in and never leave: some function takes payment and no function pays
out. -/

namespace ContractAudit.Detect.LockedEther

structure Payable where
  name : String
  lineStart : Int
  lineEnd : Int
  text : String
deriving DecidableEq, Repr

structure Withdrawal where
  name : String
  lineStart : Int
  lineEnd : Int
deriving DecidableEq, Repr

structure Ledger where
  canReceive : Bool
  canWithdraw : Bool
  payable : List Payable
  withdrawals : List Withdrawal
deriving DecidableEq, Repr

def Ledger.empty : Ledger := ⟨false, false, [], []⟩

def functionName (n : Node) (code : Text) : Text :=
  if n.kind = "function_item" then
    match n.childOfKind? "identifier" with
    | some child => child.text code
    | none => "unknown".toList
  else "unknown".toList

def takesPayment (text name code : Text) : Bool :=
  text.has "#[payable]" || text.hasAny ["evm::msg_value()", "msg_value()"] ||
    ["receive".toList, "fallback".toList, "default".toList].contains name ||
    (text.has "value:" && text.hasAny ["U256", "u256"]) ||
    (Solidity.sections code).any fun s => s.code.has "payable" && Text.occurs name s.code

def isPayable (n : Node) (code : Text) : Bool :=
  takesPayment (n.text code) (functionName n code) code

def payoutPatterns : List String :=
  ["evm::call(", "evm::transfer_eth(", "transfer_eth(", ".call(", "send_value(",
   "call\x7bvalue:", "call(value:", "selfdestruct(", "suicide(", "external_call(",
   "call_contract(", ".transfer(", ".send(", "payable("]

def solidityPayoutPatterns : List String :=
  [".transfer(", ".send(", ".call\x7bvalue:", "selfdestruct("]

def withoutLineComment (line : Text) : Text := line.before "//"

def withoutBlockComment (line : Text) : Text :=
  if line.has "/*" && line.has "*/" then line.before "/*" ++ line.after "*/" else line

def activeCode (clean : Text → Text) (text : Text) : Text :=
  Text.joinWith [' '] ((text.lines.map fun line => (clean line).trim).filter (· ≠ []))

def sectionPaysOut (name : Text) (s : Solidity.Section) : Bool :=
  Text.occurs name s.code &&
    (activeCode (fun line => withoutBlockComment (withoutLineComment line)) s.code).hasAny
      solidityPayoutPatterns

def paysOut (text name code : Text) : Bool :=
  (activeCode withoutLineComment text).hasAny payoutPatterns ||
    (Solidity.sections code).any (sectionPaysOut name)

def isWithdrawal (n : Node) (code : Text) : Bool :=
  paysOut (n.text code) (functionName n code) code

def shorten (text : Text) : Text :=
  if text.length > 100 then text.take 100 ++ "...".toList else text

def Payable.ofNode (n : Node) (code : Text) : Payable where
  name := String.ofList (functionName n code)
  lineStart := n.firstLine
  lineEnd := n.lastLine
  text := String.ofList (shorten (n.text code))

def Withdrawal.ofNode (n : Node) (code : Text) : Withdrawal where
  name := String.ofList (functionName n code)
  lineStart := n.firstLine
  lineEnd := n.lastLine

def Ledger.receive (l : Ledger) (n : Node) (code : Text) : Ledger :=
  { l with canReceive := true, payable := l.payable ++ [.ofNode n code] }

def Ledger.withdraw (l : Ledger) (n : Node) (code : Text) : Ledger :=
  { l with canWithdraw := true, withdrawals := l.withdrawals ++ [.ofNode n code] }

def mentionsPayment (n : Node) (code : Text) : Bool :=
  (n.text code).hasAny ["payable", "msg_value"]

mutual

/-- Enters the functions that take payment. The functions that stand directly in an
implementation block that speaks of payment are read ahead of the block's other parts. -/
def readPayable (code : Text) (l : Ledger) : Node → Ledger
  | n@(.mk kind _ cs) =>
    let l :=
      if kind = "function_item" then
        if isPayable n code then l.receive n code else l
      else if kind = "impl_item" && mentionsPayment n code then readFunctions code l cs
      else l
    readPayableAll code l cs

def readPayableAll (code : Text) (l : Ledger) : List Node → Ledger
  | [] => l
  | n :: ns => readPayableAll code (readPayable code l n) ns

def readFunctions (code : Text) (l : Ledger) : List Node → Ledger
  | [] => l
  | n :: ns =>
    readFunctions code (if n.kind = "function_item" then readPayable code l n else l) ns

end

def readWithdrawals (code : Text) (l : Ledger) (root : Node) : Ledger :=
  root.walk (fun l v =>
    if v.node.kind = "function_item" && isWithdrawal v.node code then l.withdraw v.node code
    else l) l

def Payable.mention (p : Payable) : String :=
  "'" ++ p.name ++ "' (line " ++ toString p.lineStart ++ ")"

def mentions (payable : List Payable) : String :=
  match payable with
  | [] => ""
  | _ => "Payable functions found: " ++ ", ".intercalate (payable.map Payable.mention) ++ ". "

def description (payable : List Payable) : String :=
  "Contract can receive Ether but lacks withdrawal methods. " ++ mentions payable ++
    "This may cause funds to become permanently locked."

def report (payable : List Payable) : Issue where
  kind := "locked_ether"
  severity := .medium
  description := description payable
  lineStart := payable.head?.elim 1 (·.lineStart)
  lineEnd := payable.head?.elim 1 (·.lineEnd)
  snippet := payable.head?.elim "Contract can receive Ether but lacks withdrawal methods" (·.text)
  recommendation := "Add withdrawal functions, access controls for fund management, or remove " ++
    "the ability to receive Ether if not needed. Consider implementing functions like " ++
    "'withdraw()', 'emergency_withdraw()', or 'transfer_funds()'."

def enter (code : Text) (l : Ledger) (root : Node) : Ledger :=
  readWithdrawals code (readPayable code l root) root

def issues (l : Ledger) : List Issue :=
  if l.canReceive && !l.canWithdraw then [report l.payable] else []

end ContractAudit.Detect.LockedEther
