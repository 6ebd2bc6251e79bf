import ContractAudit.Journal
import ContractAudit.Text.Basic
import ContractAudit.Value.Access

/-! Advice from a language model: what is asked about a contract, and what becomes of the
answer. An answer that cannot be used gives advice that failed, never an error. -/

namespace ContractAudit

inductive Advice where
  | given (analysis : Value)
  | failed (error : String)
deriving Repr

namespace Advice

def defaultModel : String := "gpt-4o-mini"

def systemText : String :=
  "You are a security expert specialized in analyzing Rust contracts for the Stylus framework. " ++
  "Identify potential bugs, vulnerabilities, and code quality issues."

def prompt (contract : Text) (readme : Option Text) : String :=
  let context := match readme with
    | some (c :: cs) => "Here is additional context from the README:\n\n" ++
        "```\n" ++ String.ofList (c :: cs) ++ "\n```\n\n"
    | _ => ""
  "Please analyze this Rust contract for Stylus framework and identify potential security " ++
  "vulnerabilities, bugs, and code quality issues:\n\n" ++
  "```rust\n" ++ String.ofList contract ++ "\n```\n\n" ++ context ++
  "Please structure your analysis as follows:\n" ++
  "1. List all potential vulnerabilities with severity (Critical, High, Medium, Low)\n" ++
  "2. Describe each issue with the relevant code section\n" ++
  "3. Provide recommendations to fix each issue\n" ++
  "4. Suggest general code improvements\n"

structure Message where
  role : String
  content : String
deriving DecidableEq, Repr

structure Request where
  model : String
  messages : List Message
  maxTokens : Nat
  temperature : String
deriving DecidableEq, Repr

def request (model : String) (contract : Text) (readme : Option Text) : Request where
  model := model
  messages := [⟨"system", systemText⟩, ⟨"user", prompt contract readme⟩]
  maxTokens := 1000
  temperature := "0.2"

inductive Reply where
  | response (v : Value)
  | refused (message : String)
deriving Repr

def toValue : Advice → Value
  | given analysis => .object [("success", .bool true), ("raw_analysis", analysis),
      ("vulnerabilities", .list []), ("suggestions", .list [])]
  | failed error => .object [("success", .bool false), ("error", .string error),
      ("vulnerabilities", .list []), ("suggestions", .list [])]

def shown : Advice → Except Value.Fault String
  | given .null => .ok ""
  | given analysis => analysis.shown 0
  | failed error => .ok ("Error: " ++ error)

def part (v : Value) (name : String) : Except Value.Fault Value :=
  match v with
  | .object members =>
    match Value.member? members name with
    | some m => .ok m
    | none => .error (.noField "object" name)
  | _ => .error (.noField v.typeName name)

def firstChoice? : Value → Except Value.Fault (Option Value)
  | .list items => .ok items.head?
  | .string s => .ok (s.toList.head?.map fun c => .string c.toString)
  | .rough s => .ok (s.points.head?.map .ofPoint)
  | .object _ => .error (.noLength "object")
  | v => .error (.noLength v.typeName)

def ofResponse (response : Value) : Except Value.Fault Advice :=
  match part response "choices" with
  | .error _ => .ok (.failed "Invalid API response")
  | .ok choices => do
    match ← firstChoice? choices with
    | none => pure (.failed "Invalid API response")
    | some choice => pure (.given (← part (← part choice "message") "content"))

def ofReply (reply : Reply) : Journal × Advice :=
  let fail (message : String) : Journal × Advice :=
    (.note .error ("Error during AI analysis: " ++ message), .failed message)
  match reply with
  | .refused message => fail message
  | .response v =>
    match ofResponse v with
    | .ok advice => (.empty, advice)
    | .error fault => fail fault.message

def noKeyMessage : String :=
  "OPENAI_API_KEY not found in environment variables. " ++
  "Please set it in your .env file or environment."

def hasKey : Option String → Bool
  | some key => key ≠ ""
  | none => false

end Advice
end ContractAudit
