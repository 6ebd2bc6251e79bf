import ContractAudit.Proofs.Command.Console
import ContractAudit.Proofs.Report.Layout
import ContractAudit.Proofs.Text.Cuts

/-! What a reader finds in the two reports of a record. The listing is read line by line and the
document part by part, with one reader for both: it remembers the last heading and what it has read
of an issue, and notes the issue when its recommendation comes. Both reports read the same, up to
the codes that the standard output does not show. -/

namespace ContractAudit

namespace Text

def behind? (front : String) (t : Text) : Option Text :=
  if t.startsWith front then some (t.drop front.toList.length) else none

def ahead? (back : String) (t : Text) : Option Text :=
  if t.endsWith back then some (t.take (t.length - back.toList.length)) else none

end Text

namespace Report

structure Seen where
  heading : String
  number : Option Nat
  kind : String
  lines : Option (Int × Int)
  recommendation : String
deriving DecidableEq, Repr

/-- A reader: the last heading, what has been read of an issue, and the issues before it. -/
structure Reader where
  heading : String
  number : Option Nat
  kind : String
  lines : Option (Int × Int)
  seen : List Seen
deriving DecidableEq, Repr

def readNat? (t : Text) : Option Nat :=
  if t.isEmpty || !t.all Char.isDigit then none else some (Nat.ofDigitChars 10 t 0)

def readInt? (t : Text) : Option Int :=
  match t with
  | '-' :: digits => (readNat? digits).map fun n : Nat => -(n : Int)
  | digits => (readNat? digits).map Int.ofNat

def readRange : Text → Option (Int × Int)
  | [] => none
  | c :: rest => do
    let first ← readInt? (c :: Text.before rest "-")
    let last ← readInt? (Text.after rest "-")
    pure (first, last)

namespace Reader

def start : Reader := ⟨"", none, "", none, []⟩

def enter (r : Reader) (title : Text) (sep : String) : Reader :=
  { r with
    number := readNat? (Text.before title sep)
    kind := String.ofList (Text.after title sep) }

def finish (r : Reader) (recommendation : String) : Reader :=
  { r with seen := r.seen ++ [⟨r.heading, r.number, r.kind, r.lines, recommendation⟩] }

def headed (r : Reader) : Option Text → Reader
  | some heading => { r with heading := String.ofList heading }
  | none => r

def line (r : Reader) (s : String) : Reader :=
  match Text.behind? "  [" s.toList, Text.behind? "      Lines " s.toList,
      Text.behind? "      Recommendation: " s.toList with
  | some title, _, _ => r.enter title "] "
  | none, some range, _ => { r with lines := readRange range }
  | none, none, some text => r.finish (String.ofList text)
  | none, none, none =>
    r.headed ((Text.behind? "\n" s.toList).bind (Text.ahead? " severity issues:"))

def cellText : Cell → String
  | .text s => s
  | .paragraph _ s => s

def labelledText? (rows : List (List Cell)) (label : String) : Option String :=
  rows.findSome? fun row =>
    match row with
    | [.text l, c] => if l = label then some (cellText c) else none
    | _ => none

def locatedIn (rows : List (List Cell)) : Option (Int × Int) := do
  let location ← labelledText? rows "Location"
  let range ← Text.behind? "Lines " location.toList
  readRange (← Text.ahead? "`" range)

def part (r : Reader) : Flowable → Reader
  | .paragraph _ s =>
    match Text.behind? "Issue " s.toList with
    | some title => r.enter title ": "
    | none => r.headed (Text.ahead? " Severity Issues:" s.toList)
  | .table rows =>
    finish { r with lines := locatedIn rows } ((labelledText? rows "Recommendation").getD "")
  | _ => r

end Reader

def seenAs (heading : String) (number : Nat) (n : Note) : Seen :=
  ⟨heading, some number, n.kind, some (n.lineStart, n.lineEnd), n.recommendation⟩

namespace Reader

section Run

variable {α : Type} {step : Reader → α → Reader}

end Run
end Reader

def shown (notes : List Note) : List Seen :=
  listedSeverities.flatMap fun s =>
    ((notes.filter (·.severity = s.name)).zipIdx 1).map fun (n, number) =>
      seenAs s.name number n

section Shown

variable (c : Command.Console)

end Shown

end Report
end ContractAudit
