import ContractAudit.Analysis.Result
import ContractAudit.Report.Document
import ContractAudit.Report.Listing
import Mathlib.Data.List.Basic

/-! The two reports of a record whose issues have texts for their members and numbers for their
lines. Such a record has every member that a report asks for, so both reports come about, and here
they are written out line by line and part by part. -/

namespace ContractAudit

/-- An issue as it is added to a record. Any text may stand for its severity. -/
structure Note where
  kind : String
  severity : String
  description : String
  lineStart : Int
  lineEnd : Int
  snippet : String
  recommendation : String
deriving DecidableEq, Repr

def Note.toValue (n : Note) : Value :=
  Record.issueValue (.string n.kind) (.string n.severity) (.string n.description)
    (.int n.lineStart) (.int n.lineEnd) (.string n.snippet) (.string n.recommendation)

def Record.ofNotes (notes : List Note) (errors : List ErrorEntry) (time : Value) : Record :=
  ⟨notes.map Note.toValue, errors.map ErrorEntry.toValue, time⟩

inductive Addition where
  | issue (n : Note)
  | error (e : ErrorEntry)
deriving DecidableEq, Repr

namespace Addition

def note? : Addition → Option Note
  | issue n => some n
  | error _ => none

def error? : Addition → Option ErrorEntry
  | issue _ => none
  | error e => some e

end Addition

namespace Record

def add (r : Record) : Addition → Record
  | .issue n => r.addIssue n.toValue
  | .error e => r.addError e.toValue

def filled (additions : List Addition) : Record := additions.foldl add empty

theorem add_ofNotes (notes : List Note) (errors : List ErrorEntry) (time : Value) (a : Addition) :
    (ofNotes notes errors time).add a =
      ofNotes (notes ++ a.note?.toList) (errors ++ a.error?.toList) time := by
  cases a with
  | issue n =>
    simp only [add, addIssue, ofNotes, Addition.note?, Addition.error?, Option.toList_some,
      Option.toList_none, List.append_nil, List.map_append, List.map_cons, List.map_nil]
  | error e =>
    simp only [add, addError, ofNotes, Addition.note?, Addition.error?, Option.toList_some,
      Option.toList_none, List.append_nil, List.map_append, List.map_cons, List.map_nil]

theorem foldl_add_ofNotes (additions : List Addition) (notes : List Note)
    (errors : List ErrorEntry) (time : Value) :
    additions.foldl add (ofNotes notes errors time) =
      ofNotes (notes ++ additions.filterMap Addition.note?)
        (errors ++ additions.filterMap Addition.error?) time := by
  induction additions generalizing notes errors with
  | nil => simp only [List.foldl_nil, List.filterMap_nil, List.append_nil]
  | cons a additions ih =>
    rw [List.foldl_cons, add_ofNotes, ih]
    cases a with
    | issue n =>
      simp only [Addition.note?, Addition.error?, Option.toList_some, Option.toList_none,
        List.append_nil, List.append_assoc, List.singleton_append, List.filterMap_cons]
    | error e =>
      simp only [Addition.note?, Addition.error?, Option.toList_some, Option.toList_none,
        List.append_nil, List.append_assoc, List.singleton_append, List.filterMap_cons]

theorem filled_eq (additions : List Addition) :
    filled additions = ofNotes (additions.filterMap Addition.note?)
      (additions.filterMap Addition.error?) (.int 0) :=
  foldl_add_ofNotes additions [] [] (.int 0)

end Record

theorem twoPlaces_zero : (Value.int 0).twoPlaces = .ok "0.00" := by decide +kernel

namespace Report

def chapters (notes : List Note) : List (Severity × List Note) :=
  (listedSeverities.map fun s => (s, notes.filter (·.severity = s.name))).filter (!·.2.isEmpty)

def chapterGroup (c : Severity × List Note) : Group := ⟨c.1, c.2.map Note.toValue⟩

theorem flatMap_chapters {α : Type} {f : Severity × List Note → List α}
    (hf : ∀ s, f (s, []) = []) (notes : List Note) :
    (chapters notes).flatMap f =
      listedSeverities.flatMap fun s => f (s, notes.filter (·.severity = s.name)) := by
  unfold chapters
  induction listedSeverities with
  | nil => rfl
  | cons s rest ih =>
    rw [List.map_cons, List.filter_cons, List.flatMap_cons, ← ih]
    cases hnotes : notes.filter (·.severity = s.name) with
    | nil =>
      rw [hf]
      rfl
    | cons n found => rfl

/-! ## The loops -/

theorem isSameKey_string_iff {v : Value} {s : String} :
    v.isSameKey (.string s) = true ↔ v = .string s := by
  cases v <;> simp [Value.isSameKey, Value.number?]

namespace Table

theorem lookup?_cons (key : Value) (issues : List Value) (rest : Table) (s : String) :
    lookup? ((key, issues) :: rest) (.string s) =
      if key.isSameKey (.string s) then some issues else lookup? rest (.string s) := by
  rw [lookup?, List.find?_cons]
  cases key.isSameKey (.string s) <;> rfl

/-- An issue comes behind those of its severity, and no other severity sees it. -/
theorem lookup?_enter (t : Table) (a b : String) (issue : Value) :
    (t.enter (.string a) issue).lookup? (.string b) =
      if a = b then some ((t.lookup? (.string b)).getD [] ++ [issue])
      else t.lookup? (.string b) := by
  have hsame : ∀ s t : String, (Value.string s).isSameKey (.string t) = decide (s = t) :=
    fun _ _ => rfl
  induction t with
  | nil =>
    rw [enter, lookup?_cons, hsame]
    by_cases hab : a = b <;> simp [hab, lookup?]
  | cons entry rest ih =>
    obtain ⟨key, issues⟩ := entry
    rw [enter]
    by_cases ha : key.isSameKey (.string a) = true
    · obtain rfl := isSameKey_string_iff.mp ha
      rw [if_pos ha, lookup?_cons, lookup?_cons, hsame]
      by_cases hab : a = b <;> simp [hab]
    · rw [if_neg ha, lookup?_cons, lookup?_cons, ih]
      by_cases hb : key.isSameKey (.string b) = true
      · obtain rfl := isSameKey_string_iff.mp hb
        have hab : a ≠ b := by
          rintro rfl
          exact ha hb
        simp [hb, hab]
      · simp [hb]

theorem lookup?_fill {severityOf : Value → Except Value.Fault Value}
    (h : ∀ n : Note, severityOf n.toValue = .ok (.string n.severity)) (notes : List Note)
    (t : Table) :
    ∃ t', fill severityOf t (notes.map Note.toValue) = .ok t' ∧ ∀ s : String,
      t'.lookup? (.string s) = if (notes.filter (·.severity = s)).isEmpty then t.lookup? (.string s)
        else some ((t.lookup? (.string s)).getD [] ++
          (notes.filter (·.severity = s)).map Note.toValue) := by
  induction notes generalizing t with
  | nil => exact ⟨t, rfl, fun s => rfl⟩
  | cons n notes ih =>
    obtain ⟨t', hfill, hlookup⟩ := ih (t.enter (.string n.severity) n.toValue)
    refine ⟨t', ?_, fun s => ?_⟩
    · rw [List.map_cons, fill, h n]
      exact hfill
    · rw [hlookup, lookup?_enter]
      by_cases hs : n.severity = s
      · cases hrest : notes.filter (·.severity = s) <;> simp [hs, hrest]
      · simp [hs]

end Table

/-- A loop that takes the severity of each note leaves the chapters. -/
theorem groups_notes (severityOf : Value → Except Value.Fault Value)
    (h : ∀ n : Note, severityOf n.toValue = .ok (.string n.severity)) (notes : List Note) :
    ∃ table, Table.fill severityOf [] (notes.map Note.toValue) = .ok table ∧
      groups table = (chapters notes).map chapterGroup := by
  obtain ⟨table, hfill, hlookup⟩ := Table.lookup?_fill h notes []
  refine ⟨table, hfill, ?_⟩
  unfold groups chapters
  induction listedSeverities with
  | nil => rfl
  | cons s rest ih =>
    have hnone : Table.lookup? [] (.string s.name) = none := rfl
    rw [List.filterMap_cons, hlookup, hnone, ih, List.map_cons, List.filter_cons]
    cases notes.filter (·.severity = s.name) with
    | nil => rfl
    | cons n found => rfl

theorem numbered_chapterGroup (c : Severity × List Note) :
    (chapterGroup c).numbered = (c.2.zipIdx 1).map fun e => (e.2, e.1.toValue) := by
  rw [Group.numbered, chapterGroup, List.zipIdx_map, List.map_map]
  rfl

/-! ## The listing -/

def issueLines (verbose : Bool) (number : Nat) (n : Note) : List String :=
  ["  [" ++ toString number ++ "] " ++ n.kind,
    "      Lines " ++ toString n.lineStart ++ "-" ++ toString n.lineEnd] ++
  (if verbose then ["      Description: " ++ n.description, "      Code: " ++ n.snippet] else []) ++
  ["      Recommendation: " ++ n.recommendation]

def chapterLines (verbose : Bool) (c : Severity × List Note) : List String :=
  ("\n" ++ c.1.name ++ " severity issues:") ::
    (c.2.zipIdx 1).flatMap fun e => issueLines verbose e.2 e.1

def issuesLines (verbose : Bool) (notes : List Note) : List String :=
  if notes.isEmpty then ["No issues found."]
  else ("\nFound " ++ toString notes.length ++ " issues:") ::
    (chapters notes).flatMap (chapterLines verbose)

def errorLine (e : ErrorEntry) : String := "  Error in " ++ e.detector ++ ": " ++ e.message

def errorsLines (errors : List ErrorEntry) : List String :=
  if errors.isEmpty then []
  else ("\nAnalysis encountered " ++ toString errors.length ++ " errors:") :: errors.map errorLine

namespace Printed

def whole (lines : List String) : Printed := ⟨lines, none⟩

theorem whole_append (a b : List String) : whole a ++ whole b = whole (a ++ b) := rfl

theorem concat_whole {α : Type} (f : α → List String) (items : List α) :
    concat (items.map fun x => whole (f x)) = whole (items.flatMap f) := by
  induction items with
  | nil => rfl
  | cons x items ih => rw [List.map_cons, concat, ih, whole_append, List.flatMap_cons]

end Printed

theorem listIssue_note (verbose : Bool) (number : Nat) (n : Note) :
    listIssue verbose number n.toValue = .whole (issueLines verbose number n) := by
  cases verbose <;> rfl

theorem listGroup_chapter (verbose : Bool) (c : Severity × List Note) :
    listGroup verbose (chapterGroup c) = .whole (chapterLines verbose c) := by
  rw [listGroup, numbered_chapterGroup, List.map_map]
  simp only [Function.comp_def, listIssue_note, Printed.concat_whole]
  rfl

theorem listIssues_notes (verbose : Bool) {notes : List Note} (h : notes ≠ []) :
    listIssues verbose (notes.map Note.toValue) = .whole (issuesLines verbose notes) := by
  have hsome : notes.isEmpty = false := List.isEmpty_eq_false_iff.mpr h
  obtain ⟨table, hfill, hgroups⟩ := groups_notes (·.demand "severity") (fun _ => rfl) notes
  rw [listIssues, listingTable, hfill, issuesLines, hsome, List.length_map]
  simp only [hgroups, List.map_map, Function.comp_def, listGroup_chapter, Printed.concat_whole]
  rfl

theorem listErrors_entries {errors : List ErrorEntry} (h : errors ≠ []) :
    listErrors (errors.map ErrorEntry.toValue) = .whole (errorsLines errors) := by
  have hsome : errors.isEmpty = false := List.isEmpty_eq_false_iff.mpr h
  have hone : ∀ e : ErrorEntry, listError e.toValue = .whole [errorLine e] := fun _ => rfl
  rw [listErrors, errorsLines, hsome, List.length_map, List.map_map]
  simp only [Function.comp_def, hone, Printed.concat_whole, ← List.map_eq_flatMap]
  rfl

theorem listing_ofNotes (verbose : Bool) (notes : List Note) (errors : List ErrorEntry)
    (time : Value) :
    listing verbose (.ofNotes notes errors time) =
      .whole (issuesLines verbose notes ++ errorsLines errors) := by
  have hissues : (if (Record.ofNotes notes errors time).hasIssues then
      listIssues verbose (Record.ofNotes notes errors time).issues
      else .line "No issues found.") = .whole (issuesLines verbose notes) := by
    cases notes with
    | nil => rfl
    | cons n notes => exact listIssues_notes verbose (List.cons_ne_nil n notes)
  have herrors : (if (Record.ofNotes notes errors time).hasErrors then
      listErrors (Record.ofNotes notes errors time).errors
      else .nothing) = .whole (errorsLines errors) := by
    cases errors with
    | nil => rfl
    | cons e errors => exact listErrors_entries (List.cons_ne_nil e errors)
  rw [listing, hissues, herrors, Printed.whole_append]

/-! ## The document -/

def issueTable (n : Note) : Flowable := .table [
  [.text "Location",
    .text ("Lines " ++ toString n.lineStart ++ "-" ++ toString n.lineEnd ++ "`")],
  [.text "Description", .paragraph .normal n.description],
  [.text "Code Snippet", if n.snippet ≠ "" then .paragraph .code n.snippet else .text ""],
  [.text "Recommendation", .paragraph .normal n.recommendation]]

def issueParts (number : Nat) (n : Note) : List Flowable :=
  [plain ("Issue " ++ toString number ++ ": " ++ n.kind), issueTable n, middleSpace]

def chapterParts (c : Severity × List Note) : List Flowable :=
  plain (c.1.name ++ " Severity Issues:") :: narrowSpace ::
    (c.2.zipIdx 1).flatMap fun e => issueParts e.2 e.1

def errorsParts (errors : List ErrorEntry) : List Flowable :=
  if errors.isEmpty then []
  else plain "Analysis Errors:" :: narrowSpace ::
    (errors.map fun e => plain ("Error in " ++ e.detector ++ ": " ++ e.message)) ++ [middleSpace]

def resultParts (notes : List Note) (errors : List ErrorEntry) (time : String) : List Flowable :=
  if notes.isEmpty then [plain "No issues found in this file."]
  else (chapters notes).flatMap chapterParts ++ errorsParts errors ++
    [plain ("Analysis completed in " ++ time ++ " seconds")]

theorem detailTable_note (n : Note) : detailTable n.toValue = .ok (issueTable n) := by
  have hcode : (if Value.isTruthy (.string n.snippet) then Cell.paragraph .code n.snippet
      else .text "") = if n.snippet ≠ "" then Cell.paragraph .code n.snippet else .text "" := by
    simp only [Value.isTruthy, decide_eq_true_eq]
  rw [issueTable, ← hcode]
  rfl

theorem mapM_eq_ok_map {α β : Type} {f : α → Except Value.Fault β} {g : α → β}
    (h : ∀ x, f x = .ok (g x)) (items : List α) : items.mapM f = .ok (items.map g) := by
  have hf : f = fun x => pure (g x) := funext h
  rw [hf]
  exact List.mapM_pure

theorem groupPart_chapter (c : Severity × List Note) :
    groupPart (chapterGroup c) = .ok (chapterParts c) := by
  have hone : ∀ e : Note × Nat, issuePart e.2 e.1.toValue = .ok (issueParts e.2 e.1) := by
    intro e
    rw [issuePart, detailTable_note]
    rfl
  have hparts : ((c.2.zipIdx 1).map fun e => (e.2, e.1.toValue)).mapM
      (fun e => issuePart e.1 e.2) =
        .ok ((c.2.zipIdx 1).map fun e => issueParts e.2 e.1) := by
    rw [List.mapM_map]
    exact mapM_eq_ok_map hone _
  rw [groupPart, numbered_chapterGroup]
  change List.mapM (fun e : Nat × Value => issuePart e.1 e.2) _ >>= _ = _
  rw [hparts]
  rfl

theorem errorsPart_entries (errors : List ErrorEntry) :
    errorsPart (.list (errors.map ErrorEntry.toValue)) = .ok (errorsParts errors) := by
  cases errors with
  | nil => rfl
  | cons e errors =>
    have hparts : ((e :: errors).map ErrorEntry.toValue).mapM errorPart =
        .ok ((e :: errors).map fun e =>
          plain ("Error in " ++ e.detector ++ ": " ++ e.message)) := by
      rw [List.mapM_map]
      exact mapM_eq_ok_map (fun _ => rfl) _
    change ((e :: errors).map ErrorEntry.toValue).mapM errorPart >>= _ = _
    rw [hparts]
    rfl

theorem resultPart_ofNotes {time : Value} {shown : String} (htime : time.twoPlaces = .ok shown)
    (notes : List Note) (errors : List ErrorEntry) :
    resultPart (Record.ofNotes notes errors time).toValue =
      .ok (resultParts notes errors shown) := by
  cases notes with
  | nil => rfl
  | cons n notes =>
    obtain ⟨table, hfill, hgroups⟩ := groups_notes severityOrUnknown (fun _ => rfl) (n :: notes)
    have hparts : ((chapters (n :: notes)).map chapterGroup).mapM groupPart =
        .ok ((chapters (n :: notes)).map chapterParts) := by
      rw [List.mapM_map]
      exact mapM_eq_ok_map groupPart_chapter _
    change documentTable ((n :: notes).map Note.toValue) >>= _ = _
    rw [documentTable, hfill]
    change (groups table).mapM groupPart >>= _ = _
    rw [hgroups]
    rw [hparts]
    change errorsPart (.list (errors.map ErrorEntry.toValue)) >>= _ = _
    rw [errorsPart_entries]
    change time.twoPlaces >>= _ = _
    rw [htime]
    rfl

/-! ## The summary -/

def countOf (notes : List Note) (s : Severity) : Nat := notes.countP (·.severity = s.name)

def severityLines (count : Severity → Nat) : List String :=
  listedSeverities.filterMap fun s =>
    if count s = 0 then none else some (s.name ++ " Severity Issues: " ++ toString (count s))

theorem addAll_notes (notes : List Note) (count : Severity → Nat) :
    Counts.addAll (listedSeverities.map fun s => (s, count s)) (notes.map Note.toValue) =
      .ok (listedSeverities.map fun s => (s, count s + countOf notes s)) := by
  induction notes generalizing count with
  | nil => rfl
  | cons n notes ih =>
    have hstep : Counts.add (listedSeverities.map fun s => (s, count s)) (.string n.severity) =
        listedSeverities.map fun s => (s, count s + countOf [n] s) := by
      rw [Counts.add, List.map_map]
      refine List.map_congr_left fun s _ => ?_
      have hsame : (Value.string n.severity).isSameKey (.string s.name) =
          decide (n.severity = s.name) := rfl
      simp only [Function.comp_apply, hsame]
      by_cases hs : n.severity = s.name <;> simp [countOf, hs]
    change Counts.addAll (Counts.add _ (.string n.severity)) (notes.map Note.toValue) = _
    rw [hstep, ih]
    refine congrArg Except.ok (List.map_congr_left fun s _ => ?_)
    have hsplit : countOf ([n] ++ notes) s = countOf [n] s + countOf notes s :=
      List.countP_append
    rw [List.singleton_append] at hsplit
    rw [hsplit, Nat.add_assoc]

theorem addResult_ofNotes (notes : List Note) (errors : List ErrorEntry) (time : Value)
    (count : Severity → Nat) :
    Counts.addResult (listedSeverities.map fun s => (s, count s))
        (Record.ofNotes notes errors time).toValue =
      .ok (listedSeverities.map fun s => (s, count s + countOf notes s)) :=
  addAll_notes notes count

theorem lines_counts (count : Severity → Nat) :
    Counts.lines (listedSeverities.map fun s => (s, count s)) = severityLines count := by
  rw [Counts.lines, severityLines, List.filterMap_map]
  congr 1
  funext s
  simp only [Function.comp_apply, Nat.pos_iff_ne_zero, ne_eq, ite_not]

theorem single_ofNotes {time : Value} {shown : String} (htime : time.twoPlaces = .ok shown)
    (notes : List Note) (errors : List ErrorEntry) :
    single (Record.ofNotes notes errors time).toValue =
      .ok (summary (("Found " ++ toString notes.length ++ " total issues") ::
        severityLines (countOf notes)) ++ resultParts notes errors shown) := by
  have hcounts := addResult_ofNotes notes errors time fun _ => 0
  simp only [Nat.zero_add] at hcounts
  change Counts.zero.addResult (Record.ofNotes notes errors time).toValue >>= _ = _
  rw [Counts.zero, hcounts]
  change resultPart (Record.ofNotes notes errors time).toValue >>= _ = _
  rw [resultPart_ofNotes htime, ← lines_counts]
  change Except.ok (summary (("Found " ++
    (Value.int (notes.map Note.toValue).length).text ++ " total issues") :: _) ++ _) = _
  rw [List.length_map]
  rfl

theorem body_ofNotes {time : Value} {shown : String} (htime : time.twoPlaces = .ok shown)
    (notes : List Note) (errors : List ErrorEntry) :
    body (Record.ofNotes notes errors time).toValue =
      single (Record.ofNotes notes errors time).toValue := by
  -- a time that can be written is no dictionary, and no other member is one
  have hmember : time.hasMember "issues" = false := by
    cases time with
    | object members => cases htime
    | _ => rfl
  have hnone : ∀ m ∈ [("issues", Value.list (notes.map Note.toValue)),
      ("total_issues", .int (notes.map Note.toValue).length),
      ("errors", .list (errors.map ErrorEntry.toValue)), ("analysis_time_seconds", time)],
      ¬m.2.hasMember "issues" = true := by
    simpa [Value.hasMember] using hmember
  exact if_neg (List.any_eq_false.mpr hnone ▸ Bool.false_ne_true)

theorem document_ofNotes (now : String) {time : Value} {shown : String}
    (htime : time.twoPlaces = .ok shown) (notes : List Note) (errors : List ErrorEntry) :
    document now (Record.ofNotes notes errors time).toValue =
      .ok (documentHead now ++ (summary (("Found " ++ toString notes.length ++ " total issues") ::
        severityLines (countOf notes)) ++ resultParts notes errors shown)) := by
  rw [document, body_ofNotes htime, single_ofNotes htime]
  rfl

end Report
end ContractAudit
