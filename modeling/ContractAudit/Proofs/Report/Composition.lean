import ContractAudit.Proofs.Report.Layout
import Mathlib.Algebra.Ring.Nat

/-! The document on several results against the documents on each of them. It is put together from
what they have behind their summaries, and its own summary adds their numbers up. -/

namespace ContractAudit

/-- A result: what was added to its record, and the time of the analysis once it has ended. -/
structure Filled where
  additions : List Addition
  time : Option Binary64
deriving DecidableEq, Repr

namespace Filled

def timeValue (r : Filled) : Value := r.time.elim (.int 0) .float

def record (r : Filled) : Record := { Record.filled r.additions with time := r.timeValue }

def notes (r : Filled) : List Note := r.additions.filterMap Addition.note?

def errors (r : Filled) : List ErrorEntry := r.additions.filterMap Addition.error?

def shownTime (r : Filled) : String := r.time.elim "0.00" Binary64.twoPlaces

theorem record_eq (r : Filled) : r.record = .ofNotes r.notes r.errors r.timeValue := by
  rw [record, Record.filled_eq]
  rfl

theorem twoPlaces_timeValue (r : Filled) : r.timeValue.twoPlaces = .ok r.shownTime := by
  unfold timeValue shownTime
  cases r.time with
  | none => exact twoPlaces_zero
  | some x => rfl

end Filled

namespace Report

def summaryOf (parts : List Flowable) : List Flowable := (parts.drop 4).takeWhile (· ≠ wideSpace)

def afterSummary (parts : List Flowable) : List Flowable :=
  ((parts.drop 4).dropWhile (· ≠ wideSpace)).drop 1

theorem drop_documentHead (now : String) (rest : List Flowable) :
    (documentHead now ++ rest).drop 4 = rest := rfl

theorem plain_ne_wideSpace (lines : List String) :
    ∀ p ∈ lines.map plain, decide (p ≠ wideSpace) = true := by
  intro p hp
  obtain ⟨line, -, rfl⟩ := List.mem_map.mp hp
  rfl

theorem summaryOf_document (now : String) (lines : List String) (rest : List Flowable) :
    summaryOf (documentHead now ++ (summary lines ++ rest)) = lines.map plain := by
  rw [summaryOf, drop_documentHead, summary, List.append_assoc,
    List.takeWhile_append_of_pos (plain_ne_wideSpace lines)]
  exact List.append_nil _

theorem afterSummary_document (now : String) (lines : List String) (rest : List Flowable) :
    afterSummary (documentHead now ++ (summary lines ++ rest)) = rest := by
  rw [afterSummary, drop_documentHead, summary, List.append_assoc,
    List.dropWhile_append_of_pos (plain_ne_wideSpace lines)]
  rfl

theorem eq_of_summary (now : String) (lines : List String) (rest : List Flowable) :
    documentHead now ++ (summary lines ++ rest) =
      documentHead now ++ (summaryOf (documentHead now ++ (summary lines ++ rest)) ++
        wideSpace :: afterSummary (documentHead now ++ (summary lines ++ rest))) := by
  rw [summaryOf_document, afterSummary_document, summary, List.append_assoc]
  rfl

def fileParts (path : String) (parts : List Flowable) : List Flowable :=
  .paragraph .subheading ("File: " ++ path) :: narrowSpace :: parts ++ [.pageBreak]

theorem total_ints (counts : List Nat) (sum : Nat) :
    (counts.map fun n : Nat => Value.int n).foldlM Value.plus (.int sum) =
      .ok (.int ((sum + counts.sum : Nat) : Int)) := by
  induction counts generalizing sum with
  | nil => rfl
  | cons n counts ih =>
    have hplus : Value.plus (.int sum) (.int n) = .ok (.int ((sum + n : Nat) : Int)) := rfl
    rw [List.map_cons, List.foldlM_cons, hplus, List.sum_cons, ← Nat.add_assoc]
    exact ih (sum + n)

def byPath (files : List (String × Filled)) : List (String × Value) :=
  files.map fun f => (f.1, f.2.record.toValue)

theorem filter_byPath {test : String × Value → Bool}
    (h : ∀ path (r : Filled), test (path, r.record.toValue) = true)
    (files : List (String × Filled)) : (byPath files).filter test = byPath files := by
  refine List.filter_eq_self.mpr fun m hm => ?_
  obtain ⟨f, -, rfl⟩ := List.mem_map.mp hm
  exact h f.1 f.2

theorem mapM_byPath {α : Type} {f : String × Value → Except Value.Fault α}
    {g : String × Filled → α}
    (h : ∀ file : String × Filled, f (file.1, file.2.record.toValue) = .ok (g file))
    (files : List (String × Filled)) : (byPath files).mapM f = .ok (files.map g) := by
  rw [byPath, List.mapM_map]
  exact mapM_eq_ok_map h files

theorem foldlM_addResult (files : List (String × Filled)) (count : Severity → Nat) :
    (byPath files).foldlM (fun c f => Counts.addResult c f.2)
        (listedSeverities.map fun s => (s, count s)) =
      .ok (listedSeverities.map fun s =>
        (s, count s + (files.map fun f => countOf f.2.notes s).sum)) := by
  induction files generalizing count with
  | nil => rfl
  | cons f files ih =>
    have hfirst := addResult_ofNotes f.2.notes f.2.errors f.2.timeValue count
    rw [← Filled.record_eq] at hfirst
    have hcons : byPath (f :: files) = (f.1, f.2.record.toValue) :: byPath files := rfl
    rw [hcons, List.foldlM_cons, hfirst]
    refine (ih _).trans ?_
    simp only [List.map_cons, List.sum_cons, Nat.add_assoc]

theorem filePart_filled (file : String × Filled) :
    filePart file.1 file.2.record.toValue =
      .ok (fileParts file.1 (resultParts file.2.notes file.2.errors file.2.shownTime)) := by
  rw [filePart, Filled.record_eq, resultPart_ofNotes file.2.twoPlaces_timeValue]
  rfl

theorem several_byPath (files : List (String × Filled)) :
    several (byPath files) =
      .ok (summary (("Analyzed " ++ toString files.length ++ " files") ::
        ("Found " ++ toString (files.map fun f => f.2.notes.length).sum ++ " total issues") ::
        severityLines fun s => (files.map fun f => countOf f.2.notes s).sum) ++
        files.flatMap fun f =>
          fileParts f.1 (resultParts f.2.notes f.2.errors f.2.shownTime)) := by
  have hcounts : (byPath files).mapM (fun f => f.2.getOr "total_issues" (.int 0)) =
      .ok ((files.map fun f => f.2.notes.length).map fun n : Nat => Value.int n) := by
    rw [List.map_map]
    refine mapM_byPath (fun file => ?_) files
    rw [Filled.record_eq]
    change Except.ok (Value.int (file.2.notes.map Note.toValue).length) = _
    rw [List.length_map]
    rfl
  have htotal : Value.total ((files.map fun f => f.2.notes.length).map
      fun n : Nat => Value.int n) =
        .ok (.int ((files.map fun f => f.2.notes.length).sum : Nat)) := by
    have hsum := total_ints (files.map fun f => f.2.notes.length) 0
    rwa [Nat.zero_add] at hsum
  have hseverities := foldlM_addResult files fun _ => 0
  simp only [Nat.zero_add] at hseverities
  have hparts : (byPath files).mapM (fun f => filePart f.1 f.2) =
      .ok (files.map fun f => fileParts f.1 (resultParts f.2.notes f.2.errors f.2.shownTime)) :=
    mapM_byPath filePart_filled files
  have hlines := lines_counts fun s => (files.map fun f => countOf f.2.notes s).sum
  -- every entry is a record, so no count and no part is left out
  rw [several, filter_byPath (fun _ _ => rfl)]
  change (byPath files).mapM (fun f => f.2.getOr "total_issues" (.int 0)) >>= _ = _
  rw [hcounts]
  change Value.total _ >>= _ = _
  rw [htotal, filter_byPath fun _ _ => rfl]
  change (byPath files).foldlM (fun c f => Counts.addResult c f.2) Counts.zero >>= _ = _
  rw [Counts.zero, hseverities]
  change (byPath files).mapM (fun f => filePart f.1 f.2) >>= _ = _
  have hlength : (byPath files).length = files.length := List.length_map _
  rw [hparts, ← hlines, List.flatMap_def, hlength]
  rfl

theorem body_filled (r : Filled) : body r.record.toValue = single r.record.toValue := by
  rw [Filled.record_eq]
  exact body_ofNotes r.twoPlaces_timeValue r.notes r.errors

theorem body_byPath {files : List (String × Filled)} (h : files ≠ []) :
    body (.object (byPath files)) = several (byPath files) := by
  obtain ⟨f, rest, rfl⟩ := List.exists_cons_of_ne_nil h
  rfl

def documentOf (now : String) (r : Filled) : List Flowable :=
  documentHead now ++ (summary (("Found " ++ toString r.notes.length ++ " total issues") ::
    severityLines (countOf r.notes)) ++ resultParts r.notes r.errors r.shownTime)

theorem document_filled (now : String) (r : Filled) :
    document now r.record.toValue = .ok (documentOf now r) := by
  rw [Filled.record_eq]
  exact document_ofNotes now r.twoPlaces_timeValue r.notes r.errors

theorem document_byPath (now : String) {files : List (String × Filled)} (h : files ≠ []) :
    document now (.object (byPath files)) =
      .ok (documentHead now ++ (summary (("Analyzed " ++ toString files.length ++ " files") ::
        ("Found " ++ toString (files.map fun f => f.2.notes.length).sum ++ " total issues") ::
        severityLines fun s => (files.map fun f => countOf f.2.notes s).sum) ++
        files.flatMap fun f => fileParts f.1 (afterSummary (documentOf now f.2)))) := by
  simp only [documentOf, afterSummary_document]
  rw [document, body_byPath h, several_byPath]
  rfl

/-- A document on several results has, for each of them, its path and what its own document has
behind the summary, and its summary adds up the numbers of theirs. -/
theorem document_of_several (now : String) : ∃ docOf : Filled → List Flowable,
    (∀ r : Filled, body r.record.toValue = single r.record.toValue ∧
      document now r.record.toValue = .ok (docOf r) ∧
      docOf r = documentHead now ++ (summaryOf (docOf r) ++ wideSpace :: afterSummary (docOf r)) ∧
      summaryOf (docOf r) = (("Found " ++ toString r.notes.length ++ " total issues") ::
        severityLines (countOf r.notes)).map plain) ∧
    ∀ files : List (String × Filled), files ≠ [] →
      body (.object (byPath files)) = several (byPath files) ∧
      ∃ doc, document now (.object (byPath files)) = .ok doc ∧
        doc = documentHead now ++ (summaryOf doc ++ wideSpace :: afterSummary doc) ∧
        summaryOf doc = (("Analyzed " ++ toString files.length ++ " files") ::
          ("Found " ++ toString (files.map fun f => f.2.notes.length).sum ++ " total issues") ::
          severityLines fun s => (files.map fun f => countOf f.2.notes s).sum).map plain ∧
        afterSummary doc = files.flatMap fun f =>
          .paragraph .subheading ("File: " ++ f.1) :: narrowSpace ::
            afterSummary (docOf f.2) ++ [.pageBreak] := by
  refine ⟨documentOf now, fun r => ?_, fun files hfiles => ?_⟩
  · exact ⟨body_filled r, document_filled now r, eq_of_summary now _ _, summaryOf_document now _ _⟩
  · exact ⟨body_byPath hfiles, _, document_byPath now hfiles, eq_of_summary now _ _,
      summaryOf_document now _ _, afterSummary_document now _ _⟩

def twoFiles : List (String × Filled) := [
  ("a.rs", ⟨[.issue ⟨"unsafe_transfer", "High", "", 3, 3, "", ""⟩, .error ⟨"Panic", "no tree"⟩,
    .issue ⟨"possible_reentrancy", "Warning", "", 1, 1, "", ""⟩], none⟩),
  ("b.rs", ⟨[.issue ⟨"locked_ether", "High", "", 1, 4, "", ""⟩,
    .issue ⟨"panic_usage", "Low", "", 7, 7, "", ""⟩], some (.finite false 3 (-1))⟩)]

theorem document_of_several_twoFiles : twoFiles ≠ [] ∧
    ∃ (docOf : Filled → List Flowable) (doc : List Flowable),
      (∀ f ∈ twoFiles, document "now" f.2.record.toValue = .ok (docOf f.2)) ∧
      document "now" (.object (byPath twoFiles)) = .ok doc ∧
      summaryOf doc = [plain "Analyzed 2 files", plain "Found 4 total issues",
        plain "High Severity Issues: 2", plain "Low Severity Issues: 1"] ∧
      afterSummary doc = twoFiles.flatMap fun f =>
        .paragraph .subheading ("File: " ++ f.1) :: narrowSpace ::
          afterSummary (docOf f.2) ++ [.pageBreak] := by
  have hfiles : twoFiles ≠ [] := by decide
  obtain ⟨docOf, hsingle, hseveral⟩ := document_of_several "now"
  obtain ⟨-, doc, hdoc, -, hsummary, hafter⟩ := hseveral twoFiles hfiles
  refine ⟨hfiles, docOf, doc, fun f _ => (hsingle f.2).2.1, hdoc, hsummary.trans ?_, hafter⟩
  decide

end Report
end ContractAudit
