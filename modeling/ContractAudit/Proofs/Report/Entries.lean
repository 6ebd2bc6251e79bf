import ContractAudit.Proofs.Report.Layout
import Mathlib.Data.List.Perm.Basic

/-! The two reports of a result. Both come about, and the issues that they show are those of the
listed severities, in the same order and under the same numbers. -/

namespace ContractAudit

theorem Severity.name_inj {s t : Severity} (h : s.name = t.name) : s = t := by
  revert h
  cases s <;> cases t <;> decide

def Issue.note (i : Issue) : Note :=
  ⟨i.kind, i.severity.name, i.description, i.lineStart, i.lineEnd, i.snippet, i.recommendation⟩

theorem Result.record_eq (r : Result) :
    r.record = .ofNotes (r.issues.map Issue.note) r.errors (.float r.time) := by
  rw [Record.ofNotes, List.map_map]
  rfl

namespace Report

def numberedOf (issues : List Issue) (s : Severity) : List (Nat × Issue) :=
  ((issues.filter (·.severity = s)).zipIdx 1).map fun (i, n) => (n, i)

/-- The issues of the listed severities, the gravest first, as reports number them. -/
def ranked (issues : List Issue) : List (Nat × Issue) :=
  listedSeverities.flatMap (numberedOf issues)

def entryLine (e : Nat × Issue) : String := "  [" ++ toString e.1 ++ "] " ++ e.2.kind

def isEntryLine (line : String) : Bool := Text.startsWith line.toList "  ["

def issueHeading (e : Nat × Issue) : Flowable :=
  plain ("Issue " ++ toString e.1 ++ ": " ++ e.2.kind)

def isIssueHeading : Flowable → Bool
  | .paragraph _ s => Text.startsWith s.toList "Issue "
  | _ => false

theorem startsWith_append {a b : Text} {p : String} (h : p.toList.length ≤ a.length) :
    Text.startsWith (a ++ b) p = Text.startsWith a p := by
  rw [Bool.eq_iff_iff, Text.startsWith, Text.startsWith, List.isPrefixOf_iff_prefix,
    List.isPrefixOf_iff_prefix]
  refine ⟨fun hstarts => ?_, fun hstarts => hstarts.trans (List.prefix_append a b)⟩
  exact List.prefix_of_prefix_length_le hstarts (List.prefix_append a b) h

theorem isEntryLine_append {a b : String} (h : 3 ≤ a.toList.length) :
    isEntryLine (a ++ b) = isEntryLine a := by
  rw [isEntryLine, String.toList_append]
  exact startsWith_append h

theorem isIssueHeading_plain {a b : String} (h : 6 ≤ a.toList.length) :
    isIssueHeading (plain (a ++ b)) = isIssueHeading (plain a) := by
  rw [plain, plain, isIssueHeading, isIssueHeading, String.toList_append]
  exact startsWith_append h

theorem entryLine_isEntryLine (number : Nat) (kind : String) :
    isEntryLine ("  [" ++ toString number ++ "] " ++ kind) = true := by
  rw [String.append_assoc, String.append_assoc, isEntryLine_append (by decide)]
  decide

theorem flatMap_chapters_issues {α : Type} (f : Nat → Note → α) (issues : List Issue) :
    ((chapters (issues.map Issue.note)).flatMap fun c => (c.2.zipIdx 1).map fun e => f e.2 e.1) =
      (ranked issues).map fun e => f e.1 e.2.note := by
  rw [flatMap_chapters fun _ => rfl, ranked, List.map_flatMap]
  congr 1
  funext s
  have hfilter : (issues.map Issue.note).filter (·.severity = s.name) =
      (issues.filter (·.severity = s)).map Issue.note := by
    rw [List.filter_map]
    congr 2
    funext i
    simp only [Function.comp_apply, decide_eq_decide]
    exact ⟨Severity.name_inj, congrArg Severity.name⟩
  rw [hfilter, numberedOf, List.zipIdx_map, List.map_map, List.map_map]
  rfl

theorem filter_issueLines (verbose : Bool) (number : Nat) (n : Note) :
    (issueLines verbose number n).filter isEntryLine =
      ["  [" ++ toString number ++ "] " ++ n.kind] := by
  have hentry := entryLine_isEntryLine number n.kind
  have hlines : isEntryLine ("      Lines " ++ toString n.lineStart ++ "-" ++
      toString n.lineEnd) = false := by
    rw [String.append_assoc, String.append_assoc, isEntryLine_append (by decide)]
    decide
  have hlabelled : ∀ text, isEntryLine ("      Description: " ++ text) = false ∧
      isEntryLine ("      Code: " ++ text) = false ∧
      isEntryLine ("      Recommendation: " ++ text) = false := by
    intro text
    rw [isEntryLine_append (by decide), isEntryLine_append (by decide),
      isEntryLine_append (by decide)]
    decide
  cases verbose <;>
    simp only [issueLines, List.cons_append, List.nil_append, List.filter_cons, List.filter_nil,
      hentry, hlines, hlabelled, Bool.false_eq_true, if_true, if_false]

theorem filter_chapterLines (verbose : Bool) (c : Severity × List Note) :
    (chapterLines verbose c).filter isEntryLine =
      (c.2.zipIdx 1).map fun e => "  [" ++ toString e.2 ++ "] " ++ e.1.kind := by
  have hhead : isEntryLine ("\n" ++ c.1.name ++ " severity issues:") = false := by
    cases c.1 <;> decide
  rw [chapterLines, List.filter_cons_of_neg (by rw [hhead]; exact Bool.false_ne_true),
    List.filter_flatMap]
  simp only [filter_issueLines, ← List.map_eq_flatMap]

theorem filter_issuesLines (verbose : Bool) (issues : List Issue) :
    (issuesLines verbose (issues.map Issue.note)).filter isEntryLine =
      (ranked issues).map entryLine := by
  cases issues with
  | nil =>
    change ["No issues found."].filter isEntryLine = []
    decide
  | cons i rest =>
    have hhead : isEntryLine ("\nFound " ++
        toString ((i :: rest).map Issue.note).length ++ " issues:") = false := by
      rw [String.append_assoc, isEntryLine_append (by decide)]
      decide
    change (("\nFound " ++ toString ((i :: rest).map Issue.note).length ++ " issues:") ::
      (chapters ((i :: rest).map Issue.note)).flatMap (chapterLines verbose)).filter _ = _
    rw [List.filter_cons_of_neg (by rw [hhead]; exact Bool.false_ne_true), List.filter_flatMap]
    simp only [filter_chapterLines]
    exact flatMap_chapters_issues (fun number n => "  [" ++ toString number ++ "] " ++ n.kind) _

theorem filter_errorsLines (errors : List ErrorEntry) :
    (errorsLines errors).filter isEntryLine = [] := by
  rw [List.filter_eq_nil_iff]
  intro line hline
  unfold errorsLines at hline
  split at hline
  · cases hline
  · rcases List.mem_cons.mp hline with rfl | hentry
    · rw [String.append_assoc, isEntryLine_append (by decide)]
      decide
    · obtain ⟨e, -, rfl⟩ := List.mem_map.mp hentry
      rw [errorLine, String.append_assoc, String.append_assoc, isEntryLine_append (by decide)]
      decide

theorem clean_listing (verbose : Bool) (r : Result) :
    (listing verbose r.record).fault = none ∧
      (listing verbose r.record).lines.filter isEntryLine = (ranked r.issues).map entryLine := by
  rw [Result.record_eq, listing_ofNotes]
  refine ⟨rfl, ?_⟩
  rw [Printed.whole, List.filter_append, filter_issuesLines, filter_errorsLines, List.append_nil]

theorem head?_listing (verbose : Bool) {r : Result} (h : r.issues ≠ []) :
    (listing verbose r.record).lines.head? =
      some ("\nFound " ++ toString r.issues.length ++ " issues:") := by
  obtain ⟨i, rest, hissues⟩ := List.exists_cons_of_ne_nil h
  rw [Result.record_eq, listing_ofNotes, ← List.length_map Issue.note, hissues]
  rfl

theorem filter_issueParts (number : Nat) (n : Note) :
    (issueParts number n).filter isIssueHeading =
      [plain ("Issue " ++ toString number ++ ": " ++ n.kind)] := by
  have hheading :
      isIssueHeading (plain ("Issue " ++ toString number ++ ": " ++ n.kind)) = true := by
    rw [String.append_assoc, String.append_assoc, isIssueHeading_plain (by decide)]
    decide
  rw [issueParts, List.filter_cons_of_pos hheading]
  rfl

theorem filter_chapterParts (c : Severity × List Note) :
    (chapterParts c).filter isIssueHeading =
      (c.2.zipIdx 1).map fun e => plain ("Issue " ++ toString e.2 ++ ": " ++ e.1.kind) := by
  have hhead : isIssueHeading (plain (c.1.name ++ " Severity Issues:")) = false := by
    cases c.1 <;> decide
  rw [chapterParts, List.filter_cons_of_neg (by rw [hhead]; exact Bool.false_ne_true),
    List.filter_cons_of_neg (by decide), List.filter_flatMap]
  simp only [filter_issueParts, ← List.map_eq_flatMap]

theorem filter_errorsParts (errors : List ErrorEntry) :
    (errorsParts errors).filter isIssueHeading = [] := by
  rw [List.filter_eq_nil_iff]
  intro part hpart
  unfold errorsParts at hpart
  split at hpart
  · cases hpart
  · simp only [List.mem_append, List.mem_cons, List.mem_map, List.not_mem_nil, or_false] at hpart
    rcases hpart with (rfl | rfl | ⟨error, -, rfl⟩) | rfl
    · decide
    · decide
    · rw [String.append_assoc, String.append_assoc, isIssueHeading_plain (by decide)]
      decide
    · decide

theorem filter_resultParts (issues : List Issue) (errors : List ErrorEntry) (time : String) :
    (resultParts (issues.map Issue.note) errors time).filter isIssueHeading =
      (ranked issues).map issueHeading := by
  cases issues with
  | nil =>
    change [plain "No issues found in this file."].filter isIssueHeading = []
    decide
  | cons i rest =>
    have hlast : isIssueHeading (plain ("Analysis completed in " ++ time ++ " seconds")) =
        false := by
      rw [String.append_assoc, isIssueHeading_plain (by decide)]
      decide
    change ((chapters ((i :: rest).map Issue.note)).flatMap chapterParts ++ errorsParts errors ++
      [plain ("Analysis completed in " ++ time ++ " seconds")]).filter _ = _
    rw [List.filter_append, List.filter_append, filter_errorsParts, List.filter_singleton, hlast,
      List.filter_flatMap, List.append_nil]
    simp only [filter_chapterParts]
    exact (List.append_nil _).trans (flatMap_chapters_issues
      (fun number n => plain ("Issue " ++ toString number ++ ": " ++ n.kind)) _)

theorem filter_summary {lines : List String}
    (h : ∀ line ∈ lines, isIssueHeading (plain line) = false) :
    (summary lines).filter isIssueHeading = [] := by
  rw [List.filter_eq_nil_iff]
  intro part hpart
  rcases List.mem_append.mp hpart with hline | hspace
  · obtain ⟨line, hmem, rfl⟩ := List.mem_map.mp hline
    rw [h line hmem]
    exact Bool.false_ne_true
  · obtain rfl := List.mem_singleton.mp hspace
    decide

theorem isIssueHeading_severityLines {count : Severity → Nat} {line : String}
    (h : line ∈ severityLines count) : isIssueHeading (plain line) = false := by
  obtain ⟨s, -, hs⟩ := List.mem_filterMap.mp h
  split at hs
  · cases hs
  · obtain rfl := Option.some.inj hs
    cases s <;>
    · rw [isIssueHeading_plain (by decide)]
      decide

theorem drawn_document (now : String) (r : Result) :
    ∃ parts, document now r.record.toValue = .ok parts ∧
      parts.filter isIssueHeading = (ranked r.issues).map issueHeading := by
  have htime : (Value.float r.time).twoPlaces = .ok r.time.twoPlaces := rfl
  rw [Result.record_eq]
  refine ⟨_, document_ofNotes now htime (r.issues.map Issue.note) r.errors, ?_⟩
  have hdate : isIssueHeading (plain ("Generated on: " ++ now)) = false := by
    rw [isIssueHeading_plain (by decide)]
    decide
  have hhead : (documentHead now).filter isIssueHeading = [] := by
    rw [documentHead, List.filter_cons_of_neg (by decide),
      List.filter_cons_of_neg (by rw [hdate]; exact Bool.false_ne_true)]
    rfl
  rw [List.filter_append, List.filter_append, hhead, filter_resultParts, filter_summary]
  · rfl
  · intro line hline
    rcases List.mem_cons.mp hline with rfl | hcount
    · rw [String.append_assoc, isIssueHeading_plain (by decide)]
      decide
    · exact isIssueHeading_severityLines hcount

theorem map_snd_numberedOf (issues : List Issue) (s : Severity) :
    (numberedOf issues s).map Prod.snd = issues.filter (·.severity = s) := by
  rw [numberedOf, List.map_map]
  exact List.zipIdx_map_fst 1 _

theorem count_filter_severity (issues : List Issue) (p : Severity → Bool) (i : Issue) :
    (issues.filter (p ·.severity)).count i = if p i.severity then issues.count i else 0 := by
  split
  · next h => exact List.count_filter h
  · next h =>
    rw [List.count_eq_zero]
    intro hmem
    exact h (List.mem_filter.mp hmem).2

/-- The ranked issues are those of the listed severities, each as often as it was reported. -/
theorem ranked_perm (issues : List Issue) :
    ((ranked issues).map Prod.snd).Perm (issues.filter (·.severity ≠ .warning)) := by
  rw [ranked, List.map_flatMap, List.perm_iff_count]
  intro i
  simp only [map_snd_numberedOf, listedSeverities, List.flatMap_cons, List.flatMap_nil,
    List.count_append, List.count_nil]
  rw [count_filter_severity issues (· = .critical), count_filter_severity issues (· = .high),
    count_filter_severity issues (· = .medium), count_filter_severity issues (· = .low),
    count_filter_severity issues (· ≠ .warning)]
  cases i.severity <;> simp

end Report
end ContractAudit
