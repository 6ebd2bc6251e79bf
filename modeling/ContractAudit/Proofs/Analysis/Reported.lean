import ContractAudit.Proofs.Analysis.Isolation
import ContractAudit.Proofs.Detect.Origin
import ContractAudit.Proofs.Report.Entries

/-! What the two reports show of an analysis. The built-in detectors only give severities that
reports list, while the issue of the manifest has one that they do not: both reports count it and
leave it out. -/

namespace ContractAudit.Analyzer

open Report

def OnlyBuiltin (a : Analyzer) : Prop := ∀ d ∈ a.detectors, ∃ b m, d = .builtin b m

theorem onlyBuiltin_default : default.OnlyBuiltin := by
  intro d hd
  obtain ⟨b, -, rfl⟩ := List.mem_map.mp hd
  exact ⟨b, .fresh, rfl⟩

def Warned (s : Surroundings) (path : Option String) : Prop :=
  (Loader.request s.held s.trouble).2.isSome ∧
    ∃ p, path = some p ∧ Manifest.reentrantAt s.files (Path.dirname p) = .ok true

theorem severity_ne_warning {a : Analyzer} (ha : a.OnlyBuiltin) {s : Surroundings} {code : Text}
    {path : Option String} {i : Issue} (h : i ∈ (a.sweepOf s code path).issues) :
    i.severity ≠ .warning := by
  have hissues : (a.sweepOf s code path).issues = [] ++ a.detectors.flatMap fun d =>
      (d.alone (source s code path) (s.parse (source s code path))).issues :=
    foldl_step_issues _ _ a.detectors _
  rw [hissues, List.nil_append] at h
  obtain ⟨d, hd, hfound⟩ := List.mem_flatMap.mp h
  obtain ⟨b, m, rfl⟩ := ha d hd
  rw [(Detect.Builtin.labels_of_mem_findings hfound).2]
  cases b <;> decide

theorem manifestIssues_cases {files : FileSystem} {path : Option String} {more : List Issue}
    (h : manifestIssues files path = .ok more) :
    ∃ p, path = some p ∧
      (more = [reentrancyIssue] ∧ Manifest.reentrantAt files (Path.dirname p) = .ok true ∨
        more = [] ∧ Manifest.reentrantAt files (Path.dirname p) = .ok false) := by
  cases path with
  | none => cases h
  | some p =>
    refine ⟨p, rfl, ?_⟩
    unfold manifestIssues at h
    dsimp only at h
    split at h
    · cases h
    · next hmanifest =>
      cases h
      exact .inl ⟨rfl, hmanifest⟩
    · next hmanifest =>
      cases h
      exact .inr ⟨rfl, hmanifest⟩

theorem issues_of_analyze {a : Analyzer} (ha : a.OnlyBuiltin) {s : Surroundings} {code : Text}
    {path : Option String} {result : Result} (h : (a.analyze s code path).result = .ok result) :
    ∃ found : List Issue, (∀ i ∈ found, i.severity ≠ .warning) ∧
      (Warned s path ∧ result.issues = found ++ [reentrancyIssue] ∨
        ¬Warned s path ∧ result.issues = found) := by
  cases hparser : (Loader.request s.held s.trouble).2 with
  | none =>
    refine ⟨[], fun _ hi => absurd hi List.not_mem_nil, .inr ⟨?_, ?_⟩⟩
    · intro hwarned
      rw [Warned, hparser] at hwarned
      cases hwarned.1
    · rw [result_of_unloaded hparser] at h
      cases h
      rfl
  | some parser =>
    obtain ⟨more, hmanifest, rfl⟩ := exists_of_returned (by rw [hparser]; rfl) h
    refine ⟨(a.sweepOf s code path).issues, fun i hi => severity_ne_warning ha hi, ?_⟩
    obtain ⟨p, rfl, ⟨rfl, hon⟩ | ⟨rfl, hoff⟩⟩ := manifestIssues_cases hmanifest
    · exact .inl ⟨⟨by rw [hparser]; rfl, p, rfl, hon⟩, rfl⟩
    · refine .inr ⟨?_, List.append_nil _⟩
      rintro ⟨-, q, hq, hon⟩
      cases hq
      rw [hoff] at hon
      cases hon

theorem filter_listed {found : List Issue} (h : ∀ i ∈ found, i.severity ≠ .warning) :
    found.filter (·.severity ≠ .warning) = found :=
  List.filter_eq_self.mpr fun i hi => decide_eq_true (h i hi)

theorem severity_eq_warning_iff {a : Analyzer} (ha : a.OnlyBuiltin) {s : Surroundings}
    {code : Text} {path : Option String} {result : Result}
    (h : (a.analyze s code path).result = .ok result) {i : Issue} (hi : i ∈ result.issues) :
    i.severity = .warning ↔ i = reentrancyIssue := by
  refine ⟨fun hwarning => ?_, fun heq => heq ▸ rfl⟩
  obtain ⟨found, hfound, ⟨-, hissues⟩ | ⟨-, hissues⟩⟩ := issues_of_analyze ha h
  · rw [hissues] at hi
    rcases List.mem_append.mp hi with hi | hi
    · exact absurd hwarning (hfound i hi)
    · exact List.mem_singleton.mp hi
  · rw [hissues] at hi
    exact absurd hwarning (hfound i hi)

theorem length_ranked (issues : List Issue) :
    (ranked issues).length = (issues.filter (·.severity ≠ .warning)).length := by
  rw [← (ranked_perm issues).length_eq, List.length_map]

/-- Both reports of an analysis by built-in detectors come about, and they show the same entries:
each issue but that of the manifest, once. The number of issues that the first report states is the
number of its entries, and one more where the analysis finds the reentrant feature. -/
theorem reports_all_but_reentrancy (a : Analyzer) (ha : a.OnlyBuiltin) (s : Surroundings)
    (code : Text) (path : Option String) (result : Result)
    (returned : (a.analyze s code path).result = .ok result) (verbose : Bool) (now : String) :
    (listing verbose result.record).fault = none ∧
    (listing verbose result.record).lines.filter isEntryLine =
      (ranked result.issues).map entryLine ∧
    (result.issues ≠ [] → (listing verbose result.record).lines.head? =
      some ("\nFound " ++ toString result.issues.length ++ " issues:")) ∧
    (∃ parts, document now result.record.toValue = .ok parts ∧
      parts.filter isIssueHeading = (ranked result.issues).map issueHeading) ∧
    ((ranked result.issues).map Prod.snd).Perm (result.issues.filter (· ≠ reentrancyIssue)) ∧
    (Warned s path ∧ result.issues.length = (ranked result.issues).length + 1 ∨
      ¬Warned s path ∧ result.issues.length = (ranked result.issues).length) := by
  obtain ⟨hfault, hentries⟩ := clean_listing verbose result
  refine ⟨hfault, hentries, head?_listing verbose, drawn_document now result, ?_, ?_⟩
  · have hsame : result.issues.filter (·.severity ≠ .warning) =
        result.issues.filter (· ≠ reentrancyIssue) := by
      apply List.filter_congr
      intro i hi
      simp only [ne_eq, severity_eq_warning_iff ha returned hi]
    rw [← hsame]
    exact ranked_perm result.issues
  · rw [length_ranked]
    obtain ⟨found, hfound, ⟨hwarned, hissues⟩ | ⟨hwarned, hissues⟩⟩ :=
      issues_of_analyze ha returned
    · refine .inl ⟨hwarned, ?_⟩
      rw [hissues, List.filter_append, filter_listed hfound, List.length_append,
        List.length_append]
      rfl
    · refine .inr ⟨hwarned, ?_⟩
      rw [hissues, filter_listed hfound]

def warnedPlace : Surroundings where
  files := reentrantFiles
  cargo := .prints []
  held := none
  trouble := none
  parse := Rust.parse
  elapsed := .zero

def unwrapping : Text := "fn f() \x7b a.unwrap(); panic!(); \x7d".toList

/-- Three issues are found; the two of the detectors are shown. -/
theorem reports_all_but_reentrancy_unwrapping :
    ∃ result, (default.analyze warnedPlace unwrapping (some "a.rs")).result = .ok result ∧
      Warned warnedPlace (some "a.rs") ∧ result.issues.length = 3 ∧
      (listing false result.record).lines.filter isEntryLine =
        ["  [1] unsafe_panic", "  [1] unsafe_unwrap"] ∧
      ((ranked result.issues).map Prod.snd).Perm (result.issues.filter (· ≠ reentrancyIssue)) := by
  have hseen : (default.analyze warnedPlace unwrapping (some "a.rs")).result.toOption.map
      (fun result => (result.issues.length, (ranked result.issues).map entryLine)) =
        some (3, ["  [1] unsafe_panic", "  [1] unsafe_unwrap"]) := by
    decide +kernel
  cases hresult : (default.analyze warnedPlace unwrapping (some "a.rs")).result with
  | error fault =>
    rw [hresult] at hseen
    cases hseen
  | ok result =>
    rw [hresult] at hseen
    obtain ⟨hlength, hranked⟩ := Prod.mk.inj (Option.some.inj hseen)
    obtain ⟨-, hentries, -, -, hperm, hwarned | ⟨-, hshort⟩⟩ := reports_all_but_reentrancy default
      onlyBuiltin_default warnedPlace unwrapping (some "a.rs") result hresult false ""
    · exact ⟨result, rfl, hwarned.1, hlength, hentries.trans hranked, hperm⟩
    · have htwo : (ranked result.issues).length = 2 := by
        rw [← List.length_map entryLine, hranked]
        rfl
      omega

/-- Both reports count one issue and show none. -/
theorem not_reports_all : ∃ result,
    (default.analyze warnedPlace [] (some "a.rs")).result = .ok result ∧
    (listing false result.record).lines = ["\nFound 1 issues:",
      "\nAnalysis encountered 1 errors:",
      "  Error in preprocessor: Failed to preprocess code with cargo expand"] ∧
    ∃ parts, document "" result.record.toValue = .ok parts ∧
      plain "Found 1 total issues" ∈ parts ∧ parts.filter isIssueHeading = [] := by
  have hseen : (default.analyze warnedPlace [] (some "a.rs")).result.toOption.map
      (fun result => ((listing false result.record).lines,
        (document "" result.record.toValue).toOption.map fun parts =>
          (decide (plain "Found 1 total issues" ∈ parts), parts.filter isIssueHeading))) =
        some (["\nFound 1 issues:", "\nAnalysis encountered 1 errors:",
          "  Error in preprocessor: Failed to preprocess code with cargo expand"],
          some (true, [])) := by
    decide +kernel
  cases hresult : (default.analyze warnedPlace [] (some "a.rs")).result with
  | error fault =>
    rw [hresult] at hseen
    cases hseen
  | ok result =>
    rw [hresult] at hseen
    obtain ⟨hlines, hdocument⟩ := Prod.mk.inj (Option.some.inj hseen)
    refine ⟨result, rfl, hlines, ?_⟩
    cases hparts : document "" result.record.toValue with
    | error fault =>
      rw [hparts] at hdocument
      cases hdocument
    | ok parts =>
      rw [hparts] at hdocument
      obtain ⟨hcount, hheadings⟩ := Prod.mk.inj (Option.some.inj hdocument)
      exact ⟨parts, rfl, of_decide_eq_true hcount, hheadings⟩

end ContractAudit.Analyzer
