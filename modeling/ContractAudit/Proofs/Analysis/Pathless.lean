import ContractAudit.Proofs.Analysis.Isolation

/-! Analyses without a path. A path tells where the manifest is, and an analysis looks for it after
all detectors have run. Without a path that look fails, and what the detectors found is lost; every
path serves, even the empty one. -/

namespace ContractAudit.Analyzer

def Answers (a : Analyzer) (s : Surroundings) (code : Text) (path : Option String) : Prop :=
  let text := source s code path
  let root := s.parse text
  ∃ result, (a.analyze s code path).result = .ok result ∧
    result.issues = (a.detectors.flatMap fun d => (d.alone text root).issues) ∧
    result.errors = a.detectors.filterMap fun d =>
      (d.alone text root).failure.map fun failure => ⟨d.name, failure.message⟩

theorem manifestIssues_eq_nil_iff {files : FileSystem} {path : Option String} :
    manifestIssues files path = .ok [] ↔
      ∃ p, path = some p ∧ Manifest.reentrantAt files (Path.dirname p) = .ok false := by
  cases path with
  | none => simp [manifestIssues]
  | some p =>
    simp only [manifestIssues, Option.some.injEq, exists_eq_left']
    cases Manifest.reentrantAt files (Path.dirname p) with
    | error fault => simp
    | ok on => cases on <;> simp

theorem answers_iff (a : Analyzer) (s : Surroundings) (code : Text) (path : Option String)
    (h : (Loader.request s.held s.trouble).2 = some ⟨true⟩) :
    a.Answers s code path ↔
      (prepare s code path).2.2 = [] ∧ manifestIssues s.files path = .ok [] := by
  have hissues := foldl_step_issues (source s code path) (s.parse (source s code path))
    a.detectors ⟨[], .empty, [], (prepare s code path).2.2⟩
  have herrors := foldl_step_errors (source s code path) (s.parse (source s code path))
    a.detectors ⟨[], .empty, [], (prepare s code path).2.2⟩
  rw [List.nil_append] at hissues
  unfold Answers
  rw [result_of_loaded h]
  constructor
  · rintro ⟨result, hresult, hfound, hfailed⟩
    cases hmanifest : manifestIssues s.files path with
    | error fault =>
      rw [hmanifest] at hresult
      cases hresult
    | ok more =>
      rw [hmanifest] at hresult
      cases hresult
      have hmore : more = [] := List.append_right_eq_self.mp (hfound.trans hissues.symm)
      exact ⟨List.append_left_eq_self.mp (herrors.symm.trans hfailed), by rw [hmore]⟩
  · rintro ⟨hearly, hmanifest⟩
    rw [hmanifest]
    refine ⟨_, rfl, (List.append_nil _).trans hissues, herrors.trans ?_⟩
    rw [hearly]
    rfl

/-- Where a tree is obtained, an analysis without a path ends in a fault. Its detectors run as they
do with the empty path, and their findings are lost. An analysis returns exactly what its detectors
find and the errors of those that fail iff it has a path, the expansion adds no error, and there is
no manifest next to the path that cannot be read or turns the feature on. -/
theorem findings_lost_without_path (a : Analyzer) (s : Surroundings) (code : Text) (root : Node)
    (parsed : Loader.tree s.parse (Loader.request s.held s.trouble).2 code = .ok (some root)) :
    (a.analyze s code none).result = .error .noPath ∧
    (a.analyze s code none).analyzer = (a.analyze s code (some "")).analyzer ∧
    (a.analyze s code none).journal = (a.analyze s code (some "")).journal ∧
    ∀ path, a.Answers s code path ↔ ∃ p, path = some p ∧ (prepare s code path).2.2 = [] ∧
      Manifest.reentrantAt s.files (Path.dirname p) = .ok false := by
  have hparser : (Loader.request s.held s.trouble).2 = some ⟨true⟩ := by
    rcases hfound : (Loader.request s.held s.trouble).2 with _ | ⟨_ | _⟩
    · rw [hfound] at parsed
      cases parsed
    · rw [hfound] at parsed
      cases parsed
    · rfl
  refine ⟨?_, ?_, ?_, fun path => ?_⟩
  · rw [result_of_loaded hparser]
    rfl
  · rw [analyze_eq, analyze_eq]
    rcases Loader.request s.held s.trouble with ⟨loaded, _ | ⟨_ | _⟩⟩ <;> rfl
  · rw [analyze_eq, analyze_eq]
    rcases Loader.request s.held s.trouble with ⟨loaded, _ | ⟨_ | _⟩⟩ <;> rfl
  · rw [a.answers_iff s code path hparser, manifestIssues_eq_nil_iff]
    constructor
    · rintro ⟨hearly, p, hpath, hoff⟩
      exact ⟨p, hpath, hearly, hoff⟩
    · rintro ⟨p, hpath, hearly, hoff⟩
      exact ⟨hearly, p, hpath, hoff⟩

def emptyPlace : Surroundings where
  files := .ofRoot (.dir []) [] (by decide)
  cargo := .missing
  held := none
  trouble := none
  parse := Rust.parse
  elapsed := .zero

def unwrapper : Text := "fn f() \x7b a.unwrap(); \x7d".toList

/-- The call is found with the empty path. -/
theorem findings_lost_without_path_unwrapper :
    (default.analyze emptyPlace unwrapper none).result = .error .noPath ∧
    default.Answers emptyPlace unwrapper (some "") ∧
    (default.detectors.flatMap fun d =>
      (d.alone unwrapper (Rust.parse unwrapper)).issues).map Issue.kind = ["unsafe_unwrap"] := by
  obtain ⟨hfault, -, -, hanswers⟩ :=
    findings_lost_without_path default emptyPlace unwrapper (Rust.parse unwrapper) rfl
  have hnone : emptyPlace.files.exists? (Path.join (Path.dirname "") "Cargo.toml") = false := by
    decide +kernel
  refine ⟨hfault, (hanswers (some "")).mpr ⟨"", rfl, rfl, ?_⟩, ?_⟩
  · rw [Manifest.reentrantAt, hnone]
    rfl
  · decide +kernel

/-- A tree is obtained and a call is found in it, and nothing is returned. -/
theorem not_answers_without_path :
    ¬∀ (a : Analyzer) (s : Surroundings) (code : Text) (root : Node),
      Loader.tree s.parse (Loader.request s.held s.trouble).2 code = .ok (some root) →
        a.Answers s code none := by
  intro h
  obtain ⟨result, hresult, -⟩ := h default emptyPlace unwrapper (Rust.parse unwrapper) rfl
  cases hresult

end ContractAudit.Analyzer
