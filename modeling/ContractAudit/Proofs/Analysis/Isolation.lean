import ContractAudit.Analysis.Analyzer
import ContractAudit.Proofs.Detect.Fresh
import ContractAudit.Rust.Parser

/-! One analyzer through a run of analyses and registrations. Its detectors keep their memory
from one analysis to the next and share one report, and still every analysis is put together
from what each registered detector finds alone. -/

namespace ContractAudit.Analyzer

inductive Action where
  | analyze (s : Surroundings) (code : Text) (path : Option String)
  | register (d : Detector)
  | clear

def act (a : Analyzer) : Action → Analyzer
  | .analyze s code path => (a.analyze s code path).analyzer
  | .register d => a.register d
  | .clear => a.clear

def after (a : Analyzer) (actions : List Action) : Analyzer := actions.foldl act a

def registered (ds : List Detector) : Action → List Detector
  | .analyze .. => ds
  | .register d => ds ++ [d.fresh]
  | .clear => []

def registeredAfter (actions : List Action) : List Detector :=
  actions.foldl registered Detector.defaults

def errorOf (code : Text) (root : Node) (d : Detector) : Option ErrorEntry :=
  (d.alone code root).failure.map fun failure => ⟨d.name, failure.message⟩

theorem failureErrors_eq (name : String) (failure : Option Failure) :
    failureErrors name failure =
      (failure.map fun f => (⟨name, f.message⟩ : ErrorEntry)).toList := by
  cases failure <;> rfl

theorem step_issues (code : Text) (root : Node) (s : Sweep) (d : Detector) :
    (s.step code root d).issues = s.issues ++ (d.alone code root).issues := by
  simp only [Sweep.step, d.run_findings code s.issues root, Findings.behind]

theorem step_errors (code : Text) (root : Node) (s : Sweep) (d : Detector) :
    (s.step code root d).errors = s.errors ++ (errorOf code root d).toList := by
  simp only [Sweep.step, d.run_findings code s.issues root, Findings.behind, failureErrors_eq,
    errorOf]

theorem step_detectors (code : Text) (root : Node) (s : Sweep) (d : Detector) :
    (s.step code root d).detectors.map Detector.fresh =
      s.detectors.map Detector.fresh ++ [d.fresh] := by
  simp only [Sweep.step, List.map_append, List.map_cons, List.map_nil, d.run_fresh]

theorem foldl_step_issues (code : Text) (root : Node) (ds : List Detector) (s : Sweep) :
    (ds.foldl (Sweep.step code root) s).issues =
      s.issues ++ ds.flatMap fun d => (d.alone code root).issues := by
  induction ds generalizing s with
  | nil => simp only [List.foldl_nil, List.flatMap_nil, List.append_nil]
  | cons d ds ih =>
    rw [List.foldl_cons, ih, step_issues, List.flatMap_cons, List.append_assoc]

theorem foldl_step_errors (code : Text) (root : Node) (ds : List Detector) (s : Sweep) :
    (ds.foldl (Sweep.step code root) s).errors =
      s.errors ++ ds.filterMap (errorOf code root) := by
  induction ds generalizing s with
  | nil => simp only [List.foldl_nil, List.filterMap_nil, List.append_nil]
  | cons d ds ih =>
    rw [List.foldl_cons, ih, step_errors, List.append_assoc]
    cases h : errorOf code root d with
    | none => rw [List.filterMap_cons_none h, Option.toList_none, List.nil_append]
    | some e => rw [List.filterMap_cons_some h, Option.toList_some, List.singleton_append]

theorem foldl_step_detectors (code : Text) (root : Node) (ds : List Detector) (s : Sweep) :
    (ds.foldl (Sweep.step code root) s).detectors.map Detector.fresh =
      s.detectors.map Detector.fresh ++ ds.map Detector.fresh := by
  induction ds generalizing s with
  | nil => simp only [List.foldl_nil, List.map_nil, List.append_nil]
  | cons d ds ih =>
    rw [List.foldl_cons, ih, step_detectors, List.append_assoc, List.singleton_append,
      List.map_cons]

def source (s : Surroundings) (code : Text) (path : Option String) : Text :=
  (prepare s code path).2.1

def sweepOf (a : Analyzer) (s : Surroundings) (code : Text) (path : Option String) : Sweep :=
  sweep (source s code path) (s.parse (source s code path)) (prepare s code path).2.2 a.detectors

section Analyze

variable (a : Analyzer) (s : Surroundings) (code : Text) (path : Option String)

/-- What comes of an analysis depends on the parser that it gets. Without one, and with one that
has no language, the detectors are not run. -/
theorem analyze_eq : a.analyze s code path =
    match Loader.request s.held s.trouble with
    | (loaded, none) => ⟨a, none,
      (prepare s code path).1 ++ loaded ++ .note .error "Failed to generate AST",
      .ok ⟨[], (prepare s code path).2.2 ++
        [⟨"parser", "Failed to generate AST for the provided code"⟩], s.elapsed⟩⟩
    | (loaded, some ⟨false⟩) => ⟨a, some ⟨false⟩, (prepare s code path).1 ++ loaded,
      .error (.parse .noLanguage)⟩
    | (loaded, some ⟨true⟩) => ⟨⟨(a.sweepOf s code path).detectors⟩, some ⟨true⟩,
      (prepare s code path).1 ++ loaded ++ (a.sweepOf s code path).journal,
      (manifestIssues s.files path).map fun more =>
        ⟨(a.sweepOf s code path).issues ++ more, (a.sweepOf s code path).errors, s.elapsed⟩⟩ := by
  unfold analyze
  rcases Loader.request s.held s.trouble with ⟨loaded, _ | ⟨_ | _⟩⟩ <;> rfl

variable {a s code path}

theorem held_of_analyze :
    (a.analyze s code path).held = (Loader.request s.held s.trouble).2 := by
  rw [analyze_eq]
  rcases Loader.request s.held s.trouble with ⟨loaded, _ | ⟨_ | _⟩⟩ <;> rfl

theorem result_of_unloaded (h : (Loader.request s.held s.trouble).2 = none) :
    (a.analyze s code path).result = .ok ⟨[], (prepare s code path).2.2 ++
      [⟨"parser", "Failed to generate AST for the provided code"⟩], s.elapsed⟩ := by
  rw [analyze_eq]
  rcases hrequest : Loader.request s.held s.trouble with ⟨loaded, found⟩
  rw [hrequest] at h
  cases h
  rfl

theorem result_of_bare (h : (Loader.request s.held s.trouble).2 = some ⟨false⟩) :
    (a.analyze s code path).result = .error (.parse .noLanguage) := by
  rw [analyze_eq]
  rcases hrequest : Loader.request s.held s.trouble with ⟨loaded, found⟩
  rw [hrequest] at h
  cases h
  rfl

theorem result_of_loaded (h : (Loader.request s.held s.trouble).2 = some ⟨true⟩) :
    (a.analyze s code path).result = (manifestIssues s.files path).map fun more =>
      ⟨(a.sweepOf s code path).issues ++ more, (a.sweepOf s code path).errors, s.elapsed⟩ := by
  rw [analyze_eq]
  rcases hrequest : Loader.request s.held s.trouble with ⟨loaded, found⟩
  rw [hrequest] at h
  cases h
  rfl

theorem exists_of_returned {result : Result}
    (parsed : (Loader.request s.held s.trouble).2.isSome)
    (returned : (a.analyze s code path).result = .ok result) :
    ∃ more, manifestIssues s.files path = .ok more ∧
      result = ⟨(a.sweepOf s code path).issues ++ more, (a.sweepOf s code path).errors,
        s.elapsed⟩ := by
  obtain ⟨⟨_ | _⟩, hparser⟩ := Option.isSome_iff_exists.mp parsed
  · rw [result_of_bare hparser] at returned
    cases returned
  · rw [result_of_loaded hparser] at returned
    cases hmanifest : manifestIssues s.files path with
    | error fault =>
      rw [hmanifest] at returned
      cases returned
    | ok more =>
      rw [hmanifest] at returned
      cases returned
      exact ⟨more, rfl, rfl⟩

variable (a s code path)

theorem analyze_detectors : (a.analyze s code path).analyzer.detectors.map Detector.fresh =
    a.detectors.map Detector.fresh := by
  rw [analyze_eq]
  rcases Loader.request s.held s.trouble with ⟨loaded, _ | ⟨_ | _⟩⟩
  · rfl
  · rfl
  · -- the sweep starts with no detectors and puts each back after its run
    exact foldl_step_detectors _ _ a.detectors _

end Analyze

theorem act_detectors (a : Analyzer) (action : Action) :
    (a.act action).detectors.map Detector.fresh =
      registered (a.detectors.map Detector.fresh) action := by
  cases action with
  | analyze s code path => exact a.analyze_detectors s code path
  | register d =>
    simp only [act, register, registered, List.map_append, List.map_cons, List.map_nil]
  | clear => rfl

/-- Up to what they remember, the detectors of an analyzer are those that were registered. -/
theorem after_detectors (a : Analyzer) (actions : List Action) :
    (a.after actions).detectors.map Detector.fresh =
      actions.foldl registered (a.detectors.map Detector.fresh) := by
  induction actions generalizing a with
  | nil => rfl
  | cons action actions ih =>
    rw [List.foldl_cons, ← act_detectors]
    exact ih (a.act action)

theorem flatMap_alone_fresh (code : Text) (root : Node) (ds : List Detector) :
    ((ds.map Detector.fresh).flatMap fun d => (d.alone code root).issues) =
      ds.flatMap fun d => (d.alone code root).issues := by
  simp only [List.flatMap_map, Detector.alone_fresh]

theorem filterMap_errorOf_fresh (code : Text) (root : Node) (ds : List Detector) :
    (ds.map Detector.fresh).filterMap (errorOf code root) = ds.filterMap (errorOf code root) := by
  have h : errorOf code root ∘ Detector.fresh = errorOf code root := by
    funext d
    simp only [Function.comp_apply, errorOf, Detector.alone_fresh, Detector.name_fresh]
  rw [List.filterMap_map, h]

theorem prepare_errors (s : Surroundings) (code : Text) (path : Option String) :
    (prepare s code path).2.2 = [] ∨ (prepare s code path).2.2 = [preprocessorError] := by
  unfold prepare
  split
  · exact .inl rfl
  · split
    · exact .inl rfl
    · cases s.cargo.expand s.files _ with
      | mk journal expanded =>
        match expanded with
        | some (c :: cs) => exact .inl rfl
        | some [] => exact .inr rfl
        | none => exact .inr rfl

theorem manifestIssues_ok {files : FileSystem} {path : Option String} {more : List Issue}
    (h : manifestIssues files path = .ok more) : more = [] ∨ more = [reentrancyIssue] := by
  unfold manifestIssues at h
  split at h
  · cases h
  · split at h
    · cases h
    · cases h
      exact .inr rfl
    · cases h
      exact .inl rfl

/-- Whatever was done with an analyzer before, the issues of an analysis are those that fresh
instances of the registered detectors find alone, in the order of registration, and its errors
are one for each of them that fails. Around these stand the error of the expansion and the issue
of the manifest. -/
theorem analyze_eq_alone (before : List Action) (s : Surroundings) (code : Text)
    (path : Option String) (result : Result)
    (parsed : (Loader.request s.held s.trouble).2.isSome)
    (returned : ((default.after before).analyze s code path).result = .ok result) :
    let text := source s code path
    let root := s.parse text
    ∃ (more : List Issue) (early : List ErrorEntry),
      (more = [] ∨ more = [reentrancyIssue]) ∧ (early = [] ∨ early = [preprocessorError]) ∧
      result.issues =
        ((registeredAfter before).flatMap fun d => (d.alone text root).issues) ++ more ∧
      result.errors = early ++ (registeredAfter before).filterMap fun d =>
        (d.alone text root).failure.map fun failure => ⟨d.name, failure.message⟩ := by
  intro text root
  obtain ⟨more, hmanifest, rfl⟩ := exists_of_returned parsed returned
  have hds : (default.after before).detectors.map Detector.fresh = registeredAfter before :=
    default.after_detectors before
  refine ⟨more, (prepare s code path).2.2, manifestIssues_ok hmanifest,
    prepare_errors s code path, ?_, ?_⟩
  · rw [← hds, flatMap_alone_fresh]
    exact congrArg (· ++ more) (foldl_step_issues text root _ _)
  · rw [← hds]
    exact (foldl_step_errors text root _ _).trans
      (congrArg _ (filterMap_errorOf_fresh text root _).symm)

def stopper : Detector := .custom
  { name := "stopper"
    findings := fun code _ =>
      ⟨[⟨"note", .low, "start", 1, 1, String.ofList (code.take 10), "none"⟩],
        some (.stopped "no")⟩ }

def reentrantFiles : FileSystem :=
  .ofRoot (.dir [("Cargo.toml", .file "stylus-sdk features reentrant".toUTF8.toList)])
    [] (by decide +kernel)

def reentrantPlace (expansion : String) : Surroundings where
  files := reentrantFiles
  cargo := .prints expansion.toList
  held := none
  trouble := none
  parse := Rust.parse
  elapsed := .zero

/-- The detector of `unwrap` remembers a place of the first analysis and reports the same place
again in the second. -/
theorem analyze_eq_alone_second :
    let place := reentrantPlace "fn f() \x7b a.unwrap(); \x7d"
    let before := [.clear, .register stopper, .register (.builtin .unwrap .fresh),
      .analyze place [] (some "a.rs"), .register stopper]
    ∃ result, ((default.after before).analyze place [] (some "a.rs")).result = .ok result ∧
      result.issues.map (·.kind) = ["note", "unsafe_unwrap", "note", "reentrancy_feature"] ∧
      result.errors = [⟨"stopper", "no"⟩, ⟨"stopper", "no"⟩] ∧
      ∃ (more : List Issue) (early : List ErrorEntry),
        (more = [] ∨ more = [reentrancyIssue]) ∧ (early = [] ∨ early = [preprocessorError]) ∧
        result.issues = ((registeredAfter before).flatMap fun d =>
          (d.alone (source place [] (some "a.rs"))
            (place.parse (source place [] (some "a.rs")))).issues) ++ more ∧
        result.errors = early ++ (registeredAfter before).filterMap fun d =>
          (d.alone (source place [] (some "a.rs"))
            (place.parse (source place [] (some "a.rs")))).failure.map fun failure =>
              ⟨d.name, failure.message⟩ := by
  intro place before
  have hseen : ((default.after before).analyze place [] (some "a.rs")).result.toOption.map
      (fun result => (result.issues.map (·.kind), result.errors)) =
        some (["note", "unsafe_unwrap", "note", "reentrancy_feature"],
          [⟨"stopper", "no"⟩, ⟨"stopper", "no"⟩]) := by
    decide +kernel
  cases hresult : ((default.after before).analyze place [] (some "a.rs")).result with
  | error fault =>
    rw [hresult] at hseen
    cases hseen
  | ok result =>
    rw [hresult] at hseen
    obtain ⟨hkinds, herrors⟩ := Prod.mk.inj (Option.some.inj hseen)
    exact ⟨result, rfl, hkinds, herrors,
      analyze_eq_alone before place [] (some "a.rs") result rfl hresult⟩

end ContractAudit.Analyzer
