import ContractAudit.Proofs.Analysis.Isolation
import ContractAudit.Proofs.Files.Walk

/-! An analysis of a file does not depend on how its path is spelled, on what the detectors
remember or on how long it takes, the time of the result apart. -/

namespace ContractAudit

theorem FileSystem.readText_of_get_eq {files : FileSystem} {path path' : String} {bytes : Bytes}
    (h : files.get path = .ok (.file bytes)) (h' : files.get path' = .ok (.file bytes)) :
    files.readText path = files.readText path' := by
  rw [readText, readText, read, read, h, h']

theorem snd_readContent (files : FileSystem) (path : String) :
    (readContent files path).2 = (files.readText path).toOption := by
  unfold readContent
  cases files.readText path <;> rfl

theorem Cargo.snd_expand_of_get_eq (cargo : Cargo) {files : FileSystem} {path path' : String}
    {bytes : Bytes} (h : files.get path = .ok (.file bytes))
    (h' : files.get path' = .ok (.file bytes)) :
    (cargo.expand files path).2 = (cargo.expand files path').2 := by
  have hcontent : (readContent files path).2 = (readContent files path').2 := by
    rw [snd_readContent, snd_readContent, FileSystem.readText_of_get_eq h h']
  cases cargo with
  | prints code => rfl
  | fails => exact hcontent
  | missing => exact hcontent

theorem Manifest.reentrantAt_of_get_eq {files : FileSystem} {dir dir' : String} {b : Bool}
    (h : files.get (Path.join dir "Cargo.toml") = files.get (Path.join dir' "Cargo.toml"))
    (hb : reentrantAt files dir = .ok b) : reentrantAt files dir' = .ok b := by
  unfold reentrantAt FileSystem.exists? FileSystem.read at hb ⊢
  dsimp only at hb ⊢
  rw [h] at hb
  cases hget : files.get (Path.join dir' "Cargo.toml") with
  | error cause =>
    rw [hget] at hb
    exact hb
  | ok e =>
    rw [hget] at hb
    cases e with
    | file bytes => exact hb
    | dir entries => cases hb
    | link target => cases hb

namespace Analyzer

theorem snd_prepare_of_get_eq {s s' : Surroundings} (hcargo : s.cargo = s'.cargo)
    (hfiles : s.files = s'.files) {path path' : String} {bytes : Bytes}
    (h : s.files.get path = .ok (.file bytes)) (h' : s.files.get path' = .ok (.file bytes))
    (code : Text) : (prepare s code (some path)).2 = (prepare s' code (some path')).2 := by
  have hexpand := s.cargo.snd_expand_of_get_eq h h'
  rw [prepare, prepare, if_neg (FileSystem.get_eq_ok_iff.mp h).1,
    if_neg (FileSystem.get_eq_ok_iff.mp h').1, ← hcargo, ← hfiles]
  dsimp only
  rw [hexpand]
  cases (s.cargo.expand s.files path').2 with
  | none => rfl
  | some expanded => cases expanded <;> rfl

theorem manifestIssues_of_twins {files : FileSystem} {path path' : String}
    (h : files.Twins path path') {more : List Issue}
    (hmore : manifestIssues files (some path) = .ok more) :
    manifestIssues files (some path') = .ok more := by
  have hget : files.get (Path.join (Path.dirname path) "Cargo.toml") =
      files.get (Path.join (Path.dirname path') "Cargo.toml") :=
    FileSystem.get_join_congr (by decide) (by decide) h.around
  unfold manifestIssues at hmore ⊢
  dsimp only at hmore ⊢
  cases hmanifest : Manifest.reentrantAt files (Path.dirname path) with
  | error fault =>
    rw [hmanifest] at hmore
    cases hmore
  | ok b =>
    rw [hmanifest] at hmore
    rw [Manifest.reentrantAt_of_get_eq hget hmanifest]
    exact hmore

theorem sweepOf_eq {a b : Analyzer} (hfresh : a.detectors.map Detector.fresh =
      b.detectors.map Detector.fresh) {s s' : Surroundings} (hparse : s.parse = s'.parse)
    {code : Text} {path path' : Option String}
    (hprepare : (prepare s code path).2 = (prepare s' code path').2) :
    (a.sweepOf s code path).issues = (b.sweepOf s' code path').issues ∧
      (a.sweepOf s code path).errors = (b.sweepOf s' code path').errors := by
  have hsource : source s code path = source s' code path' := congrArg Prod.fst hprepare
  unfold sweepOf sweep
  rw [foldl_step_issues, foldl_step_issues, foldl_step_errors, foldl_step_errors, hsource,
    hprepare, hparse, ← flatMap_alone_fresh, hfresh, flatMap_alone_fresh,
    ← filterMap_errorOf_fresh, hfresh, filterMap_errorOf_fresh]
  exact ⟨rfl, rfl⟩

/-- Analyses of one source next to one manifest give the same result, up to the time. -/
theorem result_of_same_source {a b : Analyzer} (hfresh : a.detectors.map Detector.fresh =
      b.detectors.map Detector.fresh) {s s' : Surroundings}
    (hrequest : (Loader.request s.held s.trouble).2 = (Loader.request s'.held s'.trouble).2)
    (hparse : s.parse = s'.parse) {code : Text} {path path' : Option String}
    (hprepare : (prepare s code path).2 = (prepare s' code path').2)
    (hmanifest : ∀ more, manifestIssues s.files path = .ok more →
      manifestIssues s'.files path' = .ok more)
    {result : Result} (hresult : (a.analyze s code path).result = .ok result) :
    (b.analyze s' code path').result = .ok { result with time := s'.elapsed } := by
  cases hparser : (Loader.request s.held s.trouble).2 with
  | none =>
    rw [result_of_unloaded hparser, hprepare] at hresult
    rw [result_of_unloaded (hrequest ▸ hparser)]
    cases hresult
    rfl
  | some parser =>
    obtain ⟨more, hmore, rfl⟩ := exists_of_returned (by rw [hparser]; rfl) hresult
    obtain ⟨hasLanguage⟩ := parser
    cases hasLanguage with
    | false =>
      rw [result_of_bare hparser] at hresult
      cases hresult
    | true =>
      obtain ⟨hissues, herrors⟩ := sweepOf_eq hfresh hparse hprepare
      rw [result_of_loaded (hrequest ▸ hparser), hmanifest more hmore, hissues, herrors]
      rfl

theorem time_of_analyze {a : Analyzer} {s : Surroundings} {code : Text} {path : Option String}
    {result : Result} (h : (a.analyze s code path).result = .ok result) :
    result.time = s.elapsed := by
  have hself := result_of_same_source rfl rfl rfl rfl (fun _ => id) h
  rw [h] at hself
  exact congrArg Result.time (Except.ok.inj hself)

theorem result_of_same_file {a b : Analyzer} (hfresh : a.detectors.map Detector.fresh =
      b.detectors.map Detector.fresh) {s s' : Surroundings} (hcargo : s.cargo = s'.cargo)
    (hfiles : s.files = s'.files)
    (hrequest : (Loader.request s.held s.trouble).2 = (Loader.request s'.held s'.trouble).2)
    (hparse : s.parse = s'.parse) {path path' : String} {bytes : Bytes}
    (h : s.files.get path = .ok (.file bytes)) (htwins : s.files.Twins path path') {code : Text}
    {result : Result} (hresult : (a.analyze s code (some path)).result = .ok result) :
    (b.analyze s' code (some path')).result = .ok { result with time := s'.elapsed } := by
  refine result_of_same_source hfresh hrequest hparse
    (snd_prepare_of_get_eq hcargo hfiles h (htwins.get_eq h) code) ?_ hresult
  intro more hmore
  rw [← hfiles]
  exact manifestIssues_of_twins htwins hmore

end Analyzer
end ContractAudit
