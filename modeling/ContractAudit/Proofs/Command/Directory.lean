import ContractAudit.Proofs.Analysis.Loading
import ContractAudit.Proofs.Analysis.SameFile
import ContractAudit.Proofs.Command.Job
import ContractAudit.Proofs.Files.Discovery

/-! Static analysis of a directory. One analyzer and one parser go through all contract files, and
the results are entered by the ways to them. A file can be found under several spellings of its
path; they lead to one key and to one result, the one that the file has alone. A link makes another
way, with a key of its own. -/

namespace ContractAudit

namespace Value

variable {members : List (String × Value)} {name : String} {v : Value}

theorem mem_setMember {m : String × Value} (h : m ∈ setMember members name v) :
    m ∈ members ∨ m = (name, v) := by
  unfold setMember at h
  split at h
  · obtain ⟨m', hm', rfl⟩ := List.mem_map.mp h
    split
    · exact .inr rfl
    · exact .inl hm'
  · rcases List.mem_append.mp h with h | h
    · exact .inl h
    · exact .inr (List.mem_singleton.mp h)

theorem map_fst_setMember : (setMember members name v).map Prod.fst =
    if name ∈ members.map Prod.fst then members.map Prod.fst
      else members.map Prod.fst ++ [name] := by
  have hany : members.any (·.1 = name) = true ↔ name ∈ members.map Prod.fst := by
    simp
  unfold setMember
  by_cases hname : name ∈ members.map Prod.fst
  · rw [if_pos (hany.mpr hname), if_pos hname, List.map_map]
    apply List.map_congr_left
    intro m _
    simp only [Function.comp_apply]
    split
    · next heq => exact heq.symm
    · rfl
  · rw [if_neg (mt hany.mp hname), if_neg hname, List.map_append]
    rfl

theorem mem_keys_setMember {key : String} : key ∈ (setMember members name v).map Prod.fst ↔
    key ∈ members.map Prod.fst ∨ key = name := by
  rw [map_fst_setMember]
  split
  · next hname =>
    refine ⟨.inl, ?_⟩
    rintro (hkey | rfl)
    · exact hkey
    · exact hname
  · rw [List.mem_append, List.mem_singleton]

theorem nodup_keys_setMember (h : (members.map Prod.fst).Nodup) :
    ((setMember members name v).map Prod.fst).Nodup := by
  rw [map_fst_setMember]
  split
  · exact h
  · next hname =>
    refine List.nodup_append.mpr ⟨h, by simp, ?_⟩
    rintro key hkey last hlast rfl
    exact hname (List.mem_singleton.mp hlast ▸ hkey)

end Value

/-- Once a parser is held or cannot be had, a request gives what the one before gave. -/
theorem Loader.request_again (held : Option Parser) (trouble : Option Trouble) :
    (request (request held trouble).2 trouble).2 = (request held trouble).2 := by
  rw [request_eq, request_eq]
  cases held <;> cases made trouble <;> rfl

theorem Project.twins_of_found {fs : FileSystem} {dir path path' : String}
    (hdir : fs.isDirAt dir = true)
    (h : fs.root.isLinkFree = true ∨ Glob.isSpecial dir = false)
    (hpath : path ∈ contractPaths fs dir) (hpath' : path' ∈ contractPaths fs dir)
    {bytes bytes' : Bytes} (hget : fs.get path = .ok (.file bytes))
    (hget' : fs.get path' = .ok (.file bytes'))
    (hnames : Path.names fs.cwd path = Path.names fs.cwd path') : fs.Twins path path' := by
  rcases h with hfs | hspecial
  · exact FileSystem.twins_of_names_eq hfs hget hget' hnames
  · obtain ⟨hne, s, entries, hspot, hentries⟩ := FileSystem.isDirAt_iff.mp hdir
    have hspelled : ∀ {path : String}, path ∈ contractPaths fs dir → ∃ d names,
        path = Path.descend d names ∧ fs.HasContract dir names ∧ fs.spot d = fs.spot dir ∧
          Path.names fs.cwd d = Path.names fs.cwd dir := by
      intro path hpath
      obtain ⟨names, hcontract, rfl | ⟨-, rfl⟩⟩ :=
        (mem_contractPaths_plain fs hne hspecial path).mp hpath
      · exact ⟨_, names, rfl, hcontract,
          ((FileSystem.spot_trim hentries).mpr hspot).trans hspot.symm, Path.names_trim dir⟩
      · exact ⟨dir, names, rfl, hcontract, rfl, rfl⟩
    obtain ⟨d, names, rfl, hcontract, hd, hplace⟩ := hspelled hpath
    obtain ⟨d', names', rfl, hcontract', hd', hplace'⟩ := hspelled hpath'
    rw [Path.names_descend hcontract.isName, Path.names_descend hcontract'.isName, hplace,
      hplace'] at hnames
    obtain rfl := List.append_cancel_left hnames
    exact FileSystem.twins_descend (hd.trans hd'.symm) hcontract.ne_nil hcontract.isName hget hget'

namespace Command

open Job

def Readable (files : FileSystem) (path : String) : Prop :=
  ∃ c cs, files.readText path = .ok (c :: cs)

def codeOf (files : FileSystem) (path : String) : Option Text :=
  filled? (readContent files path).2

def resultOf (setting : Setting) (files : FileSystem) (path : String) : Option Result :=
  (codeOf files path).bind fun code =>
    (Analyzer.default.analyze (surroundings setting (Session.start files)) code
      (some path)).result.toOption

def enter (setting : Setting) (files : FileSystem) (dir : String)
    (entries : List (String × Value)) (path : String) : List (String × Value) :=
  match resultOf setting files path with
  | some result => Value.setMember entries (Path.relative files.cwd path dir) result.record.toValue
  | none => entries

section Fold

variable {setting : Setting} {files : FileSystem} {dir : String} {paths : List String}
  {results : List (String × Value)}

theorem nodup_keys_enter (h : (results.map Prod.fst).Nodup) :
    ((paths.foldl (enter setting files dir) results).map Prod.fst).Nodup := by
  induction paths generalizing results with
  | nil => exact h
  | cons path paths ih =>
    apply ih
    unfold enter
    split
    · exact Value.nodup_keys_setMember h
    · exact h

theorem mem_keys_enter {key : String} :
    key ∈ (paths.foldl (enter setting files dir) results).map Prod.fst ↔
      key ∈ results.map Prod.fst ∨ ∃ path ∈ paths, (resultOf setting files path).isSome ∧
        Path.relative files.cwd path dir = key := by
  induction paths generalizing results with
  | nil => simp
  | cons path paths ih =>
    have hstep : key ∈ (enter setting files dir results path).map Prod.fst ↔
        key ∈ results.map Prod.fst ∨
          (resultOf setting files path).isSome ∧ Path.relative files.cwd path dir = key := by
      unfold enter
      cases resultOf setting files path with
      | none => simp
      | some result => simp [Value.mem_keys_setMember, eq_comm]
    rw [List.foldl_cons, ih, hstep]
    simp [or_assoc]

theorem mem_enter {m : String × Value}
    (h : m ∈ paths.foldl (enter setting files dir) results) :
    m ∈ results ∨ ∃ path ∈ paths, ∃ result, resultOf setting files path = some result ∧
      m = (Path.relative files.cwd path dir, result.record.toValue) := by
  induction paths generalizing results with
  | nil => exact .inl h
  | cons path paths ih =>
    rcases ih h with hstep | ⟨later, hlater, hfound⟩
    · unfold enter at hstep
      split at hstep
      · next result hresult =>
        rcases Value.mem_setMember hstep with hold | hnew
        · exact .inl hold
        · exact .inr ⟨path, List.mem_cons_self, result, hresult, hnew⟩
      · exact .inl hstep
    · exact .inr ⟨later, List.mem_cons_of_mem path hlater, hfound⟩

end Fold

theorem resultOf_eq_some_iff {setting : Setting} {files : FileSystem} {path : String}
    {result : Result} : resultOf setting files path = some result ↔
      ∃ code, codeOf files path = some code ∧
        (Analyzer.default.analyze (surroundings setting (Session.start files)) code
          (some path)).result = .ok result := by
  rw [resultOf, Option.bind_eq_some_iff]
  refine exists_congr fun code => and_congr_right fun _ => ?_
  cases (Analyzer.default.analyze (surroundings setting (Session.start files)) code
    (some path)).result <;> simp [Except.toOption]

/-- An analyzer and a session from which each file gets the result that it has alone: the detectors
are the built-in ones, whatever they remember, and a request gives the parser of the first one. -/
structure Unspent (setting : Setting) (a : Analyzer) (s : Session) : Prop where
  fresh : a.detectors.map Detector.fresh = Analyzer.default.detectors.map Detector.fresh
  held : (Loader.request s.parser setting.trouble).2 = (Loader.request none setting.trouble).2

section Unspent

variable {setting : Setting} {dir path : String} {verbose : Bool} {a : Analyzer}
  {results entries : List (String × Value)} {paths : List String} {s s' : Session}

theorem Unspent.resultOf_eq (h : Unspent setting a s) {code : Text} {result : Result}
    (hcode : codeOf s.files path = some code)
    (hresult : (a.analyze (surroundings setting s) code (some path)).result = .ok result) :
    resultOf setting s.files path = some result := by
  have halone : (Analyzer.default.analyze (surroundings setting (Session.start s.files)) code
      (some path)).result = .ok { result with time := setting.elapsed } := by
    refine Analyzer.result_of_same_source h.fresh ?_ ?_ ?_ ?_ hresult
    · exact h.held
    · rfl
    · rfl
    · exact fun _ => id
  have htime : result.time = setting.elapsed := Analyzer.time_of_analyze hresult
  rw [← htime] at halone
  exact resultOf_eq_some_iff.mpr ⟨code, hcode, halone⟩

theorem analyzeAll_cons_ends (hunspent : Unspent setting a s)
    (h : (analyzeAll setting dir verbose a results (path :: paths)).Ends s entries s') :
    ((codeOf s.files path).isSome → (resultOf setting s.files path).isSome) ∧
    ∃ a' t, t.files = s.files ∧ Unspent setting a' t ∧
      (analyzeAll setting dir verbose a' (enter setting s.files dir results path) paths).Ends t
        entries s' := by
  unfold analyzeAll at h
  obtain ⟨fs, mid, hfiles, h⟩ := ends_bind.mp h
  obtain ⟨rfl, rfl⟩ := ends_files.mp hfiles
  obtain ⟨_, said, hsay, h⟩ := ends_bind.mp h
  obtain ⟨_, rfl⟩ := hsay.session_eq (talks_say _ _)
  obtain ⟨content, read, hread, h⟩ := ends_bind.mp h
  obtain ⟨rfl, hreported⟩ := ends_readFile.mp hread
  obtain ⟨_, rfl⟩ := hreported.session_eq (talks_record _ _)
  cases hcode : codeOf s.files path with
  | none =>
    have hcontent : filled? (readContent s.files path).2 = none := hcode
    have hentered : enter setting s.files dir results path = results := by
      rw [enter, resultOf, hcode]
      rfl
    dsimp only at h
    rw [hcontent] at h
    obtain ⟨_, told, htell, h⟩ := ends_bind.mp h
    obtain ⟨_, rfl⟩ := htell.session_eq (talks_say _ _)
    rw [hentered]
    refine ⟨nofun, a, _, ?_, ?_, h⟩
    · rfl
    · exact ⟨hunspent.fresh, hunspent.held⟩
  | some code =>
    have hcontent : filled? (readContent s.files path).2 = some code := hcode
    dsimp only at h
    rw [hcontent] at h
    obtain ⟨⟨a', result⟩, analyzed, hanalyze, h⟩ := ends_bind.mp h
    obtain ⟨hresult, rfl, hrecord⟩ := ends_analyze.mp hanalyze
    obtain ⟨_, rfl⟩ := hrecord.session_eq (talks_record _ _)
    obtain ⟨_, printed, hprint, h⟩ := ends_bind.mp h
    obtain ⟨_, rfl⟩ := hprint.session_eq (talks_print _ _ _)
    obtain ⟨_, timed, htime, h⟩ := ends_bind.mp h
    obtain ⟨_, rfl⟩ := htime.session_eq (talks_say _ _)
    have hsome := hunspent.resultOf_eq hcode hresult
    have hentered : enter setting s.files dir results path =
        Value.setMember results (Path.relative s.files.cwd path dir) result.record.toValue := by
      rw [enter, hsome]
    have hheld := (Loader.request_again s.parser setting.trouble).trans hunspent.held
    rw [hentered]
    refine ⟨fun _ => ?_, _, _, ?_, ?_, h⟩
    · rw [hsome]
      rfl
    · rfl
    · exact ⟨(a.analyze_detectors _ _ _).trans hunspent.fresh, by rwa [Analyzer.held_of_analyze]⟩

/-- One analyzer and one parser for all files enter the results that the files have alone. -/
theorem analyzeAll_ends (hunspent : Unspent setting a s)
    (h : (analyzeAll setting dir verbose a results paths).Ends s entries s') :
    entries = paths.foldl (enter setting s.files dir) results ∧
      ∀ path ∈ paths, (codeOf s.files path).isSome → (resultOf setting s.files path).isSome := by
  induction paths generalizing a results s with
  | nil =>
    obtain ⟨rfl, rfl⟩ := ends_pure.mp h
    exact ⟨rfl, fun _ hpath => absurd hpath List.not_mem_nil⟩
  | cons path paths ih =>
    obtain ⟨hresult, a', t, hfiles, hunspent', hrest⟩ := analyzeAll_cons_ends hunspent h
    obtain ⟨hentries, hall⟩ := ih hunspent' hrest
    rw [hfiles] at hentries hall
    exact ⟨hentries, List.forall_mem_cons.mpr ⟨hresult, hall⟩⟩

end Unspent

def written (files : FileSystem) (path : String) (v : Value) : FileSystem :=
  match files.write path (Utf8.encode v.document) with
  | .ok after => after
  | .error _ => files

theorem files_saveResults {out : String} (hout : out ≠ "") (what : String) (v : Value)
    (s : Session) :
    ((saveResults (some out) what v).outcome s).2.files = written s.files out v := by
  have hpresent : present? (some out) = some out := if_neg hout
  rw [saveResults, hpresent]
  dsimp only
  rw [files_outcome_bind fun _ => (talks_log _ _).quiet.files_eq, saveValue,
    outcome_bind_of_ends (ends_files.mpr ⟨rfl, rfl⟩), written]
  cases s.files.write out (Utf8.encode v.document) <;> rfl

theorem ends_saveResults {out : String} (hout : out ≠ "") {what : String} {v : Value}
    {s s' : Session} (h : (saveResults (some out) what v).Ends s () s') :
    s.files.write out (Utf8.encode v.document) = .ok s'.files := by
  have hpresent : present? (some out) = some out := if_neg hout
  rw [saveResults, hpresent] at h
  obtain ⟨_, saved, hsave, hlog⟩ := ends_bind.mp h
  rw [hlog.files_eq (talks_log _ _).quiet]
  obtain ⟨fs, mid, hfiles, hwrite⟩ := ends_bind.mp hsave
  obtain ⟨rfl, rfl⟩ := ends_files.mp hfiles
  cases hresult : s.files.write out (Utf8.encode v.document) with
  | error fault =>
    rw [hresult] at hwrite
    exact absurd hwrite not_ends_fail
  | ok after =>
    rw [hresult] at hwrite
    cases hwrite
    rfl

theorem get_of_readable {files : FileSystem} {path : String} (h : Readable files path) :
    ∃ bytes, files.get path = .ok (.file bytes) := by
  obtain ⟨c, cs, htext⟩ := h
  unfold FileSystem.readText FileSystem.read at htext
  cases hget : files.get path with
  | error cause =>
    rw [hget] at htext
    cases htext
  | ok e =>
    rw [hget] at htext
    cases e with
    | file bytes => exact ⟨bytes, rfl⟩
    | dir entries => cases htext
    | link target => cases htext

theorem isSome_codeOf_iff {files : FileSystem} {path : String} :
    (codeOf files path).isSome ↔ Readable files path := by
  rw [codeOf, snd_readContent, Readable]
  cases files.readText path with
  | error fault => simp [Except.toOption, filled?]
  | ok text => cases text <;> simp [Except.toOption, filled?]

theorem readable_of_resultOf {setting : Setting} {files : FileSystem} {path : String}
    {result : Result} (h : resultOf setting files path = some result) : Readable files path := by
  obtain ⟨code, hcode, -⟩ := resultOf_eq_some_iff.mp h
  rw [← isSome_codeOf_iff, hcode]
  rfl

/-- Two settings in which a source is expanded and parsed in the same way. -/
structure Setting.Alike (setting setting' : Setting) : Prop where
  cargo : setting.cargo = setting'.cargo
  trouble : setting.trouble = setting'.trouble
  parse : setting.parse = setting'.parse

/-- A file has one result, however its path is spelled and however long the analysis takes. -/
theorem resultOf_of_twins {setting setting' : Setting} (halike : setting.Alike setting')
    {files : FileSystem} {path path' : String} (htwins : files.Twins path path') {result : Result}
    (hresult : resultOf setting files path = some result) :
    resultOf setting' files path' = some { result with time := setting'.elapsed } := by
  obtain ⟨bytes, hget⟩ := get_of_readable (readable_of_resultOf hresult)
  obtain ⟨code, hcode, hanalyze⟩ := resultOf_eq_some_iff.mp hresult
  have hcode' : codeOf files path' = some code := by
    rw [codeOf, snd_readContent, ← FileSystem.readText_of_get_eq hget (htwins.get_eq hget),
      ← snd_readContent]
    exact hcode
  refine resultOf_eq_some_iff.mpr ⟨code, hcode', ?_⟩
  refine Analyzer.result_of_same_file rfl ?_ ?_ ?_ ?_ hget htwins hanalyze
  · exact halike.cargo
  · rfl
  · exact congrArg (fun trouble => (Loader.request none trouble).2) halike.trouble
  · exact halike.parse

theorem time_of_resultOf {setting : Setting} {files : FileSystem} {path : String}
    {result : Result} (h : resultOf setting files path = some result) :
    result.time = setting.elapsed := by
  obtain ⟨code, -, hanalyze⟩ := resultOf_eq_some_iff.mp h
  exact Analyzer.time_of_analyze hanalyze

theorem analyzeOne_ends {setting : Setting} {files : FileSystem} {path out : String}
    {pdf : Option String} {verbose : Bool} {result : Result} {s : Session} (hout : out ≠ "")
    (hresult : resultOf setting files path = some result)
    (h : (analyzeOne setting path (some out) pdf verbose).Ends (Session.start files) () s) :
    files.write out (Utf8.encode result.record.toValue.document) = .ok s.files := by
  obtain ⟨code, hcode, hanalyze⟩ := resultOf_eq_some_iff.mp hresult
  have hcontent : filled? (readContent files path).2 = some code := hcode
  obtain ⟨content, read, hread, h⟩ := ends_bind.mp h
  obtain ⟨rfl, hreported⟩ := ends_readFile.mp hread
  obtain ⟨_, rfl⟩ := hreported.session_eq (talks_record _ _)
  dsimp only [Session.start] at h
  rw [hcontent] at h
  obtain ⟨⟨a', found⟩, analyzed, hfound, h⟩ := ends_bind.mp h
  obtain rfl : found = result := Except.ok.inj ((ends_analyze.mp hfound).1.symm.trans hanalyze)
  obtain ⟨_, printed, hprint, h⟩ := ends_bind.mp h
  obtain ⟨_, timed, htime, h⟩ := ends_bind.mp h
  obtain ⟨_, saved, hsave, h⟩ := ends_bind.mp h
  obtain ⟨_, reported, hreport, hnotice⟩ := ends_bind.mp h
  have hfiles : timed.files = files := by
    rw [htime.files_eq (talks_say _ _).quiet, hprint.files_eq (talks_print _ _ _).quiet,
      hfound.files_eq (quiet_analyze _ _ _ _)]
  rw [hnotice.files_eq (talks_sayReentrancy _ _ _).quiet,
    hreport.files_eq (quiet_saveReport _ _ _), ← hfiles]
  exact ends_saveResults hout hsave

theorem files_analyzeOne {setting : Setting} (haccepts : ∀ text, setting.console.Accepts text)
    {files : FileSystem} {path out : String} {pdf : Option String} {verbose : Bool}
    {result : Result} (hout : out ≠ "") (hresult : resultOf setting files path = some result) :
    ((analyzeOne setting path (some out) pdf verbose).outcome (Session.start files)).2.files =
      written files out result.record.toValue := by
  obtain ⟨code, hcode, hanalyze⟩ := resultOf_eq_some_iff.mp hresult
  have hcontent : filled? (readContent files path).2 = some code := hcode
  obtain ⟨told, hreported⟩ :=
    record_ends (plays_of_accepts haccepts (readContent files path).1) (Session.start files)
  have hread : (readFile setting path).Ends (Session.start files) (readContent files path).2 _ :=
    ends_readFile.mpr ⟨rfl, hreported⟩
  rw [analyzeOne, outcome_bind_of_ends hread, hcontent]
  obtain ⟨a', analyzed, hfound, hsame⟩ :=
    analyze_ends haccepts (s := { Session.start files with journal := told }) hanalyze
  obtain ⟨_, hprint⟩ := print_ends haccepts verbose result analyzed
  obtain ⟨_, htime⟩ : ∃ later, (sayTime setting result).Ends _ () _ := say_ends haccepts _ _
  dsimp only
  rw [outcome_bind_of_ends hfound]
  dsimp only
  rw [outcome_bind_of_ends hprint, outcome_bind_of_ends htime, files_outcome_bind,
    files_saveResults hout, hsame]
  · rfl
  · -- what follows the saving leaves the files alone
    intro _ s
    rw [files_outcome_bind fun _ => (talks_sayReentrancy _ _ _).quiet.files_eq]
    exact (quiet_saveReport ..).files_eq s

/-- What a static analysis of one file alone writes is this result, with a time of its own. -/
def WrittenAlone (setting : Setting) (files : FileSystem) (path : String) (result : Result) :
    Prop :=
  ∀ (setting' : Setting) (out : String) (pdf : Option String) (verbose : Bool),
    setting.Alike setting' → out ≠ "" →
    let run := (Invocation.staticAnalyze path (some out) pdf verbose).execute setting' files
    let alone := { result with time := setting'.elapsed }.record.toValue
    (run.status = 0 → files.write out (Utf8.encode alone.document) = .ok run.session.files) ∧
    ((∀ text, setting'.console.Accepts text) → run.session.files = written files out alone)

theorem writtenAlone_of_resultOf {setting : Setting} {files : FileSystem} {path : String}
    {result : Result} (h : resultOf setting files path = some result) :
    WrittenAlone setting files path result := by
  intro setting' out pdf verbose halike hout run alone
  obtain ⟨bytes, hget⟩ := get_of_readable (readable_of_resultOf h)
  have hfile : files.isDirAt path = false := by
    rw [FileSystem.isDirAt, hget]
    rfl
  have hresult := resultOf_of_twins halike ⟨rfl, rfl⟩ h
  refine ⟨fun hstatus => ?_, fun haccepts => ?_⟩
  · have hends := ends_of_status (noExit_staticAnalyze setting' path (some out) pdf verbose) hstatus
    rw [Ends, outcome_staticAnalyze, hfile, if_neg Bool.false_ne_true] at hends
    exact analyzeOne_ends hout hresult hends
  · rw [files_execute, outcome_staticAnalyze, hfile, if_neg Bool.false_ne_true]
    exact files_analyzeOne haccepts hout hresult

def entriesOf (setting : Setting) (files : FileSystem) (dir : String) : List (String × Value) :=
  (Project.contractPaths files dir).foldl (enter setting files dir) []

theorem analyzeDirectory_ends {setting : Setting} {files : FileSystem} {dir out : String}
    {pdf : Option String} {verbose : Bool} {s : Session} (hout : out ≠ "")
    (h : (analyzeDirectory setting dir (some out) pdf verbose).Ends (Session.start files) () s) :
    (Project.contractPaths files dir = [] → s.files = files) ∧
    (Project.contractPaths files dir ≠ [] →
      files.write out (Utf8.encode (Value.object (entriesOf setting files dir)).document) =
        .ok s.files ∧
      ∀ path ∈ Project.contractPaths files dir, Readable files path →
        (resultOf setting files path).isSome) := by
  obtain ⟨fs, mid, hfiles, h⟩ := ends_bind.mp h
  obtain ⟨rfl, rfl⟩ := ends_files.mp hfiles
  split at h
  · next hnil =>
    exact ⟨fun _ => h.files_eq (talks_say _ _).quiet, fun hne => absurd hnil hne⟩
  · next hne =>
    refine ⟨fun hnil => absurd hnil hne, fun _ => ?_⟩
    obtain ⟨_, told, htell, h⟩ := ends_bind.mp h
    obtain ⟨_, rfl⟩ := htell.session_eq (talks_sayReentrancy _ _ _)
    obtain ⟨entries, analyzed, hall, h⟩ := ends_bind.mp h
    obtain ⟨_, saved, hsave, hreport⟩ := ends_bind.mp h
    obtain ⟨hentries, hresults⟩ := analyzeAll_ends ⟨rfl, rfl⟩ hall
    refine ⟨?_, fun path hpath hread => hresults path hpath (isSome_codeOf_iff.mpr hread)⟩
    have hwrite := ends_saveResults hout hsave
    rw [hall.files_eq (quiet_analyzeAll _ _ _ _ _ _), hentries] at hwrite
    rw [hreport.files_eq (quiet_saveReport _ _ _)]
    exact hwrite

theorem ends_directory {setting : Setting} {files : FileSystem} {dir : String}
    {output pdf : Option String} {verbose : Bool} (hdir : files.isDirAt dir = true)
    (h : ((Invocation.staticAnalyze dir output pdf verbose).execute setting files).status = 0) :
    (analyzeDirectory setting dir output pdf verbose).Ends (Session.start files) ()
      ((Invocation.staticAnalyze dir output pdf verbose).execute setting files).session := by
  have hends := ends_of_status (noExit_staticAnalyze setting dir output pdf verbose) h
  rwa [Ends, outcome_staticAnalyze, hdir, if_pos rfl] at hends

/-- If the paths that are found tell files by their places, the entry of a path holds the result
that its file has alone. -/
theorem mem_entriesOf {setting : Setting} {files : FileSystem} {dir path : String}
    {result : Result} (hdir : files.isDirAt dir = true)
    (h : files.root.isLinkFree = true ∨ Glob.isSpecial dir = false)
    (hpath : path ∈ Project.contractPaths files dir)
    (hresult : resultOf setting files path = some result) :
    (Path.relative files.cwd path dir, result.record.toValue) ∈ entriesOf setting files dir := by
  have hkey : Path.relative files.cwd path dir ∈ (entriesOf setting files dir).map Prod.fst :=
    mem_keys_enter.mpr (.inr ⟨path, hpath, by rw [hresult]; rfl, rfl⟩)
  obtain ⟨m, hm, hfst⟩ := List.mem_map.mp hkey
  rcases mem_enter hm with hnone | ⟨path', hpath', result', hresult', rfl⟩
  · cases hnone
  · -- the key was entered for a path to the same file, which has the same result
    obtain ⟨bytes, hget⟩ := get_of_readable (readable_of_resultOf hresult)
    obtain ⟨bytes', hget'⟩ := get_of_readable (readable_of_resultOf hresult')
    have htwins := Project.twins_of_found hdir h hpath hpath' hget hget'
      ((Path.relative_inj files.named).mp hfst.symm)
    have hsame := resultOf_of_twins ⟨rfl, rfl, rfl⟩ htwins hresult
    rw [hresult', ← time_of_resultOf hresult] at hsame
    cases hsame
    rw [← hfst]
    exact hm

/-- A static analysis of a directory that comes to its end writes nothing if no contract is found,
and otherwise one entry for each way from the directory to a contract that can be read and is not
empty. What is entered for it is what a static analysis of the file alone writes, the time apart.
Without links each file has one way, and different files have different ones. -/
theorem directory_eq_files (setting : Setting) (files : FileSystem) (dir out : String)
    (pdf : Option String) (verbose : Bool) (hdir : files.isDirAt dir = true) (hout : out ≠ "")
    (completes :
      ((Invocation.staticAnalyze dir (some out) pdf verbose).execute setting files).status = 0) :
    let paths := Project.contractPaths files dir
    let key := fun path => Path.relative files.cwd path dir
    let after :=
      ((Invocation.staticAnalyze dir (some out) pdf verbose).execute setting files).session.files
    (paths = [] → after = files) ∧
    (paths ≠ [] → ∃ entries : List (String × Value),
      files.write out (Utf8.encode (Value.object entries).document) = .ok after ∧
      (entries.map Prod.fst).Nodup ∧
      (∀ k, k ∈ entries.map Prod.fst ↔ ∃ path ∈ paths, Readable files path ∧ key path = k) ∧
      (∀ k v, (k, v) ∈ entries → ∃ path ∈ paths, key path = k ∧
        ∃ result : Result, v = result.record.toValue ∧ WrittenAlone setting files path result) ∧
      (∀ path path', (key path = key path' ↔
          Path.names files.cwd path = Path.names files.cwd path') ∧
        Path.names files.cwd (Path.join dir (key path)) = Path.names files.cwd path) ∧
      (files.root.isLinkFree = true ∨ Glob.isSpecial dir = false →
        ∀ path ∈ paths, Readable files path → ∃ result : Result,
          (key path, result.record.toValue) ∈ entries ∧ WrittenAlone setting files path result) ∧
      (files.root.isLinkFree = true → ∀ path ∈ paths, ∀ path' ∈ paths, Readable files path →
        Readable files path' → (key path = key path' ↔ files.spot path = files.spot path'))) := by
  intro paths key after
  obtain ⟨hnil, hwritten⟩ := analyzeDirectory_ends hout (ends_directory hdir completes)
  refine ⟨hnil, fun hne => ?_⟩
  obtain ⟨hwrite, hresults⟩ := hwritten hne
  refine ⟨entriesOf setting files dir, hwrite, nodup_keys_enter List.nodup_nil, ?_, ?_, ?_, ?_, ?_⟩
  · intro k
    rw [entriesOf, mem_keys_enter]
    constructor
    · rintro (hnone | ⟨path, hpath, hsome, hkey⟩)
      · cases hnone
      · obtain ⟨result, hresult⟩ := Option.isSome_iff_exists.mp hsome
        exact ⟨path, hpath, readable_of_resultOf hresult, hkey⟩
    · rintro ⟨path, hpath, hread, hkey⟩
      exact .inr ⟨path, hpath, hresults path hpath hread, hkey⟩
  · intro k v hm
    rcases mem_enter hm with hnone | ⟨path, hpath, result, hresult, heq⟩
    · cases hnone
    · cases heq
      exact ⟨path, hpath, rfl, result, rfl, writtenAlone_of_resultOf hresult⟩
  · exact fun path path' =>
      ⟨Path.relative_inj files.named, Path.names_join_relative files.named path dir⟩
  · intro h path hpath hread
    obtain ⟨result, hresult⟩ := Option.isSome_iff_exists.mp (hresults path hpath hread)
    exact ⟨result, mem_entriesOf hdir h hpath hresult, writtenAlone_of_resultOf hresult⟩
  · intro hfs path _ path' _ hread hread'
    obtain ⟨bytes, hget⟩ := get_of_readable hread
    obtain ⟨bytes', hget'⟩ := get_of_readable hread'
    obtain ⟨-, s, hspot, -⟩ := FileSystem.get_eq_ok_iff.mp hget
    obtain ⟨-, s', hspot', -⟩ := FileSystem.get_eq_ok_iff.mp hget'
    rw [Path.relative_inj files.named, hspot, hspot', FileSystem.spot_linkFree hfs hspot,
      FileSystem.spot_linkFree hfs hspot']
    simp

def contracts : FileSystem :=
  .ofRoot
    (.dir [("w", .dir [("c", .dir [
      ("src", .dir [("b.rs", .file "fn f() \x7b a.unwrap(); \x7d".toUTF8.toList)]),
      ("e.rs", .file [])])])])
    ["w"] (by decide +kernel)

def noCargo (elapsed : Binary64) : Setting where
  console := .plain
  cargo := .missing
  trouble := none
  parse := Rust.parse
  apiKey := none
  service := fun _ => .refused ""
  elapsed := elapsed
  now := ""

/-- With two slashes at the end of the directory the contract below `src` is found under two
spellings. It has one entry. -/
theorem directory_eq_files_twoSpellings :
    Project.contractPaths contracts "/w/c//" =
      ["/w/c//src/b.rs", "/w/c/e.rs", "/w/c/src/b.rs"] ∧
    ∃ entries : List (String × Value),
      contracts.write "o.json" (Utf8.encode (Value.object entries).document) =
        .ok ((Invocation.staticAnalyze "/w/c//" (some "o.json") none false).execute (noCargo .zero)
          contracts).session.files ∧
      (entries.map Prod.fst).Nodup ∧ (∀ key, key ∈ entries.map Prod.fst ↔ key = "src/b.rs") ∧
      ∀ path ∈ ["/w/c//src/b.rs", "/w/c/src/b.rs"], ∃ result : Result,
        ("src/b.rs", result.record.toValue) ∈ entries ∧
        ((Invocation.staticAnalyze path (some "p.json") none true).execute (noCargo .nan)
            contracts).session.files =
          written contracts "p.json" { result with time := .nan }.record.toValue := by
  have hpaths : Project.contractPaths contracts "/w/c//" =
      ["/w/c//src/b.rs", "/w/c/e.rs", "/w/c/src/b.rs"] := by
    rw [Project.contractPaths_eq_insertionSort]
    decide +kernel
  have hdir : contracts.isDirAt "/w/c//" = true := by decide +kernel
  have hcompletes : ((Invocation.staticAnalyze "/w/c//" (some "o.json") none false).execute
      (noCargo .zero) contracts).status = 0 := by
    rw [status_execute, outcome_staticAnalyze, if_pos hdir, analyzeDirectory,
      outcome_bind_of_ends (ends_files.mpr ⟨rfl, rfl⟩)]
    dsimp only [Session.start]
    rw [hpaths]
    decide +kernel
  have hread : ∀ path ∈ ["/w/c//src/b.rs", "/w/c/src/b.rs"], Readable contracts path := by
    intro path hpath
    rw [← isSome_codeOf_iff]
    revert path
    decide +kernel
  have hempty : ¬Readable contracts "/w/c/e.rs" := by
    rw [← isSome_codeOf_iff]
    decide +kernel
  have hkeys : ∀ path ∈ ["/w/c//src/b.rs", "/w/c/src/b.rs"],
      Path.relative contracts.cwd path "/w/c//" = "src/b.rs" := by
    decide +kernel
  obtain ⟨-, hsome⟩ := directory_eq_files (noCargo .zero) contracts "/w/c//" "o.json" none false
    hdir (by decide) hcompletes
  rw [hpaths] at hsome
  obtain ⟨entries, hwrite, hnodup, hmem, -, -, hsingle, -⟩ := hsome (List.cons_ne_nil _ _)
  refine ⟨hpaths, entries, hwrite, hnodup, fun key => ?_, fun path hpath => ?_⟩
  · rw [hmem]
    constructor
    · rintro ⟨path, hpath, hreadable, rfl⟩
      rcases List.mem_cons.mp hpath with rfl | hpath
      · exact hkeys _ List.mem_cons_self
      · rcases List.mem_cons.mp hpath with rfl | hpath
        · exact absurd hreadable hempty
        · exact hkeys path (List.mem_cons_of_mem _ hpath)
    · rintro rfl
      exact ⟨"/w/c//src/b.rs", List.mem_cons_self, hread _ List.mem_cons_self,
        hkeys _ List.mem_cons_self⟩
  · have hlisted : path ∈ ["/w/c//src/b.rs", "/w/c/e.rs", "/w/c/src/b.rs"] := by
      revert path
      decide
    obtain ⟨result, hentry, halone⟩ :=
      hsingle (.inl (by decide +kernel)) path hlisted (hread path hpath)
    dsimp only at hentry
    rw [hkeys path hpath] at hentry
    exact ⟨result, hentry, (halone (noCargo .nan) "p.json" none true ⟨rfl, rfl, rfl⟩
      (by decide)).2 fun _ => rfl⟩

/-- A directory without contracts, and one in which a contract can be reached over a link too. -/
def linked : FileSystem :=
  .ofRoot
    (.dir [("w", .dir [("c", .dir []), ("d", .dir [
      ("real", .dir [("x.rs", .file "fn f() \x7b\x7d".toUTF8.toList)]),
      ("link", .link "real")])])])
    ["w"] (by decide +kernel)

/-- For a directory without contracts nothing is written. A file that can be reached over a link
too has two entries. -/
theorem not_one_entry_for_each_file :
    let run := fun dir =>
      (Invocation.staticAnalyze dir (some "o.json") none false).execute (noCargo .zero) linked
    (linked.isDirAt "c" = true ∧ (run "c").status = 0 ∧
      (run "c").session.files.exists? "o.json" = false) ∧
    (linked.spot "d/link/x.rs").map Spot.names = (linked.spot "d/real/x.rs").map Spot.names ∧
    ∃ entries : List (String × Value),
      linked.write "o.json" (Utf8.encode (Value.object entries).document) =
        .ok (run "d").session.files ∧
      "link/x.rs" ∈ entries.map Prod.fst ∧ "real/x.rs" ∈ entries.map Prod.fst := by
  have hpaths : Project.contractPaths linked "d" = ["d/link/x.rs", "d/real/x.rs"] := by
    rw [Project.contractPaths_eq_insertionSort]
    decide +kernel
  have hdir : linked.isDirAt "d" = true := by decide +kernel
  have hcompletes : ((Invocation.staticAnalyze "d" (some "o.json") none false).execute
      (noCargo .zero) linked).status = 0 := by
    rw [status_execute, outcome_staticAnalyze, if_pos hdir, analyzeDirectory,
      outcome_bind_of_ends (ends_files.mpr ⟨rfl, rfl⟩)]
    dsimp only [Session.start]
    rw [hpaths]
    decide +kernel
  obtain ⟨-, hwritten⟩ := analyzeDirectory_ends (by decide) (ends_directory hdir hcompletes)
  rw [hpaths] at hwritten
  obtain ⟨hwrite, hresults⟩ := hwritten (List.cons_ne_nil _ _)
  have hkey : ∀ path ∈ ["d/link/x.rs", "d/real/x.rs"], Path.relative linked.cwd path "d" ∈
      (entriesOf (noCargo .zero) linked "d").map Prod.fst := by
    intro path hpath
    have hread : Readable linked path := by
      rw [← isSome_codeOf_iff]
      revert path
      decide +kernel
    rw [entriesOf, hpaths, mem_keys_enter]
    exact .inr ⟨path, hpath, hresults path hpath hread, rfl⟩
  have hnames : Path.relative linked.cwd "d/link/x.rs" "d" = "link/x.rs" ∧
      Path.relative linked.cwd "d/real/x.rs" "d" = "real/x.rs" := by decide +kernel
  refine ⟨by decide +kernel, by decide +kernel, _, hwrite, ?_, ?_⟩
  · exact hnames.1 ▸ hkey _ List.mem_cons_self
  · exact hnames.2 ▸ hkey _ (List.mem_cons_of_mem _ List.mem_cons_self)

end Command
end ContractAudit
