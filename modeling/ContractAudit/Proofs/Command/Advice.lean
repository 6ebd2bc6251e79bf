import ContractAudit.Proofs.Command.Directory

/-! Advice on a project. Each contract is asked about once, in order, and each reply leaves one
entry: a response with a message gives its content, and everything else that the service may do
gives an entry with an error. So a bad reply changes its own entry only. What is shown of the
replies can stop the command: it comes to its end if the standard output takes all of it. -/

namespace ContractAudit

namespace Advice

inductive HasContent : Reply → Value → Prop
  | intro {response choice message : List (String × Value)} {others : List Value}
      {content : Value} :
    Value.member? response "choices" = some (.list (.object choice :: others)) →
    Value.member? choice "message" = some (.object message) →
    Value.member? message "content" = some content →
    HasContent (.response (.object response)) content

theorem part_eq_ok {v m : Value} {name : String} :
    part v name = .ok m ↔ ∃ members, v = .object members ∧ Value.member? members name = some m := by
  cases v with
  | object members =>
    cases hmember : Value.member? members name with
    | none => simp [part, hmember]
    | some m' => simp [part, hmember]
  | null | bool | int | float | string | rough | list => simp [part]

theorem firstChoice?_eq_ok {choices choice message : Value}
    (hmessage : part choice "message" = .ok message) :
    firstChoice? choices = .ok (some choice) ↔ ∃ others, choices = .list (choice :: others) := by
  cases choices with
  | list items =>
    cases items <;> simp [firstChoice?]
  | string s =>
    obtain ⟨members, rfl, -⟩ := part_eq_ok.mp hmessage
    simp [firstChoice?]
  | rough s =>
    obtain ⟨members, rfl, -⟩ := part_eq_ok.mp hmessage
    obtain ⟨_ | ⟨_ | _, rest⟩, _⟩ := s <;> simp [firstChoice?, Value.ofPoint]
  | null | bool | int | float | object => simp [firstChoice?]

theorem ofResponse_eq_given {response content : Value} :
    ofResponse response = .ok (.given content) ↔ HasContent (.response response) content := by
  constructor
  · intro h
    unfold ofResponse at h
    split at h
    · cases h
    · next choices hchoices =>
      obtain ⟨first, hfirst, h⟩ := bind_eq_ok_iff.mp h
      cases first with
      | none => cases h
      | some choice =>
        obtain ⟨message, hmessage, h⟩ := bind_eq_ok_iff.mp h
        obtain ⟨found, hcontent, h⟩ := bind_eq_ok_iff.mp h
        cases h
        obtain ⟨response, rfl, hresponse⟩ := part_eq_ok.mp hchoices
        obtain ⟨others, rfl⟩ := (firstChoice?_eq_ok hmessage).mp hfirst
        obtain ⟨choice, rfl, hchoice⟩ := part_eq_ok.mp hmessage
        obtain ⟨message, rfl, hfound⟩ := part_eq_ok.mp hcontent
        exact .intro hresponse hchoice hfound
  · rintro ⟨hresponse, hchoice, hmessage⟩
    have hchoices := part_eq_ok.mpr ⟨_, rfl, hresponse⟩
    have hpart := part_eq_ok.mpr ⟨_, rfl, hchoice⟩
    have hcontent := part_eq_ok.mpr ⟨_, rfl, hmessage⟩
    unfold ofResponse
    rw [hchoices]
    refine bind_eq_ok_iff.mpr ⟨_, rfl, bind_eq_ok_iff.mpr ⟨_, hpart, ?_⟩⟩
    exact bind_eq_ok_iff.mpr ⟨_, hcontent, rfl⟩

theorem ofReply_eq_given {reply : Reply} {content : Value} :
    (ofReply reply).2 = .given content ↔ HasContent reply content := by
  cases reply with
  | refused message =>
    constructor
    · intro h
      cases h
    · intro h
      cases h
  | response v =>
    rw [← ofResponse_eq_given, ofReply]
    cases ofResponse v with
    | error fault => simp
    | ok advice => simp

/-- What a reply calls for: the content of its message, or else an error. -/
def Answers (reply : Reply) (value : Value) : Prop :=
  (∃ content, HasContent reply content ∧ value = .object [("success", .bool true),
    ("raw_analysis", content), ("vulnerabilities", .list []), ("suggestions", .list [])]) ∨
  (∀ content, ¬HasContent reply content) ∧ ∃ error, value = .object [("success", .bool false),
    ("error", .string error), ("vulnerabilities", .list []), ("suggestions", .list [])]

def saved (reply : Reply) : Value := (ofReply reply).2.toValue

theorem answers_saved (reply : Reply) : Answers reply (saved reply) := by
  rw [saved]
  cases hadvice : (ofReply reply).2 with
  | given content => exact .inl ⟨content, ofReply_eq_given.mp hadvice, rfl⟩
  | failed error =>
    refine .inr ⟨fun content hcontent => ?_, error, rfl⟩
    rw [ofReply_eq_given.mpr hcontent] at hadvice
    cases hadvice

end Advice

namespace Value

theorem setMember_of_notMem {members : List (String × Value)} {name : String}
    (h : name ∉ members.map Prod.fst) (v : Value) :
    setMember members name v = members ++ [(name, v)] := by
  refine if_neg fun hany => h ?_
  simpa using hany

theorem foldl_setMember (members more : List (String × Value))
    (h : ((members ++ more).map Prod.fst).Nodup) :
    more.foldl (fun done m => setMember done m.1 m.2) members = members ++ more := by
  induction more generalizing members with
  | nil => rw [List.foldl_nil, List.append_nil]
  | cons m more ih =>
    have hnew : m.1 ∉ members.map Prod.fst := by
      rw [List.map_append, List.map_cons] at h
      exact fun hmem => List.disjoint_of_nodup_append h hmem List.mem_cons_self
    have hsplit : members ++ m :: more = members ++ [m] ++ more := by simp
    rw [List.foldl_cons, setMember_of_notMem hnew, ih (members ++ [m]) (hsplit ▸ h), hsplit]

end Value

def FileSystem.Writable (files : FileSystem) (path : String) : Prop :=
  ∃ after, files.write path [] = .ok after

theorem FileSystem.Writable.write {files : FileSystem} {path : String} (h : files.Writable path)
    (bytes : Bytes) : ∃ after, files.write path bytes = .ok after := by
  obtain ⟨after, h⟩ := h
  unfold FileSystem.write at h ⊢
  split at h
  · cases h
  · next hne =>
    rw [if_neg hne]
    split at h
    · cases h
    · exact ⟨_, rfl⟩

namespace Command

open Job

theorem plays_ofReply (c : Console) (reply : Advice.Reply) : c.Plays (Advice.ofReply reply).1 := by
  unfold Console.Plays Advice.ofReply
  cases reply with
  | refused message => rfl
  | response v =>
    dsimp only
    cases Advice.ofResponse v <;> rfl

def Session.asked (s : Session) (request : Advice.Request) (journal : Journal) : Session :=
  { s with requests := s.requests ++ [request], journal := journal }

theorem Job.ask_ends (setting : Setting) (request : Advice.Request) (s : Session) :
    ∃ later, (ask setting request).Ends s (Advice.ofReply (setting.service s.requests.length)).2
      (s.asked request later) := by
  have hstart : (ask setting request).outcome s =
      ((do
        record setting (Advice.ofReply (setting.service s.requests.length)).1
        pure (Advice.ofReply (setting.service s.requests.length)).2) : Job Advice).outcome
        { s with requests := s.requests ++ [request] } := rfl
  obtain ⟨later, hrecord⟩ := record_ends
    (plays_ofReply setting.console (setting.service s.requests.length)) _
  exact ⟨later, hstart.trans (ends_bind.mpr ⟨(), _, hrecord, ends_pure.mpr ⟨rfl, rfl⟩⟩)⟩

theorem Job.ends_requireKey {setting : Setting} (h : Advice.hasKey setting.apiKey) (s : Session) :
    (requireKey setting).Ends s () s := by
  rw [requireKey, if_pos h]
  exact ends_pure.mpr ⟨rfl, rfl⟩

/-- A contract with the number of its request, the advice on which can be shown. -/
def Shown (setting : Setting) (files : FileSystem) (dir : String) (c : (String × Text) × Nat) :
    Prop :=
  setting.console.Accepts (setting.console.echoed
    ("\n===== AI Analysis for " ++ Path.relative files.cwd c.1.1 dir ++ " =====")) ∧
  ∃ line, (Advice.ofReply (setting.service c.2)).2.shown = .ok line ∧
    setting.console.Accepts (setting.console.echoed line)

theorem talks_showAdvice (setting : Setting) (shortPath : String) (advice : Advice) :
    (showAdvice setting shortPath advice).Talks :=
  (talks_say _ _).bind fun _ => talks_sayAdvice setting advice

theorem exists_ends_say {setting : Setting} {line : String} {s : Session} :
    (∃ s', (say setting line).Ends s () s') ↔
      setting.console.Accepts (setting.console.echoed line) := by
  simp only [say, ends_record, plays_text, exists_and_left, exists_eq', and_true]

theorem exists_ends_showAdvice {setting : Setting} {files : FileSystem} {dir : String}
    {c : (String × Text) × Nat} {s : Session} :
    (∃ s', (showAdvice setting (Path.relative files.cwd c.1.1 dir)
      (Advice.ofReply (setting.service c.2)).2).Ends s () s') ↔ Shown setting files dir c := by
  unfold showAdvice Shown
  constructor
  · rintro ⟨s', h⟩
    obtain ⟨_, mid, hheading, hadvice⟩ := ends_bind.mp h
    refine ⟨exists_ends_say.mp ⟨mid, hheading⟩, ?_⟩
    unfold sayAdvice at hadvice
    split at hadvice
    · next line hline => exact ⟨line, hline, exists_ends_say.mp ⟨s', hadvice⟩⟩
    · exact absurd hadvice not_ends_fail
  · rintro ⟨hheading, line, hline, haccepts⟩
    obtain ⟨mid, hmid⟩ := exists_ends_say.mpr hheading
    obtain ⟨s', hs'⟩ := exists_ends_say.mpr haccepts
    refine ⟨s', ends_bind.mpr ⟨(), mid, hmid, ?_⟩⟩
    rw [sayAdvice, hline]
    exact hs'

def adviceEntry (setting : Setting) (files : FileSystem) (dir : String)
    (c : (String × Text) × Nat) : String × Value :=
  (Path.relative files.cwd c.1.1 dir, Advice.saved (setting.service c.2))

theorem map_fst_adviceEntry (setting : Setting) (files : FileSystem) (dir : String)
    (contracts : List (String × Text)) (n : Nat) :
    ((contracts.zipIdx n).map (adviceEntry setting files dir)).map Prod.fst =
      contracts.map fun c => Path.relative files.cwd c.1 dir := by
  calc ((contracts.zipIdx n).map (adviceEntry setting files dir)).map Prod.fst
      = ((contracts.zipIdx n).map Prod.fst).map fun c => Path.relative files.cwd c.1 dir := by
        rw [List.map_map, List.map_map]
        rfl
    _ = contracts.map fun c => Path.relative files.cwd c.1 dir := by rw [List.zipIdx_map_fst]

section Loop

variable {setting : Setting} {project : Project} {modelName : String} {loud : Bool}

/-- Advice on one contract makes one request and one entry, unless it is to be shown and cannot
be. -/
theorem adviseOne_cases (c : String × Text) (s : Session) :
    ∃ mid : Session, mid.files = s.files ∧
      mid.requests = s.requests ++ [Advice.request modelName c.2 project.readme] ∧
      ((loud = true → Shown setting s.files project.directory (c, s.requests.length)) →
        (adviseOne setting project modelName loud c.1 c.2).Ends s
          (adviceEntry setting s.files project.directory (c, s.requests.length)) mid) ∧
      (loud = true → ¬Shown setting s.files project.directory (c, s.requests.length) →
        (adviseOne setting project modelName loud c.1 c.2).Fails s mid) := by
  obtain ⟨path, content⟩ := c
  obtain ⟨noted, hlog⟩ := log_ends .info
    ("Analyzing contract: " ++ Path.relative s.files.cwd path project.directory) s
  obtain ⟨asked, hask⟩ := ask_ends setting (Advice.request modelName content project.readme)
    { s with journal := noted }
  unfold Ends Fails adviseOne
  rw [outcome_bind_of_ends (ends_files.mpr ⟨rfl, rfl⟩)]
  dsimp only
  rw [outcome_bind_of_ends hlog, outcome_bind_of_ends hask]
  cases loud with
  | false => exact ⟨s.asked _ asked, rfl, rfl, fun _ => rfl, nofun⟩
  | true =>
    rw [if_pos rfl]
    obtain ⟨later, hends | hfails⟩ := (talks_showAdvice setting
      (Path.relative s.files.cwd path project.directory)
      (Advice.ofReply (setting.service s.requests.length)).2).ends_or_fails
        (s.asked (Advice.request modelName content project.readme) asked)
    · have hshown : Shown setting s.files project.directory
          ((path, content), s.requests.length) := exists_ends_showAdvice.mp ⟨_, hends⟩
      refine ⟨s.asked _ later, rfl, rfl, fun _ => ?_, fun _ hnot => absurd hshown hnot⟩
      exact ends_bind.mpr ⟨(), _, hends, ends_pure.mpr ⟨rfl, rfl⟩⟩
    · refine ⟨s.asked _ later, rfl, rfl, fun hshown => ?_, fun _ _ => hfails.bind _⟩
      obtain ⟨_, hends⟩ := exists_ends_showAdvice.mpr (hshown rfl)
      exact absurd hends hfails.not_ends

theorem adviseAll_ends (project : Project) (results : List (String × Value))
    (contracts : List (String × Text)) (s : Session)
    (hshown : loud = true → ∀ c ∈ contracts.zipIdx s.requests.length,
      Shown setting s.files project.directory c) :
    ∃ s' : Session, s'.files = s.files ∧
      s'.requests = s.requests ++
        contracts.map (fun c => Advice.request modelName c.2 project.readme) ∧
      (adviseAll setting project modelName loud results contracts).Ends s
        (((contracts.zipIdx s.requests.length).map
          (adviceEntry setting s.files project.directory)).foldl
            (fun done m => Value.setMember done m.1 m.2) results) s' := by
  induction contracts generalizing results s with
  | nil => exact ⟨s, rfl, (List.append_nil _).symm, ends_pure.mpr ⟨rfl, rfl⟩⟩
  | cons c rest ih =>
    rw [List.zipIdx_cons] at hshown ⊢
    obtain ⟨mid, hfiles, hrequests, hends, -⟩ := adviseOne_cases c s
    have hlength : mid.requests.length = s.requests.length + 1 := by
      rw [hrequests, List.length_append]
      rfl
    obtain ⟨s', hfiles', hrequests', hrest⟩ := ih _ mid (by
      rw [hlength, hfiles]
      exact fun hloud => (List.forall_mem_cons.mp (hshown hloud)).2)
    rw [hlength, hfiles] at hrest
    refine ⟨s', hfiles'.trans hfiles, ?_, ends_bind.mpr ⟨_, mid, hends fun hloud => ?_, hrest⟩⟩
    · rw [hrequests', hrequests, List.append_assoc]
      rfl
    · exact (List.forall_mem_cons.mp (hshown hloud)).1

theorem adviseAll_fails (results : List (String × Value)) {contracts : List (String × Text)}
    {s : Session} {front rest : List ((String × Text) × Nat)} {c : (String × Text) × Nat}
    (hcontracts : contracts.zipIdx s.requests.length = front ++ c :: rest) (hloud : loud = true)
    (hfront : ∀ b ∈ front, Shown setting s.files project.directory b)
    (hc : ¬Shown setting s.files project.directory c) :
    ∃ s' : Session, s'.files = s.files ∧
      s'.requests = s.requests ++
        (front ++ [c]).map (fun b => Advice.request modelName b.1.2 project.readme) ∧
      (adviseAll setting project modelName loud results contracts).Fails s s' := by
  induction contracts generalizing results s front with
  | nil => simp at hcontracts
  | cons first others ih =>
    obtain ⟨mid, hfiles, hrequests, hends, hfails⟩ := adviseOne_cases first s
    rw [List.zipIdx_cons] at hcontracts
    cases front with
    | nil =>
      obtain ⟨rfl, -⟩ := List.cons.inj hcontracts
      exact ⟨mid, hfiles, hrequests, (hfails hloud hc).bind _⟩
    | cons b front =>
      obtain ⟨rfl, hothers⟩ := List.cons.inj hcontracts
      rw [List.forall_mem_cons] at hfront
      have hlength : mid.requests.length = s.requests.length + 1 := by
        rw [hrequests, List.length_append]
        rfl
      rw [← hlength] at hothers
      rw [← hfiles] at hc
      obtain ⟨s', hfiles', hrequests', hrest⟩ := ih _ hothers (hfiles ▸ hfront.2) hc
      refine ⟨s', hfiles'.trans hfiles, ?_,
        (fails_bind_of_ends (hends fun _ => hfront.1)).mpr hrest⟩
      rw [hrequests', hrequests, List.append_assoc]
      rfl

end Loop

theorem saveResults_ends {output : Option String} {s : Session}
    (hout : ∀ out, present? output = some out → s.files.Writable out) (what : String) (v : Value) :
    ∃ s' : Session, (saveResults output what v).Ends s () s' ∧ s'.requests = s.requests ∧
      (∀ out, present? output = some out →
        s.files.write out (Utf8.encode v.document) = .ok s'.files) ∧
      (present? output = none → s'.files = s.files) := by
  unfold saveResults
  cases hpresent : present? output with
  | none => exact ⟨s, ends_pure.mpr ⟨rfl, rfl⟩, rfl, nofun, fun _ => rfl⟩
  | some out =>
    obtain ⟨after, hwrite⟩ := (hout out hpresent).write (Utf8.encode v.document)
    have hsave : (saveValue out v).Ends s () { s with files := after } := by
      refine ends_bind.mpr ⟨s.files, s, ends_files.mpr ⟨rfl, rfl⟩, ?_⟩
      rw [hwrite]
      rfl
    obtain ⟨later, hlog⟩ := log_ends .info (what ++ " results saved to: " ++ out)
      { s with files := after }
    refine ⟨_, ends_bind.mpr ⟨(), _, hsave, hlog⟩, rfl, ?_, nofun⟩
    rintro _ ⟨⟩
    exact hwrite

theorem codeOf_eq_some {files : FileSystem} {path : String} {code : Text} :
    codeOf files path = some code ↔ files.readText path = .ok code ∧ code ≠ [] := by
  rw [codeOf, snd_readContent]
  cases files.readText path with
  | error fault => simp [Except.toOption, filled?]
  | ok text =>
    cases text with
    | nil => simp [Except.toOption, filled?]
    | cons c cs =>
      have hne : c :: cs = code → code ≠ [] := fun h => h ▸ List.cons_ne_nil c cs
      simpa [Except.toOption, filled?] using hne

theorem contracts_collect (files : FileSystem) (dir : String) :
    (Project.collect files dir).2.contracts =
      (Project.contractPaths files dir).filterMap fun path =>
        (codeOf files path).map (path, ·) := by
  change (Project.readAll files _).2 = _
  generalize Project.contractPaths files dir = paths
  induction paths with
  | nil => rfl
  | cons path paths ih =>
    rw [List.filterMap_cons, ← ih, codeOf, Project.readAll]
    obtain ⟨_, _ | _ | _⟩ := readContent files path <;> rfl

theorem mem_contracts_collect {files : FileSystem} {dir path : String} {code : Text} :
    (path, code) ∈ (Project.collect files dir).2.contracts ↔
      path ∈ Project.contractPaths files dir ∧ files.readText path = .ok code ∧ code ≠ [] := by
  rw [contracts_collect, List.mem_filterMap, ← codeOf_eq_some]
  constructor
  · rintro ⟨path, hpath, hmap⟩
    obtain ⟨code, hcode, ⟨⟩⟩ := Option.map_eq_some_iff.mp hmap
    exact ⟨hpath, hcode⟩
  · rintro ⟨hpath, hcode⟩
    exact ⟨path, hpath, Option.map_eq_some_iff.mpr ⟨code, hcode, rfl⟩⟩

theorem directory_collect (files : FileSystem) (dir : String) :
    (Project.collect files dir).2.directory = dir := by
  rw [Project.collect]

section Analyze

variable {setting : Setting} {files : FileSystem} {dir : String} (output : Option String)
  (modelName : String) (verbose : Bool)

theorem runAnalyze_fails (h : ¬setting.console.Plays (Project.collect files dir).1) :
    ∃ s : Session, s.files = files ∧ s.requests = [] ∧
      (runAnalyze setting dir output modelName verbose).Fails (Session.start files) s := by
  obtain ⟨noted, hlog⟩ := log_ends .info ("Analyzing Stylus project in: " ++ dir)
    (Session.start files)
  obtain ⟨told, hends | hfails⟩ :=
    (talks_record setting (Project.collect files dir).1).ends_or_fails
      { Session.start files with journal := noted }
  · exact absurd (ends_record.mp hends).1 h
  · refine ⟨_, ?_, ?_, (fails_bind_of_ends hlog).mpr ((fails_bind_of_ends
      (ends_files.mpr ⟨rfl, rfl⟩)).mpr (hfails.bind _))⟩
    · rfl
    · rfl

theorem runAnalyze_outcome (hkey : Advice.hasKey setting.apiKey)
    (hcontracts : (Project.collect files dir).2.contracts ≠ [])
    (h : setting.console.Plays (Project.collect files dir).1) :
    ∃ mid : Session, mid.files = files ∧ mid.requests = [] ∧
      (runAnalyze setting dir output modelName verbose).outcome (Session.start files) =
        (adviseAll setting (Project.collect files dir).2 modelName
          (verbose || (present? output).isNone) [] (Project.collect files dir).2.contracts >>=
          fun results => saveResults output "Analysis" (.object results)).outcome mid := by
  have hsome : (Project.collect files dir).2.contracts.isEmpty = false := by
    rwa [← Bool.not_eq_true, List.isEmpty_iff]
  obtain ⟨noted, hlog⟩ := log_ends .info ("Analyzing Stylus project in: " ++ dir)
    (Session.start files)
  obtain ⟨told, hrecord⟩ := record_ends h { Session.start files with journal := noted }
  refine ⟨{ Session.start files with journal := told }, rfl, rfl, ?_⟩
  rw [runAnalyze, outcome_bind_of_ends hlog, outcome_bind_of_ends (ends_files.mpr ⟨rfl, rfl⟩)]
  dsimp only [Session.start] at hrecord ⊢
  rw [outcome_bind_of_ends hrecord, hsome, if_neg Bool.false_ne_true,
    outcome_bind_of_ends (ends_requireKey hkey _)]

theorem runAnalyze_ends (hkey : Advice.hasKey setting.apiKey)
    (hcontracts : (Project.collect files dir).2.contracts ≠ [])
    (hout : ∀ out, present? output = some out → files.Writable out)
    (hkeys : ((Project.collect files dir).2.contracts.map fun c =>
      Path.relative files.cwd c.1 dir).Nodup)
    (hreported : setting.console.Plays (Project.collect files dir).1)
    (hshown : (verbose || (present? output).isNone) = true →
      ∀ c ∈ (Project.collect files dir).2.contracts.zipIdx, Shown setting files dir c) :
    ∃ s : Session,
      (runAnalyze setting dir output modelName verbose).Ends (Session.start files) () s ∧
      s.requests = (Project.collect files dir).2.contracts.map (fun c =>
        Advice.request modelName c.2 (Project.collect files dir).2.readme) ∧
      (∀ out, present? output = some out →
        files.write out (Utf8.encode (Value.object
          ((Project.collect files dir).2.contracts.zipIdx.map
            (adviceEntry setting files dir))).document) = .ok s.files) ∧
      (present? output = none → s.files = files) := by
  obtain ⟨mid, rfl, hnone, hrun⟩ := runAnalyze_outcome output modelName verbose hkey
    hcontracts hreported
  obtain ⟨done, hfiles, hrequests, hends⟩ := adviseAll_ends (Project.collect mid.files dir).2 [] _
    mid (by rwa [hnone, directory_collect])
  have hentries := Value.foldl_setMember [] ((Project.collect mid.files dir).2.contracts.zipIdx.map
    (adviceEntry setting mid.files dir)) ((map_fst_adviceEntry setting _ dir _ 0).symm ▸ hkeys)
  rw [hnone, directory_collect, List.length_nil, hentries, List.nil_append] at hends
  rw [hnone, List.nil_append] at hrequests
  rw [← hfiles] at hout
  obtain ⟨s, hsave, hsent, hwrite, hsame⟩ := saveResults_ends hout "Analysis"
    (.object ((Project.collect mid.files dir).2.contracts.zipIdx.map
      (adviceEntry setting mid.files dir)))
  rw [hfiles] at hwrite hsame
  exact ⟨s, hrun.trans (ends_bind.mpr ⟨_, done, hends, hsave⟩), hsent.trans hrequests, hwrite,
    hsame⟩

theorem runAnalyze_fails_of_notShown (hkey : Advice.hasKey setting.apiKey)
    (hcontracts : (Project.collect files dir).2.contracts ≠ [])
    (hreported : setting.console.Plays (Project.collect files dir).1)
    (hloud : (verbose || (present? output).isNone) = true)
    {front rest : List ((String × Text) × Nat)} {c : (String × Text) × Nat}
    (hsplit : (Project.collect files dir).2.contracts.zipIdx = front ++ c :: rest)
    (hfront : ∀ b ∈ front, Shown setting files dir b) (hc : ¬Shown setting files dir c) :
    ∃ s : Session, s.files = files ∧
      s.requests = (front ++ [c]).map (fun b =>
        Advice.request modelName b.1.2 (Project.collect files dir).2.readme) ∧
      (runAnalyze setting dir output modelName verbose).Fails (Session.start files) s := by
  obtain ⟨mid, rfl, hnone, hrun⟩ := runAnalyze_outcome output modelName verbose hkey
    hcontracts hreported
  rw [← directory_collect mid.files dir] at hfront hc
  obtain ⟨s, hfiles, hrequests, hfails⟩ :=
    adviseAll_fails [] (by rw [hnone]; exact hsplit) hloud hfront hc
  rw [hnone, List.nil_append] at hrequests
  refine ⟨s, hfiles, hrequests, ?_⟩
  unfold Fails
  rw [hrun]
  exact hfails.bind _

end Analyze

/-- With a key, a contract and a place for the results, each contract is asked about once, in order,
and its entry is what the reply to this request calls for, whatever the service replies. So it is
if nothing is shown, or if the standard output takes all that is shown. Otherwise the command stops
at the first contract whose advice cannot be shown, and saves nothing. -/
theorem analyze_answers_every_contract (setting : Setting) (files : FileSystem) (dir : String)
    (output : Option String) (modelName : String) (verbose : Bool)
    (hkey : Advice.hasKey setting.apiKey)
    (hcontract : ∃ path ∈ Project.contractPaths files dir, Readable files path)
    (hout : ∀ out, present? output = some out → files.Writable out)
    (hkeys : ((Project.collect files dir).2.contracts.map fun c =>
      Path.relative files.cwd c.1 dir).Nodup) :
    let project := (Project.collect files dir).2
    let outcome := (Invocation.analyze dir output modelName verbose).execute setting files
    let loud := verbose || (present? output).isNone
    let reported := setting.console.Plays (Project.collect files dir).1
    (∀ path code, (path, code) ∈ project.contracts ↔
      path ∈ Project.contractPaths files dir ∧ files.readText path = .ok code ∧ code ≠ []) ∧
    (reported → (loud = true → ∀ c ∈ project.contracts.zipIdx, Shown setting files dir c) →
      ∃ entries : List (String × Value),
        outcome.status = 0 ∧
        outcome.session.requests =
          project.contracts.map (fun c => Advice.request modelName c.2 project.readme) ∧
        (∀ out, present? output = some out →
          files.write out (Utf8.encode (Value.object entries).document) =
            .ok outcome.session.files) ∧
        (present? output = none → outcome.session.files = files) ∧
        entries.map Prod.fst = project.contracts.map (fun c => Path.relative files.cwd c.1 dir) ∧
        ∀ k entry, entries[k]? = some entry →
          entry.2 = Advice.saved (setting.service k) ∧
          Advice.Answers (setting.service k) entry.2) ∧
    (reported → loud = true → ∀ front c rest, project.contracts.zipIdx = front ++ c :: rest →
      (∀ b ∈ front, Shown setting files dir b) → ¬Shown setting files dir c →
        outcome.status = 1 ∧
        outcome.session.requests =
          (front ++ [c]).map (fun b => Advice.request modelName b.1.2 project.readme) ∧
        outcome.session.files = files) ∧
    (¬reported → outcome.status = 1 ∧ outcome.session.requests = [] ∧
      outcome.session.files = files) := by
  intro project outcome loud reported
  have hne : project.contracts ≠ [] := by
    obtain ⟨path, hpath, c, cs, hread⟩ := hcontract
    exact List.ne_nil_of_mem (mem_contracts_collect.mpr ⟨hpath, hread, List.cons_ne_nil c cs⟩)
  refine ⟨fun path code => mem_contracts_collect, fun hreported hshown => ?_,
    fun hreported hloud front c rest hsplit hfront hc => ?_, fun hreported => ?_⟩
  · obtain ⟨s, hends, hrequests, hwrite, hsame⟩ :=
      runAnalyze_ends output modelName verbose hkey hne hout hkeys hreported hshown
    have houtcome : outcome = ⟨0, "", s⟩ := by
      change Invocation.execute setting files (.analyze dir output modelName verbose) = _
      rw [execute_eq, Invocation.run, hends]
    rw [houtcome]
    refine ⟨_, rfl, hrequests, hwrite, hsame, map_fst_adviceEntry setting files dir _ 0, ?_⟩
    intro k entry hentry
    rw [List.getElem?_map, List.getElem?_zipIdx, Nat.zero_add, Option.map_map] at hentry
    obtain ⟨c, -, rfl⟩ := Option.map_eq_some_iff.mp hentry
    exact ⟨rfl, Advice.answers_saved (setting.service k)⟩
  · obtain ⟨s, hfiles, hrequests, hfails⟩ := runAnalyze_fails_of_notShown output modelName verbose
      hkey hne hreported hloud hsplit hfront hc
    obtain ⟨hstatus, hsent, hkept⟩ :=
      execute_of_fails (i := .analyze dir output modelName verbose) hfails
    exact ⟨hstatus, hsent.trans hrequests, hkept.trans hfiles⟩
  · obtain ⟨s, hfiles, hrequests, hfails⟩ := runAnalyze_fails output modelName verbose hreported
    obtain ⟨hstatus, hsent, hkept⟩ :=
      execute_of_fails (i := .analyze dir output modelName verbose) hfails
    exact ⟨hstatus, hsent.trans hrequests, hkept.trans hfiles⟩

def pair : FileSystem :=
  .ofRoot
    (.dir [("c", .dir [
      ("a.rs", .file "fn a() \x7b\x7d".toUTF8.toList),
      ("b.rs", .file "fn b() \x7b\x7d".toUTF8.toList)])])
    [] (by decide +kernel)

def advisor (first : Value) : Setting :=
  { noCargo .zero with
    apiKey := some "key"
    service := fun
      | 0 => .response first
      | _ => .response (.object [("choices", .list [.object [("message",
          .object [("content", .string "fine")])]])]) }

def bare : Value := .object [("choices", .null)]

def torn : Value := .object [("choices", .list [.object [("message",
  .object [("content", .ofPoint (.half ⟨0, by decide⟩))])]])]

/-- The second contract has its advice although the first response has no choices. If the advice is
shown, a first response that cannot be written leaves the second contract without any. -/
theorem analyze_answers_every_contract_faltering :
    let run := fun first verbose =>
      (Invocation.analyze "/c" (some "o.json") "m" verbose).execute (advisor first) pair
    ((run bare false).status = 0 ∧ (run bare false).session.requests.length = 2 ∧
      pair.write "o.json" (Utf8.encode (Value.object [
        ("a.rs", .object [("success", .bool false),
          ("error", .string "object of type 'NoneType' has no len()"),
          ("vulnerabilities", .list []), ("suggestions", .list [])]),
        ("b.rs", .object [("success", .bool true), ("raw_analysis", .string "fine"),
          ("vulnerabilities", .list []), ("suggestions", .list [])])]).document) =
        .ok (run bare false).session.files) ∧
    (run torn true).status = 1 ∧ (run torn true).session.requests.length = 1 ∧
      (run torn true).session.files = pair := by
  have hpaths : Project.contractPaths pair "/c" = ["/c/a.rs", "/c/b.rs"] := by
    rw [Project.contractPaths_eq_insertionSort]
    decide +kernel
  have hcontracts : (Project.collect pair "/c").2.contracts =
      [("/c/a.rs", "fn a() \x7b\x7d".toList), ("/c/b.rs", "fn b() \x7b\x7d".toList)] := by
    rw [contracts_collect, hpaths]
    decide +kernel
  have hread : Readable pair "/c/a.rs" := isSome_codeOf_iff.mp (by decide +kernel)
  have hout : ∀ out, present? (some "o.json") = some out → pair.Writable out := by
    rintro _ ⟨⟩
    have hok : (pair.write "o.json" []).toOption.isSome := by decide +kernel
    cases hwrite : pair.write "o.json" [] with
    | error fault =>
      rw [hwrite] at hok
      cases hok
    | ok after => exact ⟨after, hwrite⟩
  have hkeys : (Project.collect pair "/c").2.contracts.map
      (fun c => Path.relative pair.cwd c.1 "/c") = ["a.rs", "b.rs"] := by
    rw [hcontracts]
    decide +kernel
  have hplays : ∀ journal, Console.plain.Plays journal := fun journal =>
    congrArg Prod.snd (Console.play_accepted fun _ _ => rfl)
  have hall := fun (first : Value) (verbose : Bool) =>
    analyze_answers_every_contract (advisor first) pair "/c" (some "o.json") "m" verbose rfl
      ⟨"/c/a.rs", hpaths ▸ List.mem_cons_self, hread⟩ hout (hkeys ▸ by decide)
  constructor
  · obtain ⟨entries, hstatus, hrequests, hwrite, -, hnames, hvalues⟩ :=
      (hall bare false).2.1 (hplays _) nofun
    rw [hkeys] at hnames
    obtain ⟨first, rest, rfl, hfirst, hrest⟩ := List.map_eq_cons_iff.mp hnames
    obtain ⟨second, last, rfl, hsecond, hlast⟩ := List.map_eq_cons_iff.mp hrest
    obtain rfl := List.map_eq_nil_iff.mp hlast
    obtain rfl : first = ("a.rs", _) := Prod.ext hfirst (hvalues 0 first rfl).1
    obtain rfl : second = ("b.rs", _) := Prod.ext hsecond (hvalues 1 second rfl).1
    refine ⟨hstatus, ?_, hwrite "o.json" rfl⟩
    rw [hrequests, hcontracts]
    rfl
  · obtain ⟨hstatus, hrequests, hfiles⟩ := (hall torn true).2.2.1 (hplays _) rfl []
      (("/c/a.rs", "fn a() \x7b\x7d".toList), 0) [(("/c/b.rs", "fn b() \x7b\x7d".toList), 1)]
      (by rw [hcontracts]; rfl) nofun (by
        rintro ⟨-, line, hline, -⟩
        cases hline)
    exact ⟨hstatus, by rw [hrequests]; rfl, hfiles⟩

/-- A directory whose name is a pattern that it does not match. -/
def bracketed : FileSystem :=
  .ofRoot (.dir [("[a]", .dir [("x.rs", .file "fn f() \x7b\x7d".toUTF8.toList)])])
    [] (by decide +kernel)

/-- A contract in such a directory is not asked about. -/
theorem not_answered_bracketed :
    bracketed.HasContract "[a]" ["x.rs"] ∧ Readable bracketed "[a]/x.rs" ∧
    let outcome := (Invocation.analyze "[a]" (some "o.json") "m" false).execute
      (advisor bare) bracketed
    outcome.status = 1 ∧ outcome.session.requests = [] ∧
      outcome.session.files.exists? "o.json" = false := by
  have hdir : bracketed.isDirAt "[a]" = true := by decide +kernel
  refine ⟨?_, isSome_codeOf_iff.mp (by decide +kernel), by decide +kernel⟩
  refine (FileSystem.hasContract_linkFree_iff (by decide +kernel) hdir).mpr
    ⟨Option.isSome_iff_exists.mp ?_, ?_, "x.rs", rfl, ?_⟩ <;> decide +kernel

end Command
end ContractAudit
