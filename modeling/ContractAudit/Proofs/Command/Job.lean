import ContractAudit.Command.Run
import ContractAudit.Proofs.Command.Console
import ContractAudit.Proofs.Report.Entries

/-! How jobs run. A job that comes to its end is followed bind by bind, and one that stops is
followed up to the job that stopped it. Most jobs print and log only, or leave the files alone, and
the jobs of a static analysis stop by a fault only. -/

namespace ContractAudit.Command

def Console.Accepts (c : Console) (text : String) : Prop := c.refusal text = none

def Console.Plays (c : Console) (journal : Journal) : Prop := (c.play journal.events).2 = none

namespace Job

variable {α β : Type} {setting : Setting} {s s' : Session}

def outcome (j : Job α) (s : Session) : Except Stop α × Session := j.run.run s

def Ends (j : Job α) (s : Session) (a : α) (s' : Session) : Prop := j.outcome s = (.ok a, s')

def Fails (j : Job α) (s s' : Session) : Prop :=
  ∃ fault, j.outcome s = (.error (.fault fault), s')

theorem outcome_bind (j : Job α) (f : α → Job β) (s : Session) :
    (j >>= f).outcome s = match j.outcome s with
      | (.ok a, mid) => (f a).outcome mid
      | (.error stop, mid) => (.error stop, mid) := by
  unfold outcome
  rw [ExceptT.run_bind, StateT.run_bind]
  rcases j.run.run s with ⟨_ | _, mid⟩ <;> rfl

theorem ends_bind {j : Job α} {f : α → Job β} {b : β} :
    (j >>= f).Ends s b s' ↔ ∃ a mid, j.Ends s a mid ∧ (f a).Ends mid b s' := by
  unfold Ends
  rw [outcome_bind]
  rcases j.outcome s with ⟨_ | a, mid⟩
  · simp
  · simp only [Prod.mk.injEq, Except.ok.injEq]
    refine ⟨fun h => ⟨a, mid, ⟨rfl, rfl⟩, h⟩, ?_⟩
    rintro ⟨_, _, ⟨rfl, rfl⟩, h⟩
    exact h

theorem outcome_bind_of_ends {j : Job α} {f : α → Job β} {mid : Session} {a : α}
    (h : j.Ends s a mid) : (j >>= f).outcome s = (f a).outcome mid := by
  rw [outcome_bind, h]

theorem Fails.bind {j : Job α} (h : j.Fails s s') (f : α → Job β) : (j >>= f).Fails s s' := by
  obtain ⟨fault, houtcome⟩ := h
  exact ⟨fault, by rw [outcome_bind, houtcome]⟩

theorem fails_bind_of_ends {j : Job α} {f : α → Job β} {mid : Session} {a : α}
    (h : j.Ends s a mid) : (j >>= f).Fails s s' ↔ (f a).Fails mid s' := by
  unfold Fails
  rw [outcome_bind_of_ends h]

theorem Fails.not_ends {j : Job α} {a : α} {s'' : Session} (h : j.Fails s s') :
    ¬j.Ends s a s'' := by
  obtain ⟨fault, houtcome⟩ := h
  unfold Ends
  rw [houtcome]
  exact nofun

theorem ends_pure {a b : α} : (pure a : Job α).Ends s b s' ↔ a = b ∧ s = s' := by
  change ((.ok a, s) : Except Stop α × Session) = _ ↔ _
  simp

theorem ends_files {fs : FileSystem} : files.Ends s fs s' ↔ s.files = fs ∧ s = s' := by
  change ((.ok s.files, s) : Except Stop FileSystem × Session) = _ ↔ _
  simp

theorem not_ends_fail {fault : Fault} {a : α} : ¬(fail fault : Job α).Ends s a s' := by
  intro h
  cases h

theorem outcome_record (setting : Setting) (journal : Journal) (s : Session) :
    (record setting journal).outcome s =
      (match (setting.console.play journal.events).2 with
        | none => .ok ()
        | some message => .error (.fault (.refused message)),
      { s with journal := s.journal ++ ⟨(setting.console.play journal.events).1⟩ }) := by
  unfold record
  rcases setting.console.play journal.events with ⟨played, _ | message⟩ <;> rfl

theorem ends_record {journal : Journal} :
    (record setting journal).Ends s () s' ↔ setting.console.Plays journal ∧
      { s with journal := s.journal ++ ⟨(setting.console.play journal.events).1⟩ } = s' := by
  unfold Ends Console.Plays
  rw [outcome_record]
  cases (setting.console.play journal.events).2 <;> simp

theorem record_ends {journal : Journal} (h : setting.console.Plays journal) (s : Session) :
    ∃ later, (record setting journal).Ends s () { s with journal := later } :=
  ⟨_, ends_record.mpr ⟨h, rfl⟩⟩

theorem plays_text {c : Console} {text : String} :
    c.Plays (.text text) ↔ c.Accepts text := by
  unfold Console.Plays Console.Accepts Journal.text Console.play
  cases c.refusal text <;> simp [Console.play]

theorem log_ends (level : Level) (message : String) (s : Session) :
    ∃ later, (log level message).Ends s () { s with journal := later } := ⟨_, rfl⟩

def NoExit (j : Job α) : Prop := ∀ s status, (j.outcome s).1 ≠ .error (.exit status)

theorem NoExit.bind {j : Job α} {f : α → Job β} (hj : j.NoExit) (hf : ∀ a, (f a).NoExit) :
    (j >>= f).NoExit := by
  intro s status
  have hexit := hj s status
  rw [outcome_bind]
  rcases houtcome : j.outcome s with ⟨_ | a, mid⟩
  · rw [houtcome] at hexit
    intro heq
    exact hexit (congrArg _ (Except.error.inj heq))
  · exact hf a mid status

theorem files_outcome_bind {j : Job α} {f : α → Job β}
    (hf : ∀ a s, ((f a).outcome s).2.files = s.files) (s : Session) :
    ((j >>= f).outcome s).2.files = (j.outcome s).2.files := by
  rw [outcome_bind]
  rcases j.outcome s with ⟨_ | a, mid⟩
  · rfl
  · exact hf a mid

structure Quiet (j : Job α) : Prop where
  files_eq : ∀ s, (j.outcome s).2.files = s.files
  noExit : j.NoExit

theorem Quiet.bind {j : Job α} {f : α → Job β} (hj : j.Quiet) (hf : ∀ a, (f a).Quiet) :
    (j >>= f).Quiet where
  files_eq s := (files_outcome_bind (fun a => (hf a).files_eq) s).trans (hj.files_eq s)
  noExit := hj.noExit.bind fun a => (hf a).noExit

theorem Ends.files_eq {j : Job α} {a : α} (h : j.Ends s a s') (hj : j.Quiet) :
    s'.files = s.files := by
  have hfiles := hj.files_eq s
  rwa [h] at hfiles

/-- A job that prints and logs, and changes nothing else. -/
structure Talks (j : Job α) : Prop where
  session_eq : ∀ s, ∃ journal, (j.outcome s).2 = { s with journal := journal }
  noExit : j.NoExit

theorem Talks.quiet {j : Job α} (h : j.Talks) : j.Quiet := by
  refine ⟨fun s => ?_, h.noExit⟩
  obtain ⟨journal, hsession⟩ := h.session_eq s
  rw [hsession]

theorem Talks.bind {j : Job α} {f : α → Job β} (hj : j.Talks) (hf : ∀ a, (f a).Talks) :
    (j >>= f).Talks := by
  refine ⟨fun s => ?_, hj.noExit.bind fun a => (hf a).noExit⟩
  obtain ⟨journal, hsession⟩ := hj.session_eq s
  rw [outcome_bind]
  rcases houtcome : j.outcome s with ⟨_ | a, mid⟩
  · rw [houtcome] at hsession
    exact ⟨journal, hsession⟩
  · rw [houtcome] at hsession
    obtain rfl : mid = _ := hsession
    exact (hf a).session_eq _

theorem Ends.session_eq {j : Job α} {a : α} (h : j.Ends s a s') (hj : j.Talks) :
    ∃ journal, s' = { s with journal := journal } := by
  obtain ⟨journal, hsession⟩ := hj.session_eq s
  rw [h] at hsession
  exact ⟨journal, hsession⟩

theorem Talks.ends_or_fails {j : Job Unit} (h : j.Talks) (s : Session) :
    ∃ journal, j.Ends s () { s with journal := journal } ∨
      j.Fails s { s with journal := journal } := by
  obtain ⟨journal, hsession⟩ := h.session_eq s
  have hexit := h.noExit s
  refine ⟨journal, ?_⟩
  unfold Ends Fails
  rcases houtcome : j.outcome s with ⟨(status | fault) | _, after⟩
  · rw [houtcome] at hexit
    exact absurd rfl (hexit status)
  · rw [houtcome] at hsession
    exact .inr ⟨fault, by rw [← hsession]⟩
  · rw [houtcome] at hsession
    exact .inl (by rw [← hsession])

theorem talks_pure (a : α) : (pure a : Job α).Talks :=
  ⟨fun s => ⟨s.journal, rfl⟩, fun _ _ h => by cases h⟩

theorem talks_fail (fault : Fault) : (fail fault : Job α).Talks :=
  ⟨fun s => ⟨s.journal, rfl⟩, fun _ _ h => by cases h⟩

theorem talks_files : files.Talks := ⟨fun s => ⟨s.journal, rfl⟩, fun _ _ h => by cases h⟩

theorem talks_log (level : Level) (message : String) : (log level message).Talks :=
  ⟨fun _ => ⟨_, rfl⟩, fun _ _ h => by cases h⟩

theorem talks_record (setting : Setting) (journal : Journal) : (record setting journal).Talks := by
  refine ⟨fun s => ⟨_, by rw [outcome_record]⟩, fun s status => ?_⟩
  rw [outcome_record]
  cases (setting.console.play journal.events).2 <;> simp

theorem talks_say (setting : Setting) (line : String) : (say setting line).Talks :=
  talks_record _ _

theorem talks_readFile (setting : Setting) (path : String) : (readFile setting path).Talks :=
  talks_files.bind fun _ => (talks_record _ _).bind fun _ => talks_pure _

theorem talks_lines (setting : Setting) (lines : List String) :
    (lines.forM (say setting)).Talks := by
  induction lines with
  | nil => exact talks_pure ()
  | cons line lines ih => exact (talks_say setting line).bind fun _ => ih

theorem talks_print (setting : Setting) (verbose : Bool) (r : Record) :
    (print setting verbose r).Talks := by
  refine (talks_lines setting _).bind fun _ => ?_
  cases (Report.listing verbose r).fault with
  | none => exact talks_pure ()
  | some fault => exact talks_fail _

theorem talks_isReentrant (dir : String) : (isReentrant dir).Talks := by
  refine talks_files.bind fun fs => ?_
  cases Manifest.reentrantAt fs dir with
  | ok b => exact talks_pure b
  | error fault => exact talks_fail _

theorem talks_sayAdvice (setting : Setting) (advice : Advice) :
    (sayAdvice setting advice).Talks := by
  unfold sayAdvice
  split
  · exact talks_say setting _
  · exact talks_fail _

theorem ends_get {seen : Session} :
    (get : Job Session).Ends s seen s' ↔ seen = s ∧ s' = s := by
  constructor
  · rintro ⟨⟩
    exact ⟨rfl, rfl⟩
  · rintro ⟨rfl, rfl⟩
    rfl

theorem ends_modify {f : Session → Session} :
    (modify f : Job Unit).Ends s () s' ↔ s' = f s := by
  constructor
  · rintro ⟨⟩
    rfl
  · rintro rfl
    rfl

theorem ends_readFile {path : String} {content : Option Text} :
    (readFile setting path).Ends s content s' ↔ (readContent s.files path).2 = content ∧
      (record setting (readContent s.files path).1).Ends s () s' := by
  unfold readFile
  rw [ends_bind]
  constructor
  · rintro ⟨fs, mid, hfiles, hrest⟩
    obtain ⟨rfl, rfl⟩ := ends_files.mp hfiles
    obtain ⟨_, said, hrecord, hpure⟩ := ends_bind.mp hrest
    obtain ⟨rfl, rfl⟩ := ends_pure.mp hpure
    exact ⟨rfl, hrecord⟩
  · rintro ⟨rfl, hrecord⟩
    exact ⟨s.files, s, ends_files.mpr ⟨rfl, rfl⟩,
      ends_bind.mpr ⟨(), _, hrecord, ends_pure.mpr ⟨rfl, rfl⟩⟩⟩

theorem ends_analyze {a a' : Analyzer} {code : Text} {path : String} {result : Result} :
    (analyze setting a code path).Ends s (a', result) s' ↔
      let outcome := a.analyze (surroundings setting s) code (some path)
      outcome.result = .ok result ∧ outcome.analyzer = a' ∧
        (record setting outcome.journal).Ends { s with parser := outcome.held } () s' := by
  unfold analyze
  rw [ends_bind]
  constructor
  · rintro ⟨_, _, hget, hrest⟩
    obtain ⟨rfl, rfl⟩ := ends_get.mp hget
    obtain ⟨_, _, hmodify, hrest⟩ := ends_bind.mp hrest
    obtain rfl := ends_modify.mp hmodify
    obtain ⟨_, said, hrecord, hmatch⟩ := ends_bind.mp hrest
    split at hmatch
    · next found hresult =>
      obtain ⟨hpair, rfl⟩ := ends_pure.mp hmatch
      cases hpair
      exact ⟨hresult, rfl, hrecord⟩
    · exact absurd hmatch not_ends_fail
  · rintro ⟨hresult, rfl, hrecord⟩
    refine ⟨s, s, ends_get.mpr ⟨rfl, rfl⟩, ends_bind.mpr ⟨(), _, ends_modify.mpr rfl, ?_⟩⟩
    refine ends_bind.mpr ⟨(), _, hrecord, ?_⟩
    rw [hresult]
    exact ends_pure.mpr ⟨rfl, rfl⟩

theorem quiet_analyze (setting : Setting) (a : Analyzer) (code : Text) (path : String) :
    (analyze setting a code path).Quiet := by
  refine Quiet.bind ⟨fun _ => rfl, fun _ _ h => by cases h⟩ fun s =>
    Quiet.bind ⟨fun _ => rfl, fun _ _ h => by cases h⟩ fun _ =>
      (talks_record _ _).quiet.bind fun _ => ?_
  split
  · exact (talks_pure _).quiet
  · exact (talks_fail _).quiet

theorem noExit_saveValue (path : String) (v : Value) : (saveValue path v).NoExit := by
  refine talks_files.noExit.bind fun fs => ?_
  cases fs.write path (Utf8.encode v.document) with
  | ok after =>
    intro s status h
    cases h
  | error fault => exact (talks_fail _).noExit

theorem quiet_saveDocument (setting : Setting) (path : String) (results : Value) :
    (saveDocument setting path results).Quiet := by
  unfold saveDocument
  split
  · exact Quiet.bind ⟨fun _ => rfl, fun _ _ h => by cases h⟩ fun _ => (talks_say _ _).quiet
  · exact (talks_fail _).quiet

section Accepting

variable (haccepts : ∀ text, setting.console.Accepts text)
include haccepts

theorem plays_of_accepts (journal : Journal) : setting.console.Plays journal :=
  congrArg Prod.snd (Console.play_accepted fun text _ => haccepts text)

theorem say_ends (line : String) (s : Session) :
    ∃ later, (say setting line).Ends s () { s with journal := later } :=
  record_ends (plays_of_accepts haccepts _) s

theorem lines_end (lines : List String) (s : Session) :
    ∃ later, (lines.forM (say setting)).Ends s () { s with journal := later } := by
  induction lines generalizing s with
  | nil => exact ⟨s.journal, ends_pure.mpr ⟨rfl, rfl⟩⟩
  | cons line lines ih =>
    obtain ⟨said, hsay⟩ := say_ends haccepts line s
    obtain ⟨later, hlines⟩ := ih { s with journal := said }
    exact ⟨later, ends_bind.mpr ⟨(), _, hsay, hlines⟩⟩

theorem print_ends (verbose : Bool) (r : Result) (s : Session) :
    ∃ later, (print setting verbose r.record).Ends s () { s with journal := later } := by
  obtain ⟨later, hlines⟩ := lines_end haccepts (Report.listing verbose r.record).lines s
  refine ⟨later, ends_bind.mpr ⟨(), _, hlines, ?_⟩⟩
  rw [(Report.clean_listing verbose r).1]
  exact ends_pure.mpr ⟨rfl, rfl⟩

theorem analyze_ends {a : Analyzer} {code : Text} {path : String} {result : Result} {s : Session}
    (h : (a.analyze (surroundings setting s) code (some path)).result = .ok result) :
    ∃ a' s', (analyze setting a code path).Ends s (a', result) s' ∧ s'.files = s.files := by
  obtain ⟨later, hrecord⟩ := record_ends
    (plays_of_accepts haccepts (a.analyze (surroundings setting s) code (some path)).journal)
    { s with parser := (a.analyze (surroundings setting s) code (some path)).held }
  exact ⟨_, _, ends_analyze.mpr ⟨h, rfl, hrecord⟩, rfl⟩

end Accepting

end Job

open Job

theorem talks_sayReentrancy (setting : Setting) (dir : String) (count : Nat) :
    (sayReentrancy setting dir count).Talks := by
  refine (talks_isReentrant dir).bind fun b => ?_
  cases b with
  | false => exact talks_say _ _
  | true =>
    exact (talks_lines setting reentrancyNotice).bind fun _ => (talks_say _ _).bind fun _ =>
      (talks_say _ _).bind fun _ => talks_say _ _

theorem quiet_saveReport (setting : Setting) (pdf : Option String) (v : Value) :
    (saveReport setting pdf v).Quiet := by
  unfold saveReport
  split
  · exact (talks_pure ()).quiet
  · exact quiet_saveDocument ..

theorem noExit_saveResults (output : Option String) (what : String) (v : Value) :
    (saveResults output what v).NoExit := by
  unfold saveResults
  split
  · exact (talks_pure ()).noExit
  · exact (noExit_saveValue _ _).bind fun _ => (talks_log _ _).noExit

theorem quiet_analyzeAll (setting : Setting) (dir : String) (verbose : Bool) (a : Analyzer)
    (results : List (String × Value)) (paths : List String) :
    (analyzeAll setting dir verbose a results paths).Quiet := by
  induction paths generalizing a results with
  | nil => exact (talks_pure _).quiet
  | cons path paths ih =>
    refine talks_files.quiet.bind fun _ => (talks_say _ _).quiet.bind fun _ =>
      (talks_readFile setting path).quiet.bind fun content => ?_
    cases filled? content with
    | none => exact (talks_say _ _).quiet.bind fun _ => ih a results
    | some code =>
      exact (quiet_analyze ..).bind fun found => (talks_print ..).quiet.bind fun _ =>
        (talks_say _ _).quiet.bind fun _ => ih found.1 _

theorem noExit_analyzeDirectory (setting : Setting) (dir : String) (output pdf : Option String)
    (verbose : Bool) : (analyzeDirectory setting dir output pdf verbose).NoExit := by
  refine talks_files.noExit.bind fun fs => ?_
  split
  · exact (talks_say _ _).noExit
  · exact (talks_sayReentrancy ..).noExit.bind fun _ => (quiet_analyzeAll ..).noExit.bind fun _ =>
      (noExit_saveResults _ _ _).bind fun _ => (quiet_saveReport ..).noExit

theorem noExit_analyzeOne (setting : Setting) (path : String) (output pdf : Option String)
    (verbose : Bool) : (analyzeOne setting path output pdf verbose).NoExit := by
  refine (talks_readFile setting path).noExit.bind fun content => ?_
  split
  · exact (talks_say _ _).noExit
  · exact (quiet_analyze ..).noExit.bind fun _ => (talks_print ..).noExit.bind fun _ =>
      (talks_say _ _).noExit.bind fun _ => (noExit_saveResults _ _ _).bind fun _ =>
        (quiet_saveReport ..).noExit.bind fun _ => (talks_sayReentrancy ..).noExit

theorem noExit_staticAnalyze (setting : Setting) (target : String) (output pdf : Option String)
    (verbose : Bool) :
    ((Invocation.staticAnalyze target output pdf verbose).run setting).NoExit := by
  refine talks_files.noExit.bind fun fs => ?_
  split
  · exact noExit_analyzeDirectory setting target output pdf verbose
  · exact noExit_analyzeOne setting target output pdf verbose

theorem execute_eq (setting : Setting) (files : FileSystem) (i : Invocation) :
    i.execute setting files = match (i.run setting).outcome (Session.start files) with
      | (.ok (), s) => ⟨0, "", s⟩
      | (.error (.exit status), s) => ⟨status, "", s⟩
      | (.error (.fault fault), s) =>
        ⟨1, "", { s with journal := s.journal ++ .note .error ("Error: " ++ fault.message) }⟩ := rfl

theorem files_execute (setting : Setting) (files : FileSystem) (i : Invocation) :
    (i.execute setting files).session.files =
      ((i.run setting).outcome (Session.start files)).2.files := by
  rw [execute_eq]
  rcases (i.run setting).outcome (Session.start files) with ⟨(_ | _) | _, s⟩ <;> rfl

theorem status_execute (setting : Setting) (files : FileSystem) (i : Invocation) :
    (i.execute setting files).status = match ((i.run setting).outcome (Session.start files)).1 with
      | .ok () => 0
      | .error (.exit status) => status
      | .error (.fault _) => 1 := by
  rw [execute_eq]
  rcases (i.run setting).outcome (Session.start files) with ⟨(_ | _) | _, s⟩ <;> rfl

theorem execute_of_fails {setting : Setting} {files : FileSystem} {i : Invocation} {s : Session}
    (h : (i.run setting).Fails (Session.start files) s) :
    (i.execute setting files).status = 1 ∧
      (i.execute setting files).session.requests = s.requests ∧
      (i.execute setting files).session.files = s.files := by
  obtain ⟨fault, houtcome⟩ := h
  rw [execute_eq, houtcome]
  exact ⟨rfl, rfl, rfl⟩

theorem ends_of_status {setting : Setting} {files : FileSystem} {i : Invocation}
    (hexit : (i.run setting).NoExit) (h : (i.execute setting files).status = 0) :
    (i.run setting).Ends (Session.start files) () (i.execute setting files).session := by
  have hnot := hexit (Session.start files)
  rw [execute_eq] at h ⊢
  unfold Ends
  rcases houtcome : (i.run setting).outcome (Session.start files) with ⟨(status | fault) | _, s⟩
  · rw [houtcome] at hnot
    exact absurd rfl (hnot status)
  · rw [houtcome] at h
    cases h
  · rfl

theorem outcome_staticAnalyze {setting : Setting} {files : FileSystem} (target : String)
    (output pdf : Option String) (verbose : Bool) :
    ((Invocation.staticAnalyze target output pdf verbose).run setting).outcome
        (Session.start files) =
      if files.isDirAt target then
        (analyzeDirectory setting target output pdf verbose).outcome (Session.start files)
      else (analyzeOne setting target output pdf verbose).outcome (Session.start files) := by
  rw [Invocation.run, runStaticAnalyze, outcome_bind_of_ends (ends_files.mpr ⟨rfl, rfl⟩),
    Session.start]
  split <;> rfl

end ContractAudit.Command
