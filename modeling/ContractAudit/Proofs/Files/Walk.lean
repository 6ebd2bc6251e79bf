import ContractAudit.Files.FileSystem
import ContractAudit.Proofs.Files.Names
import Mathlib.Data.List.Nodup

/-! Walks through a file system. A walk is followed part by part, and each part is one of four
moves: to stay, to go back, to go to a name or to follow a link. A walk to a path is a walk to its
directory and one more move. -/

namespace ContractAudit

theorem bind_eq_ok_iff {ε α β : Type} {x : Except ε α} {f : α → Except ε β} {b : β} :
    x >>= f = .ok b ↔ ∃ a, x = .ok a ∧ f a = .ok b := by
  cases x with
  | error fault => exact ⟨nofun, nofun⟩
  | ok a => exact ⟨fun h => ⟨a, rfl, h⟩, fun ⟨_, rfl, h⟩ => h⟩

namespace Entry

theorem lookup?_eq_some_iff {entries : List (String × Entry)}
    (distinct : (entries.map Prod.fst).Nodup) {name : String} {e : Entry} :
    lookup? entries name = some e ↔ (name, e) ∈ entries := by
  refine ⟨mem_of_lookup?, fun hmem => ?_⟩
  have hsome : (entries.find? (·.1 = name)).isSome := by
    rw [List.find?_isSome]
    exact ⟨_, hmem, by simp⟩
  obtain ⟨entry, hentry⟩ := Option.isSome_iff_exists.mp hsome
  have hname : entry.1 = name := by simpa using List.find?_some hentry
  have hsame := List.inj_on_of_nodup_map distinct (List.mem_of_find?_eq_some hentry) hmem hname
  rw [lookup?, hentry, hsame]
  rfl

theorem at?_append (e : Entry) (names more : List String) :
    e.at? (names ++ more) = (e.at? names).bind (·.at? more) := by
  induction names generalizing e with
  | nil =>
    rw [List.nil_append]
    cases e <;> rfl
  | cons name names ih =>
    cases e with
    | file bytes => rfl
    | link target => rfl
    | dir entries =>
      rw [List.cons_append, at?, at?]
      cases lookup? entries name with
      | none => rfl
      | some child => exact ih child

theorem at?_singleton_eq_some {e child : Entry} {name : String} :
    e.at? [name] = some child ↔ ∃ entries, e = dir entries ∧ lookup? entries name = some child := by
  cases e with
  | file bytes => simp [at?]
  | link target => simp [at?]
  | dir entries =>
    have hhere : ∀ x : Entry, x.at? [] = some x := by
      intro x
      cases x <;> rfl
    rw [at?]
    cases hlookup : lookup? entries name with
    | none => simp [hlookup]
    | some x => simp [hlookup, hhere]

theorem at?_concat_eq_some {e child : Entry} {names : List String} {name : String} :
    e.at? (names ++ [name]) = some child ↔
      ∃ entries, e.at? names = some (dir entries) ∧ lookup? entries name = some child := by
  rw [at?_append, Option.bind_eq_some_iff]
  constructor
  · rintro ⟨mid, hmid, hlast⟩
    obtain ⟨entries, rfl, hlookup⟩ := at?_singleton_eq_some.mp hlast
    exact ⟨entries, hmid, hlookup⟩
  · rintro ⟨entries, hmid, hlookup⟩
    exact ⟨_, hmid, at?_singleton_eq_some.mpr ⟨entries, rfl, hlookup⟩⟩

theorem exists_at?_dropLast {e child : Entry} {names : List String}
    (h : e.at? names = some child) : ∃ around, e.at? names.dropLast = some around ∧
      (child.isDir = true → around.isDir = true) := by
  rcases names.eq_nil_or_concat' with rfl | ⟨init, last, rfl⟩
  · exact ⟨child, h, id⟩
  · obtain ⟨entries, hinit, -⟩ := at?_concat_eq_some.mp h
    exact ⟨dir entries, by rwa [List.dropLast_concat], fun _ => rfl⟩

theorem isRegular_of_at? {e child : Entry} (he : e.isRegular = true) {names : List String}
    (h : e.at? names = some child) : child.isRegular = true := by
  induction names using List.reverseRecOn generalizing child with
  | nil =>
    cases e <;> cases h <;> exact he
  | append_singleton names name ih =>
    obtain ⟨entries, hmid, hlookup⟩ := at?_concat_eq_some.mp h
    exact (isRegular_dir_iff.mp (ih hmid)).2.2 _ (mem_of_lookup? hlookup)

theorem areLinkFree_iff {entries : List (String × Entry)} :
    areLinkFree entries = true ↔ ∀ entry ∈ entries, entry.2.isLinkFree = true := by
  induction entries with
  | nil => simp [areLinkFree]
  | cons entry rest ih => simp [areLinkFree, ih]

theorem isLinkFree_of_at? {e child : Entry} (he : e.isLinkFree = true) {names : List String}
    (h : e.at? names = some child) : child.isLinkFree = true := by
  induction names using List.reverseRecOn generalizing child with
  | nil => cases e <;> cases h <;> exact he
  | append_singleton names name ih =>
    obtain ⟨entries, hmid, hlookup⟩ := at?_concat_eq_some.mp h
    exact areLinkFree_iff.mp (ih hmid) _ (mem_of_lookup? hlookup)

theorem height_lt_heights {entries : List (String × Entry)} {entry : String × Entry}
    (h : entry ∈ entries) : entry.2.height < heights entries := by
  induction entries with
  | nil => cases h
  | cons first rest ih =>
    rw [heights]
    rcases List.mem_cons.mp h with rfl | h
    · omega
    · have hrest := ih h
      omega

theorem length_le_height {e child : Entry} {names : List String} (h : e.at? names = some child) :
    names.length ≤ e.height := by
  induction names generalizing e with
  | nil => exact Nat.zero_le _
  | cons name names ih =>
    cases e with
    | file bytes => cases h
    | link target => cases h
    | dir entries =>
      obtain ⟨next, hlookup, hrest⟩ := Option.bind_eq_some_iff.mp h
      have hlower := height_lt_heights (mem_of_lookup? hlookup)
      have hlength := ih hrest
      dsimp only at hlower
      rw [List.length_cons, height]
      omega

end Entry

namespace FileSystem

def move (fs : FileSystem) (s : Spot) (part : String) : Except FileCause Spot :=
  step fs.root (walkTo fs.root linkLimit) s part

variable {fs : FileSystem} {s s' : Spot}

theorem walk_append (fs : FileSystem) (s : Spot) (parts more : List String) :
    fs.walk s (parts ++ more) = fs.walk s parts >>= fun mid => fs.walk mid more :=
  List.foldlM_append

theorem walk_cons (fs : FileSystem) (s : Spot) (part : String) (parts : List String) :
    fs.walk s (part :: parts) = fs.move s part >>= fun mid => fs.walk mid parts :=
  List.foldlM_cons

theorem walk_singleton (fs : FileSystem) (s : Spot) (part : String) :
    fs.walk s [part] = fs.move s part := by
  rw [walk_cons]
  exact bind_pure _

theorem walk_concat (fs : FileSystem) (s : Spot) (parts : List String) (part : String) :
    fs.walk s (parts ++ [part]) = fs.walk s parts >>= fun mid => fs.move mid part := by
  rw [walk_append]
  simp only [walk_singleton]

theorem step_cases {root : Entry} {follow : Spot → List String → Except FileCause Spot}
    {part : String} (h : step root follow s part = .ok s') :
    ∃ entries, root.at? s.names = some (.dir entries) ∧
      ((part = "" ∨ part = ".") ∧ s' = s ∨
        part = ".." ∧ s' = { s with names := s.names.dropLast } ∨
        (part ≠ "" ∧ part ≠ "." ∧ part ≠ "..") ∧
          ((∃ e, Entry.lookup? entries part = some e ∧
            s' = { s with names := s.names ++ [part] }) ∨
          ∃ target links, Entry.lookup? entries part = some (.link target) ∧
            s.links = links + 1 ∧
            follow ⟨if Path.isAbsolute target then [] else s.names, links⟩
              (Path.parts target) = .ok s')) := by
  unfold step at h
  split at h
  · next entries hdir =>
    refine ⟨entries, hdir, ?_⟩
    rcases Path.part_cases part with hskip | rfl | hplain
    · rw [if_pos (by simpa using hskip)] at h
      exact .inl ⟨hskip, (Except.ok.inj h).symm⟩
    · exact .inr (.inl ⟨rfl, (Except.ok.inj h).symm⟩)
    · rw [if_neg (by simp [hplain.1, hplain.2.1]), if_neg hplain.2.2] at h
      refine .inr (.inr ⟨hplain, ?_⟩)
      cases hlookup : Entry.lookup? entries part with
      | none =>
        rw [hlookup] at h
        cases h
      | some e =>
        rw [hlookup] at h
        cases e with
        | file bytes => exact .inl ⟨_, rfl, (Except.ok.inj h).symm⟩
        | dir entries => exact .inl ⟨_, rfl, (Except.ok.inj h).symm⟩
        | link target =>
          cases hlinks : s.links with
          | zero =>
            rw [hlinks] at h
            cases h
          | succ links =>
            rw [hlinks] at h
            exact .inr ⟨target, links, rfl, rfl, h⟩
  · cases h

theorem parts_ne_nil (path : String) : Path.parts path ≠ [] := by
  rw [Path.parts_eq, ne_eq, List.map_eq_nil_iff]
  exact Text.splitAt_ne_nil '/' path.toList

/-- A walk ends at an entry, and it follows no more links than it may. -/
theorem walkTo_ends {root : Entry} {depth : Nat} {parts : List String}
    (h : walkTo root depth s parts = .ok s') :
    s'.links ≤ s.links ∧ (parts ≠ [] → ∃ e, root.at? s'.names = some e) := by
  induction depth generalizing s s' parts with
  | zero => cases h
  | succ depth ih =>
    have hstep : ∀ {s s' : Spot} {part : String},
        step root (walkTo root depth) s part = .ok s' →
          s'.links ≤ s.links ∧ ∃ e, root.at? s'.names = some e := by
      intro s s' part h
      obtain ⟨entries, hdir, hcases⟩ := step_cases h
      rcases hcases with ⟨-, rfl⟩ | ⟨-, rfl⟩ | ⟨-, ⟨e, hlookup, rfl⟩ |
        ⟨target, links, -, hlinks, hfollow⟩⟩
      · exact ⟨Nat.le_refl _, _, hdir⟩
      · obtain ⟨around, haround, -⟩ := Entry.exists_at?_dropLast hdir
        exact ⟨Nat.le_refl _, around, haround⟩
      · exact ⟨Nat.le_refl _, e, Entry.at?_concat_eq_some.mpr ⟨entries, hdir, hlookup⟩⟩
      · obtain ⟨hle, hentry⟩ := ih hfollow
        exact ⟨by dsimp only at hle; omega, hentry (parts_ne_nil target)⟩
    rw [walkTo] at h
    induction parts generalizing s with
    | nil =>
      cases h
      exact ⟨Nat.le_refl _, fun hne => absurd rfl hne⟩
    | cons part parts ihparts =>
      rw [List.foldlM_cons] at h
      obtain ⟨mid, hmove, hrest⟩ := bind_eq_ok_iff.mp h
      obtain ⟨hle, hentry⟩ := hstep hmove
      obtain ⟨hle', hentry'⟩ := ihparts hrest
      refine ⟨hle'.trans hle, fun _ => ?_⟩
      cases parts with
      | nil =>
        cases hrest
        exact hentry
      | cons next rest => exact hentry' (List.cons_ne_nil _ _)

/-- How many moves to names can follow each other: with each link a walk may start again from the
root. -/
def rank (fs : FileSystem) (s : Spot) : Nat :=
  s.links * (fs.root.height + 1) + (fs.root.height - s.names.length)

theorem rank_move_lt {name : String} (hname : Path.isName name = true)
    (h : fs.move s name = .ok s') : fs.rank s' < fs.rank s := by
  obtain ⟨hempty, hdot, hup, -⟩ := Path.isName_iff.mp hname
  obtain ⟨entries, hdir, hcases⟩ := step_cases h
  rcases hcases with ⟨hskip, -⟩ | ⟨hback, -⟩ | ⟨-, ⟨e, hlookup, rfl⟩ |
    ⟨target, links, -, hlinks, hfollow⟩⟩
  · exact absurd hskip (by simp [hempty, hdot])
  · exact absurd hback hup
  · have hthere := Entry.length_le_height (Entry.at?_concat_eq_some.mpr ⟨entries, hdir, hlookup⟩)
    rw [List.length_append, List.length_singleton] at hthere
    unfold rank
    dsimp only
    rw [List.length_append, List.length_singleton]
    omega
  · have hfewer : s'.links ≤ links := (walkTo_ends hfollow).1
    have hbound := Nat.mul_le_mul_right (fs.root.height + 1) hfewer
    unfold rank
    rw [hlinks, Nat.succ_mul]
    omega

theorem rank_lt (fs : FileSystem) (s : Spot) :
    fs.rank s < (s.links + 1) * (fs.root.height + 1) := by
  unfold rank
  rw [Nat.succ_mul]
  omega

theorem move_empty (h : fs.move s "" = .ok s') : s' = s := by
  obtain ⟨entries, -, ⟨-, hsame⟩ | ⟨hup, -⟩ | ⟨hplain, -⟩⟩ := step_cases h
  · exact hsame
  · exact absurd hup (by decide)
  · exact absurd rfl hplain.1

theorem walk_filter_ne_empty (fs : FileSystem) (s : Spot) (parts : List String) (last : String) :
    fs.walk s (parts.filter (· ≠ "") ++ [last]) = fs.walk s (parts ++ [last]) := by
  induction parts generalizing s with
  | nil => rfl
  | cons part parts ih =>
    by_cases hpart : part = ""
    · rw [List.filter_cons_of_neg (by simpa using hpart), hpart, List.cons_append, walk_cons]
      cases hmove : fs.move s "" with
      | ok mid =>
        rw [move_empty hmove]
        exact ih s
      | error cause =>
        -- there is no directory here, so the next part fails in the same way
        have hfail : ∀ part, fs.move s part = .error cause := by
          intro part
          unfold move step at hmove ⊢
          split at hmove
          · cases hmove
          · exact hmove
        cases hrest : parts.filter (· ≠ "") with
        | nil =>
          rw [List.nil_append, walk_singleton, hfail]
          rfl
        | cons next rest =>
          rw [List.cons_append, walk_cons, hfail]
          rfl
    · rw [List.filter_cons_of_pos (by simpa using hpart), List.cons_append, List.cons_append,
        walk_cons, walk_cons]
      simp only [ih]

theorem start_congr {path path' : String} (h : Path.isAbsolute path = Path.isAbsolute path')
    (fs : FileSystem) : fs.start path = fs.start path' := by
  rw [start, start, h]

theorem spot_join (fs : FileSystem) (dir : String) {name : String} (h : '/' ∉ name.toList) :
    fs.spot (Path.join dir name) = fs.spot dir >>= fun s => fs.move s name := by
  obtain ⟨around, hparts, haround⟩ := Path.parts_join_name dir h
  rw [spot, spot, start_congr (Path.isAbsolute_join dir (Path.isAbsolute_of_notMem h)), hparts,
    ← walk_filter_ne_empty, haround, Path.filledParts, walk_filter_ne_empty, walk_concat]

theorem spot_split (fs : FileSystem) (path : String) :
    fs.spot path = fs.spot (Path.dirname path) >>= fun s => fs.move s (Path.basename path) := by
  obtain ⟨around, hparts, haround⟩ := Path.parts_split path
  rw [spot, spot, start_congr (Path.isAbsolute_dirname path), hparts, ← walk_filter_ne_empty,
    haround, Path.filledParts, walk_filter_ne_empty, walk_concat]

theorem spot_descend (fs : FileSystem) (dir : String) {names : List String}
    (h : ∀ name ∈ names, Path.isName name = true) :
    fs.spot (Path.descend dir names) = fs.spot dir >>= fun s => fs.walk s names := by
  induction names generalizing dir with
  | nil => exact (bind_pure _).symm
  | cons name names ih =>
    rw [List.forall_mem_cons] at h
    have hstep : Path.descend dir (name :: names) = Path.descend (Path.join dir name) names := rfl
    rw [hstep, ih _ h.2, spot_join fs dir (Path.noSlash_of_isName h.1), bind_assoc]
    simp only [walk_cons]

theorem walk_replicate_empty {entries : List (String × Entry)}
    (h : fs.entryAt? s = some (.dir entries)) (k : Nat) :
    fs.walk s (List.replicate k "") = .ok s := by
  have hmove : fs.move s "" = .ok s := by
    unfold move step
    unfold entryAt? at h
    rw [h]
    rfl
  induction k with
  | zero => rfl
  | succ k ih =>
    rw [List.replicate_succ, walk_cons, hmove]
    exact ih

theorem spot_trim {dir : String} {entries : List (String × Entry)}
    (h : fs.entryAt? s = some (.dir entries)) :
    fs.spot (Path.trim dir) = .ok s ↔ fs.spot dir = .ok s := by
  obtain ⟨k, hk⟩ := Path.parts_trim dir
  rw [spot, spot, start_congr (Path.isAbsolute_trim dir), hk]
  clear hk
  constructor
  · intro htrim
    rw [walk_append, htrim]
    exact walk_replicate_empty h k
  · induction k with
    | zero => exact fun hdir => by rwa [List.replicate_zero, List.append_nil] at hdir
    | succ k ih =>
      intro hdir
      rw [List.replicate_succ', ← List.append_assoc, walk_concat] at hdir
      obtain ⟨mid, hmid, hmove⟩ := bind_eq_ok_iff.mp hdir
      obtain rfl := move_empty hmove
      exact ih hmid

section Get

variable {path : String}

theorem get_eq_ok_iff {e : Entry} :
    fs.get path = .ok e ↔ path ≠ "" ∧ ∃ s, fs.spot path = .ok s ∧ fs.entryAt? s = some e := by
  unfold get
  by_cases hempty : path = ""
  · simp [hempty]
  · rw [if_neg hempty]
    cases hspot : fs.spot path with
    | error cause => simp
    | ok s =>
      cases hentry : fs.entryAt? s with
      | none => simp [hempty, hentry]
      | some x => simp [hempty, hentry]

theorem isDirAt_iff : fs.isDirAt path = true ↔
    path ≠ "" ∧ ∃ s entries, fs.spot path = .ok s ∧ fs.entryAt? s = some (.dir entries) := by
  have hdir : fs.isDirAt path = true ↔ ∃ entries, fs.get path = .ok (.dir entries) := by
    unfold isDirAt
    cases fs.get path with
    | error cause => simp
    | ok e => cases e <;> simp [Entry.isDir]
  rw [hdir]
  simp only [get_eq_ok_iff]
  constructor
  · rintro ⟨entries, hne, s, hspot, hentry⟩
    exact ⟨hne, s, entries, hspot, hentry⟩
  · rintro ⟨hne, s, entries, hspot, hentry⟩
    exact ⟨entries, hne, s, hspot, hentry⟩

theorem get_join_congr {dir dir' name : String} (hname : '/' ∉ name.toList) (hne : name ≠ "")
    (h : fs.spot dir = fs.spot dir') :
    fs.get (Path.join dir name) = fs.get (Path.join dir' name) := by
  rw [get, get, if_neg (Path.join_ne_empty _ hname hne), if_neg (Path.join_ne_empty _ hname hne),
    spot_join fs dir hname, spot_join fs dir' hname, h]

theorem isName_basename {bytes : Bytes} (h : fs.get path = .ok (.file bytes)) :
    Path.isName (Path.basename path) = true := by
  obtain ⟨-, s, hspot, hentry⟩ := get_eq_ok_iff.mp h
  rw [spot_split] at hspot
  obtain ⟨around, -, hmove⟩ := bind_eq_ok_iff.mp hspot
  obtain ⟨entries, hdir, hcases⟩ := step_cases hmove
  rcases hcases with ⟨-, rfl⟩ | ⟨-, rfl⟩ | ⟨⟨hempty, hdot, hup⟩, -⟩
  · rw [entryAt?, hdir] at hentry
    cases hentry
  · obtain ⟨above, habove, hisDir⟩ := Entry.exists_at?_dropLast hdir
    rw [entryAt?, habove] at hentry
    cases hentry
    cases hisDir rfl
  · exact Path.isName_iff.mpr ⟨hempty, hdot, hup, Path.slash_notMem_basename path⟩

/-- Two paths that name the same entry of the same directory. -/
structure Twins (fs : FileSystem) (path path' : String) : Prop where
  around : fs.spot (Path.dirname path) = fs.spot (Path.dirname path')
  name : Path.basename path = Path.basename path'

theorem Twins.get_eq {path' : String} (h : fs.Twins path path') {bytes : Bytes}
    (hget : fs.get path = .ok (.file bytes)) : fs.get path' = .ok (.file bytes) := by
  have hname := isName_basename hget
  have hne : path' ≠ "" := by
    rintro rfl
    rw [h.name] at hname
    exact Path.ne_empty_of_isName hname rfl
  obtain ⟨-, s, hspot, hentry⟩ := get_eq_ok_iff.mp hget
  rw [spot_split, h.around, h.name, ← spot_split] at hspot
  exact get_eq_ok_iff.mpr ⟨hne, s, hspot, hentry⟩

theorem twins_descend {d d' : String} (h : fs.spot d = fs.spot d') {names : List String}
    (hne : names ≠ []) (hnames : ∀ name ∈ names, Path.isName name = true) {bytes bytes' : Bytes}
    (hget : fs.get (Path.descend d names) = .ok (.file bytes))
    (hget' : fs.get (Path.descend d' names) = .ok (.file bytes')) :
    fs.Twins (Path.descend d names) (Path.descend d' names) := by
  obtain ⟨init, name, rfl⟩ := (names.eq_nil_or_concat').resolve_left hne
  rw [List.forall_mem_append] at hnames
  have hslash := Path.noSlash_of_isName (hnames.2 name (List.mem_singleton_self name))
  have haround : ∀ {d : String} {bytes : Bytes},
      fs.get (Path.descend d (init ++ [name])) = .ok (.file bytes) →
        fs.spot (Path.trim (Path.descend d init)) = fs.spot d >>= fun s => fs.walk s init := by
    intro d bytes hget
    obtain ⟨-, s, hspot, -⟩ := get_eq_ok_iff.mp hget
    rw [Path.descend_concat, spot_join fs _ hslash] at hspot
    obtain ⟨around, hdir, hmove⟩ := bind_eq_ok_iff.mp hspot
    obtain ⟨entries, hentries, -⟩ := step_cases hmove
    rw [(spot_trim hentries).mpr hdir, ← spot_descend fs d hnames.1, hdir]
  refine ⟨?_, ?_⟩
  · rw [Path.descend_concat, Path.descend_concat, Path.dirname_join _ hslash,
      Path.dirname_join _ hslash, haround hget, haround hget', h]
  · rw [Path.descend_concat, Path.descend_concat, Path.basename_join _ hslash,
      Path.basename_join _ hslash]

end Get

section LinkFree

theorem walk_linkFree (hfs : fs.root.isLinkFree = true) {parts : List String}
    (h : fs.walk s parts = .ok s') : s' = ⟨parts.foldl Path.takePart s.names, s.links⟩ := by
  induction parts generalizing s with
  | nil =>
    cases h
    rfl
  | cons part parts ih =>
    rw [walk_cons] at h
    obtain ⟨mid, hmove, hrest⟩ := bind_eq_ok_iff.mp h
    obtain ⟨entries, hdir, hcases⟩ := step_cases hmove
    have hmid : mid = ⟨Path.takePart s.names part, s.links⟩ := by
      rcases hcases with ⟨hskip, rfl⟩ | ⟨rfl, rfl⟩ | ⟨hplain, ⟨e, -, rfl⟩ |
        ⟨target, links, hlookup, -⟩⟩
      · rw [Path.takePart_skip hskip]
      · rfl
      · rw [Path.takePart_plain hplain]
      · have hdirFree := Entry.isLinkFree_of_at? hfs hdir
        cases Entry.areLinkFree_iff.mp hdirFree _ (Entry.mem_of_lookup? hlookup)
    rw [ih hrest, hmid, List.foldl_cons]

theorem spot_linkFree (hfs : fs.root.isLinkFree = true) {path : String}
    (h : fs.spot path = .ok s) : s = ⟨Path.names fs.cwd path, linkLimit⟩ := walk_linkFree hfs h

/-- Without links, paths to files with the same names name the same entry. -/
theorem twins_of_names_eq (hfs : fs.root.isLinkFree = true) {path path' : String}
    {bytes bytes' : Bytes} (h : fs.get path = .ok (.file bytes))
    (h' : fs.get path' = .ok (.file bytes'))
    (hnames : Path.names fs.cwd path = Path.names fs.cwd path') : fs.Twins path path' := by
  have haround : ∀ {path : String} {bytes : Bytes}, fs.get path = .ok (.file bytes) →
      fs.spot (Path.dirname path) =
        .ok ⟨Path.names fs.cwd (Path.dirname path), linkLimit⟩ := by
    intro path bytes hget
    obtain ⟨-, s, hspot, -⟩ := get_eq_ok_iff.mp hget
    rw [spot_split] at hspot
    obtain ⟨around, hdir, -⟩ := bind_eq_ok_iff.mp hspot
    rw [hdir, spot_linkFree hfs hdir]
  rw [Path.names_split (isName_basename h), Path.names_split (isName_basename h')] at hnames
  obtain ⟨hdir, hname⟩ := List.append_inj' hnames rfl
  exact ⟨by rw [haround h, haround h', hdir], List.cons.inj hname |>.1⟩

end LinkFree

end FileSystem
end ContractAudit
