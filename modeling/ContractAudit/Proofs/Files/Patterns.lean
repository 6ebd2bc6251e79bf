import ContractAudit.Files.Project
import ContractAudit.Proofs.Files.Walk

/-! What the pattern for contracts finds: all entries below a directory that have the extension and
are reached through names that are not hidden. The directory is a part of the pattern, and where it
has special characters, the directories that match it stand for it. -/

namespace ContractAudit

namespace FileSystem

/-- The names lead from a spot to an entry. Links on the way are followed, the last name is not. -/
inductive Leads (fs : FileSystem) : Spot → List String → Entry → Prop
  | last {s : Spot} {name : String} {e : Entry} (entry : (name, e) ∈ fs.entriesAt s) :
      Leads fs s [name] e
  | into {s next : Spot} {name : String} {names : List String} {e : Entry}
      (named : Path.isName name = true) (move : fs.move s name = .ok next)
      (rest : Leads fs next names e) : Leads fs s (name :: names) e

structure IsContract (fs : FileSystem) (s : Spot) (names : List String) : Prop where
  leads : ∃ e, fs.Leads s names e
  visible : ∀ name ∈ names, Glob.isHidden name = false
  extension : ∃ name, names.getLast? = some name ∧ name.endsWith ".rs" = true

def HasContract (fs : FileSystem) (dir : String) (names : List String) : Prop :=
  ∃ s, fs.spot dir = .ok s ∧ fs.IsContract s names

variable {fs : FileSystem} {s s' : Spot} {name : String} {names : List String} {e : Entry}

theorem mem_entriesAt_iff : (name, e) ∈ fs.entriesAt s ↔
    ∃ entries, fs.entryAt? s = some (.dir entries) ∧ Entry.lookup? entries name = some e := by
  have hregular : ∀ entries, fs.entryAt? s = some (.dir entries) →
      (entries.map Prod.fst).Nodup := by
    intro entries hentries
    exact (Entry.isRegular_dir_iff.mp (Entry.isRegular_of_at? fs.regular hentries)).1
  unfold entriesAt
  split
  · next entries hentries =>
    rw [← Entry.lookup?_eq_some_iff (hregular entries hentries)]
    simp [hentries]
  · next hfile =>
    refine iff_of_false List.not_mem_nil ?_
    rintro ⟨entries, hentries, -⟩
    exact hfile entries hentries

theorem isName_of_mem_entriesAt (h : (name, e) ∈ fs.entriesAt s) : Path.isName name = true := by
  obtain ⟨entries, hentries, hlookup⟩ := mem_entriesAt_iff.mp h
  have hregular := Entry.isRegular_dir_iff.mp (Entry.isRegular_of_at? fs.regular hentries)
  exact hregular.2.1 _ (Entry.mem_of_lookup? hlookup)

theorem exists_mem_entriesAt (hname : Path.isName name = true) (h : fs.move s name = .ok s') :
    ∃ e, (name, e) ∈ fs.entriesAt s := by
  obtain ⟨hempty, hdot, hup, -⟩ := Path.isName_iff.mp hname
  obtain ⟨entries, hdir,
    ⟨hskip, -⟩ | ⟨hback, -⟩ | ⟨-, ⟨e, hlookup, -⟩ | ⟨target, -, hlookup, -⟩⟩⟩ := step_cases h
  · exact absurd hskip (by simp [hempty, hdot])
  · exact absurd hback hup
  · exact ⟨e, mem_entriesAt_iff.mpr ⟨entries, hdir, hlookup⟩⟩
  · exact ⟨_, mem_entriesAt_iff.mpr ⟨entries, hdir, hlookup⟩⟩

theorem exists_dir_of_move (h : fs.move s name = .ok s') :
    ∃ entries, fs.entryAt? s = some (.dir entries) := by
  obtain ⟨entries, hdir, -⟩ := step_cases h
  exact ⟨entries, hdir⟩

theorem move_of_mem_entriesAt (h : (name, e) ∈ fs.entriesAt s)
    (hlink : ∀ target, e ≠ .link target) :
    fs.move s name = .ok { s with names := s.names ++ [name] } := by
  obtain ⟨hempty, hdot, hup, -⟩ := Path.isName_iff.mp (isName_of_mem_entriesAt h)
  obtain ⟨entries, hdir, hlookup⟩ := mem_entriesAt_iff.mp h
  unfold move step
  rw [show fs.root.at? s.names = some (.dir entries) from hdir]
  dsimp only
  rw [if_neg (by simp [hempty, hdot]), if_neg hup, hlookup]
  cases e with
  | file bytes => rfl
  | dir entries => rfl
  | link target => exact absurd rfl (hlink target)

theorem Leads.isName (h : fs.Leads s names e) : ∀ name ∈ names, Path.isName name = true := by
  induction h with
  | last entry => simpa using isName_of_mem_entriesAt entry
  | into named move rest ih =>
    rw [List.forall_mem_cons]
    exact ⟨named, ih⟩

theorem Leads.ne_nil (h : fs.Leads s names e) : names ≠ [] := by
  cases h <;> exact List.cons_ne_nil _ _

theorem leads_concat_iff : fs.Leads s (names ++ [name]) e ↔
    (∀ name ∈ names, Path.isName name = true) ∧
      ∃ around, fs.walk s names = .ok around ∧ (name, e) ∈ fs.entriesAt around := by
  constructor
  · intro h
    induction names generalizing s with
    | nil =>
      cases h with
      | last entry => exact ⟨by simp, s, rfl, entry⟩
      | into named move rest => exact absurd rfl rest.ne_nil
    | cons first names ih =>
      rw [List.cons_append] at h
      generalize hmore : names ++ [name] = more at h
      cases h with
      | last entry => simp at hmore
      | into named move rest =>
        subst hmore
        obtain ⟨hnames, around, hwalk, hentry⟩ := ih rest
        refine ⟨List.forall_mem_cons.mpr ⟨named, hnames⟩, around, ?_, hentry⟩
        rw [walk_cons, move]
        exact hwalk
  · rintro ⟨hnames, around, hwalk, hentry⟩
    induction names generalizing s with
    | nil =>
      cases hwalk
      exact .last hentry
    | cons first names ih =>
      rw [List.forall_mem_cons] at hnames
      rw [walk_cons] at hwalk
      obtain ⟨mid, hmove, hrest⟩ := bind_eq_ok_iff.mp hwalk
      exact .into hnames.1 hmove (ih hnames.2 hrest)

theorem leads_linkFree_iff (hfs : fs.root.isLinkFree = true) (hne : names ≠ [])
    (hstands : ∃ entry, fs.entryAt? s = some entry) :
    fs.Leads s names e ↔ fs.root.at? (s.names ++ names) = some e := by
  induction names generalizing s with
  | nil => exact absurd rfl hne
  | cons name names ih =>
    rw [List.append_cons]
    have hchild : ∀ child, (name, child) ∈ fs.entriesAt s ↔
        fs.root.at? (s.names ++ [name]) = some child := by
      intro child
      rw [mem_entriesAt_iff, Entry.at?_concat_eq_some]
      rfl
    have hmove : ∀ child, fs.root.at? (s.names ++ [name]) = some child →
        fs.move s name = .ok ⟨s.names ++ [name], s.links⟩ := by
      intro child hat
      refine move_of_mem_entriesAt ((hchild child).mpr hat) ?_
      rintro target rfl
      cases Entry.isLinkFree_of_at? hfs hat
    constructor
    · intro h
      cases h with
      | last entry => rw [List.append_nil]; exact (hchild e).mp entry
      | @into _ next _ _ _ named move rest =>
        obtain ⟨child, hentry⟩ := exists_mem_entriesAt named move
        have hat := (hchild child).mp hentry
        rw [hmove child hat] at move
        cases move
        exact (ih (s := ⟨s.names ++ [name], s.links⟩) rest.ne_nil ⟨child, hat⟩).mp rest
    · intro h
      obtain ⟨child, hat, -⟩ := Option.bind_eq_some_iff.mp (Entry.at?_append _ _ _ ▸ h)
      have hentry := (hchild child).mpr hat
      by_cases hnil : names = []
      · subst hnil
        rw [List.append_nil] at h
        exact .last ((hchild e).mpr h)
      · exact .into (isName_of_mem_entriesAt hentry) (hmove child hat)
          ((ih (s := ⟨s.names ++ [name], s.links⟩) hnil ⟨child, hat⟩).mpr h)

theorem hasContract_linkFree_iff (hfs : fs.root.isLinkFree = true) {dir : String}
    (hdir : fs.isDirAt dir = true) : fs.HasContract dir names ↔
      (∃ e, fs.root.at? (Path.names fs.cwd dir ++ names) = some e) ∧
      (∀ name ∈ names, Glob.isHidden name = false) ∧
      ∃ name, names.getLast? = some name ∧ name.endsWith ".rs" = true := by
  obtain ⟨-, s, entries, hspot, hentries⟩ := isDirAt_iff.mp hdir
  have hplace : s.names = Path.names fs.cwd dir := by rw [spot_linkFree hfs hspot]
  rw [← hplace]
  constructor
  · rintro ⟨s', hspot', ⟨e, hleads⟩, hvisible, hextension⟩
    rw [hspot] at hspot'
    cases hspot'
    exact ⟨⟨e, (leads_linkFree_iff hfs hleads.ne_nil ⟨_, hentries⟩).mp hleads⟩, hvisible,
      hextension⟩
  · rintro ⟨⟨e, hat⟩, hvisible, name, hlast, hextension⟩
    have hne : names ≠ [] := by
      rintro rfl
      cases hlast
    exact ⟨s, hspot, ⟨e, (leads_linkFree_iff hfs hne ⟨_, hentries⟩).mpr hat⟩, hvisible, name,
      hlast, hextension⟩

end FileSystem

namespace Glob

open FileSystem

section Below

variable {fs : FileSystem} {s s' : Spot}

theorem isDirIn_iff {name : String} : isDirIn fs s name = true ↔
    ∃ next entries, fs.move s name = .ok next ∧ fs.entryAt? next = some (.dir entries) := by
  unfold isDirIn
  rw [walk_singleton]
  cases fs.move s name with
  | error cause => simp
  | ok next =>
    cases hentry : fs.entryAt? next with
    | none => simp [hentry]
    | some e => cases e <;> simp [hentry, Entry.isDir]

theorem mem_belowTo_succ {length : Nat} {path : String} :
    path ∈ belowTo fs true (length + 1) s ↔ ∃ name next entries,
      Path.isName name = true ∧ isHidden name = false ∧ fs.move s name = .ok next ∧
      fs.entryAt? next = some (.dir entries) ∧
      (path = name ∨ ∃ rest ∈ belowTo fs true length next, path = Path.join name rest) := by
  rw [belowTo, List.mem_flatMap]
  constructor
  · rintro ⟨⟨name, e⟩, hentry, hpath⟩
    dsimp only at hpath
    split at hpath
    · cases hpath
    · next hlisted =>
      obtain ⟨hvisible, hisDir⟩ : isHidden name = false ∧ isDirIn fs s name = true := by
        simpa using hlisted
      obtain ⟨next, entries, hmove, hdir⟩ := isDirIn_iff.mp hisDir
      refine ⟨name, next, entries, isName_of_mem_entriesAt hentry, hvisible, hmove, hdir, ?_⟩
      rw [walk_singleton, hmove] at hpath
      rcases List.mem_cons.mp hpath with hpath | hpath
      · exact .inl hpath
      · obtain ⟨rest, hrest, rfl⟩ := List.mem_map.mp hpath
        exact .inr ⟨rest, hrest, rfl⟩
  · rintro ⟨name, next, entries, hname, hvisible, hmove, hdir, hpath⟩
    obtain ⟨e, hentry⟩ := exists_mem_entriesAt hname hmove
    refine ⟨(name, e), hentry, ?_⟩
    dsimp only
    rw [walk_singleton, hmove, hvisible, isDirIn_iff.mpr ⟨next, entries, hmove, hdir⟩,
      if_neg (by decide)]
    rcases hpath with rfl | ⟨rest, hrest, rfl⟩
    · exact List.mem_cons_self
    · exact List.mem_cons_of_mem _ (List.mem_map_of_mem hrest)

/-- The directories below a spot, by the names that lead to them. Enough length is more than the
rank, which each name lowers. -/
theorem mem_belowTo_iff {length : Nat} (h : fs.rank s < length) {path : String} :
    path ∈ belowTo fs true length s ↔ ∃ names last entries, names ≠ [] ∧
      (∀ name ∈ names, Path.isName name = true ∧ isHidden name = false) ∧
      fs.walk s names = .ok last ∧ fs.entryAt? last = some (.dir entries) ∧
      path = "/".intercalate names := by
  induction length generalizing s path with
  | zero => exact absurd h (Nat.not_lt_zero _)
  | succ length ih =>
    have hnext : ∀ {name next}, Path.isName name = true → fs.move s name = .ok next →
        fs.rank next < length := by
      intro name next hname hmove
      have hlower := rank_move_lt hname hmove
      omega
    rw [mem_belowTo_succ]
    constructor
    · rintro ⟨name, next, entries, hname, hvisible, hmove, hdir, hpath⟩
      rcases hpath with hpath | ⟨rest, hrest, hpath⟩
      · exact ⟨[name], next, entries, List.cons_ne_nil _ _, by simpa using ⟨hname, hvisible⟩,
          (walk_singleton fs s name).trans hmove, hdir,
          hpath.trans String.intercalate_singleton.symm⟩
      · obtain ⟨names, last, entries', hne, hnames, hwalk, hlast, rfl⟩ :=
          (ih (hnext hname hmove)).mp hrest
        refine ⟨name :: names, last, entries', List.cons_ne_nil _ _,
          List.forall_mem_cons.mpr ⟨⟨hname, hvisible⟩, hnames⟩, ?_, hlast,
          hpath.trans (Path.join_name_intercalate hname hne fun q hq => (hnames q hq).1)⟩
        rw [walk_cons, hmove]
        exact hwalk
    · rintro ⟨names, last, entries, hne, hnames, hwalk, hlast, rfl⟩
      obtain ⟨name, rest, rfl⟩ := List.exists_cons_of_ne_nil hne
      obtain ⟨⟨hname, hvisible⟩, hrest⟩ := List.forall_mem_cons.mp hnames
      rw [walk_cons] at hwalk
      obtain ⟨next, hmove, hwalk⟩ := bind_eq_ok_iff.mp hwalk
      cases rest with
      | nil =>
        cases hwalk
        exact ⟨name, _, entries, hname, hvisible, hmove, hlast, .inl String.intercalate_singleton⟩
      | cons first others =>
        have hbelow := (ih (hnext hname hmove)).mpr
          ⟨first :: others, last, entries, List.cons_ne_nil _ _, hrest, hwalk, hlast, rfl⟩
        rw [walk_cons] at hwalk
        obtain ⟨_, hinto, -⟩ := bind_eq_ok_iff.mp hwalk
        obtain ⟨around, haround⟩ := exists_dir_of_move hinto
        exact ⟨name, next, around, hname, hvisible, hmove, haround, .inr ⟨_, hbelow,
          (Path.join_name_intercalate hname (List.cons_ne_nil _ _) fun q hq =>
            (hrest q hq).1).symm⟩⟩

end Below

theorem mem_suffixes_iff {s t : List Char} : t ∈ suffixes s ↔ t <:+ s := by
  induction s with
  | nil => simp [suffixes]
  | cons c s ih => rw [suffixes, List.mem_cons, ih, List.suffix_cons_iff]

theorem matchesItems_ones (word s : List Char) :
    matchesItems (word.map Item.one) s = true ↔ s = word := by
  induction word generalizing s with
  | nil => simp [matchesItems]
  | cons c word ih =>
    cases s with
    | nil => simp [matchesItems]
    | cons x s => simp [matchesItems, ih]

theorem matchesName_iff {name : String} :
    matchesName "*.rs" name = true ↔ name.endsWith ".rs" = true := by
  have hitems : items "*.rs" = .star :: ['.', 'r', 's'].map Item.one := by decide
  have hextension : ".rs".toList = ['.', 'r', 's'] := by decide
  rw [matchesName, hitems, matchesItems, List.any_eq_true, Path.endsWith_iff, hextension]
  constructor
  · rintro ⟨t, ht, hmatches⟩
    rw [matchesItems_ones] at hmatches
    rw [← hmatches]
    exact mem_suffixes_iff.mp ht
  · intro hsuffix
    exact ⟨_, mem_suffixes_iff.mpr hsuffix, (matchesItems_ones _ _).mpr rfl⟩

section Search

variable {fs : FileSystem} {dir : String}

theorem mem_matchPart_deep {part : String} : part ∈ matchPart fs true dir "**" ↔
    part = "" ∨ ∃ s, fs.spot dir = .ok s ∧ part ∈ below fs true s := by
  rw [matchPart, if_pos rfl, List.mem_cons]
  refine or_congr_right ?_
  cases fs.spot dir with
  | error cause => simp
  | ok s => simp

theorem mem_matchPart_extension {name : String} : name ∈ matchPart fs false dir "*.rs" ↔
    ∃ s e, fs.spot dir = .ok s ∧ (name, e) ∈ fs.entriesAt s ∧ isHidden name = false ∧
      name.endsWith ".rs" = true := by
  have hdeep : "*.rs" ≠ "**" := by decide
  have hspecial : isSpecial "*.rs" = true := by decide
  have hvisible : isHidden "*.rs" = false := by decide +kernel
  rw [matchPart, if_neg hdeep, if_pos hspecial]
  cases fs.spot dir with
  | error cause => simp
  | ok s => simp [hvisible, matchesName_iff, and_assoc]

theorem spot_join_empty {s : Spot} (h : fs.spot (Path.join dir "") = .ok s) :
    fs.spot dir = .ok s := by
  rw [spot_join fs dir (by simp)] at h
  obtain ⟨around, haround, hmove⟩ := bind_eq_ok_iff.mp h
  rw [haround, move_empty hmove]

theorem spot_join_empty_of_dir {s : Spot} {entries : List (String × Entry)}
    (h : fs.spot dir = .ok s) (hdir : fs.entryAt? s = some (.dir entries)) :
    fs.spot (Path.join dir "") = .ok s := by
  rw [spot_join fs dir (by simp), h]
  exact (walk_singleton fs s "").symm.trans (walk_replicate_empty hdir 1)

theorem exists_match_iff {path : String} :
    (∃ part ∈ matchPart fs true dir "**",
      ∃ name ∈ matchPart fs false (Path.join dir part) "*.rs",
        path = Path.join (Path.join dir part) name) ↔
      ∃ names, fs.HasContract dir names ∧ path = Path.descend dir names := by
  constructor
  · rintro ⟨part, hpart, name, hname, rfl⟩
    obtain ⟨s, e, hspot, hentry, hvisible, hextension⟩ := mem_matchPart_extension.mp hname
    have hisName := isName_of_mem_entriesAt hentry
    rcases mem_matchPart_deep.mp hpart with rfl | ⟨around, haround, hbelow⟩
    · exact ⟨[name], ⟨s, spot_join_empty hspot, ⟨e, .last hentry⟩, by simpa using hvisible, name,
        rfl, hextension⟩, Path.join_empty_join dir hisName⟩
    · obtain ⟨names, last, entries, hne, hnames, hwalk, -, rfl⟩ :=
        (mem_belowTo_iff (rank_lt fs around)).mp hbelow
      have hnamed : ∀ q ∈ names, Path.isName q = true := fun q hq => (hnames q hq).1
      rw [Path.join_intercalate hne hnamed] at hspot ⊢
      rw [spot_descend fs dir hnamed, haround] at hspot
      refine ⟨names ++ [name], ⟨around, haround,
        ⟨e, leads_concat_iff.mpr ⟨hnamed, s, hspot, hentry⟩⟩, ?_, name, List.getLast?_concat,
        hextension⟩, (Path.descend_concat dir names name).symm⟩
      rw [List.forall_mem_append]
      exact ⟨fun q hq => (hnames q hq).2, by simpa using hvisible⟩
  · rintro ⟨names, ⟨around, haround, ⟨e, hleads⟩, hvisible, name, hlast, hextension⟩, rfl⟩
    obtain ⟨init, rfl⟩ := List.getLast?_eq_some_iff.mp hlast
    obtain ⟨hnamed, s, hwalk, hentry⟩ := leads_concat_iff.mp hleads
    obtain ⟨entries, hentries, -⟩ := mem_entriesAt_iff.mp hentry
    rw [List.forall_mem_append] at hvisible
    have hhidden : isHidden name = false := hvisible.2 name List.mem_cons_self
    rw [Path.descend_concat]
    by_cases hne : init = []
    · subst hne
      cases hwalk
      refine ⟨"", mem_matchPart_deep.mpr (.inl rfl), name, ?_, ?_⟩
      · exact mem_matchPart_extension.mpr ⟨around, e, spot_join_empty_of_dir haround hentries,
          hentry, hhidden, hextension⟩
      · exact (Path.join_empty_join dir (isName_of_mem_entriesAt hentry)).symm
    · have hbelow := (mem_belowTo_iff (rank_lt fs around)).mpr ⟨init, s, entries, hne,
        fun q hq => ⟨hnamed q hq, hvisible.1 q hq⟩, hwalk, hentries, rfl⟩
      refine ⟨_, mem_matchPart_deep.mpr (.inr ⟨around, haround, hbelow⟩), name, ?_, ?_⟩
      · rw [Path.join_intercalate hne hnamed]
        refine mem_matchPart_extension.mpr ⟨s, e, ?_, hentry, hhidden, hextension⟩
        rw [spot_descend fs dir hnamed, haround]
        exact hwalk
      · rw [Path.join_intercalate hne hnamed]

end Search

theorem isSpecial_append (s t : String) : isSpecial (s ++ t) = (isSpecial s || isSpecial t) := by
  rw [isSpecial, String.toList_append, List.any_append]
  rfl

theorem isSpecial_join (dir : String) {path : String} (h : Path.isAbsolute path = false) :
    isSpecial (Path.join dir path) = (isSpecial dir || isSpecial path) := by
  have hbridge : isSpecial (Path.bridge dir) = false := by
    rw [Path.bridge]
    split <;> decide
  rw [Path.join_eq dir h, isSpecial_append, isSpecial_append, hbridge, Bool.or_false]

theorem isSpecial_trim (dir : String) : isSpecial (Path.trim dir) = isSpecial dir := by
  obtain ⟨k, hk⟩ := Path.exists_slashes dir
  rw [isSpecial, isSpecial, hk, List.any_append, List.any_replicate]
  simp

theorem paths_fuel (fs : FileSystem) (dirsOnly : Bool) {fuel fuel' : Nat} {pattern : String}
    (h : pattern.length < fuel) (h' : pattern.length < fuel') :
    paths fs dirsOnly fuel pattern = paths fs dirsOnly fuel' pattern := by
  induction fuel generalizing fuel' pattern dirsOnly with
  | zero => exact absurd h (Nat.not_lt_zero _)
  | succ fuel ih =>
    cases fuel' with
    | zero => exact absurd h' (Nat.not_lt_zero _)
    | succ fuel' =>
      have hshorter : (Path.split pattern).1 ≠ pattern →
          (Path.split pattern).1.length < pattern.length := by
        intro hne
        have hstarts := Path.dirname_prefix_path pattern
        refine Nat.lt_of_le_of_ne hstarts.length_le fun hlength => hne ?_
        exact String.toList_inj.mp (hstarts.eq_of_length hlength)
      simp only [paths]
      by_cases hdeeper :
          ((Path.split pattern).1 ≠ pattern && isSpecial (Path.split pattern).1) = true
      · have hne : (Path.split pattern).1 ≠ pattern := by
          simpa using (Bool.and_eq_true_iff.mp hdeeper).1
        have hlt := hshorter hne
        have hsame : paths fs true fuel (Path.split pattern).1 =
            paths fs true fuel' (Path.split pattern).1 := ih true (by omega) (by omega)
        rw [hsame]
      · simp only [hdeeper]
        rfl

/-- What a directory in front of a pattern stands for: itself, or the paths that match it where it
has special characters. -/
def roots (fs : FileSystem) (dir : String) : List String :=
  if isSpecial dir then paths fs true ((Path.trim dir).length + 1) (Path.trim dir)
  else [Path.trim dir]

/-- The last part of a pattern is matched in each of the directories that the rest stands for. -/
theorem paths_join (fs : FileSystem) (dirsOnly : Bool) {dir part : String} (hdir : dir ≠ "")
    (hne : part ≠ "") (hpart : '/' ∉ part.toList)
    (hspecial : isSpecial (Path.join dir part) = true) {fuel : Nat}
    (hfuel : (Path.join dir part).length < fuel) :
    paths fs dirsOnly fuel (Path.join dir part) =
      (roots fs dir).flatMap fun d => (matchPart fs dirsOnly d part).map (Path.join d) := by
  obtain ⟨fuel, rfl⟩ : ∃ n, fuel = n + 1 := ⟨fuel - 1, by omega⟩
  have hshorter : (Path.trim dir).length < (Path.join dir part).length := by
    have htrim : (Path.trim dir).length ≤ dir.length := (Path.trim_isPrefix dir).length_le
    have hlength : 0 < part.length := by
      rw [Nat.pos_iff_ne_zero]
      intro hzero
      exact hne (String.length_eq_zero_iff.mp hzero)
    rw [Path.join_eq dir (Path.isAbsolute_of_notMem hpart), String.length_append,
      String.length_append]
    omega
  have hother : Path.trim dir ≠ Path.join dir part := by
    intro heq
    rw [heq] at hshorter
    exact Nat.lt_irrefl _ hshorter
  have hempty : Path.trim dir ≠ "" := fun hempty => hdir (Path.trim_eq_empty_iff.mp hempty)
  have hfound : (if Path.trim dir ≠ Path.join dir part && isSpecial (Path.trim dir) then
      paths fs true fuel (Path.trim dir) else [Path.trim dir]) = roots fs dir := by
    rw [roots, isSpecial_trim, decide_eq_true hother, Bool.true_and]
    split
    · exact paths_fuel fs true (by omega) (by omega)
    · rfl
  simp only [paths, Path.split_join dir hpart, hspecial, hempty, Bool.not_true,
    Bool.false_eq_true, if_false, hfound]

theorem slash_notMem_stars : '/' ∉ "**".toList ∧ '/' ∉ "*.rs".toList := by decide

theorem mem_find_iff {fs : FileSystem} {dir : String} (hdir : dir ≠ "") {path : String} :
    path ∈ find fs (Path.join (Path.join dir "**") "*.rs") ↔
      ∃ d ∈ roots fs dir, ∃ names, fs.HasContract d names ∧ path = Path.descend d names := by
  obtain ⟨hstars, hrs⟩ := slash_notMem_stars
  have hdeep : isSpecial (Path.join dir "**") = true := by
    rw [isSpecial_join dir (Path.isAbsolute_of_notMem hstars)]
    exact Bool.or_true _
  have hwhole : isSpecial (Path.join (Path.join dir "**") "*.rs") = true := by
    rw [isSpecial_join _ (Path.isAbsolute_of_notMem hrs), hdeep]
    rfl
  have hroots : roots fs (Path.join dir "**") =
      (roots fs dir).flatMap fun d => (matchPart fs true d "**").map (Path.join d) := by
    rw [roots, if_pos hdeep, Path.trim_join dir (by decide) hstars]
    exact paths_join fs true hdir (by decide) hstars hdeep (Nat.lt_succ_self _)
  have hpaths := paths_join fs false (Path.join_ne_empty dir hstars (by decide)) (by decide) hrs
    hwhole (Nat.lt_succ_self _)
  rw [find, List.mem_filter, hpaths, hroots]
  constructor
  · rintro ⟨hpath, -⟩
    obtain ⟨x, hx, hfound⟩ := List.mem_flatMap.mp hpath
    obtain ⟨d, hd, hmatched⟩ := List.mem_flatMap.mp hx
    obtain ⟨part, hpart, rfl⟩ := List.mem_map.mp hmatched
    obtain ⟨name, hname, rfl⟩ := List.mem_map.mp hfound
    exact ⟨d, hd, exists_match_iff.mp ⟨part, hpart, name, hname, rfl⟩⟩
  · rintro ⟨d, hd, hcontract⟩
    obtain ⟨part, hpart, name, hname, rfl⟩ := exists_match_iff.mpr hcontract
    refine ⟨List.mem_flatMap.mpr ⟨Path.join d part, ?_, List.mem_map.mpr ⟨name, hname, rfl⟩⟩, ?_⟩
    · exact List.mem_flatMap.mpr ⟨d, hd, List.mem_map.mpr ⟨part, hpart, rfl⟩⟩
    · obtain ⟨s, e, -, hentry, -⟩ := mem_matchPart_extension.mp hname
      have hisName := isName_of_mem_entriesAt hentry
      exact decide_eq_true (Path.join_ne_empty _ (Path.noSlash_of_isName hisName)
        (Path.ne_empty_of_isName hisName))

end Glob
end ContractAudit
