import ContractAudit.Proofs.Files.Patterns
import Mathlib.Data.List.Sort
import Mathlib.Data.String.Basic

/-! Discovery of the contracts of a directory. Four patterns are searched and equal paths are taken
once. A directory without special characters is searched itself, and each of its contracts has one
path, unless two slashes at the end of the directory make the patterns spell it in two ways. -/

namespace ContractAudit

namespace FileSystem

variable {fs : FileSystem} {dir : String} {s : Spot} {names : List String} {e : Entry}

theorem Leads.exists_dir (h : fs.Leads s names e) :
    ∃ entries, fs.entryAt? s = some (.dir entries) := by
  cases h with
  | last entry =>
    obtain ⟨entries, hentries, -⟩ := mem_entriesAt_iff.mp entry
    exact ⟨entries, hentries⟩
  | into named move rest => exact exists_dir_of_move move

theorem Leads.walk_eq (h : fs.Leads s names e) (hlink : ∀ target, e ≠ .link target) :
    ∃ s', fs.walk s names = .ok s' ∧ fs.entryAt? s' = some e := by
  induction h with
  | @last s name e entry =>
    refine ⟨⟨s.names ++ [name], s.links⟩, ?_, ?_⟩
    · rw [walk_singleton]
      exact move_of_mem_entriesAt entry hlink
    · exact Entry.at?_concat_eq_some.mpr (mem_entriesAt_iff.mp entry)
  | into named move rest ih =>
    obtain ⟨s', hwalk, hentry⟩ := ih hlink
    refine ⟨s', ?_, hentry⟩
    rw [walk_cons, move]
    exact hwalk

theorem HasContract.ne_nil (h : fs.HasContract dir names) : names ≠ [] := by
  obtain ⟨s, -, ⟨e, hleads⟩, -⟩ := h
  exact hleads.ne_nil

theorem HasContract.isName (h : fs.HasContract dir names) :
    ∀ name ∈ names, Path.isName name = true := by
  obtain ⟨s, -, ⟨e, hleads⟩, -⟩ := h
  exact hleads.isName

theorem hasContract_trim_iff : fs.HasContract (Path.trim dir) names ↔ fs.HasContract dir names := by
  refine exists_congr fun s => and_congr_left fun hcontract => ?_
  obtain ⟨e, hleads⟩ := hcontract.leads
  obtain ⟨entries, hentries⟩ := hleads.exists_dir
  exact spot_trim hentries

theorem hasContract_join_iff {place : String} (hname : Path.isName place = true)
    (hvisible : Glob.isHidden place = false) (hplain : place.endsWith ".rs" = false) :
    fs.HasContract (Path.join dir place) names ↔ fs.HasContract dir (place :: names) := by
  rw [HasContract, spot_join fs dir (Path.noSlash_of_isName hname)]
  constructor
  · rintro ⟨s, hspot, ⟨e, hleads⟩, hnames, name, hlast, hextension⟩
    obtain ⟨around, haround, hmove⟩ := bind_eq_ok_iff.mp hspot
    refine ⟨around, haround, ⟨e, .into hname hmove hleads⟩, ?_, name, ?_, hextension⟩
    · exact List.forall_mem_cons.mpr ⟨hvisible, hnames⟩
    · rw [List.getLast?_cons, hlast]
      rfl
  · rintro ⟨around, haround, ⟨e, hleads⟩, hnames, name, hlast, hextension⟩
    rw [List.forall_mem_cons] at hnames
    cases hleads with
    | last entry =>
      obtain rfl : place = name := Option.some.inj hlast
      rw [hplain] at hextension
      cases hextension
    | @into _ next _ _ _ named move rest =>
      refine ⟨next, bind_eq_ok_iff.mpr ⟨around, haround, move⟩, ⟨e, rest⟩, hnames.2, name, ?_,
        hextension⟩
      obtain ⟨init, final, rfl⟩ := (names.eq_nil_or_concat').resolve_left rest.ne_nil
      rw [← List.cons_append, List.getLast?_concat] at hlast
      rw [List.getLast?_concat]
      exact hlast

end FileSystem

namespace Project

open FileSystem

theorem nodup_eraseDups (paths : List String) : paths.eraseDups.Nodup := by
  cases paths with
  | nil => exact List.nodup_nil
  | cons path rest =>
    rw [List.eraseDups_cons, List.nodup_cons]
    refine ⟨fun hmem => ?_, nodup_eraseDups (rest.filter fun other => !other == path)⟩
    simpa using (List.mem_filter.mp (List.mem_eraseDups.mp hmem)).2
termination_by paths.length
decreasing_by exact Nat.lt_succ_of_le (List.length_filter_le _ _)

def places : List String := ["src", "contracts", "lib"]

theorem place_plain {place : String} (h : place ∈ places) : Path.isName place = true ∧
    Glob.isHidden place = false ∧ place.endsWith ".rs" = false ∧ Glob.isSpecial place = false := by
  simp only [places, List.mem_cons, List.not_mem_nil, or_false] at h
  rcases h with rfl | rfl | rfl <;> decide +kernel

section Found

variable {fs : FileSystem} {dir : String}

theorem mem_contractPaths_iff {path : String} : path ∈ contractPaths fs dir ↔
    path ∈ Glob.find fs (Path.join (Path.join dir "**") "*.rs") ∨ ∃ place ∈ places,
      path ∈ Glob.find fs (Path.join (Path.join (Path.join dir place) "**") "*.rs") := by
  rw [contractPaths, List.mem_eraseDups, List.mem_mergeSort, contractPatterns, List.mem_flatMap]
  simp [places]

-- `mergeSort` is by well-founded recursion, which `decide` does not evaluate
theorem contractPaths_eq_insertionSort (fs : FileSystem) (dir : String) :
    contractPaths fs dir =
      (((contractPatterns dir).flatMap (Glob.find fs)).insertionSort (· ≤ ·)).eraseDups := by
  rw [contractPaths, List.mergeSort_eq_insertionSort (· ≤ ·)]

theorem mem_find_place_iff {place : String} (hplace : place ∈ places) {path : String} :
    path ∈ Glob.find fs (Path.join (Path.join (Path.join dir place) "**") "*.rs") ↔
      ∃ d ∈ Glob.roots fs (Path.join dir place), ∃ names,
        fs.HasContract d names ∧ path = Path.descend d names := by
  obtain ⟨hname, -⟩ := place_plain hplace
  exact Glob.mem_find_iff (Path.join_ne_empty dir (Path.noSlash_of_isName hname)
    (Path.ne_empty_of_isName hname))

theorem roots_plain (hspecial : Glob.isSpecial dir = false) :
    Glob.roots fs dir = [Path.trim dir] := by
  rw [Glob.roots, hspecial]
  rfl

theorem roots_place_plain (hspecial : Glob.isSpecial dir = false) {place : String}
    (hplace : place ∈ places) : Glob.roots fs (Path.join dir place) = [Path.join dir place] := by
  obtain ⟨hname, -, -, hplain⟩ := place_plain hplace
  have hjoin : Glob.isSpecial (Path.join dir place) = false := by
    rw [Glob.isSpecial_join dir (Path.isAbsolute_of_isName hname), hspecial, hplain]
    rfl
  rw [roots_plain hjoin, Path.trim_join dir (Path.ne_empty_of_isName hname)
    (Path.noSlash_of_isName hname)]

theorem mem_roots_place (hdir : dir ≠ "") (hspecial : Glob.isSpecial dir = true)
    {place : String} (hplace : place ∈ places) {d : String}
    (hd : d ∈ Glob.roots fs (Path.join dir place)) :
    ∃ d' ∈ Glob.roots fs dir, d = Path.join d' place := by
  obtain ⟨hname, -, -, hplain⟩ := place_plain hplace
  have hne := Path.ne_empty_of_isName hname
  have hslash := Path.noSlash_of_isName hname
  have hjoin : Glob.isSpecial (Path.join dir place) = true := by
    rw [Glob.isSpecial_join dir (Path.isAbsolute_of_isName hname), hspecial]
    rfl
  have hdeep : place ≠ "**" := by
    rintro rfl
    cases hplain
  rw [Glob.roots, if_pos hjoin, Path.trim_join dir hne hslash,
    Glob.paths_join fs true hdir hne hslash hjoin (Nat.lt_succ_self _), List.mem_flatMap] at hd
  obtain ⟨d', hd', hmatched⟩ := hd
  obtain ⟨part, hpart, rfl⟩ := List.mem_map.mp hmatched
  rw [Glob.matchPart, if_neg hdeep, hplain, if_neg Bool.false_ne_true, if_neg hne] at hpart
  split at hpart
  · rw [List.mem_singleton.mp hpart]
    exact ⟨d', hd', rfl⟩
  · cases hpart

def InPlace (names : List String) : Prop := ∃ place ∈ places, names.head? = some place

theorem mem_contractPaths_plain (fs : FileSystem) (hdir : dir ≠ "")
    (hspecial : Glob.isSpecial dir = false) (path : String) : path ∈ contractPaths fs dir ↔
      ∃ names, fs.HasContract dir names ∧
        (path = Path.descend (Path.trim dir) names ∨
          InPlace names ∧ path = Path.descend dir names) := by
  rw [mem_contractPaths_iff, Glob.mem_find_iff hdir, roots_plain hspecial]
  constructor
  · rintro (⟨d, hd, names, hcontract, rfl⟩ | ⟨place, hplace, hfound⟩)
    · obtain rfl := List.mem_singleton.mp hd
      exact ⟨names, hasContract_trim_iff.mp hcontract, .inl rfl⟩
    · obtain ⟨d, hd, names, hcontract, rfl⟩ := (mem_find_place_iff hplace).mp hfound
      rw [roots_place_plain hspecial hplace] at hd
      obtain rfl := List.mem_singleton.mp hd
      obtain ⟨hname, hvisible, hplain, -⟩ := place_plain hplace
      exact ⟨place :: names, (hasContract_join_iff hname hvisible hplain).mp hcontract,
        .inr ⟨⟨place, hplace, rfl⟩, rfl⟩⟩
  · rintro ⟨names, hcontract, rfl | ⟨⟨place, hplace, hhead⟩, rfl⟩⟩
    · exact .inl ⟨_, List.mem_singleton_self _, names, hasContract_trim_iff.mpr hcontract, rfl⟩
    · obtain ⟨rest, rfl⟩ := List.head?_eq_some_iff.mp hhead
      obtain ⟨hname, hvisible, hplain, -⟩ := place_plain hplace
      have hbelow := (hasContract_join_iff hname hvisible hplain).mpr hcontract
      refine .inr ⟨place, hplace, (mem_find_place_iff hplace).mpr ⟨_, ?_, rest, hbelow, rfl⟩⟩
      rw [roots_place_plain hspecial hplace]
      exact List.mem_singleton_self _

theorem mem_contractPaths_special (fs : FileSystem) (hdir : dir ≠ "")
    (hspecial : Glob.isSpecial dir = true) (path : String) : path ∈ contractPaths fs dir ↔
      ∃ d ∈ Glob.roots fs dir, ∃ names,
        fs.HasContract d names ∧ path = Path.descend d names := by
  rw [mem_contractPaths_iff, Glob.mem_find_iff hdir]
  refine ⟨?_, .inl⟩
  rintro (hfound | ⟨place, hplace, hfound⟩)
  · exact hfound
  · obtain ⟨d, hd, names, hcontract, rfl⟩ := (mem_find_place_iff hplace).mp hfound
    obtain ⟨d', hd', rfl⟩ := mem_roots_place hdir hspecial hplace hd
    obtain ⟨hname, hvisible, hplain, -⟩ := place_plain hplace
    exact ⟨d', hd', place :: names, (hasContract_join_iff hname hvisible hplain).mp hcontract, rfl⟩

end Found

/-- The path of the contract that the names lead to from the directory. It leads where they lead,
and if the contract is no link, to the contract itself. -/
structure Locates (fs : FileSystem) (dir : String) (names : List String) (path : String) :
    Prop where
  contract : fs.HasContract dir names
  place : Path.names fs.cwd path = Path.names fs.cwd dir ++ names
  walked : fs.spot path = fs.spot dir >>= fun s => fs.walk s names
  entry : ∀ s e, fs.spot dir = .ok s → fs.Leads s names e → (∀ target, e ≠ .link target) →
    fs.get path = .ok e

/-- The contracts of a directory are found, each by one path, and nothing else is. The pattern for
the directory itself finds all of them. -/
structure FindsOnce (fs : FileSystem) (dir : String) : Prop where
  nodup : (contractPaths fs dir).Nodup
  sound : ∀ path ∈ contractPaths fs dir, ∃ names, Locates fs dir names path
  once : ∀ names, fs.HasContract dir names →
    ∃! path, path ∈ contractPaths fs dir ∧ Locates fs dir names path
  whole : ∀ path ∈ contractPaths fs dir,
    path ∈ Glob.find fs (Path.join (Path.join dir "**") "*.rs")

section Once

variable {fs : FileSystem} {dir : String}

theorem locates_descend {names : List String} (h : fs.HasContract dir names) {d : String}
    (hspot : fs.spot d = fs.spot dir) (hplace : Path.names fs.cwd d = Path.names fs.cwd dir) :
    Locates fs dir names (Path.descend d names) := by
  have hnames := h.isName
  have hwalked := spot_descend fs d hnames
  rw [hspot] at hwalked
  refine ⟨h, ?_, hwalked, fun s e hs hleads hlink => ?_⟩
  · rw [Path.names_descend hnames, hplace]
  · obtain ⟨s', hwalk, hentry⟩ := hleads.walk_eq hlink
    rw [hs] at hwalked
    exact get_eq_ok_iff.mpr ⟨Path.descend_ne_empty h.ne_nil hnames d, s', hwalked.trans hwalk,
      hentry⟩

theorem locates_trim {names : List String} (h : fs.HasContract dir names) :
    Locates fs dir names (Path.descend (Path.trim dir) names) := by
  obtain ⟨s, hspot, ⟨e, hleads⟩, -⟩ := id h
  obtain ⟨entries, hentries⟩ := hleads.exists_dir
  refine locates_descend h ?_ (Path.names_trim dir)
  rw [(spot_trim hentries).mpr hspot, hspot]

def SpellsTwice (fs : FileSystem) (dir : String) : Prop :=
  ¬Path.IsRoot dir ∧ dir.endsWith "//" = true ∧ ∃ names, fs.HasContract dir names ∧ InPlace names

theorem mem_contractPaths_single (hdir : dir ≠ "") (hspecial : Glob.isSpecial dir = false)
    (hsingle : ¬SpellsTwice fs dir) (path : String) : path ∈ contractPaths fs dir ↔
      ∃ names, fs.HasContract dir names ∧ path = Path.descend (Path.trim dir) names := by
  rw [mem_contractPaths_plain fs hdir hspecial]
  refine exists_congr fun names => and_congr_right fun hcontract => or_iff_left_of_imp ?_
  rintro ⟨hplace, rfl⟩
  refine ((Path.descend_trim_eq_iff hcontract.ne_nil hcontract.isName).mpr ?_).symm
  by_contra hother
  obtain ⟨hroot, hends⟩ := not_or.mp hother
  exact hsingle ⟨hroot, by simpa using hends, names, hcontract, hplace⟩

theorem findsOnce_of_roots (hdir : dir ≠ "") (hroots : Glob.roots fs dir = [Path.trim dir])
    (hfound : ∀ path, path ∈ contractPaths fs dir ↔
      ∃ names, fs.HasContract dir names ∧ path = Path.descend (Path.trim dir) names) :
    FindsOnce fs dir := by
  refine ⟨nodup_eraseDups _, fun path hpath => ?_, fun names hcontract => ?_, fun path hpath => ?_⟩
  · obtain ⟨names, hcontract, rfl⟩ := (hfound path).mp hpath
    exact ⟨names, locates_trim hcontract⟩
  · refine ⟨_, ⟨(hfound _).mpr ⟨names, hcontract, rfl⟩, locates_trim hcontract⟩, ?_⟩
    rintro path ⟨hpath, hlocated⟩
    obtain ⟨names', hcontract', rfl⟩ := (hfound path).mp hpath
    -- the place of the path tells the names
    have hnames := (locates_trim hcontract').place.symm.trans hlocated.place
    rw [List.append_cancel_left hnames]
  · obtain ⟨names, hcontract, rfl⟩ := (hfound path).mp hpath
    rw [Glob.mem_find_iff hdir, hroots]
    exact ⟨_, List.mem_singleton_self _, names, hasContract_trim_iff.mpr hcontract, rfl⟩

theorem not_findsOnce_of_spellsTwice (hspecial : Glob.isSpecial dir = false)
    (h : SpellsTwice fs dir) : ¬FindsOnce fs dir := by
  intro honce
  obtain ⟨hroot, hends, names, hcontract, hplace⟩ := h
  have hfound := mem_contractPaths_plain fs (Path.ne_empty_of_not_isRoot hroot) hspecial
  have hshort := (hfound _).mpr ⟨names, hcontract, .inl rfl⟩
  have hlong := (hfound _).mpr ⟨names, hcontract, .inr ⟨hplace, rfl⟩⟩
  have hsame := (honce.once names hcontract).unique ⟨hshort, locates_trim hcontract⟩
    ⟨hlong, locates_descend hcontract rfl rfl⟩
  rw [Path.descend_trim_eq_iff hcontract.ne_nil hcontract.isName, hends] at hsame
  exact hsame.elim hroot Bool.noConfusion

/-- For a directory without special characters the contracts are found, each by one path, unless
the directory ends in two slashes and has a contract in one of the places: those have two paths.
A directory with special characters is a pattern: what is found are the contracts of the
directories that match it. These are its own if it matches itself alone, but it need not match
itself. Without links the contracts are those that stand in the tree below the directory. -/
theorem found_once_iff (hdir : fs.isDirAt dir = true) :
    (fs.root.isLinkFree = true → ∀ names, fs.HasContract dir names ↔
      (∃ e, fs.root.at? (Path.names fs.cwd dir ++ names) = some e) ∧
      (∀ name ∈ names, Glob.isHidden name = false) ∧
      ∃ name, names.getLast? = some name ∧ name.endsWith ".rs" = true) ∧
    (Glob.isSpecial dir = false →
      (FindsOnce fs dir ↔ ¬SpellsTwice fs dir) ∧
      ∀ path, path ∈ contractPaths fs dir ↔ ∃ names, fs.HasContract dir names ∧
        (path = Path.descend (Path.trim dir) names ∨
          InPlace names ∧ path = Path.descend dir names)) ∧
    (Glob.isSpecial dir = true →
      let found := Glob.paths fs true ((Path.trim dir).length + 1) (Path.trim dir)
      (found = [Path.trim dir] → FindsOnce fs dir) ∧
      ∀ path, path ∈ contractPaths fs dir ↔
        ∃ d ∈ found, ∃ names, fs.HasContract d names ∧ path = Path.descend d names) := by
  obtain ⟨hne, -⟩ := isDirAt_iff.mp hdir
  refine ⟨fun hfs names => hasContract_linkFree_iff hfs hdir, fun hspecial => ?_, ?_⟩
  · refine ⟨⟨?_, fun hsingle => ?_⟩, mem_contractPaths_plain fs hne hspecial⟩
    · exact fun honce htwice => not_findsOnce_of_spellsTwice hspecial htwice honce
    · exact findsOnce_of_roots hne (roots_plain hspecial)
        (mem_contractPaths_single hne hspecial hsingle)
  · intro hspecial found
    have hroots : Glob.roots fs dir = found := if_pos hspecial
    have hfound := mem_contractPaths_special fs hne hspecial
    rw [hroots] at hfound
    refine ⟨fun halone => ?_, hfound⟩
    refine findsOnce_of_roots hne (hroots.trans halone) fun path => ?_
    rw [hfound, halone]
    simp only [List.mem_singleton, exists_eq_left, hasContract_trim_iff]

end Once

/-- Contracts in three directories. The name of the first is a pattern for the second. -/
def crates : FileSystem :=
  .ofRoot
    (.dir [("w", .dir [
      ("[a]", .dir [("x.rs", .file "fn f() \x7b\x7d".toUTF8.toList)]),
      ("a", .dir [("y.rs", .file "fn f() \x7b\x7d".toUTF8.toList)]),
      ("c", .dir [("src", .dir [("b.rs", .file "fn f() \x7b\x7d".toUTF8.toList)])])])])
    ["w"] (by decide +kernel)

theorem roots_crates : Glob.roots crates "[a]" = ["a"] := by decide +kernel

/-- With one slash the contract below `src` has one path, also if the directory is given from the
root on. For the directory whose name is a pattern the contracts of the other one are found. -/
theorem found_once_iff_crates :
    (crates.isDirAt "c/" = true ∧ FindsOnce crates "c/" ∧
      "c/src/b.rs" ∈ contractPaths crates "c/") ∧
    (crates.isDirAt "/w/c" = true ∧ FindsOnce crates "/w/c") ∧
    crates.isDirAt "[a]" = true ∧ ∀ path, path ∈ contractPaths crates "[a]" ↔
      ∃ names, crates.HasContract "a" names ∧ path = Path.descend "a" names := by
  have hslash : crates.isDirAt "c/" = true := by decide +kernel
  have habsolute : crates.isDirAt "/w/c" = true := by decide +kernel
  have hpattern : crates.isDirAt "[a]" = true := by decide +kernel
  obtain ⟨-, hplain, -⟩ := found_once_iff hslash
  obtain ⟨-, hfull, -⟩ := found_once_iff habsolute
  obtain ⟨-, -, hspecial⟩ := found_once_iff hpattern
  have hends : "c/".endsWith "//" = false ∧ "/w/c".endsWith "//" = false := by decide +kernel
  have hfound : "c/src/b.rs" ∈ contractPaths crates "c/" :=
    mem_contractPaths_iff.mpr (.inl (by decide +kernel))
  refine ⟨⟨hslash, (hplain (by decide)).1.mpr ?_, hfound⟩,
    ⟨habsolute, (hfull (by decide)).1.mpr ?_⟩, hpattern, fun path => ?_⟩
  · rintro ⟨-, htwice, -⟩
    rw [hends.1] at htwice
    cases htwice
  · rintro ⟨-, htwice, -⟩
    rw [hends.2] at htwice
    cases htwice
  · have hroots : Glob.paths crates true ((Path.trim "[a]").length + 1) (Path.trim "[a]") = ["a"] :=
      roots_crates
    rw [(hspecial (by decide)).2 path, hroots]
    simp

/-- With two slashes the contract below `src` has two paths. The contract of the directory whose
name is a pattern has none. -/
theorem not_findsOnce_crates : crates.root.isLinkFree = true ∧
    (crates.isDirAt "c//" = true ∧ ¬FindsOnce crates "c//") ∧
    crates.isDirAt "[a]" = true ∧ ¬FindsOnce crates "[a]" := by
  have hfree : crates.root.isLinkFree = true := by decide +kernel
  have hslashes : crates.isDirAt "c//" = true := by decide +kernel
  have hpattern : crates.isDirAt "[a]" = true := by decide +kernel
  have hbelow : crates.HasContract "c//" ["src", "b.rs"] := by
    refine (hasContract_linkFree_iff hfree hslashes).mpr ⟨?_, by decide +kernel, "b.rs", rfl, ?_⟩
    · exact Option.isSome_iff_exists.mp (by decide +kernel)
    · decide +kernel
  have hcontract : crates.HasContract "[a]" ["x.rs"] := by
    refine (hasContract_linkFree_iff hfree hpattern).mpr ⟨?_, by decide +kernel, "x.rs", rfl, ?_⟩
    · exact Option.isSome_iff_exists.mp (by decide +kernel)
    · decide +kernel
  refine ⟨hfree, ⟨hslashes, ?_⟩, hpattern, fun h => ?_⟩
  · refine not_findsOnce_of_spellsTwice (by decide)
      ⟨?_, by decide +kernel, _, hbelow, "src", ?_, rfl⟩
    · rw [Path.IsRoot]
      decide +kernel
    · exact List.mem_cons_self
  · -- what is found lies in the directory `a`
    obtain ⟨path, ⟨hfound, hlocated⟩, -⟩ := h.once ["x.rs"] hcontract
    rw [mem_contractPaths_special _ (by decide) (by decide), roots_crates] at hfound
    obtain ⟨d, hd, names, hnames, rfl⟩ := hfound
    obtain rfl := List.mem_singleton.mp hd
    have hplace := hlocated.place
    have hnamed : Path.names crates.cwd "a" = ["w", "a"] ∧
        Path.names crates.cwd "[a]" = ["w", "[a]"] := by decide +kernel
    rw [Path.names_descend hnames.isName, hnamed.1, hnamed.2] at hplace
    simp at hplace

end Project
end ContractAudit
