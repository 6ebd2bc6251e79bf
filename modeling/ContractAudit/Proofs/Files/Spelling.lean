import ContractAudit.Files.Path
import ContractAudit.Proofs.Text.Lines
import Mathlib.Data.List.DropRight
import Mathlib.Data.List.Induction

/-! Paths as texts. A path is split into its directory and its last name, and joined from them
again. Names behind a directory are spelled out behind one slash, unless the directory has slashes
at its end already. -/

namespace ContractAudit.Path

theorem splitSlash_eq (t : List Char) : splitSlash t = Text.splitAt '/' t := by
  induction t with
  | nil => rfl
  | cons c t ih =>
    rw [splitSlash, Text.splitAt, ih]
    rfl

theorem parts_eq (path : String) :
    parts path = (Text.splitAt '/' path.toList).map String.ofList := by
  rw [parts, splitSlash_eq]

theorem parts_slash (s t : String) : parts (s ++ "/" ++ t) = parts s ++ parts t := by
  have htext : (s ++ "/" ++ t).toList = s.toList ++ '/' :: t.toList := by
    simp
  rw [parts_eq, htext, Text.splitAt_append_sep, List.map_append, ← parts_eq, ← parts_eq]

theorem parts_of_notMem {name : String} (h : '/' ∉ name.toList) : parts name = [name] := by
  rw [parts_eq, Text.splitAt_of_notMem h]
  simp

theorem slash_notMem_of_mem_parts {path part : String} (h : part ∈ parts path) :
    '/' ∉ part.toList := by
  rw [parts_eq] at h
  obtain ⟨piece, hpiece, rfl⟩ := List.mem_map.mp h
  rw [String.toList_ofList]
  exact Text.sep_notMem_of_mem_splitAt hpiece

theorem parts_intercalate {ps : List String} (hne : ps ≠ [])
    (h : ∀ part ∈ ps, '/' ∉ part.toList) : parts ("/".intercalate ps) = ps := by
  induction ps with
  | nil => exact absurd rfl hne
  | cons part ps ih =>
    have hpart : parts part = [part] := parts_of_notMem (h part List.mem_cons_self)
    cases ps with
    | nil => rw [String.intercalate_singleton, hpart]
    | cons next rest =>
      have hrest := ih (List.cons_ne_nil next rest) fun q hq => h q (List.mem_cons_of_mem part hq)
      rw [String.intercalate_cons_cons, parts_slash, hpart, hrest, List.singleton_append]

theorem isAbsolute_iff {path : String} : isAbsolute path = true ↔ path.toList.head? = some '/' := by
  have hslash : "/".toList = ['/'] := rfl
  rw [isAbsolute, String.startsWith_string_iff, hslash, List.head?_eq_some_iff]
  exact exists_congr fun rest => eq_comm

theorem isAbsolute_append {s : String} (h : s ≠ "") (t : String) :
    isAbsolute (s ++ t) = isAbsolute s := by
  rw [Bool.eq_iff_iff, isAbsolute_iff, isAbsolute_iff, String.toList_append]
  cases hs : s.toList with
  | nil => exact absurd (String.toList_eq_nil_iff.mp hs) h
  | cons c rest => rfl

theorem isAbsolute_of_notMem {s : String} (h : '/' ∉ s.toList) : isAbsolute s = false := by
  rw [Bool.eq_false_iff, ne_eq, isAbsolute_iff]
  exact fun hhead => h (List.mem_of_mem_head? hhead)

theorem endsWith_iff {s t : String} : s.endsWith t = true ↔ t.toList <:+ s.toList := by
  rw [String.endsWith_eq_endsWith_toSlice, String.Slice.endsWith_string_iff, String.copy_toSlice]

theorem endsWith_slash_iff {s : String} : s.endsWith "/" = true ↔ s.toList.getLast? = some '/' := by
  rw [endsWith_iff, List.getLast?_eq_some_iff]
  exact exists_congr fun init => eq_comm

section IsName

variable {name : String}

theorem isName_iff : isName name = true ↔
    name ≠ "" ∧ name ≠ "." ∧ name ≠ ".." ∧ '/' ∉ name.toList := by
  simp [isName, and_assoc]

theorem ne_empty_of_isName (h : isName name = true) : name ≠ "" := (isName_iff.mp h).1

theorem noSlash_of_isName (h : isName name = true) : '/' ∉ name.toList := (isName_iff.mp h).2.2.2

theorem isAbsolute_of_isName (h : isName name = true) : isAbsolute name = false :=
  isAbsolute_of_notMem (noSlash_of_isName h)

theorem not_endsWith_slash_of_isName (h : isName name = true) (s : String) :
    (s ++ name).endsWith "/" = false := by
  rw [Bool.eq_false_iff, ne_eq, endsWith_slash_iff, String.toList_append]
  intro hlast
  have hne : name.toList ≠ [] :=
    fun hnil => ne_empty_of_isName h (String.toList_eq_nil_iff.mp hnil)
  rw [List.getLast?_append_of_ne_nil _ hne] at hlast
  exact noSlash_of_isName h (List.mem_of_getLast? hlast)

end IsName

def bridge (dir : String) : String := if dir = "" || dir.endsWith "/" then "" else "/"

theorem join_eq (dir : String) {path : String} (h : isAbsolute path = false) :
    join dir path = dir ++ bridge dir ++ path := by
  rw [join, h, if_neg Bool.false_ne_true, bridge]
  split
  · rw [String.append_empty]
  · rfl

theorem bridge_of_isName {name : String} (h : isName name = true) (s : String) :
    bridge (s ++ name) = "/" := by
  have hne : s ++ name ≠ "" := fun hempty =>
    ne_empty_of_isName h (String.append_eq_empty_iff.mp hempty).2
  rw [bridge, not_endsWith_slash_of_isName h, if_neg (by simp [hne])]

theorem bridge_of_endsWith {dir : String} (h : dir.endsWith "/" = true) : bridge dir = "" := by
  rw [bridge, h, Bool.or_true, if_pos rfl]

theorem bridge_append_bridge (dir : String) : bridge (dir ++ bridge dir) = "" := by
  by_cases hdir : (dir = "" || dir.endsWith "/") = true
  · have hbridge : bridge dir = "" := if_pos hdir
    rw [hbridge, String.append_empty, hbridge]
  · have hbridge : bridge dir = "/" := if_neg hdir
    have hends : (dir ++ "/").endsWith "/" = true := by
      rw [endsWith_slash_iff]
      simp
    rw [hbridge, bridge_of_endsWith hends]

theorem join_empty_join (dir : String) {name : String} (h : isName name = true) :
    join (join dir "") name = join dir name := by
  rw [join_eq dir rfl, String.append_empty, join_eq _ (isAbsolute_of_isName h),
    bridge_append_bridge, String.append_empty, join_eq dir (isAbsolute_of_isName h)]

theorem isAbsolute_join (dir : String) {path : String} (h : isAbsolute path = false) :
    isAbsolute (join dir path) = isAbsolute dir := by
  by_cases hdir : dir = ""
  · subst hdir
    rw [join_eq "" h]
    exact h
  · rw [join_eq dir h, String.append_assoc, isAbsolute_append hdir]

/-- A path behind a directory adds its parts to those of the directory, up to an empty last one. -/
theorem parts_join (dir : String) {path : String} (h : isAbsolute path = false) :
    ∃ around, parts (join dir path) = around ++ parts path ∧
      (parts dir = around ∨ parts dir = around ++ [""]) := by
  rw [join, h, if_neg Bool.false_ne_true]
  split
  · next hdir =>
    rcases Bool.or_eq_true _ _ |>.mp hdir with hempty | hslash
    · obtain rfl := of_decide_eq_true hempty
      refine ⟨[], ?_, .inr rfl⟩
      rw [String.empty_append, List.nil_append]
    · obtain ⟨init, hinit⟩ := endsWith_iff.mp hslash
      obtain rfl : dir = String.ofList init ++ "/" := by
        apply String.toList_inj.mp
        simpa using hinit.symm
      refine ⟨_, parts_slash _ path, .inr ?_⟩
      have hparts := parts_slash (String.ofList init) ""
      rwa [String.append_empty] at hparts
  · exact ⟨parts dir, parts_slash dir path, .inl rfl⟩

def filledParts (path : String) : List String := (parts path).filter (· ≠ "")

theorem parts_join_name (dir : String) {name : String} (h : '/' ∉ name.toList) :
    ∃ around, parts (join dir name) = around ++ [name] ∧
      around.filter (· ≠ "") = filledParts dir := by
  obtain ⟨around, hparts, haround⟩ := parts_join dir (isAbsolute_of_notMem h)
  rw [parts_of_notMem h] at hparts
  refine ⟨around, hparts, ?_⟩
  rcases haround with heq | heq
  · rw [filledParts, heq]
  · rw [filledParts, heq, List.filter_append]
    exact (List.append_nil _).symm

theorem join_ne_empty (dir : String) {name : String} (hname : '/' ∉ name.toList)
    (hne : name ≠ "") : join dir name ≠ "" := by
  rw [join_eq dir (isAbsolute_of_notMem hname)]
  exact fun hempty => hne (String.append_eq_empty_iff.mp hempty).2

section Split

def ahead (path : String) : Text := path.toList.rdropWhile (! isSlash ·)

theorem ahead_append_basename (path : String) :
    ahead path ++ (basename path).toList = path.toList := by
  rw [basename, split, String.toList_ofList]
  exact List.rdropWhile_append_rtakeWhile

theorem slash_notMem_basename (path : String) : '/' ∉ (basename path).toList := by
  rw [basename, split, String.toList_ofList]
  intro hslash
  cases List.mem_takeWhile_imp (List.mem_reverse.mp hslash)

theorem ahead_cases (path : String) : ahead path = [] ∨ ∃ init, ahead path = init ++ ['/'] := by
  rcases (ahead path).eq_nil_or_concat' with hnil | ⟨init, last, hlast⟩
  · exact .inl hnil
  · have hne : ahead path ≠ [] := by
      rw [hlast]
      simp
    have hstop : ¬(!isSlash ((ahead path).getLast hne)) = true :=
      List.rdropWhile_last_not (! isSlash ·) path.toList hne
    have hslash : last = '/' := by
      simpa [hlast, isSlash] using hstop
    exact .inr ⟨init, by rw [hlast, hslash]⟩

def trimmed (t : Text) : Text := if t.all isSlash then t else t.rdropWhile isSlash

theorem trimmed_isPrefix (t : Text) : trimmed t <+: t := by
  unfold trimmed
  split
  · exact List.prefix_rfl
  · exact List.rdropWhile_prefix _ _

theorem toList_dirname (path : String) : (dirname path).toList = trimmed (ahead path) := by
  rw [dirname, split, String.toList_ofList]
  rfl

theorem dirname_prefix_path (path : String) : (dirname path).toList <+: path.toList := by
  rw [toList_dirname]
  exact (trimmed_isPrefix _).trans (List.rdropWhile_prefix _ _)

theorem head?_trimmed (t : Text) : (trimmed t).head? = t.head? := by
  unfold trimmed
  split
  · rfl
  · next hall =>
    obtain ⟨rest, hrest⟩ := List.rdropWhile_prefix isSlash t
    cases htrim : t.rdropWhile isSlash with
    | nil =>
      rw [List.rdropWhile_eq_nil_iff] at htrim
      exact absurd (List.all_eq_true.mpr htrim) hall
    | cons c front =>
      rw [← hrest, htrim]
      rfl

def trim (dir : String) : String := String.ofList (trimmed dir.toList)

theorem toList_trim (dir : String) : (trim dir).toList = trimmed dir.toList := String.toList_ofList

theorem isAbsolute_trim (dir : String) : isAbsolute (trim dir) = isAbsolute dir := by
  rw [Bool.eq_iff_iff, isAbsolute_iff, isAbsolute_iff, toList_trim, head?_trimmed]

def IsRoot (dir : String) : Prop := dir.toList.all isSlash = true

instance (dir : String) : Decidable (IsRoot dir) := inferInstanceAs (Decidable (_ = true))

theorem trim_of_isRoot {dir : String} (h : IsRoot dir) : trim dir = dir := by
  apply String.toList_inj.mp
  rw [toList_trim]
  exact if_pos h

theorem toList_trim_of_not_isRoot {dir : String} (h : ¬IsRoot dir) :
    (trim dir).toList = dir.toList.rdropWhile isSlash := by
  rw [toList_trim]
  exact if_neg h

theorem trim_eq_empty_iff {dir : String} : trim dir = "" ↔ dir = "" := by
  rw [← String.toList_eq_nil_iff, ← String.toList_eq_nil_iff, ← List.head?_eq_none_iff,
    ← List.head?_eq_none_iff, toList_trim, head?_trimmed]

theorem trim_isPrefix (dir : String) : (trim dir).toList <+: dir.toList := by
  rw [toList_trim]
  exact trimmed_isPrefix _

theorem splitAt_replicate (k : Nat) :
    Text.splitAt '/' (List.replicate k '/') = List.replicate (k + 1) [] := by
  induction k with
  | zero => rfl
  | succ k ih =>
    rw [List.replicate_succ, Text.splitAt_cons_sep, ih]
    rfl

theorem exists_slashes (dir : String) :
    ∃ k, dir.toList = (trim dir).toList ++ List.replicate k '/' := by
  by_cases hroot : IsRoot dir
  · exact ⟨0, by rw [trim_of_isRoot hroot, List.replicate_zero, List.append_nil]⟩
  · refine ⟨(dir.toList.rtakeWhile isSlash).length, ?_⟩
    have hslashes : dir.toList.rtakeWhile isSlash =
        List.replicate (dir.toList.rtakeWhile isSlash).length '/' := by
      rw [List.eq_replicate_iff]
      refine ⟨rfl, fun c hc => ?_⟩
      simpa [isSlash] using List.mem_rtakeWhile_imp hc
    rw [← hslashes, toList_trim_of_not_isRoot hroot, List.rdropWhile_append_rtakeWhile]

theorem parts_trim (dir : String) : ∃ k, parts dir = parts (trim dir) ++ List.replicate k "" := by
  obtain ⟨k, hk⟩ := exists_slashes dir
  refine ⟨k, ?_⟩
  rw [parts_eq, parts_eq, hk]
  cases k with
  | zero => simp
  | succ k =>
    rw [List.replicate_succ, Text.splitAt_append_sep, splitAt_replicate, List.map_append,
      List.map_replicate]

theorem filledParts_append_slash (s : String) : filledParts (s ++ "/") = filledParts s := by
  have hparts := parts_slash s ""
  rw [String.append_empty] at hparts
  rw [filledParts, hparts, List.filter_append]
  exact List.append_nil _

theorem filledParts_trim (dir : String) : filledParts (trim dir) = filledParts dir := by
  obtain ⟨k, hk⟩ := parts_trim dir
  rw [filledParts, filledParts, hk, List.filter_append]
  simp

theorem dirname_eq_trim (path : String) : dirname path = trim (String.ofList (ahead path)) := by
  apply String.toList_inj.mp
  rw [toList_dirname, toList_trim, String.toList_ofList]

theorem parts_split (path : String) : ∃ around, parts path = around ++ [basename path] ∧
    around.filter (· ≠ "") = filledParts (dirname path) := by
  rw [dirname_eq_trim, filledParts_trim, ← parts_of_notMem (slash_notMem_basename path)]
  have hpath := ahead_append_basename path
  rcases ahead_cases path with hnil | ⟨init, hinit⟩
  · rw [hnil, List.nil_append] at hpath
    refine ⟨[], ?_, ?_⟩
    · rw [String.toList_inj.mp hpath, List.nil_append]
    · rw [hnil]
      rfl
  · have hahead : String.ofList (ahead path) = String.ofList init ++ "/" := by
      apply String.toList_inj.mp
      simp [hinit]
    have hwhole : path = String.ofList init ++ "/" ++ basename path := by
      apply String.toList_inj.mp
      rw [← hahead, String.toList_append, String.toList_ofList, hpath]
    refine ⟨parts (String.ofList init), ?_, ?_⟩
    · rw [← parts_slash, ← hwhole]
    · rw [hahead, filledParts_append_slash, filledParts]

theorem isAbsolute_dirname (path : String) : isAbsolute (dirname path) = isAbsolute path := by
  rw [dirname_eq_trim, isAbsolute_trim]
  have hpath := ahead_append_basename path
  rw [Bool.eq_iff_iff, isAbsolute_iff, isAbsolute_iff, String.toList_ofList]
  rcases ahead_cases path with hnil | ⟨init, hinit⟩
  · rw [hnil, List.nil_append] at hpath
    rw [hnil, ← hpath]
    refine iff_of_false (by simp) fun hhead => ?_
    exact slash_notMem_basename path (List.mem_of_mem_head? hhead)
  · rw [← hpath, hinit]
    cases init <;> rfl

theorem isRoot_of_all {dir : String} {t : Text} (h : (dir.toList ++ t).all isSlash = true) :
    IsRoot dir := by
  rw [List.all_append, Bool.and_eq_true] at h
  exact h.1

theorem exists_append_bridge {dir : String} (h : dir ≠ "") :
    ∃ init, (dir ++ bridge dir).toList = init ++ ['/'] := by
  by_cases hends : dir.endsWith "/" = true
  · obtain ⟨init, hinit⟩ := List.getLast?_eq_some_iff.mp (endsWith_slash_iff.mp hends)
    exact ⟨init, by rw [bridge_of_endsWith hends, String.append_empty, hinit]⟩
  · refine ⟨dir.toList, ?_⟩
    rw [bridge, if_neg (by simp [h, hends]), String.toList_append]
    rfl

theorem trimmed_append_bridge (dir : String) :
    trimmed (dir ++ bridge dir).toList = (trim dir).toList := by
  by_cases hdir : (dir = "" || dir.endsWith "/") = true
  · have hbridge : bridge dir = "" := if_pos hdir
    rw [hbridge, String.append_empty, toList_trim]
  · have hbridge : bridge dir = "/" := if_neg hdir
    have hroot : ¬IsRoot dir := by
      intro hroot
      rcases dir.toList.eq_nil_or_concat' with hnil | ⟨init, c, hc⟩
      · exact hdir (by simp [String.toList_eq_nil_iff.mp hnil])
      · have hslash : c = '/' := by
          simpa [isSlash] using List.all_eq_true.mp hroot c (by simp [hc])
        have hends : dir.endsWith "/" = true := by
          rw [endsWith_slash_iff, hc, hslash, List.getLast?_concat]
        exact hdir (by simp [hends])
    have hslash : "/".toList = ['/'] := rfl
    rw [hbridge, String.toList_append, hslash, trimmed,
      if_neg fun hall => hroot (isRoot_of_all hall),
      List.rdropWhile_concat_pos isSlash _ '/' rfl, toList_trim_of_not_isRoot hroot]

theorem ahead_join (dir : String) {part : String} (hpart : '/' ∉ part.toList) :
    ahead (join dir part) = (dir ++ bridge dir).toList := by
  have hstop : ahead (dir ++ bridge dir) = (dir ++ bridge dir).toList := by
    by_cases hdir : dir = ""
    · subst hdir
      rfl
    · obtain ⟨init, hinit⟩ := exists_append_bridge hdir
      rw [ahead, hinit]
      exact List.rdropWhile_concat_neg _ init '/' (by decide)
  rw [ahead, join_eq dir (isAbsolute_of_notMem hpart), String.toList_append]
  generalize part.toList = tail at hpart
  induction tail using List.reverseRecOn with
  | nil =>
    rw [List.append_nil]
    exact hstop
  | append_singleton tail c ih =>
    have hc : c ≠ '/' := fun hslash => hpart (by simp [hslash])
    rw [← List.append_assoc, List.rdropWhile_concat_pos _ _ c (by simpa [isSlash] using hc)]
    exact ih fun hslash => hpart (List.mem_append_left _ hslash)

theorem dirname_join (dir : String) {part : String} (hpart : '/' ∉ part.toList) :
    dirname (join dir part) = trim dir := by
  apply String.toList_inj.mp
  rw [toList_dirname, ahead_join dir hpart, trimmed_append_bridge]

theorem basename_join (dir : String) {part : String} (hpart : '/' ∉ part.toList) :
    basename (join dir part) = part := by
  have hwhole := ahead_append_basename (join dir part)
  have htext : (join dir part).toList = (dir ++ bridge dir).toList ++ part.toList := by
    rw [join_eq dir (isAbsolute_of_notMem hpart), String.toList_append]
  rw [ahead_join dir hpart, htext] at hwhole
  exact String.toList_inj.mp (List.append_cancel_left hwhole)

theorem split_join (dir : String) {part : String} (hpart : '/' ∉ part.toList) :
    split (join dir part) = (trim dir, part) := by
  have hsplit : split (join dir part) = (dirname (join dir part), basename (join dir part)) := rfl
  rw [hsplit, dirname_join dir hpart, basename_join dir hpart]

theorem exists_toList_join (dir : String) {part : String} (hne : part ≠ "")
    (hpart : '/' ∉ part.toList) :
    ∃ init c, (join dir part).toList = init ++ [c] ∧ isSlash c = false := by
  rw [join_eq dir (isAbsolute_of_notMem hpart), String.toList_append]
  rcases part.toList.eq_nil_or_concat' with hnil | ⟨init, c, hc⟩
  · exact absurd (String.toList_eq_nil_iff.mp hnil) hne
  · rw [hc] at hpart ⊢
    refine ⟨_, c, (List.append_assoc _ _ _).symm, ?_⟩
    have hslash : c ≠ '/' := fun hslash => hpart (by simp [hslash])
    simpa [isSlash] using hslash

theorem trim_join (dir : String) {part : String} (hne : part ≠ "") (hpart : '/' ∉ part.toList) :
    trim (join dir part) = join dir part := by
  obtain ⟨init, c, htext, hc⟩ := exists_toList_join dir hne hpart
  have hroot : ¬IsRoot (join dir part) := by
    intro hroot
    rw [List.all_eq_true.mp hroot c (by simp [htext])] at hc
    cases hc
  apply String.toList_inj.mp
  rw [toList_trim_of_not_isRoot hroot, htext,
    List.rdropWhile_concat_neg isSlash init c (by simp [hc])]

end Split

section Slashes

variable {dir : String}

theorem not_endsWith_trim (h : ¬IsRoot dir) : (trim dir).endsWith "/" = false := by
  rw [Bool.eq_false_iff, ne_eq, endsWith_slash_iff, toList_trim_of_not_isRoot h]
  intro hlast
  obtain ⟨init, hinit⟩ := List.getLast?_eq_some_iff.mp hlast
  have hne : dir.toList.rdropWhile isSlash ≠ [] := by simp [hinit]
  have hstop := List.rdropWhile_last_not isSlash dir.toList hne
  simp [hinit, isSlash] at hstop

theorem ne_empty_of_not_isRoot (h : ¬IsRoot dir) : dir ≠ "" := by
  rintro rfl
  exact h rfl

theorem bridge_trim (h : ¬IsRoot dir) : bridge (trim dir) = "/" := by
  have hne : trim dir ≠ "" := fun hempty =>
    ne_empty_of_not_isRoot h (trim_eq_empty_iff.mp hempty)
  rw [bridge, not_endsWith_trim h, if_neg (by simp [hne])]

theorem endsWith_slashes_iff (h : ¬IsRoot dir) {k : Nat}
    (hk : dir.toList = (trim dir).toList ++ List.replicate k '/') :
    dir.endsWith "//" = true ↔ 2 ≤ k := by
  have hlast : ∀ init, (trim dir).toList ≠ init ++ ['/'] := by
    intro init hinit
    have hends : (trim dir).endsWith "/" = true := by
      rw [endsWith_slash_iff, hinit, List.getLast?_concat]
    rw [not_endsWith_trim h] at hends
    cases hends
  have hslashes : "//".toList = ['/'] ++ ['/'] := rfl
  rw [endsWith_iff, hslashes, hk]
  constructor
  · rintro ⟨init, hinit⟩
    rw [← List.append_assoc] at hinit
    by_contra hfew
    obtain rfl | rfl : k = 0 ∨ k = 1 := by omega
    · rw [List.replicate_zero, List.append_nil] at hinit
      exact hlast _ hinit.symm
    · exact hlast init (List.append_cancel_right hinit).symm
  · intro hmany
    obtain ⟨k, rfl⟩ : ∃ j, k = j + 1 + 1 := ⟨k - 2, by omega⟩
    refine ⟨(trim dir).toList ++ List.replicate k '/', ?_⟩
    rw [List.replicate_succ', List.replicate_succ', List.append_assoc, List.append_assoc]

/-- What is joined to a directory follows one slash, unless the directory ends in two. -/
theorem append_bridge_eq_iff_lt (h : ¬IsRoot dir) {k : Nat}
    (hk : dir.toList = (trim dir).toList ++ List.replicate k '/') :
    trim dir ++ "/" = dir ++ bridge dir ↔ k < 2 := by
  cases k with
  | zero =>
    have hdir : trim dir = dir := by
      apply String.toList_inj.mp
      rw [hk, List.replicate_zero, List.append_nil]
    rw [← bridge_trim h, hdir]
    exact iff_of_true rfl (by omega)
  | succ k =>
    have hends : dir.endsWith "/" = true := by
      rw [endsWith_slash_iff, hk, List.replicate_succ', ← List.append_assoc, List.getLast?_concat]
    have hslash : "/".toList = '/' :: List.replicate 0 '/' := rfl
    rw [bridge_of_endsWith hends, String.append_empty, ← String.toList_inj, String.toList_append,
      hk, List.append_cancel_left_eq, hslash, ← List.replicate_succ, List.replicate_left_inj]
    omega

end Slashes

section Descend

def descend (dir : String) (names : List String) : String := names.foldl join dir

theorem descend_concat (dir : String) (names : List String) (name : String) :
    descend dir (names ++ [name]) = join (descend dir names) name := List.foldl_append

variable {names : List String}

theorem descend_eq (hne : names ≠ []) (h : ∀ name ∈ names, isName name = true) (dir : String) :
    descend dir names = dir ++ bridge dir ++ "/".intercalate names := by
  induction names generalizing dir with
  | nil => exact absurd rfl hne
  | cons name names ih =>
    rw [List.forall_mem_cons] at h
    have hjoin := join_eq dir (isAbsolute_of_isName h.1)
    cases names with
    | nil =>
      rw [String.intercalate_singleton, ← hjoin]
      rfl
    | cons next rest =>
      have hstep : descend dir (name :: next :: rest) =
          descend (join dir name) (next :: rest) := rfl
      rw [hstep, ih (List.cons_ne_nil next rest) h.2, hjoin, bridge_of_isName h.1,
        String.intercalate_cons_cons]
      simp only [String.append_assoc]

theorem isAbsolute_intercalate (hne : names ≠ []) (h : ∀ name ∈ names, isName name = true) :
    isAbsolute ("/".intercalate names) = false := by
  cases names with
  | nil => exact absurd rfl hne
  | cons name names =>
    have hname := h name List.mem_cons_self
    cases names with
    | nil =>
      rw [String.intercalate_singleton]
      exact isAbsolute_of_isName hname
    | cons next rest =>
      rw [String.intercalate_cons_cons, String.append_assoc,
        isAbsolute_append (ne_empty_of_isName hname)]
      exact isAbsolute_of_isName hname

theorem join_intercalate (hne : names ≠ []) (h : ∀ name ∈ names, isName name = true)
    (dir : String) : join dir ("/".intercalate names) = descend dir names := by
  rw [descend_eq hne h, join_eq dir (isAbsolute_intercalate hne h)]

theorem join_name_intercalate {name : String} (hname : isName name = true) (hne : names ≠ [])
    (h : ∀ name ∈ names, isName name = true) :
    join name ("/".intercalate names) = "/".intercalate (name :: names) := by
  have hbridge : bridge name = "/" := by
    have happend := bridge_of_isName hname ""
    rwa [String.empty_append] at happend
  obtain ⟨next, rest, rfl⟩ := List.exists_cons_of_ne_nil hne
  rw [join_eq name (isAbsolute_intercalate hne h), hbridge, String.intercalate_cons_cons]

theorem descend_ne_empty (hne : names ≠ []) (h : ∀ name ∈ names, isName name = true)
    (dir : String) : descend dir names ≠ "" := by
  rcases names.eq_nil_or_concat' with rfl | ⟨init, last, rfl⟩
  · exact absurd rfl hne
  · have hlast := h last (by simp)
    rw [descend_concat]
    exact join_ne_empty _ (noSlash_of_isName hlast) (ne_empty_of_isName hlast)

theorem descend_trim_eq_iff {dir : String} (hne : names ≠ [])
    (h : ∀ name ∈ names, isName name = true) :
    descend (trim dir) names = descend dir names ↔ IsRoot dir ∨ dir.endsWith "//" = false := by
  by_cases hroot : IsRoot dir
  · rw [trim_of_isRoot hroot]
    exact iff_of_true rfl (.inl hroot)
  · obtain ⟨k, hk⟩ := exists_slashes dir
    rw [descend_eq hne h, descend_eq hne h, String.append_left_inj, bridge_trim hroot,
      append_bridge_eq_iff_lt hroot hk, Bool.eq_false_iff, ne_eq, endsWith_slashes_iff hroot hk,
      Nat.not_le, or_iff_right hroot]

end Descend

end ContractAudit.Path
