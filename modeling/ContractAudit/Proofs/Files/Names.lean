import ContractAudit.Proofs.Files.Spelling

/-! The names that a path gives by its text. Paths with the same names are the same way from any
directory, paths with other names are other ways, and the way from a directory leads back to the
names of the path. -/

namespace ContractAudit.Path

variable {cwd : List String}

theorem part_cases (part : String) :
    (part = "" ∨ part = ".") ∨ part = ".." ∨ part ≠ "" ∧ part ≠ "." ∧ part ≠ ".." := by
  by_cases hempty : part = ""
  · exact .inl (.inl hempty)
  · by_cases hdot : part = "."
    · exact .inl (.inr hdot)
    · by_cases hup : part = ".."
      · exact .inr (.inl hup)
      · exact .inr (.inr ⟨hempty, hdot, hup⟩)

theorem takePart_skip {part : String} (h : part = "" ∨ part = ".") (names : List String) :
    takePart names part = names := by
  rcases h with rfl | rfl <;> rfl

theorem takePart_plain {part : String} (h : part ≠ "" ∧ part ≠ "." ∧ part ≠ "..")
    (names : List String) : takePart names part = names ++ [part] := by
  simp [takePart, h.1, h.2.1, h.2.2]

theorem foldl_takePart_plain {parts : List String} (h : ∀ part ∈ parts, isName part = true)
    (names : List String) : parts.foldl takePart names = names ++ parts := by
  induction parts generalizing names with
  | nil => exact (List.append_nil names).symm
  | cons part parts ih =>
    rw [List.forall_mem_cons] at h
    obtain ⟨hempty, hdot, hup, -⟩ := isName_iff.mp h.1
    rw [List.foldl_cons, takePart_plain ⟨hempty, hdot, hup⟩, ih h.2, List.append_assoc,
      List.singleton_append]

theorem foldl_takePart_filter {p : String → Bool}
    (h : ∀ part, p part = false → part = "" ∨ part = ".") (parts names : List String) :
    (parts.filter p).foldl takePart names = parts.foldl takePart names := by
  rw [List.foldl_filter]
  congr 1
  funext names part
  cases hpart : p part with
  | true => rfl
  | false =>
    rw [takePart_skip (h part hpart)]
    rfl

theorem foldl_takePart_filled (path : String) (names : List String) :
    (filledParts path).foldl takePart names = (parts path).foldl takePart names :=
  foldl_takePart_filter (fun part hpart => .inl (by simpa using hpart)) _ _

theorem isName_of_mem_takePart {names : List String} (h : ∀ name ∈ names, isName name = true)
    {part : String} (hpart : '/' ∉ part.toList) : ∀ name ∈ takePart names part,
      isName name = true := by
  rcases part_cases part with hskip | rfl | hplain
  · rw [takePart_skip hskip]
    exact h
  · exact fun name hname => h name (List.dropLast_subset _ hname)
  · rw [takePart_plain hplain, List.forall_mem_append, List.forall_mem_singleton]
    exact ⟨h, isName_iff.mpr ⟨hplain.1, hplain.2.1, hplain.2.2, hpart⟩⟩

theorem isName_of_mem_names (h : ∀ name ∈ cwd, isName name = true) (path : String) :
    ∀ name ∈ names cwd path, isName name = true := by
  have hfold : ∀ (ps start : List String), (∀ part ∈ ps, '/' ∉ part.toList) →
      (∀ name ∈ start, isName name = true) →
        ∀ name ∈ ps.foldl takePart start, isName name = true := by
    intro ps
    induction ps with
    | nil => exact fun start _ hstart => hstart
    | cons part ps ih =>
      intro start hparts hstart
      rw [List.forall_mem_cons] at hparts
      exact ih _ hparts.2 (isName_of_mem_takePart hstart hparts.1)
  refine hfold _ _ (fun part => slash_notMem_of_mem_parts) ?_
  split
  · exact fun name hname => absurd hname List.not_mem_nil
  · exact h

theorem names_join (dir : String) {path : String} (h : isAbsolute path = false) :
    names cwd (join dir path) = (parts path).foldl takePart (names cwd dir) := by
  obtain ⟨around, hparts, haround⟩ := parts_join dir h
  have hdir : names cwd dir = around.foldl takePart (if isAbsolute dir then [] else cwd) := by
    rw [names]
    rcases haround with heq | heq
    · rw [heq]
    · rw [heq, List.foldl_append]
      rfl
  rw [names, isAbsolute_join dir h, hparts, List.foldl_append, hdir]

theorem names_join_name (dir : String) {name : String} (h : isName name = true) :
    names cwd (join dir name) = names cwd dir ++ [name] := by
  rw [names_join dir (isAbsolute_of_isName h), parts_of_notMem (noSlash_of_isName h),
    foldl_takePart_plain (List.forall_mem_singleton.mpr h)]

theorem names_descend {names' : List String} (h : ∀ name ∈ names', isName name = true)
    (dir : String) : names cwd (descend dir names') = names cwd dir ++ names' := by
  induction names' generalizing dir with
  | nil => exact (List.append_nil _).symm
  | cons name names' ih =>
    rw [List.forall_mem_cons] at h
    have hstep : descend dir (name :: names') = descend (join dir name) names' := rfl
    rw [hstep, ih h.2, names_join_name dir h.1, List.append_assoc, List.singleton_append]

theorem names_trim (dir : String) : names cwd (trim dir) = names cwd dir := by
  rw [names, names, isAbsolute_trim, ← foldl_takePart_filled, filledParts_trim,
    foldl_takePart_filled]

theorem names_split {path : String} (h : isName (basename path) = true) :
    names cwd path = names cwd (dirname path) ++ [basename path] := by
  obtain ⟨around, hparts, haround⟩ := parts_split path
  rw [names, names, isAbsolute_dirname, hparts, List.foldl_append, ← foldl_takePart_filled,
    ← haround, foldl_takePart_filter fun part hpart => .inl (by simpa using hpart)]
  exact foldl_takePart_plain (List.forall_mem_singleton.mpr h) _

section Steps

variable {target origin : List String}

theorem commonLength_le (target origin : List String) :
    commonLength target origin ≤ origin.length := by
  induction target generalizing origin with
  | nil => exact Nat.zero_le _
  | cons a target ih =>
    cases origin with
    | nil => exact Nat.zero_le _
    | cons b origin =>
      rw [commonLength]
      split
      · exact Nat.succ_le_succ (ih origin)
      · exact Nat.zero_le _

theorem take_commonLength (target origin : List String) :
    target.take (commonLength target origin) = origin.take (commonLength target origin) := by
  induction target generalizing origin with
  | nil => rfl
  | cons a target ih =>
    cases origin with
    | nil => rfl
    | cons b origin =>
      rw [commonLength]
      split
      · next heq => rw [List.take_succ_cons, List.take_succ_cons, ih origin, heq]
      · rfl

theorem mem_steps {step : String} (h : step ∈ steps target origin) :
    step = ".." ∨ step ∈ target := by
  rcases List.mem_append.mp h with h | h
  · exact .inl (List.eq_of_mem_replicate h)
  · exact .inr (List.mem_of_mem_drop h)

/-- The number of steps back tells where the ways part, and so the whole target. -/
theorem steps_inj {target' : List String} (h : ".." ∉ target) (h' : ".." ∉ target')
    (heq : steps target origin = steps target' origin) : target = target' := by
  have hcount : ∀ {t : List String}, ".." ∉ t →
      (steps t origin).count ".." = origin.length - commonLength t origin := by
    intro t ht
    rw [steps, List.count_append, List.count_replicate_self,
      List.count_eq_zero.mpr fun hmem => ht (List.mem_of_mem_drop hmem), Nat.add_zero]
  have hcommon : commonLength target origin = commonLength target' origin := by
    have hcounts := hcount h
    rw [heq, hcount h'] at hcounts
    have hle := commonLength_le target origin
    have hle' := commonLength_le target' origin
    omega
  rw [steps, steps, hcommon] at heq
  have hdrop := List.append_cancel_left heq
  have htake := take_commonLength target origin
  rw [hcommon, ← take_commonLength target' origin] at htake
  rw [← List.take_append_drop (commonLength target' origin) target, htake, hdrop,
    List.take_append_drop]

theorem foldl_takePart_up (names tail : List String) :
    (List.replicate tail.length "..").foldl takePart (names ++ tail) = names := by
  induction tail using List.reverseRecOn with
  | nil => exact List.append_nil names
  | append_singleton tail last ih =>
    have hup : takePart (names ++ tail ++ [last]) ".." = names ++ tail := List.dropLast_concat
    rw [List.length_append, List.length_singleton, List.replicate_succ, List.foldl_cons,
      ← List.append_assoc, hup, ih]

theorem foldl_takePart_steps (h : ∀ name ∈ target, isName name = true) (origin : List String) :
    (steps target origin).foldl takePart origin = target := by
  have hup : (List.replicate (origin.length - commonLength target origin) "..").foldl takePart
      origin = origin.take (commonLength target origin) := by
    have htail := foldl_takePart_up (origin.take (commonLength target origin))
      (origin.drop (commonLength target origin))
    rwa [List.length_drop, List.take_append_drop] at htail
  rw [steps, List.foldl_append, hup, ← take_commonLength,
    foldl_takePart_plain fun name hname => h name (List.mem_of_mem_drop hname),
    List.take_append_drop]

end Steps

section Relative

theorem steps_eq_filter (hcwd : ∀ name ∈ cwd, isName name = true) (path start : String) :
    steps (names cwd path) (names cwd start) =
      (parts (relative cwd path start)).filter (· ≠ ".") := by
  have hname := isName_of_mem_names hcwd path
  have hslash : ∀ step ∈ steps (names cwd path) (names cwd start), '/' ∉ step.toList := by
    intro step hstep
    rcases mem_steps hstep with rfl | hmem
    · decide
    · exact noSlash_of_isName (hname step hmem)
  have hdot : ∀ step ∈ steps (names cwd path) (names cwd start), step ≠ "." := by
    intro step hstep
    rcases mem_steps hstep with rfl | hmem
    · decide
    · exact (isName_iff.mp (hname step hmem)).2.1
  rw [relative]
  by_cases hempty : steps (names cwd path) (names cwd start) = []
  · rw [hempty]
    decide
  · rw [if_neg (by simpa using hempty), parts_intercalate hempty hslash, eq_comm,
      List.filter_eq_self]
    intro step hstep
    exact decide_eq_true (hdot step hstep)

theorem up_notMem_names (hcwd : ∀ name ∈ cwd, isName name = true) (path : String) :
    ".." ∉ names cwd path := fun hup =>
  (isName_iff.mp (isName_of_mem_names hcwd path _ hup)).2.2.1 rfl

theorem relative_inj (hcwd : ∀ name ∈ cwd, isName name = true) {path path' start : String} :
    relative cwd path start = relative cwd path' start ↔ names cwd path = names cwd path' := by
  refine ⟨fun heq => ?_, fun heq => by rw [relative, relative, heq]⟩
  have hsteps := steps_eq_filter hcwd path start
  rw [heq, ← steps_eq_filter hcwd] at hsteps
  exact steps_inj (up_notMem_names hcwd path) (up_notMem_names hcwd path') hsteps

theorem isAbsolute_relative (hcwd : ∀ name ∈ cwd, isName name = true) (path start : String) :
    isAbsolute (relative cwd path start) = false := by
  rw [Bool.eq_false_iff, ne_eq, isAbsolute_iff]
  intro hhead
  obtain ⟨rest, hrest⟩ := List.head?_eq_some_iff.mp hhead
  have hempty : "" ∈ parts (relative cwd path start) := by
    rw [parts_eq, hrest]
    exact List.mem_cons_self
  have hstep : "" ∈ steps (names cwd path) (names cwd start) := by
    rw [steps_eq_filter hcwd]
    exact List.mem_filter.mpr ⟨hempty, by decide⟩
  rcases mem_steps hstep with hup | hname
  · exact absurd hup (by decide)
  · exact ne_empty_of_isName (isName_of_mem_names hcwd path _ hname) rfl

theorem names_join_relative (hcwd : ∀ name ∈ cwd, isName name = true) (path start : String) :
    names cwd (join start (relative cwd path start)) = names cwd path := by
  rw [names_join start (isAbsolute_relative hcwd path start),
    ← foldl_takePart_filter (p := (· ≠ ".")) fun part hpart => .inr (by simpa using hpart),
    ← steps_eq_filter hcwd]
  exact foldl_takePart_steps (isName_of_mem_names hcwd path) _

end Relative

end ContractAudit.Path
