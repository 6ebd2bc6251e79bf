import ContractAudit.Files.Path
import ContractAudit.Text.Newline
import ContractAudit.Text.Utf8

/-! What a directory may hold: files with their bytes, directories with their entries, and links to
other paths. -/

namespace ContractAudit

inductive Entry where
  | file (bytes : Bytes)
  | dir (entries : List (String × Entry))
  | link (target : String)
deriving Repr

namespace Entry

def isDir : Entry → Bool
  | dir _ => true
  | _ => false

def lookup? (entries : List (String × Entry)) (name : String) : Option Entry :=
  (entries.find? (·.1 = name)).map (·.2)

def at? : Entry → List String → Option Entry
  | e, [] => some e
  | dir entries, name :: rest => (lookup? entries name).bind (·.at? rest)
  | _, _ :: _ => none

def insertAt (entry : Entry) : List String → Entry → Entry
  | [], _ => entry
  | name :: rest, dir entries =>
    let child := insertAt entry rest ((lookup? entries name).getD (dir []))
    if entries.any (·.1 = name) then
      dir (entries.map fun e => if e.1 = name then (name, child) else e)
    else dir (entries ++ [(name, child)])
  | _ :: _, e => e

mutual

def isRegular : Entry → Bool
  | file _ => true
  | dir entries => decide (entries.map (·.1)).Nodup && entries.all (Path.isName ·.1) &&
      areRegular entries
  | link target => target ≠ ""

def areRegular : List (String × Entry) → Bool
  | [] => true
  | (_, e) :: rest => isRegular e && areRegular rest

end

mutual

def isLinkFree : Entry → Bool
  | file _ => true
  | dir entries => areLinkFree entries
  | link _ => false

def areLinkFree : List (String × Entry) → Bool
  | [] => true
  | (_, e) :: rest => isLinkFree e && areLinkFree rest

end

mutual

def height : Entry → Nat
  | file _ => 0
  | dir entries => heights entries
  | link _ => 0

def heights : List (String × Entry) → Nat
  | [] => 0
  | (_, e) :: rest => max (height e + 1) (heights rest)

end

theorem mem_of_lookup? {entries : List (String × Entry)} {name : String} {e : Entry}
    (h : lookup? entries name = some e) : (name, e) ∈ entries := by
  obtain ⟨entry, hentry, rfl⟩ := Option.map_eq_some_iff.mp h
  have hname : entry.1 = name := by simpa using List.find?_some hentry
  rw [← hname]
  exact List.mem_of_find?_eq_some hentry

theorem areRegular_iff {entries : List (String × Entry)} :
    areRegular entries = true ↔ ∀ entry ∈ entries, entry.2.isRegular = true := by
  induction entries with
  | nil => simp [areRegular]
  | cons entry rest ih => simp [areRegular, ih]

theorem isRegular_dir_iff {entries : List (String × Entry)} :
    (dir entries).isRegular = true ↔ (entries.map (·.1)).Nodup ∧
      (∀ entry ∈ entries, Path.isName entry.1 = true) ∧
      ∀ entry ∈ entries, entry.2.isRegular = true := by
  rw [isRegular, Bool.and_eq_true, Bool.and_eq_true, areRegular_iff, List.all_eq_true,
    decide_eq_true_iff, and_assoc]

section Regular

variable {entries : List (String × Entry)} {name : String} {child : Entry}

theorem isRegular_replace (h : (dir entries).isRegular = true) (hname : Path.isName name = true)
    (hchild : child.isRegular = true) :
    (dir (entries.map fun x => if x.1 = name then (name, child) else x)).isRegular = true := by
  obtain ⟨hdistinct, hnamed, hregular⟩ := isRegular_dir_iff.mp h
  refine isRegular_dir_iff.mpr ⟨?_, ?_, ?_⟩
  · have hsame : ∀ x ∈ entries, (if x.1 = name then (name, child) else x).1 = x.1 := by
      intro x _
      split
      · next heq => exact heq.symm
      · rfl
    rw [List.map_map]
    exact (List.map_congr_left hsame : List.map (_ ∘ _) entries = _) ▸ hdistinct
  · intro x hx
    obtain ⟨y, hy, rfl⟩ := List.mem_map.mp hx
    split
    · exact hname
    · exact hnamed y hy
  · intro x hx
    obtain ⟨y, hy, rfl⟩ := List.mem_map.mp hx
    split
    · exact hchild
    · exact hregular y hy

theorem isRegular_append (h : (dir entries).isRegular = true) (hname : Path.isName name = true)
    (hchild : child.isRegular = true) (hnew : ¬entries.any (·.1 = name)) :
    (dir (entries ++ [(name, child)])).isRegular = true := by
  obtain ⟨hdistinct, hnamed, hregular⟩ := isRegular_dir_iff.mp h
  refine isRegular_dir_iff.mpr ⟨?_, ?_, ?_⟩
  · rw [List.map_append, List.nodup_append]
    refine ⟨hdistinct, by simp, ?_⟩
    rintro other hother last hlast rfl
    obtain ⟨x, hx, hother⟩ := List.mem_map.mp hother
    have hlast : other = name := List.mem_singleton.mp hlast
    exact hnew (List.any_eq_true.mpr ⟨x, hx, decide_eq_true (hother.trans hlast)⟩)
  · rw [List.forall_mem_append]
    exact ⟨hnamed, List.forall_mem_singleton.mpr hname⟩
  · rw [List.forall_mem_append]
    exact ⟨hregular, List.forall_mem_singleton.mpr hchild⟩

theorem isRegular_insertAt {entry : Entry} (hentry : entry.isRegular = true)
    {names : List String} (hnames : ∀ name ∈ names, Path.isName name = true) {e : Entry}
    (he : e.isRegular = true) : (insertAt entry names e).isRegular = true := by
  induction names generalizing e with
  | nil => exact hentry
  | cons name rest ih =>
    rw [List.forall_mem_cons] at hnames
    cases e with
    | file bytes => exact he
    | link target => exact he
    | dir entries =>
      have hold : ((lookup? entries name).getD (dir [])).isRegular = true := by
        cases hlookup : lookup? entries name with
        | none => rfl
        | some child => exact (isRegular_dir_iff.mp he).2.2 _ (mem_of_lookup? hlookup)
      have hchild := ih hnames.2 hold
      rw [insertAt]
      split
      · exact isRegular_replace he hnames.1 hchild
      · next hnew => exact isRegular_append he hnames.1 hchild hnew

end Regular

end Entry
end ContractAudit
