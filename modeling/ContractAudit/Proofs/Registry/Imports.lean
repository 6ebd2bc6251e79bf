import ContractAudit.Proofs.Text.Lines
import ContractAudit.Registry.Import

/-! What imports are taken to do, whatever a module's code does: a module that is loaded stays as it
is, and an import of it gives it. Imports of modules in files do this. What they hold is what a
search finds, and it stays when the search path grows. -/

namespace ContractAudit

namespace Importer

structure Lawful (imp : Importer) : Prop where
  loaded_search : ∀ s dir name, imp.loaded (imp.search s dir) name = imp.loaded s name
  loaded_importing : ∀ s other name n, imp.loaded s name = some n →
    imp.loaded (imp.importing s other).1 name = some n
  importing_loaded : ∀ s name n, imp.loaded s name = some n → (imp.importing s name).2 = .ok n
  loaded_imported : ∀ s name n, (imp.importing s name).2 = .ok n →
    imp.loaded (imp.importing s name).1 name = some n

def Keeps (imp : Importer) (s s' : imp.State) : Prop :=
  ∀ name n, imp.loaded s name = some n → imp.loaded s' name = some n

theorem Keeps.trans {imp : Importer} {s s' s'' : imp.State} (h : imp.Keeps s s')
    (h' : imp.Keeps s' s'') : imp.Keeps s s'' :=
  fun name n hloaded => h' name n (h name n hloaded)

end Importer

namespace Loaded

theorem settle_of_eq_ok {held : Option Loaded} {found : Except ImportFault Loaded} {l : Loaded}
    (h : settle held found = .ok l) : settle (some l) found = .ok l := by
  cases held with
  | none =>
    have hfound : found = .ok l := h
    cases l <;> rw [hfound] <;> rfl
  | some held =>
    cases held with
    | file m =>
      cases h
      rfl
    | package dir m =>
      cases h
      rfl
    | portions old =>
      rcases found with fault | (m | ⟨dir, m⟩ | dirs) <;> cases h <;> rfl

/-- A module that is held stays what it is, whatever a search finds. -/
theorem exists_settle (l : Loaded) (found : Except ImportFault Loaded) :
    ∃ l', settle (some l) found = .ok l' ∧ l'.content = l.content := by
  rcases l with m | ⟨dir, m⟩ | old
  · exact ⟨_, rfl, rfl⟩
  · exact ⟨_, rfl, rfl⟩
  · rcases found with fault | (m | ⟨dir, m⟩ | dirs) <;> exact ⟨_, rfl, rfl⟩

end Loaded

theorem ModuleName.exists_ofText_eq_cons (name : String) :
    ∃ part parents, ofText name = part :: parents := by
  have hne : ofText name ≠ [] := by
    simpa [ofText] using Text.splitAt_ne_nil '.' name.toList
  exact List.exists_cons_of_ne_nil hne

namespace Imports

variable {src : Sources} {i j : Imports}

theorem held?_hold (i : Imports) (name : ModuleName) (l : Loaded) (other : ModuleName) :
    (i.hold name l).held? other = if name = other then some l else i.held? other := by
  unfold hold held?
  by_cases h : name = other <;> simp [h]

/-- To hold what a name stands for changes nothing about any name. -/
theorem look_hold {name : ModuleName} {l : Loaded} (h : i.look src name = .ok l) :
    (i.hold name l).look src = i.look src := by
  funext other
  induction other with
  | nil => rfl
  | cons part parents ih =>
    rw [look, look, ih, held?_hold]
    split
    · -- the name itself: what it was found to stand for settles it again
      next hname =>
      rw [hname, look] at h
      rw [h]
      exact Loaded.settle_of_eq_ok h
    · rfl

theorem look_holdFound (name : ModuleName) : (i.holdFound src name).look src = i.look src := by
  unfold holdFound
  split
  · next hl => exact look_hold hl
  · rfl

theorem look_remember (name : ModuleName) : (i.remember src name).look src = i.look src := by
  induction name with
  | nil => rfl
  | cons part parents ih =>
    unfold remember
    split
    · rfl
    · rw [look_holdFound, ih]

def Keeps (i j : Imports) : Prop :=
  ∀ name l, i.held? name = some l → ∃ l', j.held? name = some l' ∧ l'.content = l.content

theorem Keeps.refl (i : Imports) : i.Keeps i := fun _ l h => ⟨l, h, rfl⟩

theorem Keeps.trans {i j k : Imports} (hij : i.Keeps j) (hjk : j.Keeps k) : i.Keeps k := by
  intro name l h
  obtain ⟨l', h', hcontent⟩ := hij name l h
  obtain ⟨l'', h'', hcontent'⟩ := hjk name l' h'
  exact ⟨l'', h'', hcontent'.trans hcontent⟩

theorem look_of_held (src : Sources) {part : String} {parents : ModuleName} {l : Loaded}
    (h : i.held? (part :: parents) = some l) :
    ∃ l', i.look src (part :: parents) = .ok l' ∧ l'.content = l.content := by
  rw [look, h]
  exact Loaded.exists_settle l _

theorem content_of_held {part : String} {parents : ModuleName} {l l' : Loaded}
    (hheld : i.held? (part :: parents) = some l) (hlook : i.look src (part :: parents) = .ok l') :
    l.content = l'.content := by
  obtain ⟨l'', hlook', hcontent⟩ := look_of_held src hheld
  rw [hlook] at hlook'
  cases hlook'
  exact hcontent.symm

theorem keeps_holdFound (i : Imports) (part : String) (parents : ModuleName) :
    i.Keeps (i.holdFound src (part :: parents)) := by
  unfold holdFound
  split
  · next l hl =>
    intro name held hheld
    rw [held?_hold]
    split
    · next hname =>
      rw [← hname] at hheld
      exact ⟨l, rfl, (content_of_held hheld hl).symm⟩
    · exact ⟨held, hheld, rfl⟩
  · exact .refl i

theorem keeps_remember (i : Imports) (name : ModuleName) : i.Keeps (i.remember src name) := by
  induction name with
  | nil => exact .refl i
  | cons part parents ih =>
    unfold remember
    split
    · exact .refl i
    · exact ih.trans (keeps_holdFound _ part parents)

theorem keeps_importing (src : Sources) (i : Imports) (name : String) :
    i.Keeps (i.importing src name) := by
  unfold importing
  split
  · exact .refl i
  · exact keeps_remember i _

theorem held?_remember {part : String} {parents : ModuleName} {l : Loaded}
    (h : i.look src (part :: parents) = .ok l) :
    ∃ l', (i.remember src (part :: parents)).held? (part :: parents) = some l' ∧
      l'.content = l.content := by
  unfold remember
  split
  · next hfixed =>
    obtain ⟨l', hheld, -⟩ := (Option.any_eq_true _ _).mp hfixed
    exact ⟨l', hheld, content_of_held hheld h⟩
  · have hfound : (i.remember src parents).look src (part :: parents) = .ok l := by
      rw [look_remember, h]
    refine ⟨l, ?_, rfl⟩
    rw [holdFound, hfound, held?_hold, if_pos rfl]

theorem outcome_eq_ok {name : String} {m : ModuleFile} :
    i.outcome src name = .ok m ↔
      name.startsWith "." = false ∧ ∃ l, i.look src (.ofText name) = .ok l ∧ l.content = m := by
  unfold outcome
  cases name.startsWith "." with
  | true => simp
  | false =>
    cases i.look src (.ofText name) with
    | error fault => simp [Except.map]
    | ok l => simp [Except.map]

theorem held?_importing {name : String} {m : ModuleFile} (h : i.outcome src name = .ok m) :
    ∃ l, (i.importing src name).held? (.ofText name) = some l ∧ l.content = m := by
  obtain ⟨part, parents, hname⟩ := ModuleName.exists_ofText_eq_cons name
  obtain ⟨hdot, l, hlook, rfl⟩ := outcome_eq_ok.mp h
  rw [hname] at hlook ⊢
  rw [importing, hname, hdot]
  cases hheld : i.held? (part :: parents) with
  | none => exact held?_remember hlook
  | some l' => exact ⟨l', hheld, content_of_held hheld hlook⟩

theorem loaded_search (i : Imports) (dir name : String) :
    (i.search dir).loaded name = i.loaded name := by
  unfold search
  split <;> rfl

theorem loaded_eq_some {name : String} {n : Namespace} : i.loaded name = some n ↔
    name.startsWith "." = false ∧
      ∃ l, i.held? (.ofText name) = some l ∧ l.content.members name = n := by
  unfold loaded
  cases name.startsWith "." with
  | true => simp
  | false => simp

end Imports

theorem Sources.lawful_importer (src : Sources) : src.importer.Lawful where
  loaded_search := Imports.loaded_search
  loaded_importing i other name n hloaded := by
    obtain ⟨hdot, l, hheld, rfl⟩ := Imports.loaded_eq_some.mp hloaded
    obtain ⟨l', hheld', hcontent⟩ := Imports.keeps_importing src i other _ l hheld
    exact Imports.loaded_eq_some.mpr ⟨hdot, l', hheld', by rw [hcontent]⟩
  importing_loaded i name n hloaded := by
    obtain ⟨hdot, l, hheld, rfl⟩ := Imports.loaded_eq_some.mp hloaded
    obtain ⟨part, parents, hname⟩ := ModuleName.exists_ofText_eq_cons name
    rw [hname] at hheld
    obtain ⟨l', hlook, hcontent⟩ := Imports.look_of_held src hheld
    have houtcome : i.outcome src name = .ok l.content :=
      Imports.outcome_eq_ok.mpr ⟨hdot, l', hname ▸ hlook, hcontent⟩
    simp only [importer, houtcome]
    rfl
  loaded_imported i name n hok := by
    cases houtcome : i.outcome src name with
    | error fault =>
      simp only [importer, houtcome] at hok
      cases hok
    | ok m =>
      simp only [importer, houtcome] at hok
      cases hok
      obtain ⟨hdot, -⟩ := Imports.outcome_eq_ok.mp houtcome
      obtain ⟨l, hheld, hcontent⟩ := Imports.held?_importing houtcome
      exact Imports.loaded_eq_some.mpr ⟨hdot, l, hheld, by rw [hcontent]⟩

end ContractAudit
