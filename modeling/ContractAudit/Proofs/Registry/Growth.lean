import ContractAudit.Proofs.Registry.Imports
import ContractAudit.Registry
import Mathlib.Data.List.Forall2
import Mathlib.Data.List.Nodup

/-! The registry under registrations and loads in any order. Each call puts what is new at the end,
and a module that was imported before offers the same classes again. So a repeated load can add
only what a module offers that the earlier load did not import. -/

namespace ContractAudit

namespace Registry

/-- `after` is `before` and then what is new of `offered`, each class once. -/
structure Adds (before offered after : List DetectorClass) : Prop where
  kept : before <+: after
  nodup : before.Nodup → after.Nodup
  mem_iff : ∀ c, c ∈ after ↔ c ∈ before ∨ c ∈ offered

theorem Adds.refl (classes : List DetectorClass) : Adds classes [] classes :=
  ⟨List.prefix_rfl, id, fun c => by simp⟩

theorem Adds.trans {before offered middle more after : List DetectorClass}
    (first : Adds before offered middle) (second : Adds middle more after) :
    Adds before (offered ++ more) after := by
  refine ⟨first.kept.trans second.kept, second.nodup ∘ first.nodup, fun c => ?_⟩
  rw [second.mem_iff, first.mem_iff, List.mem_append, or_assoc]

theorem Adds.eq_of_subset {before offered after : List DetectorClass}
    (h : Adds before offered after) (hnodup : before.Nodup) (hsub : offered ⊆ before) :
    after = before := by
  obtain ⟨new, rfl⟩ := h.kept
  have hnew : new = [] := by
    rw [List.eq_nil_iff_forall_not_mem]
    intro c hc
    have hbefore : c ∈ before :=
      ((h.mem_iff c).mp (List.mem_append_right _ hc)).elim id fun hoffered => hsub hoffered
    exact List.disjoint_of_nodup_append (h.nodup hnodup) hbefore hc
  rw [hnew, List.append_nil]

variable {imp : Importer}

theorem adds_register (r : Registry imp) (c : DetectorClass) :
    Adds r.classes [c] (r.register c).1.classes := by
  unfold register
  split
  · next hmem =>
    have hmem : c ∈ r.classes := by simpa using hmem
    refine ⟨List.prefix_rfl, id, fun x => ⟨.inl, ?_⟩⟩
    rintro (hx | hx)
    · exact hx
    · exact List.mem_singleton.mp hx ▸ hmem
  · next hnew =>
    have hnew : c ∉ r.classes := by simpa using hnew
    refine ⟨List.prefix_append _ _, fun hnodup => ?_, fun x => List.mem_append⟩
    exact List.nodup_append.mpr ⟨hnodup, List.nodup_singleton c, fun a ha b hb hab =>
      hnew (List.mem_singleton.mp hb ▸ hab ▸ ha)⟩

theorem imports_register (r : Registry imp) (c : DetectorClass) :
    (r.register c).1.imports = r.imports := by
  unfold register
  split <;> rfl

theorem adds_registerAll (r : Registry imp) (offered : List DetectorClass) :
    Adds r.classes offered (r.registerAll offered).1.classes := by
  induction offered generalizing r with
  | nil => exact .refl _
  | cons c rest ih => exact (adds_register r c).trans (ih (r.register c).1)

theorem imports_registerAll (r : Registry imp) (offered : List DetectorClass) :
    (r.registerAll offered).1.imports = r.imports := by
  induction offered generalizing r with
  | nil => rfl
  | cons c rest ih => exact (ih (r.register c).1).trans (imports_register r c)

def Attempt.offers (a : Attempt) : List DetectorClass :=
  match a.result with
  | .ok m => m.offers
  | .error _ => []

theorem imports_registerFound (r : Registry imp) (found : List Attempt) :
    (r.registerFound found).registry.imports = r.imports := by
  induction found generalizing r with
  | nil => rfl
  | cons a rest ih =>
    obtain ⟨c, fault | m⟩ := a
    · rw [registerFound]
      split
      · exact ih r
      · rfl
    · exact (ih _).trans (imports_registerAll r _)

/-- The search ends at the last attempt, if at all, so nothing that was imported is left out. -/
theorem adds_registerFound (s : imp.State) (cs : List Candidate) (r : Registry imp) :
    Adds r.classes ((attemptAll imp s cs).2.flatMap Attempt.offers)
      (r.registerFound (attemptAll imp s cs).2).registry.classes := by
  induction cs generalizing s r with
  | nil => exact .refl _
  | cons c rest ih =>
    rw [attemptAll]
    rcases imp.importing s c.moduleName with ⟨s, (message | kind | name) | n⟩
    · exact ih s r
    · exact .refl _
    · exact .refl _
    · exact (adds_registerAll r n.offers).trans (ih s _)

section Attempts

variable {s : imp.State} {cs : List Candidate} {k : Candidate} {n n' : Namespace}

theorem keeps_attemptAll (h : imp.Lawful) (s : imp.State) (cs : List Candidate) :
    imp.Keeps s (attemptAll imp s cs).1 := by
  induction cs generalizing s with
  | nil => exact fun _ _ hloaded => hloaded
  | cons c rest ih =>
    rw [attemptAll]
    dsimp only
    split
    · exact h.loaded_importing s c.moduleName
    · exact Importer.Keeps.trans (h.loaded_importing s c.moduleName) (ih _)

theorem loaded_of_attempt (h : imp.Lawful) (hattempt : ⟨k, .ok n⟩ ∈ (attemptAll imp s cs).2) :
    imp.loaded (attemptAll imp s cs).1 k.moduleName = some n := by
  induction cs generalizing s with
  | nil => cases hattempt
  | cons c rest ih =>
    rw [attemptAll] at hattempt ⊢
    dsimp only at hattempt ⊢
    rcases List.mem_cons.mp hattempt with hhead | htail
    · injection hhead with hcandidate hresult
      subst hcandidate
      have hloaded := h.loaded_imported s k.moduleName n hresult.symm
      split
      · exact hloaded
      · exact keeps_attemptAll h _ rest _ _ hloaded
    · split at htail
      · cases htail
      · next hends =>
        rw [if_neg hends]
        exact ih htail

theorem eq_of_attempt (h : imp.Lawful) (hloaded : imp.loaded s k.moduleName = some n)
    (hattempt : ⟨k, .ok n'⟩ ∈ (attemptAll imp s cs).2) : n' = n := by
  induction cs generalizing s with
  | nil => cases hattempt
  | cons c rest ih =>
    rw [attemptAll] at hattempt
    dsimp only at hattempt
    rcases List.mem_cons.mp hattempt with hhead | htail
    · injection hhead with hcandidate hresult
      subst hcandidate
      rw [h.importing_loaded s k.moduleName n hloaded] at hresult
      exact Except.ok.inj hresult
    · split at htail
      · cases htail
      · exact ih (h.loaded_importing s c.moduleName _ _ hloaded) htail

theorem candidate_of_attempt {a : Attempt} (h : a ∈ (attemptAll imp s cs).2) :
    a.candidate ∈ cs := by
  induction cs generalizing s with
  | nil => cases h
  | cons c rest ih =>
    rw [attemptAll] at h
    rcases List.mem_cons.mp h with rfl | htail
    · exact List.mem_cons_self
    · split at htail
      · cases htail
      · exact List.mem_cons_of_mem _ (ih htail)

end Attempts

/-- What other code does between calls. It leaves the modules that are loaded as they are. -/
structure Change (imp : Importer) where
  apply : imp.State → imp.State
  keeps : ∀ s, imp.Keeps s (apply s)

inductive Call (imp : Importer) where
  | register (c : DetectorClass)
  | load (files : FileSystem) (dir : String)
  | meanwhile (change : Change imp)

def call (r : Registry imp) : Call imp → Registry imp
  | .register c => (r.register c).1
  | .load files dir => (r.load files dir).registry
  | .meanwhile change => { r with imports := change.apply r.imports }

def after (imports : imp.State) (calls : List (Call imp)) : Registry imp :=
  calls.foldl call (initial imports)

def found (r : Registry imp) (files : FileSystem) (dir : String) : List DetectorClass :=
  (r.attempts files dir).2.flatMap Attempt.offers

theorem attempts_eq_nil {files : FileSystem} {dir : String} (r : Registry imp)
    (h : files.isDirAt (spelled (leading dir) (parts dir)) = false) :
    (r.attempts files dir).2 = [] := by
  have hnone : files.listed (spelled (leading dir) (parts dir)) = [] := by
    unfold FileSystem.isDirAt at h
    unfold FileSystem.listed
    split
    · next hdir =>
      rw [hdir] at h
      cases h
    · rfl
  unfold attempts candidates
  rw [hnone]
  rfl

theorem adds_load (r : Registry imp) (files : FileSystem) (dir : String) :
    Adds r.classes (r.found files dir) (r.load files dir).registry.classes := by
  unfold found load
  split
  · exact adds_registerFound _ _ { r with imports := (r.attempts files dir).1 }
  · next hdir =>
    rw [attempts_eq_nil r (by simpa using hdir)]
    exact .refl _

theorem imports_load (r : Registry imp) (files : FileSystem) (dir : String) :
    (r.load files dir).registry.imports =
      if files.isDirAt (spelled (leading dir) (parts dir)) then (r.attempts files dir).1
      else r.imports := by
  unfold load
  split
  · exact imports_registerFound _ _
  · rfl

structure Grows (r r' : Registry imp) : Prop where
  kept : r.classes <+: r'.classes
  nodup : r.classes.Nodup → r'.classes.Nodup
  imported : imp.Lawful → imp.Keeps r.imports r'.imports

theorem Grows.refl (r : Registry imp) : r.Grows r := ⟨List.prefix_rfl, id, fun _ _ _ => id⟩

theorem Grows.trans {r r' r'' : Registry imp} (h : r.Grows r') (h' : r'.Grows r'') :
    r.Grows r'' :=
  ⟨h.kept.trans h'.kept, h'.nodup ∘ h.nodup, fun hlaws => (h.imported hlaws).trans
    (h'.imported hlaws)⟩

theorem grows_call (r : Registry imp) (c : Call imp) : r.Grows (r.call c) := by
  cases c with
  | register c =>
    have hadds := adds_register r c
    refine ⟨hadds.kept, hadds.nodup, fun _ => ?_⟩
    rw [call, imports_register]
    exact fun _ _ => id
  | load files dir =>
    have hadds := adds_load r files dir
    refine ⟨hadds.kept, hadds.nodup, fun hlaws => ?_⟩
    rw [call, imports_load]
    split
    · intro name n hloaded
      rw [← hlaws.loaded_search _ (above dir)] at hloaded
      exact keeps_attemptAll hlaws _ _ name n hloaded
    · exact fun _ _ => id
  | meanwhile change => exact ⟨List.prefix_rfl, id, fun _ => change.keeps _⟩

theorem grows_calls (r : Registry imp) (calls : List (Call imp)) :
    r.Grows (calls.foldl call r) := by
  induction calls generalizing r with
  | nil => exact .refl r
  | cons c rest ih => exact (grows_call r c).trans (ih (r.call c))

theorem mem_found {r : Registry imp} {files : FileSystem} {dir : String} {c : DetectorClass} :
    c ∈ r.found files dir ↔ ∃ k n, ⟨k, .ok n⟩ ∈ (r.attempts files dir).2 ∧ c ∈ n.offers := by
  unfold found
  rw [List.mem_flatMap]
  constructor
  · rintro ⟨⟨k, fault | n⟩, ha, hc⟩
    · cases hc
    · exact ⟨k, n, ha, hc⟩
  · rintro ⟨k, n, ha, hc⟩
    exact ⟨_, ha, hc⟩

theorem baseClass_notMem_offers (n : Namespace) : baseClass ∉ n.offers := by
  intro h
  obtain ⟨⟨name, c⟩, hmem, rfl⟩ := List.mem_map.mp h
  have hother := (List.mem_filter.mp (List.mem_mergeSort.mp hmem)).2
  simp at hother

section Calls

variable {imports : imp.State} {before between : List (Call imp)} {files files' : FileSystem}
  {dir : String}

theorem after_append (imports : imp.State) (calls more : List (Call imp)) :
    after imports (calls ++ more) = more.foldl call (after imports calls) := List.foldl_append

theorem nodup_after (imports : imp.State) (calls : List (Call imp)) :
    (after imports calls).classes.Nodup :=
  (grows_calls (initial imports) calls).nodup (show builtinClasses.Nodup by decide)

theorem after_load (imports : imp.State) (before : List (Call imp)) (files : FileSystem)
    (dir : String) (between : List (Call imp)) :
    after imports (before ++ .load files dir :: between) =
      between.foldl call ((after imports before).call (.load files dir)) := by
  rw [after_append, List.foldl_cons]

theorem mem_of_registered {calls : List (Call imp)} {c : DetectorClass}
    (h : .register c ∈ calls) : c ∈ (after imports calls).classes := by
  obtain ⟨before, between, rfl⟩ := List.append_of_mem h
  have hregistered : c ∈ ((after imports before).call (.register c)).classes :=
    ((adds_register _ c).mem_iff c).mpr (.inr List.mem_cons_self)
  rw [after_append]
  exact (grows_calls _ between).kept.subset hregistered

theorem register_repeated {calls : List (Call imp)} {c : DetectorClass}
    (h : .register c ∈ calls) :
    ((after imports calls).register c).1.classes = (after imports calls).classes := by
  refine (adds_register _ c).eq_of_subset (nodup_after imports calls) fun x hx => ?_
  exact List.mem_singleton.mp hx ▸ mem_of_registered h

/-- A module that was imported in a load offers nothing new when the load is repeated. -/
theorem mem_of_imported (h : imp.Lawful) {k : Candidate} {n n' : Namespace}
    (hnow : ⟨k, .ok n⟩ ∈
      ((after imports (before ++ .load files dir :: between)).attempts files' dir).2)
    (hthen : ⟨k, .ok n'⟩ ∈ ((after imports before).attempts files dir).2) {c : DetectorClass}
    (hc : c ∈ n.offers) : c ∈ (after imports (before ++ .load files dir :: between)).classes := by
  rw [after_load] at hnow ⊢
  have hdir : files.isDirAt (spelled (leading dir) (parts dir)) = true := by
    by_contra hdir
    rw [attempts_eq_nil _ (by simpa using hdir)] at hthen
    cases hthen
  have hgrows := grows_calls ((after imports before).call (.load files dir)) between
  have hfirst : ((after imports before).call (.load files dir)).imports =
      ((after imports before).attempts files dir).1 := by
    rw [call, imports_load, if_pos hdir]
  have hloaded : imp.loaded ((after imports before).call (.load files dir)).imports k.moduleName =
      some n' := by
    rw [hfirst]
    exact loaded_of_attempt h hthen
  have hstill := hgrows.imported h _ _ hloaded
  rw [← h.loaded_search _ (above dir)] at hstill
  rw [eq_of_attempt h hstill hnow] at hc
  have hadded : c ∈ ((after imports before).call (.load files dir)).classes :=
    ((adds_load _ files dir).mem_iff c).mpr (.inr (mem_found.mpr ⟨k, n', hthen, hc⟩))
  exact hgrows.kept.subset hadded

theorem new_of_load_repeated (h : imp.Lawful) {c : DetectorClass}
    (hc : c ∈ ((after imports (before ++ .load files dir :: between)).load
      files' dir).registry.classes)
    (hnew : c ∉ (after imports (before ++ .load files dir :: between)).classes) :
    ∃ k n, ⟨k, .ok n⟩ ∈
        ((after imports (before ++ .load files dir :: between)).attempts files' dir).2 ∧
      c ∈ n.offers ∧ ∀ n', ⟨k, .ok n'⟩ ∉ ((after imports before).attempts files dir).2 := by
  rcases ((adds_load _ files' dir).mem_iff c).mp hc with hold | hfound
  · exact absurd hold hnew
  · obtain ⟨k, n, hnow, hoffer⟩ := mem_found.mp hfound
    exact ⟨k, n, hnow, hoffer, fun n' hthen => hnew (mem_of_imported h hnow hthen hoffer)⟩

theorem load_repeated (h : imp.Lawful)
    (himported : ∀ k ∈ candidates files' dir, ∃ n,
      ⟨k, .ok n⟩ ∈ ((after imports before).attempts files dir).2) :
    ((after imports (before ++ .load files dir :: between)).load files' dir).registry.classes =
      (after imports (before ++ .load files dir :: between)).classes := by
  refine (adds_load _ files' dir).eq_of_subset (nodup_after imports _) fun c hc => ?_
  obtain ⟨k, n, hnow, hoffer⟩ := mem_found.mp hc
  obtain ⟨n', hthen⟩ := himported k (candidate_of_attempt hnow)
  exact mem_of_imported h hnow hthen hoffer

end Calls

end Registry

theorem mapM_eq_ok_iff {α β : Type} {f : α → Except String β} {as : List α} {bs : List β} :
    as.mapM f = .ok bs ↔ List.Forall₂ (fun a b => f a = .ok b) as bs := by
  induction as generalizing bs with
  | nil =>
    rw [List.mapM_nil, List.forall₂_nil_left_iff]
    exact ⟨fun h => (Except.ok.inj h).symm, fun h => congrArg Except.ok h.symm⟩
  | cons a as ih =>
    rw [List.mapM_cons, List.forall₂_cons_left_iff]
    cases f a with
    | error message => simp [bind, Except.bind]
    | ok b =>
      simp only [← ih]
      cases as.mapM f with
      | error message => simp [bind, Except.bind]
      | ok bs => simp [bind, Except.bind, pure, Except.pure, eq_comm]

theorem exists_forall₂_iff {α β : Type} {R : α → β → Prop} {as : List α} :
    (∃ bs, List.Forall₂ R as bs) ↔ ∀ a ∈ as, ∃ b, R a b := by
  induction as with
  | nil => simp
  | cons a as ih =>
    rw [List.forall_mem_cons, ← ih]
    constructor
    · rintro ⟨_, h⟩
      obtain ⟨b, bs, hb, hbs, -⟩ := List.forall₂_cons_left_iff.mp h
      exact ⟨⟨b, hb⟩, bs, hbs⟩
    · rintro ⟨⟨b, hb⟩, bs, hbs⟩
      exact ⟨b :: bs, .cons hb hbs⟩

namespace Registry

variable {imp : Importer}

theorem analyzer_eq_ok {r : Registry imp} {outside : DetectorClass → Except String Detector}
    {a : Analyzer} :
    r.analyzer outside = .ok a ↔
      List.Forall₂ (fun c d => c.detector outside = .ok d) r.classes a.detectors := by
  rw [← mapM_eq_ok_iff, analyzer]
  cases r.classes.mapM (DetectorClass.detector outside) with
  | error message => simp [Except.map]
  | ok ds =>
    simp only [Except.map, Except.ok.injEq]
    exact ⟨fun h => congrArg Analyzer.detectors h, fun h => congrArg Analyzer.mk h⟩

/-- The registry under any calls: no class is there twice, later classes come behind earlier ones,
the built-in ones first, a load adds what its modules offer and never the base class, and an
analyzer has one detector of each class that is registered when it is made. A repeated registration
adds nothing. A repeated load adds only what modules offer that the earlier load did not import, and
nothing if it imported them all. -/
theorem classes_only_grow (h : imp.Lawful) (imports : imp.State) (calls : List (Call imp)) :
    let r := after imports calls
    r.classes.Nodup ∧ builtinClasses <+: r.classes ∧
    (∀ more, r.classes <+: (after imports (calls ++ more)).classes) ∧
    (∀ files dir c, c ∈ (r.load files dir).registry.classes ↔
      c ∈ r.classes ∨ c ∈ r.found files dir) ∧
    (∀ files dir, baseClass ∈ (r.load files dir).registry.classes → baseClass ∈ r.classes) ∧
    (∀ c, .register c ∈ calls → c ∈ r.classes ∧ (r.register c).1.classes = r.classes) ∧
    (∀ before files dir between, calls = before ++ .load files dir :: between → ∀ files',
      ((∀ k ∈ candidates files' dir, ∃ n,
          ⟨k, .ok n⟩ ∈ ((after imports before).attempts files dir).2) →
        (r.load files' dir).registry.classes = r.classes) ∧
      ∀ c ∈ (r.load files' dir).registry.classes, c ∉ r.classes →
        ∃ k n, ⟨k, .ok n⟩ ∈ (r.attempts files' dir).2 ∧ c ∈ n.offers ∧
          ∀ n', ⟨k, .ok n'⟩ ∉ ((after imports before).attempts files dir).2) ∧
    ∀ outside,
      (∀ a, r.analyzer outside = .ok a →
        List.Forall₂ (fun c d => c.detector outside = .ok d) r.classes a.detectors) ∧
      ((∃ a, r.analyzer outside = .ok a) ↔
        ∀ c ∈ r.classes, ∃ d, c.detector outside = .ok d) := by
  intro r
  refine ⟨nodup_after imports calls, (grows_calls (initial imports) calls).kept, fun more => ?_,
    fun files dir => (adds_load r files dir).mem_iff, fun files dir hbase => ?_,
    fun c hc => ⟨mem_of_registered hc, register_repeated hc⟩, ?_,
    fun outside => ⟨fun a => analyzer_eq_ok.mp, ?_⟩⟩
  · rw [after_append]
    exact (grows_calls r more).kept
  · rcases ((adds_load r files dir).mem_iff baseClass).mp hbase with hold | hfound
    · exact hold
    · obtain ⟨k, n, -, hc⟩ := mem_found.mp hfound
      exact absurd hc (baseClass_notMem_offers n)
  · rintro before files dir between rfl files'
    exact ⟨load_repeated h, fun c => new_of_load_repeated h⟩
  · rw [← exists_forall₂_iff]
    constructor
    · rintro ⟨a, ha⟩
      exact ⟨a.detectors, analyzer_eq_ok.mp ha⟩
    · rintro ⟨ds, hds⟩
      exact ⟨⟨ds⟩, analyzer_eq_ok.mpr hds⟩

/-- Detectors in a directory with a dot in its name, and others at the place that this name leads to
from another directory. -/
def audits : Sources where
  files := .ofRoot
    (.dir [
      ("audits.v1", .dir [("m.py", .file [])]),
      ("lib", .dir [("audits", .dir [("v1", .dir [("m.py", .file [])])])])])
    [] (by decide +kernel)
  modules := [
    ("audits.v1/m.py", ⟨[("Old", some "BaseDetector")], [], none⟩),
    ("lib/audits/v1/m.py", ⟨[("New", some "BaseDetector")], [], none⟩)]

def noAudits : audits.importer.State := Imports.none

def auditLoads : List (Call audits.importer) :=
  [.load audits.files "audits.v1", .load audits.files "lib/audits"]

/-- The class that the repeated load adds is that of a module that the first one did not import. -/
theorem classes_only_grow_audits :
    let r := after noAudits auditLoads
    r.classes.Nodup ∧ ∃ c ∈ (r.load audits.files "audits.v1").registry.classes, c ∉ r.classes ∧
      ∃ k n, ⟨k, .ok n⟩ ∈ (r.attempts audits.files "audits.v1").2 ∧ c ∈ n.offers ∧
        ∀ n', ⟨k, .ok n'⟩ ∉
          ((after noAudits []).attempts audits.files "audits.v1").2 := by
  intro r
  obtain ⟨hnodup, -, -, -, -, -, hrepeated, -⟩ :=
    classes_only_grow audits.lawful_importer noAudits auditLoads
  have hadded : (⟨"New", .inModule "audits.v1.m", 0⟩ : DetectorClass) ∈
      (r.load audits.files "audits.v1").registry.classes := by decide +kernel
  have hnew : (⟨"New", .inModule "audits.v1.m", 0⟩ : DetectorClass) ∉ r.classes := by
    decide +kernel
  exact ⟨hnodup, _, hadded, hnew,
    (hrepeated [] audits.files "audits.v1" _ rfl audits.files).2 _ hadded hnew⟩

/-- Two modules of which the first needs the second to be imported before it. -/
def siblings : Importer where
  State := List String
  loaded s name := if s.contains name then some [(name, ⟨name, .inModule name, 0⟩)] else none
  search s _ := s
  importing s name :=
    if name = "p.a" && !s.contains "p.a" && !s.contains "q.y" then
      (s, .error (.unusable "module 'q' has no attribute 'y'"))
    else (name :: s, .ok [(name, ⟨name, .inModule name, 0⟩)])

def noSiblings : siblings.State := ([] : List String)

theorem lawful_siblings : siblings.Lawful where
  loaded_search _ _ _ := rfl
  loaded_importing (s : List String) other name n hloaded := by
    simp only [siblings] at hloaded ⊢
    split
    · exact hloaded
    · rw [← hloaded]
      split at hloaded
      · next hmem => simp [List.mem_of_elem_eq_true hmem]
      · cases hloaded
  importing_loaded (s : List String) name n hloaded := by
    simp only [siblings] at hloaded ⊢
    split at hloaded
    · next hmem =>
      cases hloaded
      rw [if_neg]
      rintro hneeds
      simp at hneeds hmem
      exact hneeds.1.2 (hneeds.1.1 ▸ hmem)
    · cases hloaded
  loaded_imported (s : List String) name n hok := by
    simp only [siblings] at hok ⊢
    split at hok
    · cases hok
    · next hready =>
      cases hok
      rw [if_neg hready]
      simp

def siblingFiles : FileSystem :=
  .ofRoot (.dir [("p", .dir [("a.py", .file [])]), ("q", .dir [("y.py", .file [])])])
    [] (by decide +kernel)

/-- A repeated load can add a class: at first there is no module of the name, and the load in
between puts one on the search path. Or the module needs another one, which the load in between
imports, with the search path as it was. -/
theorem not_repeated_call_adds_nothing :
    (¬∀ (calls : List (Call audits.importer)) (c : Call audits.importer), c ∈ calls →
      (after noAudits (calls ++ [c])).classes = (after noAudits calls).classes) ∧
    siblings.Lawful ∧
    ¬∀ (calls : List (Call siblings)) (c : Call siblings), c ∈ calls →
      (after noSiblings (calls ++ [c])).classes = (after noSiblings calls).classes := by
  refine ⟨fun h => ?_, lawful_siblings, fun h => ?_⟩
  · have hsame := h auditLoads (.load audits.files "audits.v1") List.mem_cons_self
    revert hsame
    decide +kernel
  · have hsame := h [.load siblingFiles "p", .load siblingFiles "q"] (.load siblingFiles "p")
      List.mem_cons_self
    revert hsame
    decide +kernel

end Registry
end ContractAudit
