import ContractAudit.Proofs.Text.Bytes
import ContractAudit.Tree.Node

/-! Trees that fit a source: every node lies inside the node around it, and the root inside the
source. The nodes on the way down to a visit are visits themselves, in this order, and the text of
each of them has the text of the visit in it. -/

namespace ContractAudit

structure Extent.Within (inner outer : Extent) : Prop where
  start : outer.startByte ≤ inner.startByte
  stop : inner.endByte ≤ outer.endByte

theorem Extent.within_iff {inner outer : Extent} : inner.Within outer ↔
    outer.startByte ≤ inner.startByte ∧ inner.endByte ≤ outer.endByte :=
  ⟨fun h => ⟨h.start, h.stop⟩, fun h => ⟨h.1, h.2⟩⟩

instance (inner outer : Extent) : Decidable (inner.Within outer) :=
  decidable_of_iff _ Extent.within_iff.symm

theorem Extent.Within.refl (e : Extent) : e.Within e := ⟨Int.le_refl _, Int.le_refl _⟩

theorem Extent.Within.trans {a b c : Extent} (hab : a.Within b) (hbc : b.Within c) : a.Within c :=
  ⟨Int.le_trans hbc.start hab.start, Int.le_trans hab.stop hbc.stop⟩

theorem Text.slice_self (t : Text) (i : Int) : t.slice i i = [] :=
  List.drop_of_length_le (List.length_take_le _ _)

theorem Text.slice_append_slice {t : Text} {i j k : Int} (hi : 0 ≤ i) (hij : i ≤ j) (hjk : j ≤ k)
    (hk : k ≤ t.length) : t.slice i j ++ t.slice j k = t.slice i k := by
  obtain ⟨i, rfl⟩ := Int.eq_ofNat_of_zero_le hi
  obtain ⟨j, rfl⟩ := Int.eq_ofNat_of_zero_le (Int.le_trans hi hij)
  obtain ⟨k, rfl⟩ := Int.eq_ofNat_of_zero_le (Int.le_trans hi (Int.le_trans hij hjk))
  have hij : i ≤ j := by omega
  have hjk : j ≤ k := by omega
  have hk : k ≤ t.length := by omega
  have hj : t.drop j = (t.drop i).drop (j - i) := by rw [List.drop_drop, Nat.add_sub_cancel' hij]
  rw [slice_eq_take_drop (Nat.le_trans hjk hk), slice_eq_take_drop hk, slice_eq_take_drop hk, hj,
    ← List.take_add]
  congr 1
  omega

theorem Text.slice_infix_slice {t : Text} {i j k l : Int} (hi : 0 ≤ i) (hij : i ≤ j) (hjk : j ≤ k)
    (hkl : k ≤ l) (hl : l ≤ t.length) : t.slice j k <:+: t.slice i l := by
  have hhead := slice_append_slice hi hij (Int.le_trans hjk hkl) hl
  have htail := slice_append_slice (Int.le_trans hi hij) hjk hkl hl
  exact ⟨t.slice i j, t.slice k l, by rw [List.append_assoc, htail, hhead]⟩

/-- The visits on the way down to the first of the nodes, each of which is followed by its
ancestors. -/
def Visit.downTo : List Node → List Visit
  | [] => []
  | n :: above => downTo above ++ [⟨n, above⟩]

def Visit.path (v : Visit) : List Visit := downTo (v.node :: v.ancestors)

theorem Visit.map_node_downTo (ns : List Node) : (downTo ns).map Visit.node = ns.reverse := by
  induction ns with
  | nil => rfl
  | cons n above ih =>
    rw [downTo, List.map_append, ih, List.reverse_cons]
    rfl

theorem Visit.exists_mem_path {v : Visit} {n : Node} (h : n ∈ v.node :: v.ancestors) :
    ∃ w ∈ v.path, w.node = n := by
  apply List.mem_map.mp
  rw [path, map_node_downTo]
  exact List.mem_reverse.mpr h

theorem Visit.self_mem_path (v : Visit) : v ∈ v.path :=
  List.mem_append_right _ (List.mem_singleton.mpr rfl)

namespace Node

mutual

theorem path_of_mem_visitsUnder (ancestors : List Node) (v : Visit) : (n : Node) →
    v ∈ visitsUnder ancestors n →
    ∃ below, v.path = Visit.downTo ancestors ++ ⟨n, ancestors⟩ :: below ∧
      (⟨n, ancestors⟩ :: below).Sublist (visitsUnder ancestors n)
  | mk kind extent cs, h => by
    rw [visitsUnder] at h ⊢
    rcases List.mem_cons.mp h with rfl | h
    · exact ⟨[], rfl, List.singleton_sublist.mpr List.mem_cons_self⟩
    · obtain ⟨below, hpath, hbelow⟩ := path_of_mem_visitsOfAll _ v cs h
      refine ⟨below, ?_, hbelow.cons_cons _⟩
      rw [hpath, Visit.downTo, List.append_assoc, List.singleton_append]

theorem path_of_mem_visitsOfAll (ancestors : List Node) (v : Visit) : (ns : List Node) →
    v ∈ visitsOfAll ancestors ns →
    ∃ below, v.path = Visit.downTo ancestors ++ below ∧
      below.Sublist (visitsOfAll ancestors ns)
  | n :: ns, h => by
    rw [visitsOfAll] at h ⊢
    rcases List.mem_append.mp h with h | h
    · obtain ⟨below, hpath, hbelow⟩ := path_of_mem_visitsUnder ancestors v n h
      exact ⟨_, hpath, hbelow.trans (List.sublist_append_left _ _)⟩
    · obtain ⟨below, hpath, hbelow⟩ := path_of_mem_visitsOfAll ancestors v ns h
      exact ⟨below, hpath, hbelow.trans (List.sublist_append_right _ _)⟩

end

theorem path_of_mem_visits {root : Node} {v : Visit} (hv : v ∈ root.visits) :
    ⟨root, []⟩ ∈ v.path ∧ v.path.Sublist root.visits := by
  obtain ⟨below, hpath, hbelow⟩ := path_of_mem_visitsUnder [] v root hv
  rw [hpath]
  exact ⟨List.mem_cons_self, hbelow⟩

mutual

theorem child_of_mem_visitsUnder (ancestors : List Node) (v : Visit) : (n : Node) →
    v ∈ visitsUnder ancestors n →
    v = ⟨n, ancestors⟩ ∨ ∃ parent, v.parent? = some parent ∧ v.node ∈ parent.children
  | mk kind extent cs, h => by
    rw [visitsUnder] at h
    rcases List.mem_cons.mp h with rfl | h
    · exact .inl rfl
    · exact .inr (child_of_mem_visitsOfAll (mk kind extent cs) ancestors v cs
        (List.Subset.refl _) h)

theorem child_of_mem_visitsOfAll (above : Node) (ancestors : List Node) (v : Visit) :
    (ns : List Node) → ns ⊆ above.children → v ∈ visitsOfAll (above :: ancestors) ns →
    ∃ parent, v.parent? = some parent ∧ v.node ∈ parent.children
  | n :: ns, hns, h => by
    rw [visitsOfAll] at h
    rcases List.mem_append.mp h with h | h
    · rcases child_of_mem_visitsUnder (above :: ancestors) v n h with rfl | hchild
      · exact ⟨above, rfl, hns List.mem_cons_self⟩
      · exact hchild
    · exact child_of_mem_visitsOfAll above ancestors v ns
        (fun m hm => hns (List.mem_cons_of_mem n hm)) h

end

theorem child_of_mem_visits {root n parent : Node} {above : List Node}
    (h : ⟨n, parent :: above⟩ ∈ root.visits) : n ∈ parent.children := by
  rcases child_of_mem_visitsUnder [] _ root h with heq | ⟨p, hp, hmem⟩
  · cases heq
  · obtain rfl : parent = p := Option.some.inj hp
    exact hmem

theorem visitsOfAll_eq_flatMap (ancestors ns : List Node) :
    visitsOfAll ancestors ns = ns.flatMap (visitsUnder ancestors) := by
  induction ns with
  | nil => rfl
  | cons n ns ih => rw [visitsOfAll, ih, List.flatMap_cons]

theorem self_mem_visitsUnder (ancestors : List Node) (n : Node) :
    ⟨n, ancestors⟩ ∈ visitsUnder ancestors n := by
  cases n
  rw [visitsUnder]
  exact List.mem_cons_self

mutual

theorem mem_visitsUnder_of_child {v : Visit} {c : Node} (hc : c ∈ v.node.children)
    (ancestors : List Node) : (n : Node) → v ∈ visitsUnder ancestors n →
    ⟨c, v.node :: v.ancestors⟩ ∈ visitsUnder ancestors n
  | mk kind extent cs, h => by
    rw [visitsUnder] at h ⊢
    apply List.mem_cons_of_mem
    rcases List.mem_cons.mp h with rfl | h
    · rw [visitsOfAll_eq_flatMap]
      exact List.mem_flatMap.mpr ⟨c, hc, self_mem_visitsUnder _ c⟩
    · exact mem_visitsOfAll_of_child hc _ cs h

theorem mem_visitsOfAll_of_child {v : Visit} {c : Node} (hc : c ∈ v.node.children)
    (ancestors : List Node) : (ns : List Node) → v ∈ visitsOfAll ancestors ns →
    ⟨c, v.node :: v.ancestors⟩ ∈ visitsOfAll ancestors ns
  | n :: ns, h => by
    rw [visitsOfAll] at h ⊢
    rcases List.mem_append.mp h with h | h
    · exact List.mem_append_left _ (mem_visitsUnder_of_child hc ancestors n h)
    · exact List.mem_append_right _ (mem_visitsOfAll_of_child hc ancestors ns h)

end

structure Fits (root : Node) (code : Text) : Prop where
  ordered : ∀ v ∈ root.visits, v.node.extent.startByte ≤ v.node.extent.endByte
  nested : ∀ v ∈ root.visits, ∀ c ∈ v.node.children, c.extent.Within v.node.extent
  start : 0 ≤ root.extent.startByte
  stop : root.extent.endByte ≤ code.length

theorem fits_iff {root : Node} {code : Text} : root.Fits code ↔
    (∀ v ∈ root.visits, v.node.extent.startByte ≤ v.node.extent.endByte) ∧
    (∀ v ∈ root.visits, ∀ c ∈ v.node.children, c.extent.Within v.node.extent) ∧
    0 ≤ root.extent.startByte ∧ root.extent.endByte ≤ code.length :=
  ⟨fun h => ⟨h.ordered, h.nested, h.start, h.stop⟩, fun h => ⟨h.1, h.2.1, h.2.2.1, h.2.2.2⟩⟩

instance (root : Node) (code : Text) : Decidable (root.Fits code) :=
  decidable_of_iff _ fits_iff.symm

section Fits

variable {root : Node} {code : Text} {v w : Visit}

theorem Fits.within_of_mem_downTo (hfits : root.Fits code) {n : Node} {above : List Node}
    (hv : ⟨n, above⟩ ∈ root.visits) (hw : w ∈ Visit.downTo (n :: above)) :
    n.extent.Within w.node.extent := by
  induction above generalizing n with
  | nil =>
    obtain rfl := List.mem_singleton.mp hw
    exact .refl _
  | cons parent above ih =>
    rcases List.mem_append.mp hw with hw | hw
    · have hparent : ⟨parent, above⟩ ∈ root.visits :=
        (path_of_mem_visits hv).2.subset (List.mem_append_left _ (Visit.self_mem_path _))
      have hchild : n.extent.Within parent.extent :=
        hfits.nested _ hparent n (child_of_mem_visits hv)
      exact hchild.trans (ih hparent hw)
    · obtain rfl := List.mem_singleton.mp hw
      exact .refl _

theorem Fits.within (hfits : root.Fits code) (hv : v ∈ root.visits) (hw : w ∈ v.path) :
    v.node.extent.Within w.node.extent :=
  hfits.within_of_mem_downTo hv hw

theorem Fits.inside (hfits : root.Fits code) (hv : v ∈ root.visits) :
    0 ≤ v.node.extent.startByte ∧ v.node.extent.endByte ≤ code.length := by
  have hwithin : v.node.extent.Within root.extent := hfits.within hv (path_of_mem_visits hv).1
  exact ⟨Int.le_trans hfits.start hwithin.start, Int.le_trans hwithin.stop hfits.stop⟩

theorem Fits.text_eq (hfits : root.Fits code) (hv : v ∈ root.visits) :
    v.node.text code = code.slice v.node.extent.startByte v.node.extent.endByte := by
  have hinside := hfits.inside hv
  have hordered := hfits.ordered v hv
  rw [text]
  split
  · next hpast =>
    -- only an empty node can start at the end of the source
    have hempty : v.node.extent.startByte = v.node.extent.endByte := by omega
    rw [hempty, Text.slice_self]
  · rfl

theorem Fits.forwardText_eq (hfits : root.Fits code) (hv : v ∈ root.visits) :
    v.node.forwardText code = v.node.text code := by
  have hinside := hfits.inside hv
  have hordered := hfits.ordered v hv
  rw [hfits.text_eq hv, forwardText]
  split
  · next hrefused =>
    have hempty : v.node.extent.startByte = v.node.extent.endByte := by omega
    rw [hempty, Text.slice_self]
  · rfl

theorem Fits.text_infix (hfits : root.Fits code) (hv : v ∈ root.visits) (hw : w ∈ v.path) :
    v.node.text code <:+: w.node.text code := by
  have hwvisit : w ∈ root.visits := (path_of_mem_visits hv).2.subset hw
  have hwithin := hfits.within hv hw
  rw [hfits.text_eq hv, hfits.text_eq hwvisit]
  exact Text.slice_infix_slice (hfits.inside hwvisit).1 hwithin.start (hfits.ordered v hv)
    hwithin.stop (hfits.inside hwvisit).2

end Fits

end Node
end ContractAudit
