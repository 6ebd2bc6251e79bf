import ContractAudit.Proofs.Text.Lines
import ContractAudit.Tree.Node

/-! A tree moved to another place of a longer text: all offsets grow by one number and all rows
by another. The text of every node stays the same, and visits, children and ancestors are those
of the tree before the move. -/

namespace ContractAudit

def Extent.shift (bytes rows : Int) (e : Extent) : Extent :=
  ⟨e.startByte + bytes, e.endByte + bytes, e.startRow + rows, e.endRow + rows⟩

namespace Node

mutual

def shift (bytes rows : Int) : Node → Node
  | mk kind extent children => mk kind (extent.shift bytes rows) (shiftAll bytes rows children)

def shiftAll (bytes rows : Int) : List Node → List Node
  | [] => []
  | n :: ns => shift bytes rows n :: shiftAll bytes rows ns

end

theorem shiftAll_eq_map (bytes rows : Int) (ns : List Node) :
    shiftAll bytes rows ns = ns.map (shift bytes rows) := by
  induction ns with
  | nil => rfl
  | cons n ns ih => rw [shiftAll, ih, List.map_cons]

@[simp] theorem kind_shift (bytes rows : Int) (n : Node) : (n.shift bytes rows).kind = n.kind := by
  cases n
  rfl

@[simp] theorem extent_shift (bytes rows : Int) (n : Node) :
    (n.shift bytes rows).extent = n.extent.shift bytes rows := by
  cases n
  rfl

@[simp] theorem children_shift (bytes rows : Int) (n : Node) :
    (n.shift bytes rows).children = n.children.map (shift bytes rows) := by
  cases n
  exact shiftAll_eq_map bytes rows _

theorem firstLine_shift (bytes rows : Int) (n : Node) :
    (n.shift bytes rows).firstLine = n.firstLine + rows := by
  simp only [firstLine, extent_shift, Extent.shift]
  omega

theorem lastLine_shift (bytes rows : Int) (n : Node) :
    (n.shift bytes rows).lastLine = n.lastLine + rows := by
  simp only [lastLine, extent_shift, Extent.shift]
  omega

theorem rowSpan_shift (bytes rows : Int) (n : Node) :
    (n.shift bytes rows).rowSpan = (n.rowSpan.1 + rows, n.rowSpan.2 + rows) := by
  simp only [rowSpan, extent_shift, Extent.shift]

theorem find?_map_shift (bytes rows : Int) (test : String → Bool) (ns : List Node) :
    (ns.map (shift bytes rows)).find? (fun n => test n.kind) =
      (ns.find? fun n => test n.kind).map (shift bytes rows) := by
  simp only [List.find?_map, Function.comp_def, kind_shift]

theorem childOfKind?_shift (bytes rows : Int) (n : Node) (kind : String) :
    (n.shift bytes rows).childOfKind? kind = (n.childOfKind? kind).map (shift bytes rows) := by
  rw [childOfKind?, children_shift]
  exact find?_map_shift bytes rows (fun k => decide (k = kind)) n.children

def Located (n : Node) : Prop := 0 ≤ n.extent.startByte ∧ 0 ≤ n.extent.endByte

theorem text_shift {n : Node} (h : n.Located) (p code : Text) (rows : Int) :
    (n.shift p.length rows).text (p ++ code) = n.text code := by
  have hguard : ((n.extent.shift p.length rows).startByte ≥ (p ++ code).length ∨
      (n.extent.shift p.length rows).endByte > (p ++ code).length) ↔
      (n.extent.startByte ≥ code.length ∨ n.extent.endByte > code.length) := by
    simp only [Extent.shift, List.length_append]
    omega
  simp only [text, extent_shift, hguard]
  rw [Extent.shift, Text.slice_append p code h.1 h.2]

theorem forwardText_shift {n : Node} (h : n.Located) (p code : Text) (rows : Int) :
    (n.shift p.length rows).forwardText (p ++ code) = n.forwardText code := by
  have hguard : ((n.extent.shift p.length rows).startByte < 0 ∨
      (n.extent.shift p.length rows).endByte > (p ++ code).length ∨
      (n.extent.shift p.length rows).startByte ≥ (n.extent.shift p.length rows).endByte) ↔
      (n.extent.startByte < 0 ∨ n.extent.endByte > code.length ∨
        n.extent.startByte ≥ n.extent.endByte) := by
    obtain ⟨hstart, hend⟩ := h
    simp only [Extent.shift, List.length_append]
    omega
  simp only [forwardText, extent_shift, hguard]
  rw [Extent.shift, Text.slice_append p code h.1 h.2]

mutual

def All (P : Node → Prop) : Node → Prop
  | n@(mk _ _ cs) => P n ∧ AllOf P cs

def AllOf (P : Node → Prop) : List Node → Prop
  | [] => True
  | n :: ns => All P n ∧ AllOf P ns

end

theorem allOf_iff (P : Node → Prop) (ns : List Node) : AllOf P ns ↔ ∀ n ∈ ns, n.All P := by
  induction ns with
  | nil => simp only [AllOf, List.not_mem_nil, false_implies, implies_true]
  | cons n ns ih => rw [AllOf, ih, List.forall_mem_cons]

theorem All.self {P : Node → Prop} {n : Node} (h : n.All P) : P n := by
  cases n
  rw [All] at h
  exact h.1

theorem All.child {P : Node → Prop} {n c : Node} (h : n.All P) (hc : c ∈ n.children) :
    c.All P := by
  cases n
  rw [All] at h
  exact (allOf_iff P _).mp h.2 c hc

mutual

theorem all_of_visitsUnder {P : Node → Prop} (ancestors : List Node) :
    (n : Node) → (∀ v ∈ visitsUnder ancestors n, P v.node) → n.All P
  | mk kind extent cs, h => by
    rw [visitsUnder, List.forall_mem_cons] at h
    rw [All]
    exact ⟨h.1, allOf_of_visitsOfAll _ cs h.2⟩

theorem allOf_of_visitsOfAll {P : Node → Prop} (ancestors : List Node) :
    (ns : List Node) → (∀ v ∈ visitsOfAll ancestors ns, P v.node) → AllOf P ns
  | [], _ => trivial
  | n :: ns, h => by
    rw [visitsOfAll, List.forall_mem_append] at h
    rw [AllOf]
    exact ⟨all_of_visitsUnder ancestors n h.1, allOf_of_visitsOfAll ancestors ns h.2⟩

end

end Node

namespace Visit

def shift (bytes rows : Int) (v : Visit) : Visit :=
  ⟨v.node.shift bytes rows, v.ancestors.map (Node.shift bytes rows)⟩

@[simp] theorem node_shift (bytes rows : Int) (v : Visit) :
    (v.shift bytes rows).node = v.node.shift bytes rows := rfl

def Located (v : Visit) : Prop :=
  v.node.All Node.Located ∧ ∀ a ∈ v.ancestors, a.All Node.Located

theorem parent?_shift (bytes rows : Int) (v : Visit) :
    (v.shift bytes rows).parent? = v.parent?.map (Node.shift bytes rows) := by
  simp only [parent?, shift, List.head?_map]

theorem grandparent?_shift (bytes rows : Int) (v : Visit) :
    (v.shift bytes rows).grandparent? = v.grandparent?.map (Node.shift bytes rows) := by
  simp only [grandparent?, shift, ← List.map_tail, List.head?_map]

theorem enclosingFunction?_shift (bytes rows : Int) (v : Visit) :
    (v.shift bytes rows).enclosingFunction? = v.enclosingFunction?.map (Node.shift bytes rows) := by
  rw [enclosingFunction?_eq_find?, enclosingFunction?_eq_find?]
  exact Node.find?_map_shift bytes rows (fun k => decide (k = "function_item"))
    (v.node :: v.ancestors)

theorem enclosingItem?_shift (bytes rows : Int) (v : Visit) :
    (v.shift bytes rows).enclosingItem? = v.enclosingItem?.map (Node.shift bytes rows) := by
  exact Node.find?_map_shift bytes rows
    (fun k => decide (k ∈ ["function_item", "impl_item", "method_item"])) v.ancestors

theorem Located.parent {v : Visit} (h : v.Located) {n : Node} (hn : v.parent? = some n) :
    n.All Node.Located := h.2 n (List.mem_of_head? hn)

theorem Located.grandparent {v : Visit} (h : v.Located) {n : Node}
    (hn : v.grandparent? = some n) : n.All Node.Located :=
  h.2 n (List.mem_of_mem_tail (List.mem_of_head? hn))

theorem Located.enclosingFunction {v : Visit} (h : v.Located) {n : Node}
    (hn : v.enclosingFunction? = some n) : n.All Node.Located := by
  rw [enclosingFunction?_eq_find?] at hn
  rcases List.mem_cons.mp (List.mem_of_find?_eq_some hn) with rfl | hn
  · exact h.1
  · exact h.2 n hn

theorem Located.enclosingItem {v : Visit} (h : v.Located) {n : Node}
    (hn : v.enclosingItem? = some n) : n.All Node.Located :=
  h.2 n (List.mem_of_find?_eq_some hn)

end Visit

namespace Node

mutual

theorem visitsUnder_shift (bytes rows : Int) (ancestors : List Node) : (n : Node) →
    visitsUnder (ancestors.map (shift bytes rows)) (n.shift bytes rows) =
      (visitsUnder ancestors n).map (Visit.shift bytes rows)
  | mk kind extent cs => by
    -- the node is an ancestor of what is below it, and moves there too
    have ih := visitsOfAll_shift bytes rows (mk kind extent cs :: ancestors) cs
    rw [List.map_cons, shift] at ih
    rw [shift, visitsUnder, visitsUnder, List.map_cons, ih, Visit.shift, shift]

theorem visitsOfAll_shift (bytes rows : Int) (ancestors : List Node) : (ns : List Node) →
    visitsOfAll (ancestors.map (shift bytes rows)) (shiftAll bytes rows ns) =
      (visitsOfAll ancestors ns).map (Visit.shift bytes rows)
  | [] => rfl
  | n :: ns => by
    rw [shiftAll, visitsOfAll, visitsOfAll, List.map_append,
      visitsUnder_shift bytes rows ancestors n, visitsOfAll_shift bytes rows ancestors ns]

end

theorem visits_shift (bytes rows : Int) (root : Node) :
    (root.shift bytes rows).visits = root.visits.map (Visit.shift bytes rows) :=
  visitsUnder_shift bytes rows [] root

mutual

theorem located_visitsUnder (ancestors : List Node) (ha : ∀ a ∈ ancestors, a.All Located) :
    (n : Node) → n.All Located → ∀ v ∈ visitsUnder ancestors n, v.Located
  | mk kind extent cs, h => by
    have hcs : AllOf Located cs := (allOf_iff _ _).mpr fun c hc => h.child hc
    have ha' : ∀ a ∈ mk kind extent cs :: ancestors, a.All Located :=
      List.forall_mem_cons.mpr ⟨h, ha⟩
    rw [visitsUnder, List.forall_mem_cons]
    exact ⟨⟨h, ha⟩, located_visitsOfAll _ ha' cs hcs⟩

theorem located_visitsOfAll (ancestors : List Node) (ha : ∀ a ∈ ancestors, a.All Located) :
    (ns : List Node) → AllOf Located ns → ∀ v ∈ visitsOfAll ancestors ns, v.Located
  | [], _ => List.forall_mem_nil _
  | n :: ns, h => by
    rw [AllOf] at h
    rw [visitsOfAll, List.forall_mem_append]
    exact ⟨located_visitsUnder ancestors ha n h.1, located_visitsOfAll ancestors ha ns h.2⟩

end

/-- If every step of a walk moves its state along with the tree, so does the walk. -/
theorem walk_shift {σ : Type} {bytes rows : Int} {step step' : σ → Visit → σ} {root : Node}
    (move : σ → σ)
    (h : ∀ v ∈ root.visits, ∀ s, step' (move s) (v.shift bytes rows) = move (step s v)) (s : σ) :
    (root.shift bytes rows).walk step' (move s) = move (root.walk step s) := by
  rw [walk_eq_foldl, walk_eq_foldl, visits_shift, List.foldl_map]
  generalize root.visits = visits at h
  induction visits generalizing s with
  | nil => rfl
  | cons v visits ih =>
    rw [List.forall_mem_cons] at h
    rw [List.foldl_cons, List.foldl_cons, h.1, ih _ h.2]

theorem located_visits {root : Node} (h : root.All Located) : ∀ v ∈ root.visits, v.Located :=
  located_visitsUnder [] (List.forall_mem_nil _) root h

end Node
end ContractAudit
