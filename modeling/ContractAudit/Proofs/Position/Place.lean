import ContractAudit.Detect.Packed
import ContractAudit.Detect.Panic
import ContractAudit.Detect.Unwrap
import ContractAudit.Proofs.Position.Section
import ContractAudit.Proofs.Position.Tree

/-! The detectors that report one issue per place, on a source that has other text in front and
whose tree is moved accordingly: names and texts of nodes stay, and places move together. -/

namespace ContractAudit.Detect

variable {p code : Text} {rows : Int}

def Unmoved (read : Node → Text → Text) (p code : Text) (rows : Int) : Prop :=
  ∀ n : Node, n.Located → read (n.shift p.length rows) (p ++ code) = read n code

theorem unmoved_text : Unmoved Node.text p code rows := fun _ h => Node.text_shift h p code rows

theorem unmoved_forwardText : Unmoved Node.forwardText p code rows :=
  fun _ h => Node.forwardText_shift h p code rows

theorem itemName_shift {read : Node → Text → Text} (hread : Unmoved read p code rows)
    {item : Node} (h : item.All Node.Located) :
    itemName read (p ++ code) (item.shift p.length rows) = itemName read code item := by
  rw [itemName, itemName, Node.childOfKind?_shift]
  cases hchild : item.childOfKind? "identifier" with
  | none => rfl
  | some child =>
    have hlocated := (h.child (List.mem_of_find?_eq_some hchild)).self
    simp only [Option.map_some, hread child hlocated]

theorem enclosingName_shift {read : Node → Text → Text} (hread : Unmoved read p code rows)
    {v : Visit} (h : v.Located) :
    enclosingName read (p ++ code) (v.shift p.length rows) = enclosingName read code v := by
  rw [enclosingName, enclosingName, Visit.enclosingItem?_shift]
  cases hitem : v.enclosingItem? with
  | none => rfl
  | some item => exact itemName_shift hread (h.enclosingItem hitem)

def Places.shift (rows : Int) (s : Places) : Places :=
  ⟨s.seen.map fun span => (span.1 + rows, span.2 + rows), s.issues.map (Issue.shift rows)⟩

theorem rowSpan_shift_mem_iff (bytes rows : Int) (n : Node) (seen : List (Int × Int)) :
    (n.shift bytes rows).rowSpan ∈ seen.map (fun span => (span.1 + rows, span.2 + rows)) ↔
      n.rowSpan ∈ seen := by
  rw [Node.rowSpan_shift]
  constructor
  · intro h
    obtain ⟨span, hspan, heq⟩ := List.mem_map.mp h
    obtain ⟨hfirst, hlast⟩ := Prod.mk.inj heq
    have hsame : span = n.rowSpan := Prod.ext (by omega) (by omega)
    exact hsame ▸ hspan
  · intro h
    exact List.mem_map.mpr ⟨n.rowSpan, h, rfl⟩

theorem Places.add_shift {find find' : Visit → Option Issue} {v : Visit} {bytes rows : Int}
    (h : find' (v.shift bytes rows) = (find v).map (Issue.shift rows)) (s : Places) :
    (s.shift rows).add find' (v.shift bytes rows) = (s.add find v).shift rows := by
  rw [Places.add, Places.add, h]
  cases find v with
  | none => rfl
  | some issue =>
    -- two places are the same before the move iff they are the same after it
    have hmem := rowSpan_shift_mem_iff bytes rows v.node s.seen
    by_cases hseen : v.node.rowSpan ∈ s.seen
    · simp only [Option.map_some, Places.shift, Visit.shift, hmem, hseen, if_true]
    · simp only [Option.map_some, Places.shift, Visit.shift, hmem, hseen, if_false,
        List.map_append, List.map_cons, List.map_nil]
      rw [Node.rowSpan_shift]

/-- A search that gives the same issues further down keeps the first of each place. -/
theorem onePerPlace_shift {find find' : Visit → Option Issue} {root : Node} {bytes rows : Int}
    (h : ∀ v ∈ root.visits, find' (v.shift bytes rows) = (find v).map (Issue.shift rows))
    (s : Places) :
    onePerPlace find' (s.shift rows) (root.shift bytes rows) =
      (onePerPlace find s root).shift rows := by
  rw [onePerPlace, onePerPlace]
  exact Node.walk_shift (Places.shift rows) (fun v hv => Places.add_shift (h v hv)) s

namespace Unwrap

theorem methodName_shift {call : Node} (h : call.All Node.Located) :
    methodName (call.shift p.length rows) (p ++ code) = methodName call code := by
  have hfields : (((call.shift p.length rows).children.filter
      (·.kind = "field_expression")).flatMap (·.children)) =
      ((call.children.filter (·.kind = "field_expression")).flatMap (·.children)).map
        (Node.shift p.length rows) := by
    simp only [Node.children_shift, List.filter_map, Function.comp_def, Node.kind_shift,
      List.flatMap_map, List.map_flatMap]
  have hlocated : ∀ field ∈ (call.children.filter (·.kind = "field_expression")).flatMap
      (·.children), field.Located := by
    intro field hfield
    obtain ⟨c, hc, hmem⟩ := List.mem_flatMap.mp hfield
    exact ((h.child (List.mem_filter.mp hc).1).child hmem).self
  unfold methodName
  rw [hfields]
  generalize (call.children.filter (·.kind = "field_expression")).flatMap (·.children) = fields
    at hlocated
  dsimp only
  rw [Node.find?_map_shift p.length rows (fun k => decide (k = "field_identifier"))]
  cases hfield : fields.find? (fun n => decide (n.kind = "field_identifier")) with
  | none => rfl
  | some field => exact unmoved_text field (hlocated field (List.mem_of_find?_eq_some hfield))

theorem qualifies_shift {v : Visit} (h : v.Located) :
    qualifies (p ++ code) (v.shift p.length rows) = qualifies code v := by
  simp only [qualifies, Visit.node_shift, Node.kind_shift, methodName_shift h.1]

theorem issue_shift {v : Visit} (h : v.Located) :
    issue (p ++ code) (v.shift p.length rows) = (issue code v).shift rows := by
  simp only [issue, Issue.shift, enclosingName_shift unmoved_text h, Visit.node_shift,
    Node.firstLine_shift, Node.lastLine_shift, unmoved_text v.node h.1.self]

theorem find_shift {v : Visit} (h : v.Located) :
    find (p ++ code) (v.shift p.length rows) = (find code v).map (Issue.shift rows) := by
  rw [find, find, qualifies_shift h, issue_shift h]
  split <;> rfl

end Unwrap

namespace Panic

theorem qualifies_shift {v : Visit} (h : v.Located) :
    qualifies (p ++ code) (v.shift p.length rows) = qualifies code v := by
  simp only [qualifies, Visit.node_shift, Node.kind_shift, unmoved_forwardText v.node h.1.self]

theorem issue_shift {v : Visit} (h : v.Located) :
    issue (p ++ code) (v.shift p.length rows) = (issue code v).shift rows := by
  simp only [issue, Issue.shift, enclosingName_shift unmoved_forwardText h, Visit.node_shift,
    Node.firstLine_shift, Node.lastLine_shift, unmoved_forwardText v.node h.1.self]

theorem find_shift {v : Visit} (h : v.Located) :
    find (p ++ code) (v.shift p.length rows) = (find code v).map (Issue.shift rows) := by
  rw [find, find, qualifies_shift h, issue_shift h]
  split <;> rfl

end Panic

namespace Packed

theorem isUnsafePacking_shift {v : Visit} (h : v.Located) :
    isUnsafePacking (p ++ code) (v.shift p.length rows) = isUnsafePacking code v := by
  unfold isUnsafePacking
  rw [Visit.node_shift, unmoved_forwardText v.node h.1.self, Visit.enclosingItem?_shift]
  cases hitem : v.enclosingItem? with
  | none => rfl
  | some item =>
    simp only [Option.map_some, unmoved_forwardText item (h.enclosingItem hitem).self]

theorem isUnsafeJoin_shift {n : Node} (h : n.Located) :
    isUnsafeJoin (p ++ code) (n.shift p.length rows) = isUnsafeJoin code n := by
  simp only [isUnsafeJoin, unmoved_forwardText n h]

theorem isByteArrayJoin_shift {array receiver : Node} (harray : array.Located)
    (hreceiver : receiver.Located) :
    isByteArrayJoin (p ++ code) (array.shift p.length rows) (receiver.shift p.length rows) =
      isByteArrayJoin code array receiver := by
  simp only [isByteArrayJoin, unmoved_forwardText array harray,
    unmoved_forwardText receiver hreceiver]

theorem classify_shift {v : Visit} (h : v.Located) :
    classify (p ++ code) (v.shift p.length rows) = classify code v := by
  have hn := h.1.self
  unfold classify
  simp only [Visit.node_shift, Node.kind_shift, unmoved_forwardText v.node hn,
    isUnsafePacking_shift h, isUnsafeJoin_shift hn, Visit.parent?_shift]
  cases hparent : v.parent? with
  | none => rfl
  | some parent =>
    simp only [Option.map_some, isByteArrayJoin_shift hn (h.parent hparent).self,
      Node.kind_shift]

theorem shown_shift {v : Visit} (h : v.Located) (f : Finding) :
    (f.shown (v.shift p.length rows)).forwardText (p ++ code) = (f.shown v).forwardText code := by
  cases f with
  | packing => exact unmoved_forwardText v.node h.1.self
  | join => exact unmoved_forwardText v.node h.1.self
  | array =>
    simp only [Finding.shown, Visit.parent?_shift]
    cases hparent : v.parent? with
    | none => exact unmoved_forwardText v.node h.1.self
    | some parent => exact unmoved_forwardText parent (h.parent hparent).self

theorem issue_shift {v : Visit} (h : v.Located) (f : Finding) :
    issue (p ++ code) (v.shift p.length rows) f = (issue code v f).shift rows := by
  simp only [issue, Issue.shift, enclosingName_shift unmoved_forwardText h, shown_shift h,
    Visit.node_shift, Node.firstLine_shift, Node.lastLine_shift]

theorem find_shift {v : Visit} (h : v.Located) :
    find (p ++ code) (v.shift p.length rows) = (find code v).map (Issue.shift rows) := by
  rw [find, find, classify_shift h, Option.map_map]
  congr 1
  funext f
  exact issue_shift h f

end Packed

end ContractAudit.Detect
