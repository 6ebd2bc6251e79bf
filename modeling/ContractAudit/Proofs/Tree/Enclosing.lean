import ContractAudit.Proofs.Tree.Nesting
import Mathlib.Data.List.Induction

/-! The function and the item around a node. A node is known by its route, the numbers of the
children to take on the way down from the root, and the routes to the nodes around it are the
prefixes of its own. Both searches find the longest of these that ends at a node of their kinds. -/

namespace ContractAudit

namespace Node

abbrev Route := List Nat

def at? : Node → Route → Option Node
  | n, [] => some n
  | n, i :: rest => n.children[i]?.bind fun c => c.at? rest

def visitFrom (ancestors : List Node) : Node → Route → Option Visit
  | n, [] => some ⟨n, ancestors⟩
  | n, i :: rest => n.children[i]?.bind fun c => visitFrom (n :: ancestors) c rest

def visitAt? (root : Node) (route : Route) : Option Visit := visitFrom [] root route

theorem map_node_visitFrom (ancestors : List Node) (n : Node) (route : Route) :
    (visitFrom ancestors n route).map Visit.node = n.at? route := by
  induction route generalizing ancestors n with
  | nil => rfl
  | cons i rest ih =>
    rw [visitFrom, at?, Option.map_bind]
    congr 1
    funext c
    exact ih (n :: ancestors) c

theorem visitFrom_concat (ancestors : List Node) (n : Node) (route : Route) (i : Nat) :
    visitFrom ancestors n (route ++ [i]) = (visitFrom ancestors n route).bind fun w =>
      w.node.children[i]?.map fun c => ⟨c, w.node :: w.ancestors⟩ := by
  induction route generalizing ancestors n with
  | nil =>
    rw [List.nil_append, visitFrom, visitFrom, Option.bind_some]
    cases n.children[i]? <;> rfl
  | cons j rest ih =>
    rw [List.cons_append, visitFrom, visitFrom, Option.bind_assoc]
    congr 1
    funext c
    exact ih (n :: ancestors) c

theorem visitAt?_concat_eq_some {root : Node} {route : Route} {i : Nat} {v : Visit} :
    root.visitAt? (route ++ [i]) = some v ↔ ∃ w c, root.visitAt? route = some w ∧
      w.node.children[i]? = some c ∧ v = ⟨c, w.node :: w.ancestors⟩ := by
  rw [visitAt?, visitFrom_concat, Option.bind_eq_some_iff]
  constructor
  · rintro ⟨w, hw, hchild⟩
    obtain ⟨c, hc, rfl⟩ := Option.map_eq_some_iff.mp hchild
    exact ⟨w, c, hw, hc, rfl⟩
  · rintro ⟨w, c, hw, hc, rfl⟩
    refine ⟨w, hw, ?_⟩
    rw [hc]
    rfl

theorem at?_of_visitAt? {root : Node} {route : Route} {v : Visit}
    (hv : root.visitAt? route = some v) : root.at? route = some v.node := by
  rw [← map_node_visitFrom [] root route]
  exact congrArg (Option.map Visit.node) hv

mutual

theorem exists_route_of_mem_visitsUnder (ancestors : List Node) (v : Visit) : (n : Node) →
    v ∈ visitsUnder ancestors n → ∃ route, visitFrom ancestors n route = some v
  | mk kind extent cs, h => by
    rw [visitsUnder] at h
    rcases List.mem_cons.mp h with rfl | h
    · exact ⟨[], rfl⟩
    · obtain ⟨i, c, rest, hc, hrest⟩ := exists_route_of_mem_visitsOfAll _ v cs h
      refine ⟨i :: rest, ?_⟩
      have hchild : (mk kind extent cs).children[i]? = some c := hc
      rw [visitFrom, hchild]
      exact hrest

theorem exists_route_of_mem_visitsOfAll (ancestors : List Node) (v : Visit) : (ns : List Node) →
    v ∈ visitsOfAll ancestors ns →
    ∃ (i : Nat) (c : Node) (rest : Route), ns[i]? = some c ∧ visitFrom ancestors c rest = some v
  | n :: ns, h => by
    rw [visitsOfAll] at h
    rcases List.mem_append.mp h with h | h
    · obtain ⟨rest, hrest⟩ := exists_route_of_mem_visitsUnder ancestors v n h
      exact ⟨0, n, rest, rfl, hrest⟩
    · obtain ⟨i, c, rest, hc, hrest⟩ := exists_route_of_mem_visitsOfAll ancestors v ns h
      exact ⟨i + 1, c, rest, hc, hrest⟩

end

def OfKind (root : Node) (kinds : List String) (route : Route) : Prop :=
  ∃ n, root.at? route = some n ∧ n.kind ∈ kinds

theorem OfKind.mono {root : Node} {kinds kinds' : List String} {route : Route}
    (h : root.OfKind kinds route) (hkinds : kinds ⊆ kinds') : root.OfKind kinds' route := by
  obtain ⟨n, hn, hkind⟩ := h
  exact ⟨n, hn, hkinds hkind⟩

theorem ofKind_iff {root n : Node} {kinds : List String} {route : Route}
    (hn : root.at? route = some n) : root.OfKind kinds route ↔ n.kind ∈ kinds := by
  simp [OfKind, hn]

/-- The nearest of the routes `around` that end at a node of one of the kinds. All others are on
the way to it. -/
def IsNearest (root : Node) (kinds : List String) (around : Route → Prop) : Option Route → Prop
  | some route => around route ∧ root.OfKind kinds route ∧
      ∀ other, around other → root.OfKind kinds other → other <+: route
  | none => ∀ other, around other → ¬root.OfKind kinds other

theorem IsNearest.congr {root : Node} {kinds : List String} {around around' : Route → Prop}
    {found : Option Route} (h : root.IsNearest kinds around found)
    (haround : ∀ route, root.OfKind kinds route → (around' route ↔ around route)) :
    root.IsNearest kinds around' found := by
  cases found with
  | none => exact fun other hother hkind => h other ((haround other hkind).mp hother) hkind
  | some route =>
    obtain ⟨hroute, hkind, hothers⟩ := h
    exact ⟨(haround route hkind).mpr hroute, hkind,
      fun other hother hk => hothers other ((haround other hk).mp hother) hk⟩

theorem exists_nearest (kinds : List String) {root : Node} {route : Route} {v : Visit}
    (hv : root.visitAt? route = some v) :
    ∃ found, root.IsNearest kinds (· <+: route) found ∧
      (v.node :: v.ancestors).find? (·.kind ∈ kinds) = found.bind root.at? := by
  induction route using List.reverseRecOn generalizing v with
  | nil =>
    obtain rfl : (⟨root, []⟩ : Visit) = v := Option.some.inj hv
    have hroot : root.OfKind kinds [] ↔ root.kind ∈ kinds := ofKind_iff rfl
    by_cases hkind : root.kind ∈ kinds
    · refine ⟨some [], ⟨List.nil_prefix, hroot.mpr hkind, fun other hother _ => hother⟩, ?_⟩
      rw [List.find?_cons_of_pos (by simpa using hkind)]
      rfl
    · refine ⟨none, fun other hother hother' => ?_, ?_⟩
      · obtain rfl := List.prefix_nil.mp hother
        exact hkind (hroot.mp hother')
      · rw [List.find?_cons_of_neg (by simpa using hkind)]
        rfl
  | append_singleton route i ih =>
    have hhere : root.OfKind kinds (route ++ [i]) ↔ v.node.kind ∈ kinds :=
      ofKind_iff (at?_of_visitAt? hv)
    have hat := at?_of_visitAt? hv
    obtain ⟨w, c, hw, -, rfl⟩ := visitAt?_concat_eq_some.mp hv
    by_cases hkind : c.kind ∈ kinds
    · refine ⟨some (route ++ [i]), ⟨List.prefix_rfl, hhere.mpr hkind, fun other hother _ => hother⟩,
        ?_⟩
      rw [List.find?_cons_of_pos (by simpa using hkind), Option.bind_some, hat]
    · obtain ⟨found, hfound, heq⟩ := ih hw
      refine ⟨found, hfound.congr fun other hother => ?_, ?_⟩
      · rw [List.prefix_concat_iff, or_iff_right]
        rintro rfl
        exact hkind (hhere.mp hother)
      · rw [List.find?_cons_of_neg (by simpa using hkind), heq]

theorem exists_nearest_above (kinds : List String) {root : Node} {route : Route} {v : Visit}
    (hv : root.visitAt? route = some v) :
    ∃ found, root.IsNearest kinds (fun r => r <+: route ∧ r ≠ route) found ∧
      v.ancestors.find? (·.kind ∈ kinds) = found.bind root.at? := by
  rcases route.eq_nil_or_concat' with rfl | ⟨init, i, rfl⟩
  · obtain rfl : (⟨root, []⟩ : Visit) = v := Option.some.inj hv
    exact ⟨none, fun other hother _ => hother.2 (List.prefix_nil.mp hother.1), rfl⟩
  · obtain ⟨w, c, hw, -, rfl⟩ := visitAt?_concat_eq_some.mp hv
    obtain ⟨found, hfound, heq⟩ := exists_nearest kinds hw
    refine ⟨found, hfound.congr fun other _ => ?_, heq⟩
    rw [List.prefix_concat_iff]
    constructor
    · rintro ⟨rfl | hother, hne⟩
      · exact absurd rfl hne
      · exact hother
    · intro hother
      refine ⟨.inr hother, ?_⟩
      rintro rfl
      have hlength := hother.length_le
      rw [List.length_append, List.length_singleton] at hlength
      omega

/-- A node that is not of the fewer kinds: what is nearest of more kinds and proper is also nearest
of the fewer, if it is of these, and if there is none, there is none of the fewer. -/
theorem IsNearest.of_above {root : Node} {kinds kinds' : List String} {route : Route}
    {found found' : Option Route} (hkinds : kinds ⊆ kinds') (hself : ¬root.OfKind kinds route)
    (h : root.IsNearest kinds (· <+: route) found)
    (h' : root.IsNearest kinds' (fun r => r <+: route ∧ r ≠ route) found') :
    (∀ r, found' = some r → root.OfKind kinds r → found = some r) ∧
      (found' = none → found = none) := by
  have hproper : ∀ r, root.OfKind kinds r → r ≠ route := by
    rintro r hr rfl
    exact hself hr
  constructor
  · rintro r rfl hr
    obtain ⟨⟨haround, -⟩, -, hothers⟩ := h'
    cases found with
    | none => exact absurd hr (h r haround)
    | some nearest =>
      obtain ⟨hnearest, hkind, hall⟩ := h
      have hup := hothers nearest ⟨hnearest, hproper nearest hkind⟩ (hkind.mono hkinds)
      have hdown := hall r haround hr
      rw [hup.eq_of_length_le hdown.length_le]
  · rintro rfl
    cases found with
    | none => rfl
    | some nearest =>
      obtain ⟨hnearest, hkind, -⟩ := h
      exact absurd (hkind.mono hkinds) (h' nearest ⟨hnearest, hproper nearest hkind⟩)

end Node

namespace Visit

open Node

/-- Every visit of a tree is at some route. From there, the enclosing function is the nearest node
of kind `function_item` among the node and those around it, and the enclosing item is the nearest
function, implementation block or method among those around it. For a node that is no function, an
enclosing item that is a function is the enclosing function, and without an enclosing item there is
no enclosing function. -/
theorem enclosing_searches_nearest {root : Node} {v : Visit} (hv : v ∈ root.visits) :
    (∃ route, root.visitAt? route = some v) ∧
    ∀ route, root.visitAt? route = some v → ∃ function item : Option Route,
      v.enclosingFunction? = function.bind root.at? ∧
      root.IsNearest ["function_item"] (· <+: route) function ∧
      v.enclosingItem? = item.bind root.at? ∧
      root.IsNearest ["function_item", "impl_item", "method_item"]
        (fun r => r <+: route ∧ r ≠ route) item ∧
      (v.node.kind ≠ "function_item" →
        (∀ r, item = some r → root.OfKind ["function_item"] r → function = some r) ∧
        (item = none → function = none)) := by
  refine ⟨exists_route_of_mem_visitsUnder [] v root hv, fun route hroute => ?_⟩
  obtain ⟨function, hfunction, heq⟩ := exists_nearest ["function_item"] hroute
  obtain ⟨item, hitem, heq'⟩ :=
    exists_nearest_above ["function_item", "impl_item", "method_item"] hroute
  refine ⟨function, item, ?_, hfunction, heq', hitem, fun hkind => ?_⟩
  · rw [enclosingFunction?_eq_find?, ← heq]
    simp
  · refine hfunction.of_above (by simp) ?_ hitem
    rw [ofKind_iff (at?_of_visitAt? hroute)]
    simpa using hkind

def nested : Node :=
  let node (kind : String) (children : List Node) := Node.mk kind ⟨0, 0, 0, 0⟩ children
  node "function_item" [node "block" [node "impl_item" [
    node "function_item" [node "call_expression" []], node "function_item" []]]]

/-- Three nodes around the call are items. Both searches stop at the method. -/
theorem enclosing_searches_nearest_nested :
    ∃ call ∈ nested.visits, nested.visitAt? [0, 0, 0, 0] = some call ∧
      ∃ r, nested.IsNearest ["function_item"] (· <+: [0, 0, 0, 0]) (some r) ∧
        nested.IsNearest ["function_item", "impl_item", "method_item"]
          (fun r => r <+: [0, 0, 0, 0] ∧ r ≠ [0, 0, 0, 0]) (some r) ∧
        call.enclosingFunction? = nested.at? r ∧ call.enclosingItem? = nested.at? r ∧
        nested.at? r = nested.at? [0, 0, 0] := by
  obtain ⟨call, hcall⟩ : ∃ call, nested.visitAt? [0, 0, 0, 0] = some call := ⟨_, rfl⟩
  have hmem : call ∈ nested.visits := by
    cases hcall
    exact .tail _ (.tail _ (.tail _ (.tail _ (.head _))))
  have hmethod : call.enclosingItem? = nested.at? [0, 0, 0] := by
    cases hcall
    rfl
  obtain ⟨function, item, hfunction, hnearest, hitem, hnearest', hsame⟩ :=
    (enclosing_searches_nearest hmem).2 _ hcall
  rw [hmethod] at hitem
  cases item with
  | none => cases hitem
  | some r =>
    have hkind : nested.OfKind ["function_item"] r := ⟨_, hitem.symm, List.mem_cons_self⟩
    have hother : call.node.kind ≠ "function_item" := by
      cases hcall
      decide
    obtain rfl := (hsame hother).1 r rfl hkind
    exact ⟨call, hmem, hcall, r, hnearest, hnearest', hfunction, hmethod.trans hitem, hitem.symm⟩

end Visit
end ContractAudit
