import ContractAudit.Text.Basic

/-! Source trees: nodes with a kind, an extent and children, and the walk that visits every
node before its children with the chain of its ancestors at hand. -/

namespace ContractAudit

structure Extent where
  startByte : Int
  endByte : Int
  startRow : Int
  endRow : Int
deriving DecidableEq, Repr

inductive Node where
  | mk (kind : String) (extent : Extent) (children : List Node)
deriving Repr

namespace Node

def kind : Node → String
  | mk k _ _ => k

def extent : Node → Extent
  | mk _ e _ => e

def children : Node → List Node
  | mk _ _ cs => cs

def rowSpan (n : Node) : Int × Int := (n.extent.startRow, n.extent.endRow)

def firstLine (n : Node) : Int := n.extent.startRow + 1

def lastLine (n : Node) : Int := n.extent.endRow + 1

/-- The text of a node. A byte offset is taken as a character position, negative positions
count from the end, and a node that ends past the text has no text. -/
def text (n : Node) (code : Text) : Text :=
  if n.extent.startByte ≥ code.length ∨ n.extent.endByte > code.length then []
  else code.slice n.extent.startByte n.extent.endByte

/-- The text of a node where negative, empty and reversed extents have no text. -/
def forwardText (n : Node) (code : Text) : Text :=
  if n.extent.startByte < 0 ∨ n.extent.endByte > code.length ∨
      n.extent.startByte ≥ n.extent.endByte then []
  else code.slice n.extent.startByte n.extent.endByte

def childOfKind? (n : Node) (kind : String) : Option Node :=
  n.children.find? (·.kind = kind)

end Node

structure Visit where
  node : Node
  ancestors : List Node

namespace Visit

def parent? (v : Visit) : Option Node := v.ancestors.head?

def grandparent? (v : Visit) : Option Node := v.ancestors.tail.head?

end Visit

namespace Node

mutual

def visitsUnder (ancestors : List Node) : Node → List Visit
  | n@(mk _ _ cs) => ⟨n, ancestors⟩ :: visitsOfAll (n :: ancestors) cs

def visitsOfAll (ancestors : List Node) : List Node → List Visit
  | [] => []
  | n :: ns => visitsUnder ancestors n ++ visitsOfAll ancestors ns

end

def visits (root : Node) : List Visit := visitsUnder [] root

mutual

def walkUnder {σ : Type} (step : σ → Visit → σ) (ancestors : List Node) (s : σ) : Node → σ
  | n@(mk _ _ cs) => walkAll step (n :: ancestors) (step s ⟨n, ancestors⟩) cs

def walkAll {σ : Type} (step : σ → Visit → σ) (ancestors : List Node) (s : σ) : List Node → σ
  | [] => s
  | n :: ns => walkAll step ancestors (walkUnder step ancestors s n) ns

end

def walk {σ : Type} (step : σ → Visit → σ) (s : σ) (root : Node) : σ := walkUnder step [] s root

mutual

theorem walkUnder_eq_foldl {σ : Type} (step : σ → Visit → σ) (ancestors : List Node) (s : σ) :
    (n : Node) → walkUnder step ancestors s n = (visitsUnder ancestors n).foldl step s
  | mk k e cs => by
    simp only [walkUnder, visitsUnder, List.foldl_cons]
    exact walkAll_eq_foldl step _ _ cs

theorem walkAll_eq_foldl {σ : Type} (step : σ → Visit → σ) (ancestors : List Node) (s : σ) :
    (ns : List Node) → walkAll step ancestors s ns = (visitsOfAll ancestors ns).foldl step s
  | [] => rfl
  | n :: ns => by
    simp only [walkAll, visitsOfAll, List.foldl_append]
    rw [walkUnder_eq_foldl step ancestors s n]
    exact walkAll_eq_foldl step ancestors _ ns

end

theorem walk_eq_foldl {σ : Type} (step : σ → Visit → σ) (s : σ) (root : Node) :
    walk step s root = (visits root).foldl step s :=
  walkUnder_eq_foldl step [] s root

end Node

namespace Visit

def climb (n : Node) : List Node → Node
  | [] => n
  | parent :: above => if n.kind = "function_item" then n else climb parent above

def enclosingFunction? (v : Visit) : Option Node :=
  let last := climb v.node v.ancestors
  if last.kind = "function_item" then some last else none

theorem enclosingFunction?_eq_find? (v : Visit) :
    v.enclosingFunction? = (v.node :: v.ancestors).find? (·.kind = "function_item") := by
  obtain ⟨n, ancestors⟩ := v
  rw [enclosingFunction?]
  induction ancestors generalizing n with
  | nil => by_cases hkind : n.kind = "function_item" <;> simp [climb, hkind]
  | cons parent above ih =>
    rw [climb]
    by_cases hkind : n.kind = "function_item"
    · simp [hkind]
    · rw [if_neg hkind, List.find?_cons_of_neg (by simpa using hkind)]
      exact ih parent

def enclosingItem? (v : Visit) : Option Node :=
  v.ancestors.find? fun n => n.kind ∈ ["function_item", "impl_item", "method_item"]

end Visit
end ContractAudit
