import ContractAudit.Proofs.Detect.Ledger
import ContractAudit.Proofs.Position.LockedEther
import ContractAudit.Proofs.Position.Transfer
import Mathlib.Data.List.Forall2

/-! What the built-in detectors find does not depend on where the source stands: with whole lines
put in front of it, and its tree moved accordingly, they find the same issues further down. -/

namespace ContractAudit.Detect

/-- The issue `j` is the issue `i` of the same detector, with its lines moved down. The report on
locked ether also quotes the lines of the functions in `payable`, which move with it. -/
structure MovedDown (b : Builtin) (rows : Int) (payable : List LockedEther.Payable)
    (i j : Issue) : Prop where
  kind : j.kind = i.kind
  severity : j.severity = i.severity
  snippet : j.snippet = i.snippet
  recommendation : j.recommendation = i.recommendation
  lineStart : j.lineStart = i.lineStart + rows
  lineEnd : j.lineEnd = i.lineEnd + rows
  description : match b with
    | .lockedEther => i.description = LockedEther.description payable ∧
        j.description = LockedEther.description (payable.map (LockedEther.Payable.shift rows))
    | _ => j.description = i.description

theorem movedDown_shift {b : Builtin} (hb : b ≠ .lockedEther) (rows : Int)
    (payable : List LockedEther.Payable) (i : Issue) :
    MovedDown b rows payable i (i.shift rows) := by
  refine ⟨rfl, rfl, rfl, rfl, rfl, rfl, ?_⟩
  cases b with
  | lockedEther => exact absurd rfl hb
  | _ => rfl

theorem forall₂_movedDown_shift {b : Builtin} (hb : b ≠ .lockedEther) (rows : Int)
    (payable : List LockedEther.Payable) (issues : List Issue) :
    List.Forall₂ (MovedDown b rows payable) issues (issues.map (Issue.shift rows)) := by
  rw [List.forall₂_map_right_iff, List.forall₂_same]
  intro i _
  exact movedDown_shift hb rows payable i

theorem movedDown_report {payable : List LockedEther.Payable} (h : payable ≠ []) (rows : Int) :
    MovedDown .lockedEther rows payable (LockedEther.report payable)
      (LockedEther.report (payable.map (LockedEther.Payable.shift rows))) := by
  cases payable with
  | nil => exact absurd rfl h
  | cons q payable => exact ⟨rfl, rfl, rfl, rfl, rfl, rfl, rfl, rfl⟩

theorem forall₂_movedDown_issues {l : LockedEther.Ledger} (h : l.canReceive → l.payable ≠ [])
    (rows : Int) :
    List.Forall₂ (MovedDown .lockedEther rows l.payable) (LockedEther.issues l)
      (LockedEther.issues (l.shift rows)) := by
  rw [LockedEther.issues, LockedEther.issues, LockedEther.Ledger.shift]
  split
  · next hlocked =>
    rw [Bool.and_eq_true] at hlocked
    exact .cons (movedDown_report (h hlocked.1) rows) .nil
  · exact .nil

theorem payable_ne_nil_of_canReceive {code : Text} {root : Node}
    (h : (LockedEther.enter code .empty root).canReceive) :
    (LockedEther.enter code .empty root).payable ≠ [] := by
  rw [LockedEther.enter_empty] at h ⊢
  rw [Bool.not_eq_true', List.isEmpty_eq_false_iff] at h
  rwa [ne_eq, List.map_eq_nil_iff]

theorem addPlaces_shift {find find' : Visit → Option Issue} {root : Node} {bytes rows : Int}
    (h : ∀ v ∈ root.visits, find' (v.shift bytes rows) = (find v).map (Issue.shift rows))
    (m m' : Memory) :
    (m'.forgetPlaces.addPlaces (onePerPlace find') [] (root.shift bytes rows)).2 =
      (m.forgetPlaces.addPlaces (onePerPlace find) [] root).2.shift rows := by
  have hplaces := onePerPlace_shift h ⟨[], []⟩
  simp only [Places.shift, List.map_nil] at hplaces
  simp only [Memory.addPlaces, Memory.forgetPlaces, hplaces, Findings.complete, Findings.shift]

theorem run_shift {b : Builtin} (hb : b ≠ .lockedEther) (m m' : Memory) {p : Text} (code : Text)
    {root : Node} (hwhole : p.WholeLines) (htoken : p.has "IERC20" = false)
    (hsection : p.has "sol! \x7b" = false) (hroot : root.All Node.Located) :
    (b.run m' (p ++ code) [] (root.shift p.length (p.count '\n' : Nat))).2 =
      (b.run m code [] root).2.shift (p.count '\n' : Nat) := by
  have hvisits := Node.located_visits hroot
  cases b with
  | transfer => exact Transfer.findings_shift hwhole htoken hsection hroot
  | unwrap => exact addPlaces_shift (fun v hv => Unwrap.find_shift (hvisits v hv)) m m'
  | panic => exact addPlaces_shift (fun v hv => Panic.find_shift (hvisits v hv)) m m'
  | packed => exact addPlaces_shift (fun v hv => Packed.find_shift (hvisits v hv)) m m'
  | lockedEther => exact absurd rfl hb

/-- Putting whole lines in front of a source, which neither name the token interface nor open a
Solidity section, moves the issues of every detector down by these lines and changes nothing
else. The text in front is counted in characters for offsets and in line feeds for rows. -/
theorem run_moved_down (b : Builtin) (m m' : Memory) (p code : Text) (root : Node)
    (hwhole : p = [] ∨ p.endsWith "\n") (htoken : ¬p.has "IERC20")
    (hsection : ¬p.has "sol! \x7b")
    (hroot : ∀ v ∈ root.visits, 0 ≤ v.node.extent.startByte ∧ 0 ≤ v.node.extent.endByte) :
    let rows : Nat := p.count '\n'
    let here := b.run m code [] root
    let there := b.run m' (p ++ code) [] (root.shift p.length rows)
    there.2.failure = here.2.failure ∧
      List.Forall₂ (MovedDown b rows here.1.ledger.payable) here.2.issues there.2.issues := by
  intro rows here there
  rw [Bool.not_eq_true] at htoken hsection
  have hall : root.All Node.Located := Node.all_of_visitsUnder [] root hroot
  by_cases hb : b = .lockedEther
  · subst hb
    -- its description quotes lines, so its issues are compared through the ledgers
    have hledger : LockedEther.enter (p ++ code) .empty (root.shift p.length rows) =
        (LockedEther.enter code .empty root).shift rows :=
      LockedEther.enter_shift hwhole hsection hall
    have hthere : there.2 = .complete (LockedEther.issues
        ((LockedEther.enter code .empty root).shift rows)) := by
      rw [← hledger]
      rfl
    rw [hthere]
    exact ⟨rfl, forall₂_movedDown_issues payable_ne_nil_of_canReceive rows⟩
  · have hthere : there.2 = here.2.shift rows :=
      run_shift hb m m' code hwhole htoken hsection hall
    rw [hthere]
    exact ⟨rfl, forall₂_movedDown_shift hb rows _ _⟩

/-- A contract with one function, and a line of comment in front of it. -/
theorem run_moved_down_comment :
    let p : Text := "// pay\n".toList
    let code : Text := "fn receive() \x7b\x7d".toList
    let root := Node.mk "source_file" ⟨0, 15, 0, 0⟩
      [.mk "function_item" ⟨0, 15, 0, 0⟩ [.mk "identifier" ⟨3, 10, 0, 0⟩ []]]
    let here := Builtin.lockedEther.run .fresh code [] root
    let there := Builtin.lockedEther.run .fresh (p ++ code) [] (root.shift p.length (1 : Nat))
    here.2.issues.map (·.lineStart) = [1] ∧ there.2.failure = here.2.failure ∧
      List.Forall₂ (MovedDown .lockedEther (1 : Nat) here.1.ledger.payable)
        here.2.issues there.2.issues := by
  intro p code root here there
  have hwhole : p = [] ∨ p.endsWith "\n" := by decide
  have htoken : ¬p.has "IERC20" := by decide
  have hsection : ¬p.has "sol! \x7b" := by decide
  have hroot : ∀ v ∈ root.visits,
      0 ≤ v.node.extent.startByte ∧ 0 ≤ v.node.extent.endByte := by decide
  refine ⟨by decide +kernel, ?_⟩
  exact run_moved_down .lockedEther .fresh .fresh p code root hwhole htoken hsection hroot

end ContractAudit.Detect
