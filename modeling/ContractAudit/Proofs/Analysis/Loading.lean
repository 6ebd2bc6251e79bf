import ContractAudit.Install.Library
import Mathlib.Data.List.Basic

/-! The parser over a run of requests, each of which may fail in any of the steps. A request that
fails before the parser is made changes nothing, and the next one tries again. A request that fails
when the language is set leaves the parser without one, and no later request mends that. -/

namespace ContractAudit.Loader

theorem setUp_none (steps : List Step) (held : Option Parser) :
    setUp none steps held = (.empty, steps.foldl (fun held step => step.done held) held) := by
  induction steps generalizing held with
  | nil => rfl
  | cons step steps ih => exact ih (step.done held)

theorem setUp_some {t : Trouble} (before after : List Step) (h : t.step ∉ before)
    (held : Option Parser) : setUp (some t) (before ++ t.step :: after) held =
      (t.report, before.foldl (fun held step => step.done held) held) := by
  induction before generalizing held with
  | nil =>
    have hhere : (some t).filter (fun u => u.step = t.step) = some t :=
      Option.filter_some_pos (decide_eq_true rfl)
    rw [List.nil_append, setUp, hhere]
    rfl
  | cons step before ih =>
    have hstep : t.step ≠ step := List.ne_of_not_mem_cons h
    have hbefore : t.step ∉ before := List.not_mem_of_not_mem_cons h
    have hlater : (some t).filter (fun u => u.step = step) = none :=
      Option.filter_some_neg (by simp [hstep])
    rw [List.cons_append, setUp, hlater]
    exact ih hbefore (step.done held)

def made : Option Trouble → Option Parser
  | none => some ⟨true⟩
  | some t => if t.step = .setLanguage then some ⟨false⟩ else none

def raised (held : Option Parser) (call : Option Trouble) : Option Trouble :=
  if held.isSome then none else call

theorem setUp_all (call : Option Trouble) :
    setUp call Step.all none = (call.elim .empty Trouble.report, made call) := by
  cases call with
  | none => exact setUp_none Step.all none
  | some t =>
    obtain ⟨step, message⟩ := t
    cases step with
    | makeDirectory => exact setUp_some [] [.build, .load, .setLanguage] List.not_mem_nil none
    | build => exact setUp_some [.makeDirectory] [.load, .setLanguage] (by simp) none
    | load => exact setUp_some [.makeDirectory, .build] [.setLanguage] (by simp) none
    | setLanguage => exact setUp_some [.makeDirectory, .build, .load] [] (by simp) none

theorem request_eq (held : Option Parser) (call : Option Trouble) :
    request held call = ((raised held call).elim .empty Trouble.report, held.or (made call)) := by
  cases held with
  | none => exact setUp_all call
  | some parser => rfl

def heldAfter (held : Option Parser) (calls : List (Option Trouble)) : Option Parser :=
  calls.foldl (fun held call => (request held call).2) held

theorem heldAfter_eq (held : Option Parser) (calls : List (Option Trouble)) :
    heldAfter held calls = held.or (calls.findSome? made) := by
  induction calls generalizing held with
  | nil => rw [List.findSome?_nil, Option.or_none]; rfl
  | cons call calls ih =>
    have hfirst : (call :: calls).findSome? made = (made call).or (calls.findSome? made) := by
      rw [List.findSome?_cons]
      cases made call <;> rfl
    have hstep : heldAfter held (call :: calls) = heldAfter (request held call).2 calls := rfl
    rw [hstep, ih, request_eq, hfirst, Option.or_assoc]

/-- One of the requests fails in setting the language, and all before it fail earlier. -/
def Stuck (calls : List (Option Trouble)) : Prop :=
  ∃ before t after, calls = before ++ some t :: after ∧ t.step = .setLanguage ∧
    ∀ call ∈ before, ∃ earlier : Trouble, call = some earlier ∧ earlier.step ≠ .setLanguage

theorem made_eq_none {call : Option Trouble} :
    made call = none ↔ ∃ t : Trouble, call = some t ∧ t.step ≠ .setLanguage := by
  cases call with
  | none => simp [made]
  | some t => simp [made]

theorem made_eq_bare {call : Option Trouble} :
    made call = some ⟨false⟩ ↔ ∃ t : Trouble, call = some t ∧ t.step = .setLanguage := by
  cases call with
  | none => simp [made]
  | some t => simp [made]

theorem stuck_iff {calls : List (Option Trouble)} :
    Stuck calls ↔ heldAfter none calls = some ⟨false⟩ := by
  -- the parser without a language is held if the first request to make one made it
  rw [heldAfter_eq, Option.none_or, List.findSome?_eq_some_iff]
  constructor
  · rintro ⟨before, t, after, rfl, hlast, hbefore⟩
    exact ⟨before, some t, after, rfl, made_eq_bare.mpr ⟨t, rfl, hlast⟩,
      fun call hcall => made_eq_none.mpr (hbefore call hcall)⟩
  · rintro ⟨before, call, after, rfl, hmade, hbefore⟩
    obtain ⟨t, rfl, hlast⟩ := made_eq_bare.mp hmade
    exact ⟨before, t, after, rfl, hlast, fun call hcall => made_eq_none.mp (hbefore call hcall)⟩

/-- A request that gives no parser without its language, and that leaves what is held as it was
if a step fails. What it gives is what is held after it. -/
structure AllOrNothing (held : Option Parser) (call : Option Trouble) : Prop where
  ready : ∀ parser, (request held call).2 = some parser → parser.hasLanguage
  unchanged : (raised held call).isSome → (request held call).2 = held

theorem allOrNothing_iff (held : Option Parser) (call : Option Trouble) :
    AllOrNothing held call ↔ (request held call).2 ≠ some ⟨false⟩ := by
  constructor
  · intro h hbare
    exact Bool.false_ne_true (h.ready ⟨false⟩ hbare)
  · intro hbare
    refine ⟨?_, fun hraised => ?_⟩
    · rintro ⟨hasLanguage⟩ hparser
      cases hasLanguage with
      | false => exact absurd hparser hbare
      | true => rfl
    · cases held with
      | some parser => cases hraised
      | none =>
        obtain ⟨t, rfl⟩ := Option.isSome_iff_exists.mp hraised
        rw [request_eq, Option.none_or] at hbare ⊢
        have hearlier : t.step ≠ .setLanguage := fun h => hbare (made_eq_bare.mpr ⟨t, rfl, h⟩)
        exact made_eq_none.mpr ⟨t, rfl, hearlier⟩

/-- A request reports the step that fails in it. It is all or nothing unless some request up to it
is the first to make a parser and fails in setting its language. After such a request every other
one gives that parser, which parses nothing, and reports nothing. -/
theorem request_allOrNothing_iff (calls : List (Option Trouble)) (call : Option Trouble) :
    let held := heldAfter none calls
    (request held call).1 = (raised held call).elim .empty Trouble.report ∧
    (AllOrNothing held call ↔ ¬Stuck (calls ++ [call])) ∧
    (Stuck calls → request held call = (.empty, some ⟨false⟩) ∧
      ∀ parse code, tree parse (request held call).2 code = .error .noLanguage) := by
  intro held
  have hnext : heldAfter none (calls ++ [call]) = (request held call).2 := by
    rw [heldAfter, List.foldl_append]
    rfl
  refine ⟨by rw [request_eq], ?_, fun hstuck => ?_⟩
  · rw [allOrNothing_iff, stuck_iff, hnext]
  · have hheld : held = some ⟨false⟩ := stuck_iff.mp hstuck
    rw [hheld]
    exact ⟨rfl, fun _ _ => rfl⟩

def nullLanguage : Trouble := Install.Library.Fault.trouble "build/my-languages.so" .null

/-- A request that fails to build the library is tried again. One that fails with the language is
not: the request after it meets no trouble and still gives the parser without one. -/
theorem request_allOrNothing_iff_nullLanguage :
    let failed : List (Option Trouble) := [some ⟨.build, "no source"⟩]
    let stuck : List (Option Trouble) := failed ++ [some nullLanguage]
    AllOrNothing (heldAfter none failed) none ∧
      Stuck stuck ∧ request (heldAfter none stuck) none = (.empty, some ⟨false⟩) := by
  intro failed stuck
  have hfailed : ¬Stuck (failed ++ [none]) := by
    rw [stuck_iff]
    decide
  have hstuck : Stuck stuck := stuck_iff.mpr (by decide)
  exact ⟨(request_allOrNothing_iff failed none).2.1.mpr hfailed, hstuck,
    ((request_allOrNothing_iff stuck none).2.2 hstuck).1⟩

/-- The request that fails with the language is not all or nothing, and neither is the next. -/
theorem not_allOrNothing : ¬AllOrNothing (heldAfter none []) (some nullLanguage) ∧
    ¬AllOrNothing (heldAfter none [some nullLanguage]) none := by
  constructor
  · intro h
    exact Bool.false_ne_true (h.ready ⟨false⟩ (by decide))
  · intro h
    exact Bool.false_ne_true (h.ready ⟨false⟩ (by decide))

end ContractAudit.Loader
