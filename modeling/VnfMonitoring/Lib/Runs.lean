import Mathlib.Data.List.Basic

set_option autoImplicit false

/- Runs of a system whose step function is partial: an event that is not
enabled in a state has no successor there. -/
namespace VnfMonitoring.Runs

variable {σ ε : Type}

/-- The state after a list of events, absent when one of them is not enabled. -/
def run (step : σ → ε → Option σ) (state : σ) : List ε → Option σ
  | [] => some state
  | event :: rest => (step state event).bind fun next => run step next rest

/-- Every event of the run that is taken is allowed in the state it starts from. -/
def AllSteps (step : σ → ε → Option σ) (ok : σ → ε → Prop) (state : σ) : List ε → Prop
  | [] => True
  | event :: rest => ∀ next, step state event = some next →
      ok state event ∧ AllSteps step ok next rest

theorem allSteps_cons {step : σ → ε → Option σ} {ok : σ → ε → Prop} {state next : σ} {event : ε}
    {rest : List ε} (stepped : step state event = some next) (allowed : ok state event)
    (later : AllSteps step ok next rest) : AllSteps step ok state (event :: rest) := by
  intro other same
  cases stepped.symm.trans same
  exact ⟨allowed, later⟩

instance decidableAllSteps (step : σ → ε → Option σ) (ok : σ → ε → Prop)
    [allowed : ∀ state event, Decidable (ok state event)] (state : σ) :
    (events : List ε) → Decidable (AllSteps step ok state events)
  | [] => isTrue trivial
  | event :: rest =>
      match stepped : step state event with
      | none => isTrue fun next found => absurd (stepped.symm.trans found) nofun
      | some next =>
          have := decidableAllSteps step ok next rest
          decidable_of_iff (ok state event ∧ AllSteps step ok next rest)
            ⟨fun here other found => by
              rw [stepped] at found
              cases found
              exact here, fun all => all next stepped⟩

@[simp] theorem run_nil (step : σ → ε → Option σ) (state : σ) :
    run step state [] = some state := rfl

theorem run_cons (step : σ → ε → Option σ) (state : σ) (event : ε) (rest : List ε) :
    run step state (event :: rest) =
      (step state event).bind fun next => run step next rest := rfl

theorem run_singleton (step : σ → ε → Option σ) (state : σ) (event : ε) :
    run step state [event] = step state event := by
  rw [run_cons]
  exact Option.bind_fun_some _

theorem run_append (step : σ → ε → Option σ) (state : σ) (first second : List ε) :
    run step state (first ++ second) =
      (run step state first).bind fun middle => run step middle second := by
  induction first generalizing state with
  | nil => rfl
  | cons event rest ih =>
      rw [List.cons_append, run_cons, run_cons, Option.bind_assoc]
      exact Option.bind_congr fun next _ => ih next

theorem run_cons_some {step : σ → ε → Option σ} {state final : σ} {event : ε}
    {rest : List ε} (reached : run step state (event :: rest) = some final) :
    ∃ next, step state event = some next ∧ run step next rest = some final := by
  rw [run_cons] at reached
  exact Option.bind_eq_some_iff.mp reached

/-- What evaluating a run shows of its final state. -/
theorem exists_of_any {step : σ → ε → Option σ} {state : σ} {events : List ε} {P : σ → Prop}
    [DecidablePred P] (holds : (run step state events).any (fun final => decide (P final)) = true) :
    ∃ final, run step state events = some final ∧ P final := by
  obtain ⟨final, reached, same⟩ := (Option.any_eq_true _ _).mp holds
  exact ⟨final, reached, of_decide_eq_true same⟩

theorem allSteps_true (step : σ → ε → Option σ) (state : σ) (events : List ε) :
    AllSteps step (fun _ _ => True) state events := by
  induction events generalizing state with
  | nil => trivial
  | cons event rest ih => exact fun next _ => ⟨trivial, ih next⟩

theorem allSteps_of_forall {P : ε → Prop} {step : σ → ε → Option σ} {state : σ}
    {events : List ε} (each : ∀ event ∈ events, P event) :
    AllSteps step (fun _ event => P event) state events := by
  induction events generalizing state with
  | nil => trivial
  | cons event rest ih =>
      rw [List.forall_mem_cons] at each
      exact fun next _ => ⟨each.1, ih each.2⟩

theorem allSteps_append {step : σ → ε → Option σ} {ok : σ → ε → Prop} {state : σ}
    {first second : List ε} (all : AllSteps step ok state (first ++ second)) :
    AllSteps step ok state first ∧
      ∀ middle, run step state first = some middle → AllSteps step ok middle second := by
  induction first generalizing state with
  | nil =>
      refine ⟨trivial, fun middle reached => ?_⟩
      cases reached
      exact all
  | cons event rest ih =>
      constructor
      · intro next stepped
        exact ⟨(all next stepped).1, (ih (all next stepped).2).1⟩
      · intro middle reached
        obtain ⟨next, stepped, remaining⟩ := run_cons_some reached
        exact (ih (all next stepped).2).2 middle remaining

/-- Two conditions that agree on the events that are taken. -/
theorem allSteps_congr {step : σ → ε → Option σ} {ok other : σ → ε → Prop}
    (agree : ∀ state event next, step state event = some next →
      (ok state event ↔ other state event)) (state : σ) (events : List ε) :
    AllSteps step ok state events ↔ AllSteps step other state events := by
  induction events generalizing state with
  | nil => exact Iff.rfl
  | cons event rest ih =>
      constructor
      · intro all next stepped
        exact ⟨(agree _ _ _ stepped).mp (all next stepped).1, (ih next).mp (all next stepped).2⟩
      · intro all next stepped
        exact ⟨(agree _ _ _ stepped).mpr (all next stepped).1, (ih next).mpr (all next stepped).2⟩

/-- What every allowed step preserves holds at the end of every allowed run. -/
theorem run_invariant_of {step : σ → ε → Option σ} {ok : σ → ε → Prop} (Inv : σ → Prop)
    (preserved : ∀ state event next, Inv state → ok state event →
      step state event = some next → Inv next)
    {state final : σ} {events : List ε} (initial : Inv state)
    (allowed : AllSteps step ok state events) (reached : run step state events = some final) :
    Inv final := by
  induction events generalizing state with
  | nil =>
      cases reached
      exact initial
  | cons event rest ih =>
      obtain ⟨next, stepped, remaining⟩ := run_cons_some reached
      obtain ⟨here, later⟩ := allowed next stepped
      exact ih (preserved state event next initial here stepped) later remaining

/-- The unconditional case: an inductive invariant holds in every reachable state. -/
theorem run_invariant {step : σ → ε → Option σ} (Inv : σ → Prop)
    (preserved : ∀ state event next, Inv state → step state event = some next → Inv next)
    {state final : σ} {events : List ε} (initial : Inv state)
    (reached : run step state events = some final) : Inv final :=
  run_invariant_of Inv
    (fun state event next before _ stepped => preserved state event next before stepped)
    initial (allSteps_true step state events) reached

/-- A view that commutes with every step commutes with every run. -/
theorem run_view {τ : Type} {step : σ → ε → Option σ} {viewed : τ → ε → Option τ} (view : σ → τ)
    (commutes : ∀ state event, (step state event).map view = viewed (view state) event)
    (state : σ) (events : List ε) :
    (run step state events).map view = run viewed (view state) events := by
  induction events generalizing state with
  | nil => rfl
  | cons event rest ih =>
      rw [run_cons, run_cons, ← commutes]
      cases step state event with
      | none => rfl
      | some next => exact ih next

/-- A relation that every step keeps with a step of a total model holds at the end of
every run with the run of the model. -/
theorem run_simulates {τ : Type} {step : σ → ε → Option σ} {model : τ → ε → τ}
    (Rel : σ → τ → Prop)
    (simulates : ∀ state event next abstract, Rel state abstract →
      step state event = some next → Rel next (model abstract event))
    {state final : σ} {abstract : τ} {events : List ε} (initial : Rel state abstract)
    (reached : run step state events = some final) : Rel final (events.foldl model abstract) := by
  induction events generalizing state abstract with
  | nil =>
      cases reached
      exact initial
  | cons event rest ih =>
      obtain ⟨next, stepped, remaining⟩ := run_cons_some reached
      exact ih (simulates state event next abstract initial stepped) remaining

/-- A relation that every step keeps with a run of another system, each of whose events
stands for the step's own, holds at the end of every run with a run of that system. -/
theorem run_simulated {τ α : Type} {step : σ → ε → Option σ} {model : τ → α → Option τ}
    (Rel : σ → τ → Prop) (For : ε → α → Prop)
    (simulated : ∀ state event next abstract, Rel state abstract → step state event = some next →
      ∃ taken after, run model abstract taken = some after ∧ Rel next after ∧
        ∀ x ∈ taken, For event x)
    {state final : σ} {abstract : τ} {events : List ε} (initial : Rel state abstract)
    (reached : run step state events = some final) :
    ∃ taken after, run model abstract taken = some after ∧ Rel final after ∧
      ∀ x ∈ taken, ∃ event ∈ events, For event x := by
  induction events generalizing state abstract with
  | nil =>
      cases reached
      exact ⟨[], abstract, rfl, initial, nofun⟩
  | cons event rest ih =>
      obtain ⟨next, stepped, remaining⟩ := run_cons_some reached
      obtain ⟨first, middle, here, kept, stands⟩ :=
        simulated state event next abstract initial stepped
      obtain ⟨later, after, there, related, behind⟩ := ih kept remaining
      refine ⟨first ++ later, after, ?_, related, fun x member => ?_⟩
      · rw [run_append, here, Option.bind_some]
        exact there
      · rcases List.mem_append.mp member with early | late
        · exact ⟨event, List.mem_cons_self, stands x early⟩
        · obtain ⟨other, among, stands⟩ := behind x late
          exact ⟨other, List.mem_cons_of_mem _ among, stands⟩

/-- A relation that every step keeps with the run of another system that its event is
translated to holds at the end of every run with the run of the translated events. -/
theorem run_translated {τ α : Type} {step : σ → ε → Option σ} {model : τ → α → Option τ}
    (translate : ε → List α) (Rel : σ → τ → Prop)
    (simulated : ∀ state event next abstract, Rel state abstract → step state event = some next →
      ∃ after, run model abstract (translate event) = some after ∧ Rel next after)
    {state final : σ} {abstract : τ} {events : List ε} (initial : Rel state abstract)
    (reached : run step state events = some final) :
    ∃ after, run model abstract (events.flatMap translate) = some after ∧ Rel final after := by
  induction events generalizing state abstract with
  | nil =>
      cases reached
      exact ⟨abstract, rfl, initial⟩
  | cons event rest ih =>
      obtain ⟨next, stepped, remaining⟩ := run_cons_some reached
      obtain ⟨middle, here, kept⟩ := simulated state event next abstract initial stepped
      obtain ⟨after, there, related⟩ := ih kept remaining
      refine ⟨after, ?_, related⟩
      rw [List.flatMap_cons, run_append, here, Option.bind_some]
      exact there

/-- When every step is a run of a coarser system, so is every run. -/
theorem run_refines {τ α : Type} {step : σ → ε → Option σ} {model : τ → α → Option τ}
    (view : σ → τ)
    (refines : ∀ state event next, step state event = some next →
      ∃ taken, run model (view state) taken = some (view next))
    {state final : σ} {events : List ε} (reached : run step state events = some final) :
    ∃ taken, run model (view state) taken = some (view final) := by
  obtain ⟨taken, after, run, rfl, _⟩ :=
    run_simulated (fun s t => t = view s) (fun _ _ => True)
      (fun before event next _ same stepped => by
        subst same
        obtain ⟨taken, run⟩ := refines before event next stepped
        exact ⟨taken, view next, run, rfl, fun _ _ => trivial⟩)
      rfl reached
  exact ⟨taken, run⟩

/-- Every event of a run that reaches its end was taken in some state. -/
theorem run_taken {step : σ → ε → Option σ} {state final : σ} {events : List ε}
    (reached : run step state events = some final) :
    ∀ event ∈ events, ∃ before next, step before event = some next := by
  induction events generalizing state with
  | nil => nofun
  | cons first rest ih =>
      obtain ⟨next, stepped, remaining⟩ := run_cons_some reached
      intro event member
      rcases List.mem_cons.mp member with here | later
      · exact ⟨state, next, here ▸ stepped⟩
      · exact ih remaining event later

/-- A run whose events are enabled wherever the invariant holds reaches its end. -/
theorem run_isSome {step : σ → ε → Option σ} (Inv : σ → Prop) {events : List ε}
    (enabled : ∀ state, Inv state → ∀ event ∈ events, ∃ next,
      step state event = some next ∧ Inv next)
    {state : σ} (initial : Inv state) : (run step state events).isSome := by
  induction events generalizing state with
  | nil => rfl
  | cons event rest ih =>
      obtain ⟨next, stepped, kept⟩ := enabled state initial event List.mem_cons_self
      rw [run_cons, stepped, Option.bind_some]
      apply ih _ kept
      intro other holds later member
      exact enabled other holds later (List.mem_cons_of_mem _ member)

/-- Step functions that agree on the events of a run. -/
theorem run_congr {step other : σ → ε → Option σ} {events : List ε}
    (agree : ∀ event ∈ events, ∀ state, step state event = other state event) (state : σ) :
    run step state events = run other state events := by
  induction events generalizing state with
  | nil => rfl
  | cons event rest ih =>
      rw [List.forall_mem_cons] at agree
      rw [run_cons, run_cons, agree.1]
      exact Option.bind_congr fun next _ => ih agree.2 next

/-- A relation, indexed by the number of events to come, that every event keeps with some
answer to it in another system: the whole run goes through, and so do its answers. -/
theorem run_answered {τ α : Type} {step : σ → ε → Option σ} {model : τ → ε × α → Option τ}
    (Rel : Nat → σ → τ → Prop) {events : List ε}
    (answered : ∀ n state abstract, Rel (n + 1) state abstract → ∀ event ∈ events,
      ∃ next answer after, step state event = some next ∧
        model abstract (event, answer) = some after ∧ Rel n next after)
    {n : Nat} {state : σ} {abstract : τ} (initial : Rel (n + events.length) state abstract) :
    ∃ final taken after, run step state events = some final ∧ taken.map Prod.fst = events ∧
      run model abstract taken = some after ∧ Rel n final after := by
  induction events generalizing state abstract with
  | nil => exact ⟨state, [], abstract, rfl, rfl, rfl, initial⟩
  | cons event rest ih =>
      obtain ⟨next, answer, middle, stepped, here, kept⟩ :=
        answered _ _ _ initial event List.mem_cons_self
      obtain ⟨final, taken, after, reached, same, there, related⟩ :=
        ih (fun n state abstract before other later =>
          answered n state abstract before other (List.mem_cons_of_mem _ later)) kept
      refine ⟨final, (event, answer) :: taken, after, ?_, ?_, ?_, related⟩
      · rw [run_cons, stepped, Option.bind_some, reached]
      · rw [List.map_cons, same]
      · rw [run_cons, here, Option.bind_some, there]

/-- The answers to events that come once each are a function of the event. -/
theorem run_function {τ α : Type} [DecidableEq ε] [Inhabited α] (model : τ → ε × α → Option τ)
    {taken : List (ε × α)} (once : (taken.map Prod.fst).Nodup) :
    ∃ answers : ε → α, ∀ abstract, run model abstract taken =
      run (fun t event => model t (event, answers event)) abstract (taken.map Prod.fst) := by
  induction taken with
  | nil => exact ⟨default, fun _ => rfl⟩
  | cons first rest ih =>
      rw [List.map_cons, List.nodup_cons] at once
      obtain ⟨answers, same⟩ := ih once.2
      refine ⟨Function.update answers first.1 first.2, fun abstract => ?_⟩
      rw [List.map_cons, run_cons, run_cons, Function.update_self]
      apply Option.bind_congr
      intro next _
      rw [same]
      apply run_congr
      intro event later state
      rw [Function.update_of_ne (ne_of_mem_of_not_mem later once.1)]

/-- When an allowed step keeps the invariant and a step that is not allowed ends
outside `Good`, the runs that stay inside `Good` are exactly the allowed ones. -/
theorem run_exact {step : σ → ε → Option σ} {ok : σ → ε → Prop} (Inv Good : σ → Prop)
    (sound : ∀ state, Inv state → Good state)
    (preserved : ∀ state event next, Inv state → ok state event →
      step state event = some next → Inv next)
    (broken : ∀ state event next, Inv state → ¬ ok state event →
      step state event = some next → ¬ Good next)
    {state : σ} (initial : Inv state) (events : List ε) :
    (∀ taken, taken <+: events → ∀ middle, run step state taken = some middle → Good middle) ↔
      AllSteps step ok state events := by
  induction events generalizing state with
  | nil =>
      refine ⟨fun _ => trivial, fun _ taken shorter middle reached => ?_⟩
      rw [List.prefix_nil.mp shorter] at reached
      cases reached
      exact sound state initial
  | cons event rest ih =>
      constructor
      · intro good next stepped
        have allowed : ok state event := by
          by_contra refused
          refine broken state event next initial refused stepped (good [event] ?_ next ?_)
          · exact List.cons_prefix_cons.mpr ⟨rfl, List.nil_prefix⟩
          · rw [run_cons, stepped, Option.bind_some, run_nil]
        refine ⟨allowed, (ih (preserved state event next initial allowed stepped)).mp ?_⟩
        intro taken shorter middle reached
        refine good (event :: taken) (List.cons_prefix_cons.mpr ⟨rfl, shorter⟩) middle ?_
        rw [run_cons, stepped, Option.bind_some, reached]
      · intro allowed taken shorter middle reached
        cases taken with
        | nil =>
            cases reached
            exact sound state initial
        | cons first later =>
            obtain ⟨same, behind⟩ := List.cons_prefix_cons.mp shorter
            subst same
            obtain ⟨next, stepped, remaining⟩ := run_cons_some reached
            obtain ⟨here, after⟩ := allowed next stepped
            exact (ih (preserved state first next initial here stepped)).mpr after
              later behind middle remaining

/-- When a step that is not allowed ends in `Bad` and no step leads out of it, a run ends
there exactly when it takes such a step. -/
theorem run_split {step : σ → ε → Option σ} {ok : σ → ε → Prop} (Inv Bad : σ → Prop)
    (preserved : ∀ state event next, Inv state → ok state event →
      step state event = some next → Inv next)
    (broken : ∀ state event next, Inv state → ¬ ok state event →
      step state event = some next → Bad next)
    (stuck : ∀ state event next, Bad state → step state event = some next → Bad next)
    {state final : σ} {events : List ε} (initial : Inv state)
    (reached : run step state events = some final) :
    (AllSteps step ok state events ∧ Inv final) ∨
      (¬ AllSteps step ok state events ∧ Bad final) := by
  induction events generalizing state with
  | nil =>
      cases reached
      exact Or.inl ⟨trivial, initial⟩
  | cons event rest ih =>
      obtain ⟨next, stepped, remaining⟩ := run_cons_some reached
      by_cases here : ok state event
      · obtain ⟨allowed, inside⟩ | ⟨refused, outside⟩ :=
          ih (preserved state event next initial here stepped) remaining
        · refine Or.inl ⟨fun other also => ?_, inside⟩
          rw [stepped] at also
          cases also
          exact ⟨here, allowed⟩
        · exact Or.inr ⟨fun all => refused (all next stepped).2, outside⟩
      · refine Or.inr ⟨fun all => here (all next stepped).1, ?_⟩
        exact run_invariant Bad stuck (broken state event next initial here stepped) remaining

end VnfMonitoring.Runs
