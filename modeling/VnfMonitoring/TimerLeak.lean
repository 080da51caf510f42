import VnfMonitoring.Timer

set_option autoImplicit false

/- What `timer_start` keeps: the ids it takes and cannot give back. -/
namespace VnfMonitoring.TimerLeak

open VnfMonitoring.TimerIds VnfMonitoring.Timer VnfMonitoring.Runs

/-- The ids that can still be handed out are the same. -/
def SameIds (s next : State) : Prop :=
  (∀ id, Allocatable next.tids id ↔ Allocatable s.tids id) ∧
    next.tids.tremainder = s.tids.tremainder

/-- `timer_stop` gives the id back, whoever holds the mutex. -/
def Releasable (s : State) (id : Int) : Prop :=
  ∀ mode, ∃ next, timerStop s id mode = some (0, next) ∧ Allocatable next.tids id ∧
    next.tids.tremainder = s.tids.tremainder + 1

/-- A failed call takes no id, and the id of a call that succeeds can be released. -/
def LeaksNothing (s : State) (call : StartCall) : Prop :=
  ∃ ret next, timerStart s call = some (ret, next) ∧ (ret = -1 → SameIds s next) ∧
    (ret ≠ -1 → Releasable next ret)

/-- A call that takes an id puts a record with it on the list. -/
def StartOk (s : State) (call : StartCall) : Prop :=
  call.Accepted → 0 < s.tids.tremainder → call.Inserts

def EventOk (s : State) : Event → Prop
  | .start call => StartOk s call
  | _ => True

instance (s : State) (call : StartCall) : Decidable (StartOk s call) :=
  inferInstanceAs (Decidable (_ → _))

instance (s : State) : (event : Event) → Decidable (EventOk s event)
  | .start call => inferInstanceAs (Decidable (StartOk s call))
  | .stop _ _ => isTrue trivial
  | .reset _ _ _ => isTrue trivial
  | .expire _ _ => isTrue trivial

/-- Every id is free or on the list. -/
def Conserved (s : State) : Prop := s.tids.tremainder + s.list.length = s.maxTmrNum

section Ids

variable {s : State} {free leaked : List Int} {used : List TidEntry}

theorem remainder_eq (owns : Owns s free leaked used) :
    s.tids.tremainder + s.list.length + leaked.length = s.maxTmrNum := by
  have remainder := owns.table.remainder
  have total := owns.table.total
  have paid := owns.used_length
  have sameMax := owns.sameMax
  omega

theorem conserved_iff (owns : Owns s free leaked used) : Conserved s ↔ leaked = [] := by
  have sum := remainder_eq owns
  unfold Conserved
  rw [← List.length_eq_zero_iff]
  omega

/-- The id of a timer on the list is given back. -/
theorem releasable_listed (owns : Owns s free leaked used) {id : Int} (listed : id ∈ s.ids) :
    Releasable s id := by
  intro mode
  rcases owns.stopped id mode with ⟨_, _, _, tids, _, _, _, done, kept⟩ | ⟨absent, _⟩
  · refine ⟨_, done, kept.table.allocatable (by simp), ?_⟩
    rw [kept.table.remainder, owns.table.remainder]
    simp
  · exact absurd listed absent

theorem not_releasable (owns : Owns s free leaked used) {id : Int} (absent : id ∉ s.ids) :
    ¬ Releasable s id := by
  intro released
  obtain ⟨next, done, _⟩ := released .stackUsed
  rcases owns.stopped id .stackUsed with ⟨_, _, _, _, _, list, same, _⟩ | ⟨_, unchanged⟩
  · apply absent
    simp [State.ids, list, same]
  · rw [unchanged] at done
    cases done

theorem startOk_empty (owns : Owns s [] leaked used) (call : StartCall) : StartOk s call := by
  intro _ left
  rw [owns.table.remainder] at left
  exact absurd left (by simp)

theorem startOk_left (owns : Owns s free leaked used) (some_ : free ≠ []) {call : StartCall}
    (accepted : call.Accepted) : StartOk s call ↔ call.Inserts := by
  have left : 0 < s.tids.tremainder := by
    have positive := List.length_pos_of_ne_nil some_
    rw [owns.table.remainder]
    omega
  exact ⟨fun ok => ok accepted left, fun inserts _ _ => inserts⟩

theorem leaksNothing_iff (owns : Owns s free leaked used) (call : StartCall) :
    LeaksNothing s call ↔ StartOk s call := by
  rcases owns.started call with ⟨empty, done⟩ | ⟨id, rest, tids, accepted, rfl, valid, fresh, taken⟩
  · refine iff_of_true ⟨_, _, done, fun _ => ⟨fun _ => Iff.rfl, rfl⟩, by simp⟩ fun accepted => ?_
    have nothing := empty accepted
    subst nothing
    exact startOk_empty owns call accepted
  · rw [startOk_left owns (List.cons_ne_nil id rest) accepted]
    rcases taken with ⟨inserts, record, same, done, kept⟩ | ⟨refused, ⟨ret, returned, done⟩, kept⟩
    · refine iff_of_true ⟨_, _, done, fun failed => absurd failed valid, fun _ => ?_⟩ inserts
      apply releasable_listed kept
      simp [State.ids, same]
    · refine iff_of_false ?_ refused
      rintro ⟨other, next, also, sameIds, released⟩
      cases done.symm.trans also
      rcases returned with rfl | rfl
      · exact not_releasable kept fresh (released valid)
      · have unchanged := (sameIds rfl).2
        rw [kept.table.remainder, owns.table.remainder] at unchanged
        rw [List.length_cons] at unchanged
        omega

theorem stop_leaked (owns : Owns s free leaked used) {timerId ret : Int} {mode : StopMode}
    {next : State} (stopped : timerStop s timerId mode = some (ret, next)) :
    ∃ remaining cells, Owns next remaining leaked cells := by
  rcases owns.stopped timerId mode with ⟨_, _, _, _, _, _, _, done, kept⟩ | ⟨_, unchanged⟩
  · cases done.symm.trans stopped
    exact ⟨_, _, kept⟩
  · cases unchanged.symm.trans stopped
    exact ⟨_, _, owns⟩

/-- An event that is not such a call leaves the leaked ids as they are. -/
theorem step_leaked (owns : Owns s free leaked used) {event : Event} (ok : EventOk s event)
    {next : State} (stepped : step s event = some next) :
    ∃ remaining cells, Owns next remaining leaked cells := by
  cases event with
  | start call =>
      rcases owns.started call with ⟨_, done⟩ | ⟨id, rest, tids, accepted, rfl, _, _, taken⟩
      · simp only [step, done, Option.map_some, Option.some.injEq] at stepped
        exact ⟨_, _, stepped ▸ owns⟩
      · have inserts := (startOk_left owns (List.cons_ne_nil id rest) accepted).mp ok
        rcases taken with ⟨_, record, _, done, kept⟩ | ⟨refused, _⟩
        · simp only [step, done, Option.map_some, Option.some.injEq] at stepped
          exact ⟨_, _, stepped ▸ kept⟩
        · exact absurd inserts refused
  | stop timerId mode =>
      obtain ⟨⟨ret, after⟩, stopped, rfl⟩ := Option.map_eq_some_iff.mp stepped
      exact stop_leaked owns stopped
  | reset timerId msecs gettimeofday =>
      cases stepped
      exact ⟨_, _, (owns.reset timerId msecs gettimeofday).1⟩
  | expire k gettimeofday =>
      obtain ⟨⟨after, fired⟩, visited, rfl⟩ := Option.map_eq_some_iff.mp stepped
      rcases (cmpTimerValue_cases visited).2 with rfl | ⟨id, ret, stopped⟩
      · exact ⟨_, _, owns⟩
      · exact stop_leaked owns stopped

/-- A call that is not such a call leaks one id more. -/
theorem step_leaks (owns : Owns s free leaked used) {event : Event} (bad : ¬ EventOk s event)
    {next : State} (stepped : step s event = some next) :
    ∃ id remaining cells, Owns next remaining (id :: leaked) cells := by
  cases event with
  | start call =>
      rcases owns.started call with ⟨empty, _⟩ | ⟨id, rest, tids, accepted, rfl, _, _, taken⟩
      · refine absurd (fun accepted => ?_) bad
        have nothing := empty accepted
        subst nothing
        exact startOk_empty owns call accepted
      · rcases taken with ⟨inserts, _⟩ | ⟨_, ⟨ret, _, done⟩, kept⟩
        · exact absurd (fun _ _ => inserts) bad
        · simp only [step, done, Option.map_some, Option.some.injEq] at stepped
          exact ⟨_, _, _, stepped ▸ kept⟩
  | stop timerId mode => exact absurd trivial bad
  | reset timerId msecs gettimeofday => exact absurd trivial bad
  | expire k gettimeofday => exact absurd trivial bad

end Ids

/-- In every reachable state a call of `timer_start` leaks nothing exactly when it puts the
id it takes on the list, and every id is free or on the list exactly as long as all calls
of the run did so. -/
theorem run_leaks {max : Nat} {start : State} (started : timerInit max = some start)
    (events : List Event) :
    (∀ final, run step start events = some final → ∀ call,
      LeaksNothing final call ↔ StartOk final call) ∧
      ((∀ taken, taken <+: events → ∀ middle, run step start taken = some middle →
        Conserved middle) ↔ AllSteps step EventOk start events) := by
  constructor
  · intro final reached call
    obtain ⟨free, leaked, used, owns⟩ := run_invariant Sound
      (fun _ _ _ before stepped => (step_sound before stepped).1) (timerInit_sound started).1
      reached
    exact leaksNothing_iff owns call
  · refine run_exact (fun s => ∃ free used, Owns s free [] used) Conserved ?_ ?_ ?_
      (timerInit_owns started).1 events
    · rintro s ⟨free, used, owns⟩
      exact (conserved_iff owns).mpr rfl
    · rintro s event next ⟨free, used, owns⟩ ok stepped
      exact step_leaked owns ok stepped
    · rintro s event next ⟨free, used, owns⟩ bad stepped conserved
      obtain ⟨id, remaining, cells, kept⟩ := step_leaks owns bad stepped
      exact absurd ((conserved_iff kept).mp conserved) (List.cons_ne_nil id [])

/-- A timer that starts and a `malloc` that fails, with two ids. -/
theorem run_leaks_two :
    ∃ start final, timerInit 2 = some start ∧
      run step start [.start ⟨100, none, 0, 0, 0, 3, true, some ⟨5, 0⟩⟩] = some final ∧
      Conserved final ∧ ¬ LeaksNothing final ⟨100, none, 0, 0, 0, 3, false, none⟩ := by
  have started : timerInit 2 = some ⟨2, funcInitTid 2, []⟩ := rfl
  obtain ⟨final, reached, leaky⟩ : ∃ final, run step ⟨2, funcInitTid 2, []⟩
      [.start ⟨100, none, 0, 0, 0, 3, true, some ⟨5, 0⟩⟩] = some final ∧
      ¬ StartOk final ⟨100, none, 0, 0, 0, 3, false, none⟩ := ⟨_, rfl, by decide⟩
  obtain ⟨calls, conserved⟩ :=
    run_leaks started [.start ⟨100, none, 0, 0, 0, 3, true, some ⟨5, 0⟩⟩]
  exact ⟨_, final, started, reached, conserved.mpr (by decide) _ (List.prefix_refl _) final reached,
    fun nothing => leaky ((calls final reached _).mp nothing)⟩

/-- The first `malloc` fails: the call returns -1 and its id is gone. -/
theorem timerStart_leaks :
    ¬ ∀ (max : Nat) (start final : State) (events : List Event), timerInit max = some start →
      run step start events = some final →
        (∀ call, LeaksNothing final call) ∧ Conserved final := by
  intro all
  obtain ⟨ret, next, done, sameIds, _⟩ :=
    (all 1 _ _ [] rfl rfl).1 ⟨100, none, 0, 0, 0, 3, false, none⟩
  have failed : timerStart ⟨1, funcInitTid 1, []⟩ ⟨100, none, 0, 0, 0, 3, false, none⟩ =
      some (-1, ⟨1, ⟨0, 0, true, 1, 0, [⟨true, 1⟩]⟩, []⟩) := by decide
  cases failed.symm.trans done
  exact absurd (sameIds rfl).2 (by decide)

end VnfMonitoring.TimerLeak
