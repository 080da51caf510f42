import VnfMonitoring.TimerStore

set_option autoImplicit false

/- One pass of `cmp_timer_value` over the linked records, beside `timer_stop` calls of
other threads. The pass gives `time_mutex` up between two records, and inside a record when
it resets a repeating timer. -/
namespace VnfMonitoring.TimerPass

open VnfMonitoring.TimerIds VnfMonitoring.Timer VnfMonitoring.Chain VnfMonitoring.Dlist
open VnfMonitoring.TimerStore VnfMonitoring.Runs

/-- Where the pass is. No address stands for `tail`. -/
inductive Place where
  | begin_
  | loop (ent : Option Addr)
  | readId (ent : Addr)
  | readPeriod (ent : Addr) (id : Int)
  | reset (ent : Addr) (id : Int) (msecs : Int32)
  | advance (ent : Addr)
  | finished
  deriving DecidableEq, Repr

/-- The pass, with the records it has looked at and whether a record has been read, by any
thread, that was no longer in the store. -/
structure Pass where
  store : Store
  place : Place
  visited : List Addr
  missed : Bool

/-- `ent = ent->next`. -/
def toNext (s : Pass) (ent : Addr) : Option Pass :=
  (s.store.timers.nodes ent).map fun node => { s with place := .loop node.next }

/-- The section of the loop that looks at a record; one for which the clock fails is
looked at again. -/
def look (s : Pass) (ent : Addr) (tp : Timeval) : Option Pass :=
  (s.store.timers.nodes ent).bind fun node =>
    let s := { s with visited := s.visited ++ [ent] }
    if elapsedUsecs node.item tp > node.item.period then
      match node.item.action with
      | some _ =>
          if node.item.arg3 = tmrRepeat then some { s with place := .readId ent }
          else (stop s.store node.item.id).bind fun (_, store) => toNext { s with store } ent
      | none => some { s with place := .finished }
    else toNext s ent

/-- A step of the pass: an access outside the mutex or a section under it. -/
def advancePass (s : Pass) (gettimeofday : Option Timeval) : Option Pass :=
  match s.place with
  | .begin_ => some { s with place := .loop s.store.timers.first }
  | .loop none => some { s with place := .finished }
  | .loop (some ent) =>
      match gettimeofday with
      | none => some s
      | some tp => look s ent tp
  | .readId ent =>
      (s.store.timers.nodes ent).map fun node =>
        { s with place := .readPeriod ent node.item.id }
  | .readPeriod ent id =>
      (s.store.timers.nodes ent).map fun node =>
        { s with place := .reset ent id node.item.arg2 }
  | .reset ent id msecs =>
      (TimerStore.reset s.store id msecs gettimeofday).map fun (_, store) =>
        { s with store, place := .advance ent }
  | .advance ent => toNext s ent
  | .finished => some s

inductive Event where
  | pass (gettimeofday : Option Timeval)
  | stop (timerId : Int)

def step (s : Pass) : Event → Option Pass
  | .pass gettimeofday => some ((advancePass s gettimeofday).getD { s with missed := true })
  | .stop timerId =>
      match stop s.store timerId with
      | some (_, store) => some { s with store }
      | none => some { s with missed := true }

/-- The record that the pass will read next. -/
def Place.cursor : Place → Option Addr
  | .loop ent => ent
  | .readId ent => some ent
  | .readPeriod ent _ => some ent
  | .reset ent _ _ => some ent
  | .advance ent => some ent
  | _ => none

/-- A timer that the pass may find: it has not expired, or it has an action and repeats. -/
def Passable (tp : Timeval) (record : TimerRecord) : Prop :=
  elapsedUsecs record tp > record.period → record.action ≠ none ∧ record.arg3 = tmrRepeat

/-- The pass meets no expired timer that is one-shot or has no action, and another thread
stops no timer on whose record the pass stands. -/
def EventOk (s : Pass) : Event → Prop
  | .pass (some tp) =>
      ∀ ent ∈ (match s.place with | .loop ent => ent | _ => none),
        ∀ node ∈ s.store.timers.nodes ent, Passable tp node.item
  | .pass none => True
  | .stop timerId =>
      ∀ ent ∈ s.place.cursor, ∀ node ∈ s.store.timers.nodes ent, node.item.id ≠ timerId

instance (tp : Timeval) : DecidablePred (Passable tp) := fun _ =>
  inferInstanceAs (Decidable (_ → _))

instance (s : Pass) : (event : Event) → Decidable (EventOk s event)
  | .pass (some _) => inferInstanceAs (Decidable (∀ ent ∈ _, _))
  | .pass none => isTrue trivial
  | .stop _ => inferInstanceAs (Decidable (∀ ent ∈ _, _))

/-- The records on the list are those behind the pass, all looked at, and those ahead of
it, none looked at. -/
structure Walked (s : Pass) (seen rest : List Addr) : Prop where
  kept : ∃ cells, Keeps s.store cells ∧ addrs cells = seen ++ rest
  found : s.missed = false
  behind : ∀ a ∈ seen, a ∈ s.visited
  ahead : ∀ a ∈ rest, a ∉ s.visited
  once : s.visited.Nodup

/-- The place lies between them: ahead of it is the record of the loop, behind it the one
that is being left. -/
def Placed (place : Place) (seen rest : List Addr) : Prop :=
  match place with
  | .begin_ => seen = []
  | .loop ent => ent = rest.head?
  | .finished => rest = []
  | place => seen.getLast? = place.cursor

/-- An upper bound of the steps that the pass takes over a record, or at its ends. -/
def Place.steps : Place → Nat
  | .begin_ => 2
  | .loop _ => 1
  | .readId _ => 5
  | .readPeriod _ _ => 4
  | .reset _ _ _ => 3
  | .advance _ => 2
  | .finished => 0

theorem finished_of_steps {place : Place} (none_ : place.steps = 0) : place = .finished := by
  cases place with
  | finished => rfl
  | _ => exact absurd none_ (Nat.succ_ne_zero _)

def remaining (s : Pass) (rest : List Addr) : Nat := 5 * rest.length + s.place.steps

/-- A step of the pass for which the clock works. -/
def isTick : Event → Bool
  | .pass (some _) => true
  | _ => false

section Step

variable {s : Pass} {seen rest : List Addr}

/-- A record on the list is in the store and points to the next one. -/
theorem node_of_addrs {store : Store} {cells : List (Addr × TimerRecord)}
    (keeps : Keeps store cells) {before after : List Addr} {a : Addr}
    (split : addrs cells = before ++ a :: after) :
    ∃ node, store.timers.nodes a = some node ∧ node.next = after.head? := by
  obtain ⟨front, back, rfl, rfl, tail⟩ := List.map_eq_append_iff.mp split
  obtain ⟨cell, later, rfl, rfl, rfl⟩ := List.map_eq_cons_iff.mp tail
  obtain ⟨prev, found⟩ := keeps.linked.node
  exact ⟨_, found, List.head?_map.symm⟩

theorem Walked.move (walked : Walked s seen rest) (place : Place) :
    Walked { s with place } seen rest :=
  ⟨walked.kept, walked.found, walked.behind, walked.ahead, walked.once⟩

/-- The record that has just been looked at is behind the pass. -/
theorem Walked.visit {ent : Addr} (walked : Walked s seen (ent :: rest)) :
    Walked { s with visited := s.visited ++ [ent] } (seen ++ [ent]) rest := by
  obtain ⟨cells, keeps, split⟩ := walked.kept
  have fresh := walked.ahead ent List.mem_cons_self
  refine ⟨⟨cells, keeps, by rw [split, List.append_assoc, List.singleton_append]⟩, walked.found,
    ?_, ?_, ?_⟩
  · intro a member
    rcases List.mem_append.mp member with old | new
    · exact List.mem_append_left _ (walked.behind a old)
    · exact List.mem_append_right _ new
  · intro a member
    have distinct := keeps.linked.distinct
    rw [split] at distinct
    have apart : a ≠ ent := by
      rintro rfl
      have tail := (List.nodup_append.mp distinct).2.1
      exact (List.nodup_cons.mp tail).1 member
    simp [walked.ahead a (List.mem_cons_of_mem _ member), apart]
  · exact List.nodup_append.mpr ⟨walked.once, List.nodup_singleton ent, fun a old b new => by
      rintro rfl
      exact fresh (List.mem_singleton.mp new ▸ old)⟩

theorem toNext_walked {ent : Addr} (walked : Walked s (seen ++ [ent]) rest) :
    ∃ next, toNext s ent = some next ∧ Walked next (seen ++ [ent]) rest ∧
      next.place = .loop rest.head? := by
  obtain ⟨cells, keeps, split⟩ := walked.kept
  rw [List.append_assoc, List.singleton_append] at split
  obtain ⟨node, found, ahead⟩ := node_of_addrs keeps split
  exact ⟨_, by rw [toNext, found, Option.map_some], walked.move _, by rw [ahead]⟩

theorem look_walked {ent : Addr} (walked : Walked s seen (ent :: rest)) {tp : Timeval}
    (ok : ∀ node ∈ s.store.timers.nodes ent, Passable tp node.item) :
    ∃ next, look s ent tp = some next ∧ Walked next (seen ++ [ent]) rest ∧
      (next.place = .loop rest.head? ∨ next.place = .readId ent) := by
  obtain ⟨cells, keeps, split⟩ := walked.kept
  obtain ⟨node, found, _⟩ := node_of_addrs keeps split
  rw [look, found, Option.bind_some]
  dsimp only
  split
  · rename_i expired
    obtain ⟨acts, repeats⟩ := ok node found expired
    split
    · rw [if_pos repeats]
      exact ⟨_, rfl, walked.visit.move _, Or.inr rfl⟩
    · rename_i missing
      exact absurd missing acts
  · obtain ⟨next, done, kept, place⟩ := toNext_walked walked.visit
    exact ⟨next, done, kept, Or.inl place⟩

/-- A one-shot timer with an action is never passed: its record is freed before its `next`
is read. -/
theorem look_oneShot {ent : Addr} (walked : Walked s seen (ent :: rest))
    {node : Node Addr TimerRecord} (found : s.store.timers.nodes ent = some node) {tp : Timeval}
    (expired : elapsedUsecs node.item tp > node.item.period) (acts : node.item.action ≠ none)
    (once : node.item.arg3 ≠ tmrRepeat) : look s ent tp = none := by
  obtain ⟨cells, keeps, split⟩ := walked.kept
  have listedIds : (cells.map fun cell => cell.2.id).Nodup := by
    obtain ⟨free, leaked, used, owns⟩ := keeps.sound
    simpa [State.ids, listed, Function.comp_def] using (List.nodup_append.mp owns.nodup).1
  have member : (ent, node.item) ∈ cells := by
    obtain ⟨cell, inside, rfl⟩ := List.mem_map.mp (show ent ∈ addrs cells by simp [split])
    obtain ⟨before, after, rfl⟩ := List.append_of_mem inside
    obtain ⟨prev, here⟩ := keeps.linked.node
    cases here.symm.trans found
    exact inside
  obtain ⟨ret, store, left, done, kept, _, removed⟩ :=
    stop_refines keeps node.item.id .timerUsed
  have freed : store.timers.nodes ent = none := by
    rcases removed with ⟨_, _, absent⟩ | ⟨before, a, record, after, rfl, same, rfl⟩
    · refine absurd ?_ absent
      exact List.mem_map_of_mem (List.mem_map_of_mem (f := Prod.snd) member)
    · have self : ((a, record) : Addr × TimerRecord) = (ent, node.item) :=
        List.inj_on_of_nodup_map listedIds (by simp) member same
      cases self
      by_contra present
      have still := kept.linked.only ent present
      obtain ⟨_, _, noFront, noBack, _⟩ := nodup_middle keeps.linked.distinct
      rw [addrs_append, List.mem_append] at still
      exact still.elim noFront noBack
  obtain ⟨action, acting⟩ := Option.ne_none_iff_exists'.mp acts
  rw [look, found, Option.bind_some]
  dsimp only
  rw [if_pos expired, acting]
  simp only [if_neg once, done, Option.bind_some, toNext, freed, Option.map_none]

theorem closer {left right : Nat} (less : left < right) (tick : Bool) :
    left ≤ right - tick.toNat := by
  have bound := Bool.toNat_le tick
  omega

/-- While the pass leaves a record, the record is in the store. -/
theorem leaving_node {ent : Addr} (walked : Walked s seen rest)
    (placed : seen.getLast? = some ent) :
    ∃ node, s.store.timers.nodes ent = some node := by
  obtain ⟨cells, keeps, split⟩ := walked.kept
  obtain ⟨front, rfl⟩ := List.getLast?_eq_some_iff.mp placed
  rw [List.append_assoc, List.singleton_append] at split
  obtain ⟨node, found, _⟩ := node_of_addrs keeps split
  exact ⟨node, found⟩

theorem reset_walked (walked : Walked s seen rest) (id : Int) (msecs : Int32)
    (clock : Option Timeval) (place : Place) :
    ∃ ret store, TimerStore.reset s.store id msecs clock = some (ret, store) ∧
      Walked { s with store, place } seen rest := by
  obtain ⟨cells, keeps, split⟩ := walked.kept
  obtain ⟨ret, next, after, done, kept, _, sameAddrs⟩ := reset_refines keeps id msecs clock
  exact ⟨ret, next, done, ⟨after, kept, sameAddrs.trans split⟩, walked.found, walked.behind,
    walked.ahead, walked.once⟩

/-- A step of the pass stays on the list and comes closer to its end. -/
theorem advancePass_walked (walked : Walked s seen rest) (placed : Placed s.place seen rest)
    {clock : Option Timeval} (ok : EventOk s (.pass clock)) :
    ∃ next seen' rest', advancePass s clock = some next ∧ Walked next seen' rest' ∧
      Placed next.place seen' rest' ∧
      remaining next rest' ≤ remaining s rest - (isTick (.pass clock)).toNat := by
  unfold advancePass
  cases place : s.place with
  | begin_ =>
      rw [place] at placed
      obtain rfl : seen = [] := placed
      obtain ⟨cells, keeps, split⟩ := walked.kept
      have first : s.store.timers.first = rest.head? := by
        rw [keeps.linked.segment.first_eq, ← List.head?_map]
        exact congrArg List.head? split
      refine ⟨_, [], rest, rfl, walked.move _, first, closer ?_ _⟩
      simp [remaining, place, Place.steps]
  | loop ent =>
      rw [place] at placed
      cases rest with
      | nil =>
          obtain rfl : ent = none := placed
          refine ⟨_, seen, [], rfl, walked.move _, rfl, closer ?_ _⟩
          simp [remaining, place, Place.steps]
      | cons first rest =>
          obtain rfl : ent = some first := placed
          cases clock with
          | none => exact ⟨s, seen, first :: rest, rfl, walked, by rw [place]; rfl, Nat.le_refl _⟩
          | some tp =>
              have passable : ∀ node ∈ s.store.timers.nodes first, Passable tp node.item := by
                unfold EventOk at ok
                rw [place] at ok
                exact ok first rfl
              obtain ⟨next, done, kept, same | same⟩ := look_walked walked passable
              · refine ⟨next, seen ++ [first], rest, done, kept, by rw [same]; rfl, closer ?_ _⟩
                simp only [remaining, place, same, Place.steps, List.length_cons]
                omega
              · refine ⟨next, seen ++ [first], rest, done, kept, ?_, closer ?_ _⟩
                · rw [same]
                  exact List.getLast?_concat
                · simp only [remaining, place, same, Place.steps, List.length_cons]
                  omega
  | readId ent =>
      rw [place] at placed
      obtain ⟨node, found⟩ := leaving_node walked placed
      refine ⟨_, seen, rest, by simp only [found, Option.map_some],
        walked.move (.readPeriod ent node.item.id), placed, closer ?_ _⟩
      simp [remaining, place, Place.steps]
  | readPeriod ent id =>
      rw [place] at placed
      obtain ⟨node, found⟩ := leaving_node walked placed
      refine ⟨_, seen, rest, by simp only [found, Option.map_some],
        walked.move (.reset ent id node.item.arg2), placed, closer ?_ _⟩
      simp [remaining, place, Place.steps]
  | reset ent id msecs =>
      rw [place] at placed
      obtain ⟨ret, store, done, kept⟩ := reset_walked walked id msecs clock (.advance ent)
      refine ⟨_, seen, rest, by simp only [done, Option.map_some], kept, placed, closer ?_ _⟩
      simp [remaining, place, Place.steps]
  | advance ent =>
      rw [place] at placed
      obtain ⟨front, rfl⟩ := List.getLast?_eq_some_iff.mp placed
      obtain ⟨next, done, kept, same⟩ := toNext_walked walked
      refine ⟨next, _, rest, done, kept, by rw [same]; rfl, closer ?_ _⟩
      simp [remaining, place, same, Place.steps]
  | finished =>
      rw [place] at placed
      obtain rfl : rest = [] := placed
      refine ⟨s, seen, [], rfl, walked, by rw [place]; rfl, ?_⟩
      simp [remaining, place, Place.steps]

/-- A removed record was behind the pass or ahead of it. -/
theorem split_cases {before after : List Addr} {a : Addr}
    (same : seen ++ rest = before ++ a :: after) :
    (∃ middle, seen = before ++ a :: middle ∧ after = middle ++ rest) ∨
      ∃ middle, rest = middle ++ a :: after ∧ before = seen ++ middle := by
  rcases List.append_eq_append_iff.mp same with ⟨middle, here, there⟩ | ⟨middle, here, there⟩
  · exact Or.inr ⟨middle, there, here⟩
  · cases middle with
    | nil =>
        refine Or.inr ⟨[], there.symm, ?_⟩
        simpa using here.symm
    | cons first middle =>
        rw [List.cons_append, List.cons.injEq] at there
        obtain ⟨rfl, rfl⟩ := there
        exact Or.inl ⟨middle, here, rfl⟩

/-- A removal elsewhere leaves the place of the pass. -/
theorem placed_behind {place : Place} {before middle : List Addr} {a : Addr}
    (placed : Placed place (before ++ a :: middle) rest) (elsewhere : place.cursor ≠ some a) :
    Placed place (before ++ middle) rest := by
  have last (ent : Addr) (other : some ent ≠ some a)
      (here : (before ++ a :: middle).getLast? = some ent) :
      (before ++ middle).getLast? = some ent := by
    rcases List.eq_nil_or_concat middle with rfl | ⟨front, final, rfl⟩
    · rw [List.getLast?_concat] at here
      exact absurd here.symm other
    · rw [List.concat_eq_append, ← List.cons_append, ← List.append_assoc,
        List.getLast?_concat] at here
      rw [List.concat_eq_append, ← List.append_assoc, List.getLast?_concat]
      exact here
  cases place with
  | begin_ => exact absurd placed (by simp [Placed])
  | loop ent => exact placed
  | readId ent => exact last ent elsewhere placed
  | readPeriod ent id => exact last ent elsewhere placed
  | reset ent id msecs => exact last ent elsewhere placed
  | advance ent => exact last ent elsewhere placed
  | finished => exact placed

theorem placed_ahead {place : Place} {middle after : List Addr} {a : Addr}
    (placed : Placed place seen (middle ++ a :: after)) (elsewhere : place.cursor ≠ some a) :
    Placed place seen (middle ++ after) := by
  cases place with
  | loop ent =>
      cases middle with
      | nil => exact absurd placed elsewhere
      | cons first middle => exact placed
  | finished => exact absurd placed (by simp [Placed])
  | begin_ => exact placed
  | readId ent => exact placed
  | readPeriod ent id => exact placed
  | reset ent id msecs => exact placed
  | advance ent => exact placed

/-- A timer that another thread stops is not the one of the pass. -/
theorem stop_walked (walked : Walked s seen rest) (placed : Placed s.place seen rest)
    {timerId : Int} (ok : EventOk s (.stop timerId)) :
    ∃ ret store seen' rest', stop s.store timerId = some (ret, store) ∧
      Walked { s with store } seen' rest' ∧ Placed s.place seen' rest' ∧
      rest'.length ≤ rest.length := by
  obtain ⟨cells, keeps, split⟩ := walked.kept
  obtain ⟨ret, next, left, done, kept, _, removed⟩ := stop_refines keeps timerId .stackUsed
  rcases removed with ⟨rfl, rfl, _⟩ | ⟨before, a, record, after, rfl, same, rfl⟩
  · exact ⟨ret, _, seen, rest, done, walked, placed, Nat.le_refl _⟩
  · obtain ⟨prev, found⟩ := keeps.linked.node
    have elsewhere : s.place.cursor ≠ some a := fun here => ok a here _ found same
    rw [addrs_append, addrs_cons] at split
    rcases split_cases split.symm with ⟨middle, rfl, later⟩ | ⟨middle, rfl, earlier⟩
    · refine ⟨ret, next, addrs before ++ middle, rest, done,
        ⟨⟨_, kept, ?_⟩, walked.found, fun b member => ?_, walked.ahead, walked.once⟩,
        placed_behind placed elsewhere, Nat.le_refl _⟩
      · rw [addrs_append, later, List.append_assoc]
      · apply walked.behind
        rcases List.mem_append.mp member with front | back
        · exact List.mem_append_left _ front
        · exact List.mem_append_right _ (List.mem_cons_of_mem _ back)
    · refine ⟨ret, next, seen, middle ++ addrs after, done,
        ⟨⟨_, kept, ?_⟩, walked.found, walked.behind, fun b member => ?_, walked.once⟩,
        placed_ahead placed elsewhere, ?_⟩
      · rw [addrs_append, earlier, List.append_assoc]
      · apply walked.ahead
        rcases List.mem_append.mp member with front | back
        · exact List.mem_append_left _ front
        · exact List.mem_append_right _ (List.mem_cons_of_mem _ back)
      · simp

/-- An allowed event reads no freed record. -/
theorem step_walked (walked : Walked s seen rest) (placed : Placed s.place seen rest)
    {event : Event} (ok : EventOk s event) {next : Pass} (stepped : step s event = some next) :
    ∃ seen' rest', Walked next seen' rest' ∧ Placed next.place seen' rest' ∧
      remaining next rest' ≤ remaining s rest - (isTick event).toNat := by
  cases event with
  | pass clock =>
      obtain ⟨after, seen', rest', done, kept, placed, close⟩ :=
        advancePass_walked walked placed ok
      rw [step, done, Option.getD_some] at stepped
      cases stepped
      exact ⟨seen', rest', kept, placed, close⟩
  | stop timerId =>
      obtain ⟨ret, store, seen', rest', done, kept, placed, shorter⟩ :=
        stop_walked walked placed ok
      simp only [step, done] at stepped
      cases stepped
      refine ⟨seen', rest', kept, placed, ?_⟩
      simp only [remaining, isTick, Bool.toNat_false, Nat.sub_zero]
      omega

end Step

theorem run_walked {s final : Pass} {events : List Event} {seen rest : List Addr}
    (walked : Walked s seen rest) (placed : Placed s.place seen rest)
    (allowed : AllSteps step EventOk s events) (reached : run step s events = some final) :
    ∃ seen' rest', Walked final seen' rest' ∧ Placed final.place seen' rest' ∧
      remaining final rest' ≤ remaining s rest - events.countP isTick := by
  induction events generalizing s seen rest with
  | nil =>
      cases reached
      exact ⟨seen, rest, walked, placed, Nat.le_refl _⟩
  | cons event events ih =>
      obtain ⟨next, stepped, later⟩ := run_cons_some reached
      obtain ⟨ok, others⟩ := allowed next stepped
      obtain ⟨seen', rest', kept, place, close⟩ := step_walked walked placed ok stepped
      obtain ⟨last, ahead, done, ends, closer⟩ := ih kept place others later
      refine ⟨last, ahead, done, ends, ?_⟩
      rw [List.countP_cons]
      cases tick : isTick event with
      | true =>
          rw [tick, Bool.toNat_true] at close
          rw [if_pos rfl]
          omega
      | false =>
          rw [tick, Bool.toNat_false] at close
          rw [if_neg Bool.false_ne_true]
          omega

/-- The pass over any list and beside any `timer_stop` calls: no record is read that is
not in the store, no timer is looked at twice, the pass ends, and it has then looked at
every timer that is still there. -/
theorem run_pass {start final : Pass} {cells : List (Addr × TimerRecord)} {events : List Event}
    (keeps : Keeps start.store cells)
    (begins : start.place = .begin_ ∧ start.visited = [] ∧ start.missed = false)
    (allowed : AllSteps step EventOk start events) (reached : run step start events = some final) :
    final.missed = false ∧ final.visited.Nodup ∧
      (5 * cells.length + 2 ≤ events.countP isTick → final.place = .finished) ∧
      (final.place = .finished →
        ∀ a, final.store.timers.nodes a ≠ none → final.visited.count a = 1) := by
  obtain ⟨place, unvisited, found⟩ := begins
  have walked : Walked start [] (addrs cells) :=
    ⟨⟨cells, keeps, rfl⟩, found, by simp, by simp [unvisited], by simp [unvisited]⟩
  obtain ⟨seen, rest, kept, placed, close⟩ :=
    run_walked walked (by rw [place]; rfl) allowed reached
  refine ⟨kept.found, kept.once, fun enough => ?_, fun finished a present => ?_⟩
  · apply finished_of_steps
    have first : start.place.steps = 2 := by rw [place]; rfl
    simp only [remaining, first, addrs_length] at close
    omega
  · rw [finished] at placed
    obtain rfl : rest = [] := placed
    obtain ⟨remaining, linked, split⟩ := kept.kept
    have member := linked.linked.mem_iff.mp present
    rw [split, List.append_nil] at member
    exact List.count_eq_one_of_mem kept.once (kept.behind a member)

/-- A timer of 100 ms. -/
def tenth (arg3 : Int32) : TimerRecord :=
  ⟨1, periodOf 100, 5, 0, 0, 100, arg3, some .tmrExpireFunc⟩

/-- Its list, before a pass. -/
def oneTimer (arg3 : Int32) : Pass where
  store :=
    { maxTmrNum := 1
      tids := ⟨0, 0, true, 1, 0, [⟨true, 1⟩]⟩
      timers :=
        { nodes := fun a => if a = 10 then some ⟨none, none, tenth arg3⟩ else none
          first := some 10
          last := some 10 } }
  place := .begin_
  visited := []
  missed := false

theorem oneTimer_keeps (arg3 : Int32) :
    Keeps (oneTimer arg3).store [(10, tenth arg3)] where
  linked :=
    { segment := ⟨rfl, none, rfl, rfl, rfl⟩
      distinct := List.nodup_singleton _
      only := by simp [oneTimer] }
  sound := by
    have started : timerInit 1 = some ⟨1, funcInitTid 1, []⟩ := rfl
    obtain ⟨ret, next, done, sound, _⟩ := timerStart_spec (timerInit_sound started).1
      ⟨100, none, 0, 100, arg3, 3, true, some ⟨5, 0⟩⟩
    have first : timerStart ⟨1, funcInitTid 1, []⟩
        ⟨100, none, 0, 100, arg3, 3, true, some ⟨5, 0⟩⟩ =
        some (1, listed (oneTimer arg3).store [(10, tenth arg3)]) := rfl
    cases first.symm.trans done
    exact sound

/-- Two repeating timers, before a pass. -/
def twoTimers : Pass where
  store :=
    { maxTmrNum := 2
      tids := ⟨0, 0, true, 2, 0, [⟨true, 1⟩, ⟨true, 2⟩]⟩
      timers :=
        { nodes := fun a =>
            if a = 10 then some ⟨some 20, none, tenth tmrRepeat⟩
            else if a = 20 then some ⟨none, some 10, { tenth tmrRepeat with id := 2 }⟩
            else none
          first := some 10
          last := some 20 } }
  place := .begin_
  visited := []
  missed := false

def twoCells : List (Addr × TimerRecord) :=
  [(10, tenth tmrRepeat), (20, { tenth tmrRepeat with id := 2 })]

theorem twoTimers_keeps : Keeps twoTimers.store twoCells where
  linked :=
    { segment := ⟨rfl, some 20, rfl, rfl, none, rfl, rfl, rfl⟩
      distinct := by decide
      only := by
        intro a present
        by_contra absent_
        simp only [twoCells, addrs, List.map_cons, List.map_nil, List.mem_cons, List.not_mem_nil,
          or_false, not_or] at absent_
        exact present (by simp only [twoTimers, absent_, if_false]) }
  sound := by
    have started : timerInit 2 = some ⟨2, funcInitTid 2, []⟩ := rfl
    obtain ⟨_, one, first, sound, _⟩ := timerStart_spec (timerInit_sound started).1
      ⟨100, none, 0, 100, tmrRepeat, 3, true, some ⟨5, 0⟩⟩
    obtain ⟨_, two, second, both, _⟩ := timerStart_spec sound
      ⟨100, none, 0, 100, tmrRepeat, 3, true, some ⟨5, 0⟩⟩
    have again : ((timerStart ⟨2, funcInitTid 2, []⟩
        ⟨100, none, 0, 100, tmrRepeat, 3, true, some ⟨5, 0⟩⟩).bind fun x =>
          timerStart x.2 ⟨100, none, 0, 100, tmrRepeat, 3, true, some ⟨5, 0⟩⟩) =
        some (2, listed twoTimers.store twoCells) := rfl
    rw [first, Option.bind_some, second] at again
    cases again
    exact both

/-- Both expire. The second one is stopped by another thread while the pass is at the first. -/
def stoppedPass : List Event :=
  [.pass (some ⟨6, 0⟩), .pass (some ⟨6, 0⟩), .stop 2] ++ List.replicate 10 (.pass (some ⟨6, 0⟩))

theorem run_pass_stopped :
    ∃ final, run step twoTimers stoppedPass = some final ∧
      final.place = .finished ∧ final.missed = false ∧ final.store.timers.nodes 20 = none ∧
        final.visited.count 10 = 1 := by
  obtain ⟨final, reached, present, gone⟩ : ∃ final, run step twoTimers stoppedPass = some final ∧
      final.store.timers.nodes 10 ≠ none ∧ final.store.timers.nodes 20 = none :=
    exists_of_any (by decide)
  obtain ⟨found, _, ends, visited⟩ :=
    run_pass twoTimers_keeps ⟨rfl, rfl, rfl⟩ (by decide) reached
  have finished := ends (by decide)
  exact ⟨final, reached, finished, found, gone, visited finished 10 present⟩

/-- A one-shot timer that expires is freed before its `next` is read. -/
theorem pass_missed :
    ¬ ∀ (start final : Pass) (cells : List (Addr × TimerRecord)) (events : List Event),
      Keeps start.store cells →
      start.place = .begin_ ∧ start.visited = [] ∧ start.missed = false →
      run step start events = some final → final.missed = false := by
  intro all
  have found := all (oneTimer 0) _ _ [.pass (some ⟨6, 0⟩), .pass (some ⟨6, 0⟩)]
    (oneTimer_keeps 0) ⟨rfl, rfl, rfl⟩ rfl
  cases found

end VnfMonitoring.TimerPass
