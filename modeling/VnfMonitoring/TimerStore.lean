import VnfMonitoring.Timer
import VnfMonitoring.Lib.Dlist

set_option autoImplicit false

/- The timer list as `timer.c` keeps it: records in a store, linked in both directions
between `head` and `tail`. Every operation refines the one on the plain list. -/
namespace VnfMonitoring.TimerStore

open VnfMonitoring.TimerIds VnfMonitoring.Timer VnfMonitoring.Chain VnfMonitoring.Dlist

abbrev Addr := Nat

structure Store where
  maxTmrNum : Nat
  tids : Tids
  timers : NodeList Addr TimerRecord

/-- `search_timer_list`; no address stands for `tail`. A list has at most as many records
as there are ids. -/
def search (s : Store) (id : Int) : Option (Option Addr) :=
  find s.timers.nodes (fun record => decide (record.id = id)) s.maxTmrNum s.timers.first

/-- `delete_timer_list`. This and what follows has no value when a record is read that is
not in the store. -/
def delete (s : Store) (id : Int) : Option (Int × Store) :=
  if id ≤ 0 then some (-1, s)
  else
    (search s id).bind fun
      | some a => (unlink s.timers a).map fun timers => (0, { s with timers })
      | none => some (-1, s)

/-- `timer_stop`. -/
def stop (s : Store) (timerId : Int) : Option (Int × Store) :=
  if timerId < 1 ∨ timerId > s.maxTmrNum then some (-1, s)
  else
    (delete s timerId).bind fun (ret, s) =>
      if ret < 0 then some (-1, s)
      else
        (funcCancelTid s.tids timerId).map fun (ret, tids) =>
          if ret = -1 then (-1, { s with tids }) else (0, { s with tids })

/-- The assignments of `timer_reset`. -/
def rearm (timerId : Int) (period : Int32) (tp : Timeval) (record : TimerRecord) : TimerRecord :=
  { record with id := timerId, period, tvSec := Int32.ofInt tp.tvSec,
                tvUsec := Int32.ofInt tp.tvUsec }

/-- `timer_reset`. -/
def reset (s : Store) (timerId : Int) (msecs : Int32) (gettimeofday : Option Timeval) :
    Option (Int × Store) :=
  if timerId < 1 ∨ timerId > s.maxTmrNum then some (-1, s)
  else if msecs < 0 then some (-1, s)
  else
    let period := if msecs ≠ 0 then periodOf msecs else 0
    (search s timerId).bind fun
      | some a =>
          match gettimeofday with
          | none => some (-1, s)
          | some tp =>
              (setItem s.timers a (rearm timerId period tp)).map fun timers =>
                (0, { s with timers })
      | none => some (0, s)

/-- The plain list behind the records. -/
def listed (s : Store) (cells : List (Addr × TimerRecord)) : State :=
  ⟨s.maxTmrNum, s.tids, cells.map Prod.snd⟩

structure Keeps (s : Store) (cells : List (Addr × TimerRecord)) : Prop where
  linked : Linked s.timers cells
  sound : Sound (listed s cells)

section Refinement

variable {s : Store} {cells : List (Addr × TimerRecord)}

/-- The search finds the record that it finds on the list. -/
theorem search_cases (keeps : Keeps s cells) (id : Int) :
    (search s id = some none ∧ searchTimerList (listed s cells).list id = none) ∨
      ∃ before a record after, cells = before ++ (a, record) :: after ∧ record.id = id ∧
        (∀ other ∈ before.map Prod.snd, other.id ≠ record.id) ∧ search s id = some (some a) := by
  have enough : cells.length ≤ s.maxTmrNum := by
    have bound := keeps.sound.length_le
    simpa [listed] using bound
  have searched : search s id = _ := find_segment _ keeps.linked.segment enough
  rw [searched]
  cases found : cells.find? fun cell => decide (cell.2.id = id) with
  | none =>
      refine Or.inl ⟨rfl, searchTimerList_none.mpr fun member => ?_⟩
      obtain ⟨record, inside, same⟩ := List.mem_map.mp member
      obtain ⟨cell, here, rfl⟩ := List.mem_map.mp inside
      exact absurd same (by simpa using List.find?_eq_none.mp found cell here)
  | some cell =>
      obtain ⟨same, before, after, rfl, earlier⟩ := List.find?_eq_some_iff_append.mp found
      have matched : cell.2.id = id := by simpa using same
      refine Or.inr ⟨before, cell.1, cell.2, after, rfl, matched, fun other member => ?_, rfl⟩
      obtain ⟨first, inside, rfl⟩ := List.mem_map.mp member
      simpa [matched] using earlier first inside

/-- `timer_stop` on the store does what it does on the list. It only takes a record with
the id out. -/
theorem stop_refines (keeps : Keeps s cells) (timerId : Int) (mode : StopMode) :
    ∃ ret next rest, stop s timerId = some (ret, next) ∧ Keeps next rest ∧
      timerStop (listed s cells) timerId mode = some (ret, listed next rest) ∧
      ((next = s ∧ rest = cells ∧ timerId ∉ (listed s cells).ids) ∨
        ∃ before a record after, cells = before ++ (a, record) :: after ∧ record.id = timerId ∧
          rest = before ++ after) := by
  have refused (absent : timerId ∉ (listed s cells).ids) :
      timerStop (listed s cells) timerId mode = some (-1, listed s cells) := by
    rcases timerStop_spec keeps.sound timerId mode with ⟨_, _, _, _, list, same, _⟩ | ⟨_, done⟩
    · refine absurd ?_ absent
      simp [State.ids, list, same]
    · exact done
  by_cases valid : timerId < 1 ∨ timerId > s.maxTmrNum
  · have absent : timerId ∉ (listed s cells).ids := by
      intro member
      obtain ⟨free, leaked, used, owns⟩ := keeps.sound
      have inside := owns.ids_valid (List.mem_append_left _ member)
      have sameMax : (listed s cells).maxTmrNum = s.maxTmrNum := rfl
      omega
    exact ⟨-1, s, cells, by rw [stop, if_pos valid], keeps, refused absent,
      Or.inl ⟨rfl, rfl, absent⟩⟩
  · have positive : ¬ timerId ≤ 0 := by omega
    rcases search_cases keeps timerId with
      ⟨none_, absent⟩ | ⟨before, a, record, after, rfl, same, earlier, found⟩
    · refine ⟨-1, s, cells, ?_, keeps, refused (searchTimerList_none.mp absent),
        Or.inl ⟨rfl, rfl, searchTimerList_none.mp absent⟩⟩
      rw [stop, if_neg valid]
      simp [delete, positive, none_]
    · obtain ⟨timers, unlinked, linked⟩ := unlink_linked keeps.linked
      obtain ⟨free, leaked, used, owns⟩ := keeps.sound
      have split : (listed s (before ++ (a, record) :: after)).list =
          before.map Prod.snd ++ record :: after.map Prod.snd := by
        simp [listed]
      obtain ⟨tids, _, cancelled, _⟩ := owns.cancelled split
      have deleted : deleteTimerList (listed s (before ++ (a, record) :: after)).list timerId =
          (0, before.map Prod.snd ++ after.map Prod.snd) := by
        rw [split, ← same]
        exact deleteTimerList_first (by omega) earlier
      rw [same] at cancelled
      have done : timerStop (listed s (before ++ (a, record) :: after)) timerId mode =
          some (0, listed { s with timers, tids } (before ++ after)) := by
        have inside : ¬ (timerId < 1 ∨
            timerId > (listed s (before ++ (a, record) :: after)).maxTmrNum) := valid
        rw [timerStop, if_neg inside]
        simp only [deleted, cancelled, Option.map_some]
        simp [listed]
      refine ⟨0, { s with timers, tids }, before ++ after, ?_,
        ⟨linked, (timerStop_sound keeps.sound done).1⟩, done,
        Or.inr ⟨before, a, record, after, rfl, same, rfl⟩⟩
      have here : funcCancelTid s.tids timerId = some (0, tids) := cancelled
      rw [stop, if_neg valid]
      simp [delete, positive, found, unlinked, here]

/-- `timer_reset` on the store does what it does on the list, and moves no record. -/
theorem reset_refines (keeps : Keeps s cells) (timerId : Int) (msecs : Int32)
    (gettimeofday : Option Timeval) :
    ∃ ret next rest, reset s timerId msecs gettimeofday = some (ret, next) ∧ Keeps next rest ∧
      timerReset (listed s cells) timerId msecs gettimeofday = (ret, listed next rest) ∧
      addrs rest = addrs cells := by
  by_cases valid : timerId < 1 ∨ timerId > s.maxTmrNum
  · refine ⟨-1, s, cells, by rw [reset, if_pos valid], keeps, ?_, rfl⟩
    rw [timerReset, if_pos (show timerId < 1 ∨ timerId > (listed s cells).maxTmrNum from valid)]
  have inside : ¬ (timerId < 1 ∨ timerId > (listed s cells).maxTmrNum) := valid
  by_cases negative : msecs < 0
  · refine ⟨-1, s, cells, by rw [reset, if_neg valid, if_pos negative], keeps, ?_, rfl⟩
    rw [timerReset, if_neg inside, if_pos negative]
  rcases search_cases keeps timerId with
    ⟨none_, absent⟩ | ⟨before, a, record, after, rfl, same, earlier, found⟩
  · refine ⟨0, s, cells, ?_, keeps, ?_, rfl⟩
    · rw [reset, if_neg valid, if_neg negative]
      simp [none_]
    · rw [timerReset, if_neg inside, if_neg negative]
      simp [absent]
  · have split : (listed s (before ++ (a, record) :: after)).list =
        before.map Prod.snd ++ record :: after.map Prod.snd := by
      simp [listed]
    have here : searchTimerList (listed s (before ++ (a, record) :: after)).list timerId =
        some record := by
      rw [split, ← same]
      exact searchTimerList_first earlier _
    cases gettimeofday with
    | none =>
        refine ⟨-1, s, _, ?_, keeps, ?_, rfl⟩
        · rw [reset, if_neg valid, if_neg negative]
          simp [found]
        · rw [timerReset, if_neg inside, if_neg negative]
          simp [here]
    | some tp =>
        let period := if msecs ≠ 0 then periodOf msecs else 0
        obtain ⟨timers, set, linked⟩ := setItem_linked keeps.linked (rearm timerId period tp)
        have done : timerReset (listed s (before ++ (a, record) :: after)) timerId msecs (some tp) =
            (0, listed { s with timers }
              (before ++ (a, rearm timerId period tp record) :: after)) := by
          have changed := resetTimerList_first period tp earlier (after.map Prod.snd)
          rw [timerReset, if_neg inside, if_neg negative]
          simp only [here]
          rw [split, ← same, changed]
          simp [listed, rearm]
        obtain ⟨free, leaked, used, owns⟩ := keeps.sound
        have kept := (owns.reset timerId msecs (some tp)).1
        rw [done] at kept
        refine ⟨0, { s with timers }, _, ?_, ⟨linked, _, _, _, kept⟩, done, by simp⟩
        rw [reset, if_neg valid, if_neg negative]
        simp only [found, Option.bind_some]
        rw [set]
        rfl

end Refinement

end VnfMonitoring.TimerStore
