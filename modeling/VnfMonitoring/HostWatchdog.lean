import Mathlib.Data.ENat.Basic

set_option autoImplicit false

/- `ResetWatchdogTask`: the bypass watchdog is reset when the second of the clock has
changed. The clock is read before the loop and once in every iteration. -/
namespace VnfMonitoring.HostWatchdog

/-- The variables `sectime` and `check1sec` of the task. -/
structure Watchdog where
  sectime : Int
  check1sec : Bool
  deriving DecidableEq, Repr

def Watchdog.start (tmSec : Int) : Watchdog := ⟨tmSec, false⟩

/-- One iteration, and whether it calls `ResetBypassWatchdog`. -/
def checkSecond (checkWatchdogMsec : Int) (s : Watchdog) (tmSec : Int) : Watchdog × Bool :=
  if s.sectime ≠ tmSec then
    if s.check1sec ≠ true ∧ checkWatchdogMsec ≠ 0 then (⟨tmSec, true⟩, true) else (s, false)
  else ({ s with check1sec := false }, false)

section Loop

variable (checkWatchdogMsec : Int) (tmSec : Nat → Int)

/-- The variables before iteration `k`, which reads the second `tmSec (k + 1)`. -/
def watchdog : Nat → Watchdog
  | 0 => .start (tmSec 0)
  | k + 1 => (checkSecond checkWatchdogMsec (watchdog k) (tmSec (k + 1))).1

/-- Whether iteration `k` calls `ResetBypassWatchdog`. -/
def resets (k : Nat) : Bool :=
  (checkSecond checkWatchdogMsec (watchdog checkWatchdogMsec tmSec k) (tmSec (k + 1))).2

/-- The second read by the last iteration before `k` that made a reset, or the initial
second when none did. -/
def lastReset : Nat → Int
  | 0 => tmSec 0
  | k + 1 => if resets checkWatchdogMsec tmSec k then tmSec (k + 1) else lastReset k

variable {checkWatchdogMsec tmSec}

theorem checkSecond_sectime (s : Watchdog) (sec : Int) :
    (checkSecond checkWatchdogMsec s sec).1.sectime =
      if (checkSecond checkWatchdogMsec s sec).2 then sec else s.sectime := by
  unfold checkSecond
  split
  · split <;> rfl
  · rfl

theorem watchdog_sectime (k : Nat) :
    (watchdog checkWatchdogMsec tmSec k).sectime = lastReset checkWatchdogMsec tmSec k := by
  induction k with
  | zero => rfl
  | succ k ih =>
      rw [watchdog, checkSecond_sectime, ih]
      rfl

/-- Whether the second read last before iteration `k` was a new one. -/
def fresh (tmSec : Nat → Int) : Nat → Bool
  | 0 => false
  | k + 1 => decide (tmSec (k + 1) ≠ tmSec k)

/-- From a state that has taken up the last second, a new second makes a reset if the
last one was not new itself. -/
theorem watchdog_succ (enabled : checkWatchdogMsec ≠ 0) {k : Nat}
    (seen : watchdog checkWatchdogMsec tmSec k = ⟨tmSec k, fresh tmSec k⟩)
    (rearmed : fresh tmSec k = true → tmSec (k + 1) = tmSec k) :
    watchdog checkWatchdogMsec tmSec (k + 1) = ⟨tmSec (k + 1), fresh tmSec (k + 1)⟩ ∧
      resets checkWatchdogMsec tmSec k = fresh tmSec (k + 1) := by
  rw [watchdog, resets, seen, checkSecond, fresh]
  by_cases same : tmSec (k + 1) = tmSec k
  · simp [same]
  · have armed : fresh tmSec k ≠ true := fun new => same (rearmed new)
    simp [same, Ne.symm same, armed, enabled]

/-- A new second right after a reset is not taken up. -/
theorem resets_missed {k : Nat} {sec : Int}
    (seen : watchdog checkWatchdogMsec tmSec k = ⟨sec, true⟩) :
    resets checkWatchdogMsec tmSec k = false := by
  rw [resets, seen, checkSecond]
  split
  · rw [if_neg fun armed => armed.1 rfl]
  · rfl

/-- Every new second makes a reset exactly when every second is read at least twice in a
row, but for the last one read. -/
theorem run_resets (enabled : checkWatchdogMsec ≠ 0) (tmSec : Nat → Int) (count : ℕ∞) :
    (∀ k : Nat, (k : ℕ∞) < count → tmSec (k + 1) ≠ lastReset checkWatchdogMsec tmSec k →
        resets checkWatchdogMsec tmSec k = true) ↔
      ∀ k : Nat, ((k + 1 : Nat) : ℕ∞) < count → tmSec (k + 1) ≠ tmSec k →
        tmSec (k + 2) = tmSec (k + 1) := by
  have earlier {k : Nat} (later : ((k + 1 : Nat) : ℕ∞) ≤ count) : (k : ℕ∞) < count :=
    lt_of_lt_of_le (by exact_mod_cast Nat.lt_succ_self k) later
  constructor
  · intro answered
    have seen (k : Nat) (inside : (k : ℕ∞) ≤ count) :
        watchdog checkWatchdogMsec tmSec k = ⟨tmSec k, fresh tmSec k⟩ := by
      induction k with
      | zero => rfl
      | succ k ih =>
          have before := ih (earlier inside).le
          refine (watchdog_succ enabled before fun new => ?_).1
          by_contra changed
          rw [new] at before
          have reset := answered k (earlier inside) (by rwa [← watchdog_sectime, before])
          rw [resets_missed before] at reset
          cases reset
    intro k inside new
    by_contra changed
    have state := seen (k + 1) inside.le
    rw [show fresh tmSec (k + 1) = true from decide_eq_true new] at state
    have reset := answered (k + 1) inside (by rwa [← watchdog_sectime, state])
    rw [resets_missed state] at reset
    cases reset
  · intro twice
    have rearmed (k : Nat) (inside : (k : ℕ∞) < count) (new : fresh tmSec k = true) :
        tmSec (k + 1) = tmSec k := by
      cases k with
      | zero => cases new
      | succ k => exact twice k inside (of_decide_eq_true new)
    have seen (k : Nat) (inside : (k : ℕ∞) ≤ count) :
        watchdog checkWatchdogMsec tmSec k = ⟨tmSec k, fresh tmSec k⟩ := by
      induction k with
      | zero => rfl
      | succ k ih =>
          exact (watchdog_succ enabled (ih (earlier inside).le) (rearmed k (earlier inside))).1
    intro k inside changed
    have state := seen k inside.le
    rw [← watchdog_sectime, state] at changed
    rw [(watchdog_succ enabled state (rearmed k inside)).2]
    exact decide_eq_true changed

end Loop

/-- A clock that is read twice in every second. -/
def halfSeconds (k : Nat) : Int := (k / 2 : Nat)

theorem run_resets_halfSeconds : resets 2000 halfSeconds 7 = true := by
  have twice : ∀ k : Nat, ((k + 1 : Nat) : ℕ∞) < ⊤ → halfSeconds (k + 1) ≠ halfSeconds k →
      halfSeconds (k + 2) = halfSeconds (k + 1) := by
    intro k _ new
    simp only [halfSeconds] at new ⊢
    omega
  exact (run_resets (by decide) halfSeconds ⊤).mpr twice 7 (ENat.natCast_lt_top 7) (by decide)

/-- A clock that is read once in every second, from 10 on: second 12 differs from that of
the last reset and makes none. -/
theorem resets_onceASecond :
    ¬ ((10 + 2 : Int) ≠ lastReset 2000 (fun k => 10 + k) 1 →
      resets 2000 (fun k => 10 + k) 1 = true) := by decide

end VnfMonitoring.HostWatchdog
