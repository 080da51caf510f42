import VnfMonitoring.KutilProcess
import VnfMonitoring.NetworkEntries

set_option autoImplicit false

/- From the processes of the agents' machines to the rows of the database: the system with
`proccheckbyname` in the loop of `SendProcStateReq`. -/
namespace VnfMonitoring.NetworkProcesses

open VnfMonitoring.Memory VnfMonitoring.Socket VnfMonitoring.TcpFrame VnfMonitoring.Bpapp
  VnfMonitoring.Pqmb VnfMonitoring.VmctReport VnfMonitoring.KutilProcess VnfMonitoring.DbmbStatus
  VnfMonitoring.Network VnfMonitoring.NetworkEntries VnfMonitoring.Pipes VnfMonitoring.Runs

/-- What `proccheckbyname` returns for a process of the configuration. There is no value when
the index leaves the array or the name does not end. -/
def checkOf (popen : Popen) (proc : VmctProc) (i : Nat) : Option Int :=
  if inside : i < maxVmProcNum then
    (str (proc.pstate ⟨i, inside⟩).processName).bind fun name =>
      proccheckbyname popen (some name)
  else none

/-- The loop of `SendProcStateReq` from index `i` on; `popens` are those of its rounds. -/
def checkProcesses (order : ByteOrder) (popens : Nat → Popen) :
    Nat → Nat → VmctProc × VmProcStateMsg → Option (VmctProc × VmProcStateMsg)
  | 0, _, s => some s
  | remaining + 1, i, s =>
      (checkOf (popens i) s.1 i).bind fun found =>
        (reportProcess order (fun _ => decide (found ≠ 0)) i s).bind
          (checkProcesses order popens remaining (i + 1))

/-- What the rounds find. -/
def foundFrom (popens : Nat → Popen) (proc : VmctProc) : Nat → Nat → Option (Nat → Int)
  | 0, _ => some fun _ => 0
  | remaining + 1, i =>
      (checkOf (popens i) proc i).bind fun found =>
        (foundFrom popens proc remaining (i + 1)).map fun others => Function.update others i found

/-- The processes that a call finds up. -/
def upOf (popens : Nat → Popen) (proc : VmctProc) : Option (Nat → Bool) :=
  (foundFrom popens proc proc.pcount.toNat 0).map fun found i => decide (found i ≠ 0)

/-- `SendProcStateReq` up to its `TcpSend`, as `VmctReport.sendProcStateReq` but with the
checks in its loop. -/
def sendProcStateReq (order : ByteOrder) (popens : Nat → Popen) (conf : VmctConfig) :
    Option (VmctConfig × VmProcStateMsg × Bytes 952) :=
  (checkProcesses order popens conf.vmctProc.pcount.toNat 0
    (conf.vmctProc, blankMsg order conf)).bind fun s =>
  (setIdentifiers order { conf with vmctProc := s.1 } s.2).map fun msg =>
    ({ conf with vmctProc := s.1 }, msg,
      ⟨(reqHeader.hton order).image order ++ msg.image order, message_length order msg⟩)

inductive ProcessEvent where
  /-- The agent of a connection checks its processes and reports. -/
  | report (c : Nat) (fd : Int) (conf : VmctConfig) (reportable : Reportable conf)
      (popens : Nat → Popen) (env : SendEnv)
  /-- A step of the system that is no report. -/
  | other (event : NetworkEvent)

def Reports : NetworkEvent → Prop
  | .report _ _ _ _ => True
  | .close _ | .host _ | .checkVm _ _ _ | .process _ _ _ => False

instance : (event : NetworkEvent) → Decidable (Reports event)
  | .report _ _ _ _ => isTrue trivial
  | .close _ | .host _ | .checkVm _ _ _ | .process _ _ _ => isFalse id

def step (order : ByteOrder) (traced : Bool) (s : System) : ProcessEvent → Option System
  | .report c fd conf reportable popens env =>
      (upOf popens conf.vmctProc).bind fun up =>
        Network.step order traced s (.report c fd ⟨conf, up, reportable⟩ env)
  | .other event => if Reports event then none else Network.step order traced s event

/-- The event of the system that an event stands for. -/
def translate : ProcessEvent → List NetworkEvent
  | .report c fd conf reportable popens env =>
      ((upOf popens conf.vmctProc).map fun up =>
        .report c fd ⟨conf, up, reportable⟩ env).toList
  | .other event => if Reports event then [] else [event]

section Loop

variable {order : ByteOrder} {popens : Nat → Popen}

/-- A round changes no name. -/
theorem checkOf_congr {popen : Popen} {proc other : VmctProc} (i : Nat)
    (names : ∀ k, (other.pstate k).processName = (proc.pstate k).processName) :
    checkOf popen other i = checkOf popen proc i := by
  unfold checkOf
  split
  · rw [names]
  · rfl

theorem reportProcess_names {up : Nat → Bool} {i : Nat} {s next : VmctProc × VmProcStateMsg}
    (done : reportProcess order up i s = some next) (k : Fin maxVmProcNum) :
    (next.1.pstate k).processName = (s.1.pstate k).processName := by
  unfold reportProcess at done
  split at done
  · rename_i inside
    obtain ⟨copied, _, rfl⟩ := Option.map_eq_some_iff.mp done
    by_cases here : k = ⟨i, inside⟩
    · subst here
      simp only [Function.update_self]
    · simp only [Function.update_of_ne here]
  · cases done

theorem foundFrom_congr {proc other : VmctProc} (remaining i : Nat)
    (names : ∀ k, (other.pstate k).processName = (proc.pstate k).processName) :
    foundFrom popens other remaining i = foundFrom popens proc remaining i := by
  induction remaining generalizing i with
  | zero => rfl
  | succ remaining ih => rw [foundFrom, foundFrom, checkOf_congr i names, ih]

theorem reportProcess_congr {up other : Nat → Bool} {i : Nat} (same : up i = other i)
    (s : VmctProc × VmProcStateMsg) :
    reportProcess order up i s = reportProcess order other i s := by
  unfold reportProcess
  rw [same]

theorem reportProcesses_congr {up other : Nat → Bool} (remaining i : Nat)
    (same : ∀ k, i ≤ k → k < i + remaining → up k = other k) (s : VmctProc × VmProcStateMsg) :
    reportProcesses order up remaining i s = reportProcesses order other remaining i s := by
  induction remaining generalizing i s with
  | zero => rfl
  | succ remaining ih =>
      rw [reportProcesses, reportProcesses, reportProcess_congr (same i (by omega) (by omega))]
      apply Option.bind_congr
      intro next _
      exact ih (i + 1) (fun k low high => same k (by omega) (by omega)) next

/-- The loop is that of the report for what its rounds find. -/
theorem checkProcesses_eq (remaining i : Nat) (s : VmctProc × VmProcStateMsg) :
    checkProcesses order popens remaining i s =
      (foundFrom popens s.1 remaining i).bind fun found =>
        reportProcesses order (fun k => decide (found k ≠ 0)) remaining i s := by
  induction remaining generalizing i s with
  | zero => rfl
  | succ remaining ih =>
      rw [checkProcesses, foundFrom, Option.bind_assoc]
      apply Option.bind_congr
      intro found _
      have rounds (others : Nat → Int) :
          reportProcesses order (fun k => decide (Function.update others i found k ≠ 0))
              (remaining + 1) i s =
            (reportProcess order (fun _ => decide (found ≠ 0)) i s).bind
              (reportProcesses order (fun k => decide (others k ≠ 0)) remaining (i + 1)) := by
        have here :
            reportProcess order (fun k => decide (Function.update others i found k ≠ 0)) i s =
              reportProcess order (fun _ => decide (found ≠ 0)) i s :=
          reportProcess_congr (by simp only [Function.update_self]) s
        rw [reportProcesses, here]
        apply Option.bind_congr
        intro next _
        apply reportProcesses_congr
        intro k low _
        have behind : k ≠ i := by omega
        simp only [Function.update_of_ne behind]
      rw [Option.bind_map]
      simp only [Function.comp_def, rounds]
      rw [Option.bind_comm]
      apply Option.bind_congr
      intro next done
      rw [ih, foundFrom_congr remaining (i + 1) (reportProcess_names done)]

/-- A call reports what its checks find. -/
theorem sendProcStateReq_eq (conf : VmctConfig) :
    sendProcStateReq order popens conf =
      (upOf popens conf.vmctProc).bind (VmctReport.sendProcStateReq order conf) := by
  rw [sendProcStateReq, checkProcesses_eq, Option.bind_assoc, upOf, Option.bind_map]
  rfl

end Loop

section Checked

variable {order : ByteOrder} {popens : Nat → Popen} {proc : VmctProc}

end Checked

section Runs

variable {order : ByteOrder} {traced : Bool} {s next : System}

/-- The report of an agent is its call with the checks in the loop, and what the `TcpSend`
behind it leaves in the pipe. -/
theorem step_report {c : Nat} {fd : Int} {conf : VmctConfig} {reportable : Reportable conf}
    {popens : Nat → Popen} {env : SendEnv} (open_ : (s.pipes c).closed = false) :
    step order traced s (.report c fd conf reportable popens env) =
      (sendProcStateReq order popens conf).bind fun called =>
        (sendFrame order fd called.2.2 tcpMsgLength env).map fun result =>
          { s with
            pipes := Function.update s.pipes c
              (if result.totalLen > 0 then (s.pipes c).put called.2.1 result.wire
              else if result.disconnect then (s.pipes c).cut result.wire
              else s.pipes c) } := by
  rw [sendProcStateReq_eq, Option.bind_assoc, step]
  apply Option.bind_congr
  intro up _
  simp only [Network.step, open_, Bool.false_eq_true, if_false, reportStep, Option.map_bind]
  apply Option.bind_congr
  intro called _
  exact Option.map_map ..

theorem step_translated {event : ProcessEvent} (stepped : step order traced s event = some next) :
    run (Network.step order traced) s (translate event) = some next := by
  cases event with
  | report c fd conf reportable popens env =>
      obtain ⟨up, done, stepped⟩ := Option.bind_eq_some_iff.mp stepped
      rw [translate, done, Option.map_some, Option.toList_some, run_singleton]
      exact stepped
  | other event =>
      rw [step, Option.ite_none_left_eq_some] at stepped
      rw [translate, if_neg stepped.1, run_singleton]
      exact stepped.2

end Runs

end VnfMonitoring.NetworkProcesses
