import VnfMonitoring.HostConf
import VnfMonitoring.VmctProcessList

set_option autoImplicit false

/- The sampling periods that the host and the agent take from `bpapp.cfg`, as divisors of
a second of the clock. -/
namespace VnfMonitoring.ConfPeriod

open VnfMonitoring.Memory VnfMonitoring.Runs VnfMonitoring.Objects VnfMonitoring.Lines
  VnfMonitoring.Fields VnfMonitoring.Bpapp VnfMonitoring.DbmbStatus VnfMonitoring.ConfFile

def periods : List UInt32 := [5, 10, 20, 30, 60]

/-- `%` of two `int`s, which has no value for the divisor 0. -/
def remainder (x divisor : Int) : Option Int :=
  if divisor = 0 then none else some (x.tmod divisor)

/-- The test of `TcpSessionTask` for a second to send at. -/
def sendsAt (order : ByteOrder) (c : VmctConf.VmctConfig) (tmSec : Int) : Option Bool :=
  (load16 order (c .vmctConf) VmctConf.vmstateSendtime.offset).bind fun sendtime =>
    (remainder tmSec sendtime.toNat).map (· = 1)

/-- The test of `CheckVmStatusTask` for a second to check at. -/
def checksAt (order : ByteOrder) (c : HostConf.HostConfig) (tmSec : Int) : Option Bool :=
  (load32 order (c .checkVmcstatusSec) 0).bind fun seconds =>
    (remainder tmSec seconds.toInt32.toInt).map (· = 0)

/-- The agent's period is legal, and so is every remainder it takes. -/
def AgentLegal (order : ByteOrder) (c : VmctConf.VmctConfig) : Prop :=
  (∃ sendtime, load16 order (c .vmctConf) VmctConf.vmstateSendtime.offset = some sendtime ∧
    sendtime.toUInt32 ∈ periods) ∧ ∀ tmSec, (sendsAt order c tmSec).isSome

def HostLegal (order : ByteOrder) (c : HostConf.HostConfig) : Prop :=
  (∃ seconds, load32 order (c .checkVmcstatusSec) 0 = some seconds ∧ seconds ∈ periods) ∧
    ∀ tmSec, (checksAt order c tmSec).isSome

/-- Some line, or piece of one that `fgets` cuts, assigns a number to `VM_STATE_SEND_TIME`. -/
def SetsSendTime (d : UInt32) (content : List UInt8) : Prop :=
  ∃ buf ∈ pieces newline (VmctConf.strSize - 1) [] content, ∃ between value,
    words (lineText buf) = [chars "VM_STATE_SEND_TIME", between, value] ∧
      (isdigit d value).isSome

theorem period_mem (d : UInt32) : period d ∈ periods := by
  unfold period periods
  split
  · simp
  split
  · simp
  split
  · simp
  split <;> simp

theorem period_toUInt16 (d : UInt32) : (period d).toUInt16.toUInt32 ∈ periods := by
  have same : ∀ x ∈ periods, x.toUInt16.toUInt32 = x := by simp [periods]
  rw [same _ (period_mem d)]
  exact period_mem d

section Assigned

variable {Obj : Type} [DecidableEq Obj] {size : Obj → Nat} {settings : List (Setting Obj)}
  {field : Place Obj} {key : List UInt8}

/-- What a field holds after a file, where one key alone writes to it, and only something
good, for a number. -/
theorem good_assignedAll (Good : List UInt8 → Prop) {d : UInt32} {writes : UInt32 → Write Obj}
    (others : ∀ name value, name ≠ key → ∀ w ∈ assigned settings name value, w.place.Apart field)
    (numbers : ∀ value, assigned settings key value =
      ((isdigit d value).map fun x => [writes x]).getD [])
    (place : ∀ x, (writes x).place = field) (good : ∀ x, Good (writes x).bytes)
    {given : List (List UInt8 × List UInt8)} {c final : Contents size}
    (done : run write c (assignedAll settings given) = some final) :
    Good (Objects.read final field) ↔
      Good (Objects.read c field) ∨ ∃ value, (key, value) ∈ given ∧ (isdigit d value).isSome := by
  induction given generalizing c with
  | nil =>
      cases done
      simp
  | cons entry given ih =>
      obtain ⟨name, value⟩ := entry
      rw [assignedAll, List.flatMap_cons, run_append] at done
      obtain ⟨next, first, later⟩ := Option.bind_eq_some_iff.mp done
      rw [ih later]
      by_cases here : name = key
      · subst here
        rw [numbers] at first
        cases number : isdigit d value with
        | some x =>
            rw [number, Option.map_some, Option.getD_some, run_singleton] at first
            have stored : Objects.read next field = (writes x).bytes := by
              rw [← place x]
              exact region_write first
            exact iff_of_true (Or.inl (stored ▸ good x))
              (Or.inr ⟨value, List.mem_cons_self, by simp [number]⟩)
        | none =>
            rw [number] at first
            cases first
            refine or_congr_right (exists_congr fun other => ?_)
            rw [List.mem_cons, or_and_right]
            refine (or_iff_right ?_).symm
            rintro ⟨same, set_⟩
            cases same
            rw [number] at set_
            cases set_
      · rw [read_run (others name value here) first]
        refine or_congr_right (exists_congr fun other => and_congr_left fun _ => ?_)
        rw [List.mem_cons, or_iff_right fun same => here (congrArg Prod.fst same).symm]

end Assigned

section Agent

variable {order : ByteOrder} {inetAddr : List UInt8 → UInt32} {d : UInt32}

theorem agentLegal_iff (c : VmctConf.VmctConfig) :
    AgentLegal order c ↔
      (UInt16.ofNat (order.valueOf (Objects.read c VmctConf.vmstateSendtime))).toUInt32 ∈ periods := by
  have loaded : load16 order (c .vmctConf) VmctConf.vmstateSendtime.offset =
      some (UInt16.ofNat (order.valueOf (Objects.read c VmctConf.vmstateSendtime))) :=
    load16_eq (by decide)
  unfold AgentLegal sendsAt
  rw [loaded]
  generalize UInt16.ofNat (order.valueOf (Objects.read c VmctConf.vmstateSendtime)) = sendtime
  constructor
  · rintro ⟨⟨_, same, legal⟩, _⟩
    exact Option.some.inj same ▸ legal
  intro legal
  refine ⟨⟨sendtime, rfl, legal⟩, fun tmSec => ?_⟩
  have nonzero : (sendtime.toNat : Int) ≠ 0 := by
    intro zero
    have same : sendtime = 0 := UInt16.toNat_inj.mp (Int.natCast_eq_zero.mp zero)
    rw [same] at legal
    exact absurd legal (by decide)
  rw [Option.bind_some, remainder, if_neg nonzero]
  rfl

/-- The writes of the key, and of the others. -/
theorem assigned_sendTime (value : List UInt8) :
    assigned (VmctConf.settings order inetAddr d) (chars "VM_STATE_SEND_TIME") value =
      ((isdigit d value).map fun x =>
        [word16 order VmctConf.vmstateSendtime (period x).toUInt16]).getD [] :=
  assigned_eq (VmctConf.settings_nodup order inetAddr d) (.tail _ (.tail _ (.tail _ (.head _)))) value

theorem assigned_apart_sendTime (name value : List UInt8)
    (other : name ≠ chars "VM_STATE_SEND_TIME") :
    ∀ w ∈ assigned (VmctConf.settings order inetAddr d) name value,
      w.place.Apart VmctConf.vmstateSendtime := by
  intro w member
  obtain ⟨setting, inside, rfl, writes⟩ := mem_assigned.mp member
  have spares := forall_of_shape (VmctConf.settings_shape order inetAddr d)
    (P := fun shape => shape.1 ≠ chars "VM_STATE_SEND_TIME" →
      Spares shape.2.1 shape.2.2 VmctConf.vmstateSendtime) (by decide) setting inside other
  exact Spares.apart spares (VmctConf.settings_placed order inetAddr d setting inside) value w
    writes

theorem initVariable_sendTime {name : List UInt8} {id : UInt32} {c : VmctConf.VmctConfig}
    (initial : VmctConf.initVariable order name id = some c) :
    Objects.read c VmctConf.vmstateSendtime = [0, 0] := by
  refine (read_run (fun w member => ?_) initial).trans rfl
  simp only [List.mem_cons, List.not_mem_nil, or_false] at member
  have link : VmctConf.Obj.tlinkHost ≠ .vmctConf := by decide
  rcases member with rfl | rfl | rfl | rfl | rfl | rfl | rfl | rfl | rfl
  iterate 7 exact Or.inl link
  · exact Or.inr (Or.inr (show 2 + 2 ≤ 54 by decide))
  · exact Or.inr (Or.inr (show 2 + 2 ≤ 12 by decide))

/-- The agent's period is legal exactly when the file sets it. -/
theorem agentLegal_of_reads {name : List UInt8} {id : UInt32} {content : List UInt8}
    {processes : Option (List UInt8)} {ret : Int} {final : VmctConf.VmctConfig}
    (reads : ((VmctConf.initVariable order name id).bind fun c =>
      VmctProcess.readConfig order inetAddr d c (some content) processes) = some (ret, final)) :
    AgentLegal order final ↔ SetsSendTime d content := by
  obtain ⟨initial, cleared, rest⟩ := Option.bind_eq_some_iff.mp reads
  obtain ⟨middle, lines, names⟩ := Option.bind_eq_some_iff.mp rest
  rw [readLines_eq (VmctConf.keys_realise order inetAddr d)] at lines
  obtain ⟨given, scanned, done⟩ := Option.bind_eq_some_iff.mp lines
  have good (x : UInt32) : (UInt16.ofNat (order.valueOf
      (word16 order VmctConf.vmstateSendtime (period x).toUInt16).bytes)).toUInt32 ∈ periods := by
    rw [word16, order.valueOf_bytesOf 2 _ (UInt16.toNat_lt _), UInt16.ofNat_toNat]
    exact period_toUInt16 x
  have unset : ¬ (UInt16.ofNat (order.valueOf [0, 0])).toUInt32 ∈ periods := by
    cases order <;> decide
  rw [agentLegal_iff, VmctProcessList.readUtmProcessConfig_keeps (Or.inr (by decide)) names,
    good_assignedAll (fun bytes => (UInt16.ofNat (order.valueOf bytes)).toUInt32 ∈ periods)
      assigned_apart_sendTime assigned_sendTime (fun _ => word16_place order _) good done,
    initVariable_sendTime cleared, or_iff_right unset]
  have listed (value : List UInt8) : (chars "VM_STATE_SEND_TIME", value) ∈ given ↔ _ :=
    mem_assignments scanned (by decide)
  simp only [listed, SetsSendTime]
  constructor
  · rintro ⟨value, ⟨buf, inside, between, split⟩, number⟩
    exact ⟨buf, inside, between, value, split, number⟩
  · rintro ⟨buf, inside, between, value, split, number⟩
    exact ⟨value, ⟨buf, inside, between, split⟩, number⟩

end Agent

section Host

variable {order : ByteOrder} {inetAddr : List UInt8 → UInt32} {d : UInt32}

theorem hostLegal_iff (c : HostConf.HostConfig) :
    HostLegal order c ↔
      UInt32.ofNat (order.valueOf (Objects.read c HostConf.checkVmcstatusSec)) ∈ periods := by
  have loaded : load32 order (c .checkVmcstatusSec) 0 =
      some (UInt32.ofNat (order.valueOf (Objects.read c HostConf.checkVmcstatusSec))) :=
    load32_eq (by decide)
  unfold HostLegal checksAt
  rw [loaded]
  generalize UInt32.ofNat (order.valueOf (Objects.read c HostConf.checkVmcstatusSec)) = seconds
  constructor
  · rintro ⟨⟨_, same, legal⟩, _⟩
    exact Option.some.inj same ▸ legal
  intro legal
  refine ⟨⟨seconds, rfl, legal⟩, fun tmSec => ?_⟩
  have nonzero : ∀ x ∈ periods, x.toInt32.toInt ≠ 0 := by simp [periods]
  rw [Option.bind_some, remainder, if_neg (nonzero seconds legal)]
  rfl

theorem assigned_checkVmcStatus (value : List UInt8) :
    assigned (HostConf.settings order inetAddr d) (chars "CHECK_VMC_STATUS_SEC") value =
      ((isdigit d value).map fun x =>
        [word32 order HostConf.checkVmcstatusSec (period x)]).getD [] :=
  assigned_eq (HostConf.settings_nodup order inetAddr d)
    (List.mem_of_getElem? (i := 12) rfl) value

theorem assigned_apart_checkVmcStatus (name value : List UInt8)
    (other : name ≠ chars "CHECK_VMC_STATUS_SEC") :
    ∀ w ∈ assigned (HostConf.settings order inetAddr d) name value,
      w.place.Apart HostConf.checkVmcstatusSec := by
  intro w member
  obtain ⟨setting, inside, rfl, writes⟩ := mem_assigned.mp member
  have spares := forall_of_shape (HostConf.settings_shape order inetAddr d)
    (P := fun shape => shape.1 ≠ chars "CHECK_VMC_STATUS_SEC" →
      Spares shape.2.1 shape.2.2 HostConf.checkVmcstatusSec) (by decide) setting inside other
  exact Spares.apart spares (HostConf.settings_placed order inetAddr d setting inside) value w
    writes

theorem initVariable_checkVmcStatus {path name : List UInt8} {id : UInt32}
    {c : HostConf.HostConfig} (initial : HostConf.initVariable order path name id = some c) :
    Objects.read c HostConf.checkVmcstatusSec = order.bytesOf 4 5 := by
  have hostConf : HostConf.Obj.hostConf ≠ .checkVmcstatusSec := by decide
  have tlink : HostConf.Obj.tlink ≠ .checkVmcstatusSec := by decide
  have kept : Objects.read c HostConf.checkVmcstatusSec =
      Objects.read (HostConf.cleared order) HostConf.checkVmcstatusSec := by
    refine read_run (fun w member => Or.inl ?_) initial
    simp only [List.mem_cons, List.not_mem_nil, or_false] at member
    rcases member with rfl | rfl | rfl | rfl | rfl | rfl | rfl | rfl | rfl | rfl | rfl | rfl | rfl |
      rfl | rfl | rfl | rfl | rfl | rfl | rfl | rfl
    iterate 15 exact hostConf
    iterate 6 exact tlink
  rw [kept]
  cases order <;> rfl

/-- The host's period is legal whatever the file, since it begins so. -/
theorem hostLegal_of_reads {path name : List UInt8} {id : UInt32}
    {content : List UInt8} {ret : Int} {final : HostConf.HostConfig}
    (reads : ((HostConf.initVariable order path name id).bind fun c =>
      HostConf.readConfig order inetAddr d c (some content)) = some (ret, final)) :
    HostLegal order final := by
  obtain ⟨initial, cleared, rest⟩ := Option.bind_eq_some_iff.mp reads
  obtain ⟨_, lines, pair⟩ := Option.map_eq_some_iff.mp rest
  cases pair
  rw [readLines_eq (HostConf.keys_realise order inetAddr d)] at lines
  obtain ⟨given, scanned, done⟩ := Option.bind_eq_some_iff.mp lines
  have legal (x : UInt32) (known : x ∈ periods) {bytes : List UInt8}
      (same : bytes = order.bytesOf 4 x.toNat) : UInt32.ofNat (order.valueOf bytes) ∈ periods := by
    rw [same, order.valueOf_bytesOf 4 _ (UInt32.toNat_lt _), UInt32.ofNat_toNat]
    exact known
  rw [hostLegal_iff, good_assignedAll (fun bytes => UInt32.ofNat (order.valueOf bytes) ∈ periods)
    assigned_apart_checkVmcStatus assigned_checkVmcStatus (fun _ => word32_place order _)
    (fun x => legal (period x) (period_mem x) rfl) done]
  exact Or.inl (legal 5 (by decide) (initVariable_checkVmcStatus cleared))

end Host

/-- After files that both programs accept, the periods of both are legal exactly when the
agent's file sets its own. -/
theorem readConfig_periods {agentOrder hostOrder : ByteOrder}
    {agentAddr hostAddr : List UInt8 → UInt32} {d e : UInt32} {agentName path hostName : List UInt8}
    {agentId hostId : UInt32} {content hostContent : List UInt8}
    {processes : Option (List UInt8)} {agent : VmctConf.VmctConfig} {host : HostConf.HostConfig}
    (agentReads : ((VmctConf.initVariable agentOrder agentName agentId).bind fun c =>
      VmctProcess.readConfig agentOrder agentAddr d c (some content) processes) = some (0, agent))
    (hostReads : ((HostConf.initVariable hostOrder path hostName hostId).bind fun c =>
      HostConf.readConfig hostOrder hostAddr e c (some hostContent)) = some (0, host)) :
    AgentLegal agentOrder agent ∧ HostLegal hostOrder host ↔ SetsSendTime d content := by
  rw [agentLegal_of_reads agentReads, and_iff_left (hostLegal_of_reads hostReads)]

/-- The agent after a configuration file and an empty list of processes. -/
def agentReads (content : List UInt8) : Option (Int × VmctConf.VmctConfig) :=
  (VmctConf.initVariable .little [] 0).bind fun c =>
    VmctProcess.readConfig .little (fun _ => 0) 0 c (some content) (some [])

theorem readConfig_periods_ten : ∃ agent host,
    agentReads (chars "VM_STATE_SEND_TIME = 7") = some (0, agent) ∧
      AgentLegal .little agent ∧ HostLegal .little host := by
  obtain ⟨⟨ret, agent⟩, reads, zero⟩ := Option.map_eq_some_iff.mp
    (show (agentReads (chars "VM_STATE_SEND_TIME = 7")).map Prod.fst = some 0 by decide +kernel)
  cases zero
  obtain ⟨⟨ret, host⟩, hostReads, zero⟩ := Option.map_eq_some_iff.mp
    (show (((HostConf.initVariable .little [] [] 0).bind fun c =>
      HostConf.readConfig .little (fun _ => 0) 0 c (some [])).map Prod.fst) = some 0 by decide)
  cases zero
  exact ⟨agent, host, reads, (readConfig_periods reads hostReads).mpr
    ⟨chars "VM_STATE_SEND_TIME = 7", by decide, chars "=", chars "7", by decide, by decide⟩⟩

/-- Without the key, the agent is left with the period 0. -/
theorem readConfig_no_period : ∃ agent, agentReads [] = some (0, agent) ∧
    ¬ AgentLegal .little agent := by
  obtain ⟨⟨ret, agent⟩, reads, zero⟩ := Option.map_eq_some_iff.mp
    (show (agentReads []).map Prod.fst = some 0 by decide)
  cases zero
  refine ⟨agent, reads, fun legal => ?_⟩
  obtain ⟨buf, member, _⟩ := (agentLegal_of_reads reads).mp legal
  cases member

end VnfMonitoring.ConfPeriod
