import VnfMonitoring.HostProcess
import VnfMonitoring.PqmbServer

set_option autoImplicit false

/- `ProcessVmProcStateInfo` down to the texts: over any calls the server is handed what the
model of its table says, and every result is cleared. -/
namespace VnfMonitoring.HostQueries

open VnfMonitoring.Memory VnfMonitoring.Bpapp VnfMonitoring.Sql VnfMonitoring.Pqmb
  VnfMonitoring.PqmbQuery VnfMonitoring.PqmbServer VnfMonitoring.HostSock
  VnfMonitoring.HostTcpStatus VnfMonitoring.HostProcess VnfMonitoring.HostStateinfo
  VnfMonitoring.Runs

section Functions

variable {σ : Type} (server : PgServer σ) (test : Bool) (order : ByteOrder)

/-- The statements of a round of the loop over the snapshot. -/
def insertCloudDb (c : Conn σ) (vmstate : VmProcess) : Option (Conn σ) :=
  (pqSelectCountVMStateInfo server test c vmstate).bind fun (pqRetval, c) =>
    if pqRetval = 0 then (pqInsertVMStateInfo server test order c vmstate).map Prod.snd
    else if pqRetval ≥ 1 then
      (pqCheckVMStateInfo server test c vmstate).bind fun (count, c) =>
        if count = 0 then (pqUpdateVMStateInfo server test order c vmstate).map Prod.snd
        else some c
    else some c

def cloudRound (call : ProcessCall) (c : Conn σ) (i : Slot) : Option (Conn σ) :=
  (cloudVmState call i).bind fun vmstate =>
    if call.cloudMode = 1 then insertCloudDb server test order c vmstate else some c

/-- The loop over the table of the states between two rounds. -/
structure BaremetalConn (σ : Type) where
  vFlag : Bool
  conn : Conn σ

def baremetalRound (call : ProcessCall) (s : BaremetalConn σ) (i : Slot) :
    Option (BaremetalConn σ) :=
  let vmIp := (call.vminfo i).vmIp
  if vmIp = 0 then some s
  else
    let vFlag := if inSnapshot call vmIp then true else s.vFlag
    if vFlag then some { s with vFlag }
    else
      (baremetalVmState call i).bind fun vmstate =>
        if call.baremetalMode = 1 then
          (pqInsertVMStateInfo server test order s.conn vmstate).map fun (_, conn) =>
            { vFlag, conn }
        else some { s with vFlag }

/-- `ProcessVmProcStateInfo` behind its copies. -/
def processVmProcStateInfo (c : Conn σ) (call : ProcessCall) : Option (Conn σ) :=
  (run (cloudRound server test order call) c (listedSlots call.vmcount)).bind fun c =>
    (run (baremetalRound server test order call) ⟨false, c⟩ (List.finRange maxSystemNum)).map
      BaremetalConn.conn

end Functions

section Statements

variable {σ : Type} {server : PgServer σ} {test : Bool} {t : Strings} {v : VmProcess}
  {c : Conn σ}

/-- The statements of a round are those of the model for what the server makes of them. -/
theorem insertCloudDb_matched (order : ByteOrder) (lawful : server.Lawful test)
    (printable : Printable t v) {key : Key} (found : whereKey v = some key)
    (few : (rowsAt (server.table c.server) key).length < 2147483648) :
    ∃ next answers, insertCloudDb server test order c v = some next ∧
      next.results = c.results ∧
      HostProcess.insertCloudDb order answers (server.table c.server) v =
        some (server.table next.server) := by
  obtain ⟨count, counted, selectCount, selected, kept, same, modelCount⟩ :=
    pqSelectCountVMStateInfo_matched lawful printable found few
  by_cases missing : count = 0
  · obtain ⟨retval, next, insert, inserted, keptNext, modelInsert⟩ :=
      pqInsertVMStateInfo_matched order lawful printable counted
    refine ⟨next, ⟨selectCount, insert, true, true⟩, ?_, keptNext.trans kept, ?_⟩
    · rw [insertCloudDb, selected, Option.bind_some]
      dsimp only
      rw [if_pos missing, inserted, Option.map_some]
    · rw [same] at modelInsert
      rw [HostProcess.insertCloudDb, modelCount, Option.bind_some, if_pos missing]
      exact modelInsert
  by_cases present : count ≥ 1
  · have some_ : rowsAt (server.table counted.server) key ≠ [] := by
      intro empty
      rw [same] at empty
      rw [Pqmb.selectCountVMStateInfo, found, Option.map_some, empty, Option.some_inj]
        at modelCount
      split at modelCount
      · exact missing modelCount.symm
      · omega
    obtain ⟨number, checked, check, read, keptCheck, sameCheck, modelCheck⟩ :=
      pqCheckVMStateInfo_matched lawful printable found some_
    rw [same] at modelCheck
    by_cases empty : number = 0
    · obtain ⟨retval, next, update, updated, keptNext, modelUpdate⟩ :=
        pqUpdateVMStateInfo_matched order lawful printable checked
      refine ⟨next, ⟨selectCount, true, check, update⟩, ?_,
        keptNext.trans (keptCheck.trans kept), ?_⟩
      · rw [insertCloudDb, selected, Option.bind_some]
        dsimp only
        rw [if_neg missing, if_pos present, read, Option.bind_some]
        dsimp only
        rw [if_pos empty, updated, Option.map_some]
      · rw [sameCheck, same] at modelUpdate
        rw [HostProcess.insertCloudDb, modelCount, Option.bind_some, if_neg missing,
          if_pos present, modelCheck, Option.bind_some, if_pos empty]
        exact modelUpdate
    · refine ⟨checked, ⟨selectCount, true, check, true⟩, ?_, keptCheck.trans kept, ?_⟩
      · rw [insertCloudDb, selected, Option.bind_some]
        dsimp only
        rw [if_neg missing, if_pos present, read, Option.bind_some]
        dsimp only
        rw [if_neg empty]
      · rw [HostProcess.insertCloudDb, modelCount, Option.bind_some, if_neg missing,
          if_pos present, modelCheck, Option.bind_some, if_neg empty, sameCheck, same]
  · refine ⟨counted, ⟨selectCount, true, true, true⟩, ?_, kept, ?_⟩
    · rw [insertCloudDb, selected, Option.bind_some]
      dsimp only
      rw [if_neg missing, if_neg present]
    · rw [HostProcess.insertCloudDb, modelCount, Option.bind_some, if_neg missing,
        if_neg present, same]

end Statements

section Records

variable {call : ProcessCall} {v : VmProcess}

/-- A string that ends in its array, without a quote. -/
def Legible {n : Nat} (array : Bytes n) : Prop :=
  ∃ chars, str array = some chars ∧ quote ∉ chars

theorem Legible.isSome {n : Nat} {array : Bytes n} (legible : Legible array) :
    (str array).isSome := by
  obtain ⟨chars, read, -⟩ := legible
  rw [read]
  rfl

theorem Legible.copied {n m : Nat} {dest copied : Bytes n} {source : Bytes m}
    (legible : Legible source) (done : strcpy dest source.toList = some copied) :
    Legible copied := by
  obtain ⟨chars, read, plain⟩ := legible
  obtain ⟨others, same, copy⟩ := strcpy_reads done
  cases read.symm.trans same
  exact ⟨chars, copy, plain⟩

/-- Every string that the call reads is legible, the uuids end within the 64 characters of
`vm_id`, and the states of the processes fit what `%hu` prints. -/
structure PlainCall (call : ProcessCall) : Prop where
  ttime : Legible call.ttime
  vmUuid : ∀ i ∈ listedSlots call.vmcount, ∃ u,
    str (call.vstatus i).vmUuid = some u ∧ quote ∉ u ∧ u.length < maxNameLength * 2
  statusName : ∀ i ∈ listedSlots call.vmcount, Legible (call.vstatus i).vmName
  vmHostName : ∀ i ∈ listedSlots call.vmcount, Legible (call.vstatus i).vmHostName
  vmId : ∀ j, Legible (call.vminfo j).vmId
  vmName : ∀ j, Legible (call.vminfo j).vmName
  manageIp : ∀ j, Legible (call.vminfo j).manageIp
  processName : ∀ j k, Legible ((call.vminfo j).pstate k).processName
  processState : ∀ j k, ((call.vminfo j).pstate k).processState.toNat < 65536

theorem PlainCall.strings (plain : PlainCall call) : StringsEnd call where
  ttime := plain.ttime.isSome
  vmUuid i listed := by
    obtain ⟨u, read, -, short⟩ := plain.vmUuid i listed
    exact ⟨u, read, short⟩
  statusName i listed := (plain.statusName i listed).isSome
  vmHostName i listed := (plain.vmHostName i listed).isSome
  vmId j := (plain.vmId j).isSome
  vmName j := (plain.vmName j).isSome
  manageIp j := (plain.manageIp j).isSome
  processName j k := (plain.processName j k).isSome

/-- A record with legible strings is printed as it is. -/
theorem printable_of_legible (timeStamp : Legible v.timeStamp) (vmId : Legible v.vmId)
    (vmName : Legible v.vmName) (hostId : Legible v.hostId) (hostIp : Legible v.hostIp)
    (names : ∀ k, Legible (v.pstate k).processName)
    (states : ∀ k, (v.pstate k).processState.toNat < 65536) : ∃ t, Printable t v := by
  obtain ⟨time, timeRead, timePlain⟩ := timeStamp
  obtain ⟨id, idRead, idPlain⟩ := vmId
  obtain ⟨name, nameRead, namePlain⟩ := vmName
  obtain ⟨host, hostRead, hostPlain⟩ := hostId
  obtain ⟨ip, ipRead, ipPlain⟩ := hostIp
  choose process processRead processPlain using names
  refine ⟨⟨time, id, name, host, ip, process⟩,
    ⟨timeRead, idRead, nameRead, hostRead, ipRead, processRead⟩, ?_, states⟩
  simpa [Strings.all, timePlain, idPlain, namePlain, hostPlain, ipPlain] using processPlain

theorem basePState_legible (k : Fin maxVmProcNum) : Legible (basePState k).processName :=
  ⟨[45], by rfl, by decide⟩

theorem basePState_small (k : Fin maxVmProcNum) : (basePState k).processState.toNat < 65536 :=
  Nat.two_pow_pos 16

theorem legible_of_strcpy {n : Nat} {dest copied : Bytes n} {source chars : List UInt8}
    (read : cstr source = some chars) (plain : quote ∉ chars)
    (done : strcpy dest source = some copied) : Legible copied := by
  obtain ⟨others, same, copy⟩ := strcpy_reads done
  cases read.symm.trans same
  exact ⟨chars, copy, plain⟩

/-- The record of a VM of the snapshot. -/
theorem cloudVmState_printable (plain : PlainCall call) {i : Slot}
    (listed : i ∈ listedSlots call.vmcount) :
    ∃ v t, cloudVmState call i = some v ∧ Printable t v := by
  obtain ⟨v, formed, -⟩ := cloudVmState_formed .little plain.strings listed
  have whole := formed
  unfold cloudVmState at formed
  obtain ⟨timeStamp, timeCopied, formed⟩ := Option.bind_eq_some_iff.mp formed
  obtain ⟨vmId, idCopied, formed⟩ := Option.bind_eq_some_iff.mp formed
  obtain ⟨vmName, nameCopied, formed⟩ := Option.bind_eq_some_iff.mp formed
  obtain ⟨hostId, hostCopied, formed⟩ := Option.bind_eq_some_iff.mp formed
  obtain ⟨noIp, dashCopied, formed⟩ := Option.bind_eq_some_iff.mp formed
  obtain ⟨u, uuid, unquoted, -⟩ := plain.vmUuid i listed
  have dashRead : cstr [45, 0] = some [45] := by rfl
  have time := plain.ttime.copied timeCopied
  have id : Legible vmId := Legible.copied ⟨u, uuid, unquoted⟩ idCopied
  have name := (plain.statusName i listed).copied nameCopied
  have host := (plain.vmHostName i listed).copied hostCopied
  have printable : ∃ t, Printable t v := by
    cases found : findEntry call.vminfo (call.vstatus i).vmIpaddr with
    | some j =>
        rw [found] at formed
        obtain ⟨hostIp, ipCopied, same⟩ := Option.map_eq_some_iff.mp formed
        subst same
        exact printable_of_legible time id name host ((plain.manageIp j).copied ipCopied)
          (plain.processName j) (plain.processState j)
    | none =>
        rw [found] at formed
        cases formed
        exact printable_of_legible time id name host
          (legible_of_strcpy dashRead (by decide) dashCopied) basePState_legible basePState_small
  obtain ⟨t, printable⟩ := printable
  exact ⟨v, t, whole, printable⟩

/-- The record of a machine that only reports. -/
theorem baremetalVmState_printable (plain : PlainCall call) (i : Slot) :
    ∃ v t, baremetalVmState call i = some v ∧ Printable t v := by
  obtain ⟨v, formed, -⟩ := baremetalVmState_formed .little plain.strings i
  have whole := formed
  unfold baremetalVmState at formed
  obtain ⟨timeStamp, timeCopied, formed⟩ := Option.bind_eq_some_iff.mp formed
  obtain ⟨vmId, idCopied, formed⟩ := Option.bind_eq_some_iff.mp formed
  obtain ⟨vmName, nameCopied, formed⟩ := Option.bind_eq_some_iff.mp formed
  obtain ⟨hostId, hostCopied, formed⟩ := Option.bind_eq_some_iff.mp formed
  obtain ⟨hostIp, ipCopied, same⟩ := Option.map_eq_some_iff.mp formed
  subst same
  have utmRead : cstr [85, 84, 77, 0] = some [85, 84, 77] := by rfl
  refine ⟨_, Exists.imp (fun t printable => ⟨whole, printable⟩) (printable_of_legible
    (plain.ttime.copied timeCopied) ((plain.vmId i).copied idCopied)
    ((plain.vmName i).copied nameCopied)
    (legible_of_strcpy utmRead (by decide) hostCopied)
    ((plain.manageIp i).copied ipCopied) (plain.processName i) (plain.processState i))⟩

end Records

section Room

variable {order : ByteOrder} {table next : VmStateTable} {k n : Nat} {v : VmProcess}

/-- Every key can have this many more rows before its count leaves what an `int` can have. -/
def Room (k : Nat) (table : VmStateTable) : Prop :=
  ∀ key, (rowsAt table key).length + k < 2147483648

theorem Room.mono (room : Room n table) (fewer : k ≤ n) : Room k table := by
  intro key
  have here := room key
  omega

theorem Room.inserted {ret : Int} {accepted : Bool} (room : Room (k + 1) table)
    (done : Pqmb.insertVMStateInfo order accepted table v = some (ret, next)) : Room k next := by
  obtain ⟨row, -, same⟩ := Option.map_eq_some_iff.mp done
  cases accepted with
  | false =>
      cases same
      exact room.mono (Nat.le_succ k)
  | true =>
      cases same
      intro key
      have here := room key
      rw [rowsAt_append, List.length_append]
      split
      · simp only [List.length_singleton]
        omega
      · simp only [List.length_nil]
        omega

theorem rowsAt_setRows_length (table : VmStateTable) (row : VmStateRow) (key : Key) :
    (rowsAt (setRows table row) key).length = (rowsAt table key).length := by
  by_cases same : row.key = key
  · subst same
    rw [rowsAt_setRows_self, List.length_map]
  · rw [rowsAt_setRows_other table same]

theorem Room.updated {ret : Int} {accepted : Bool} (room : Room k table)
    (done : Pqmb.updateVMStateInfo order accepted table v = some (ret, next)) : Room k next := by
  obtain ⟨row, -, same⟩ := Option.map_eq_some_iff.mp done
  cases accepted with
  | false =>
      cases same
      exact room
  | true =>
      cases same
      intro key
      rw [rowsAt_setRows_length]
      exact room key

theorem Room.cloud {answers : PqAnswers} (room : Room (k + 1) table)
    (done : HostProcess.insertCloudDb order answers table v = some next) : Room k next := by
  obtain ⟨count, -, done⟩ := Option.bind_eq_some_iff.mp done
  have fewer := room.mono (Nat.le_succ k)
  split at done
  · obtain ⟨⟨ret, after⟩, inserted, same⟩ := Option.map_eq_some_iff.mp done
    cases same
    exact room.inserted inserted
  · split at done
    · obtain ⟨number, -, done⟩ := Option.bind_eq_some_iff.mp done
      split at done
      · obtain ⟨⟨ret, after⟩, updated, same⟩ := Option.map_eq_some_iff.mp done
        cases same
        exact fewer.updated updated
      · cases done
        exact fewer
    · cases done
      exact fewer

end Room

section Rounds

variable {σ : Type} {server : PgServer σ} {test : Bool} {order : ByteOrder}
  {call : ProcessCall} {k : Nat}

/-- A round of the loop over the snapshot. -/
theorem cloudRound_matched (order : ByteOrder) (lawful : server.Lawful test)
    (plain : PlainCall call) {i : Slot} (listed : i ∈ listedSlots call.vmcount) {c : Conn σ}
    (room : Room (k + 1) (server.table c.server)) :
    ∃ next answers, cloudRound server test order call c i = some next ∧
      HostProcess.cloudRound order call (fun _ => answers) (server.table c.server) i =
        some (server.table next.server) ∧
      next.results = c.results ∧ Room k (server.table next.server) := by
  obtain ⟨v, t, formed, printable⟩ := cloudVmState_printable plain listed
  by_cases mode : call.cloudMode = 1
  · have few := room (t.createTime, t.vmId)
    obtain ⟨next, answers, done, kept, matched⟩ :=
      insertCloudDb_matched order lawful printable printable.key (c := c) (by omega)
    refine ⟨next, answers, ?_, ?_, kept, room.cloud matched⟩
    · rw [cloudRound, formed, Option.bind_some, if_pos mode, done]
    · rw [HostProcess.cloudRound, formed, Option.bind_some, if_pos mode, matched]
  · refine ⟨c, .accepted, ?_, ?_, rfl, room.mono (Nat.le_succ k)⟩
    · rw [cloudRound, formed, Option.bind_some, if_neg mode]
    · rw [HostProcess.cloudRound, formed, Option.bind_some, if_neg mode]

/-- A round of the loop over the table of the states. -/
theorem baremetalRound_matched (order : ByteOrder) (lawful : server.Lawful test)
    (plain : PlainCall call) (i : Slot) {s : BaremetalConn σ} {model : Baremetal}
    (flag : model.vFlag = s.vFlag) (table : model.table = server.table s.conn.server)
    (room : Room (k + 1) (server.table s.conn.server)) :
    ∃ next accepted after, baremetalRound server test order call s i = some next ∧
      HostProcess.baremetalRound order call (fun _ => accepted) model i = some after ∧
      after.vFlag = next.vFlag ∧ after.table = server.table next.conn.server ∧
      next.conn.results = s.conn.results ∧ Room k (server.table next.conn.server) := by
  obtain ⟨v, t, formed, printable⟩ := baremetalVmState_printable plain i
  have fewer := room.mono (Nat.le_succ k)
  unfold baremetalRound HostProcess.baremetalRound
  rw [formed, flag]
  dsimp only
  by_cases free : (call.vminfo i).vmIp = 0
  · simp only [if_pos free]
    exact ⟨s, true, model, rfl, rfl, flag, table, rfl, fewer⟩
  simp only [if_neg free]
  generalize (if inSnapshot call (call.vminfo i).vmIp then true else s.vFlag) = vFlag
  cases vFlag with
  | true =>
      exact ⟨⟨true, s.conn⟩, true, ⟨true, model.table, model.inserts⟩, rfl, rfl, rfl, table, rfl,
        fewer⟩
  | false =>
      by_cases mode : call.baremetalMode = 1
      · obtain ⟨retval, next, accepted, done, kept, matched⟩ :=
          pqInsertVMStateInfo_matched order lawful printable s.conn
        obtain ⟨⟨ret, after⟩, inserted, same⟩ := Option.map_eq_some_iff.mp matched
        cases same
        refine ⟨⟨false, next⟩, accepted, ⟨false, _, model.inserts ++ [i]⟩, ?_, ?_, rfl, rfl,
          kept, room.inserted inserted⟩
        · simp [mode, done]
        · simp [mode, table, inserted]
      · refine ⟨⟨false, s.conn⟩, true, ⟨false, model.table, model.inserts⟩, ?_, ?_, rfl, table,
          rfl, fewer⟩
        · simp [mode]
        · simp [mode]

/-- The rounds of both loops, each with what the server makes of its statements. -/
def cloudAnswered (order : ByteOrder) (call : ProcessCall) (table : VmStateTable)
    (x : Slot × PqAnswers) : Option VmStateTable :=
  HostProcess.cloudRound order call (fun _ => x.2) table x.1

def baremetalAnswered (order : ByteOrder) (call : ProcessCall) (s : Baremetal)
    (x : Slot × Bool) : Option Baremetal :=
  HostProcess.baremetalRound order call (fun _ => x.2) s x.1

instance : Inhabited PqAnswers := ⟨.accepted⟩

theorem listedSlots_nodup (n : Nat) : (listedSlots n).Nodup :=
  (List.nodup_finRange maxSystemNum).sublist (List.take_sublist _ _)

theorem listedSlots_length_le (n : Nat) : (listedSlots n).length ≤ maxSystemNum := by
  rw [listedSlots, List.length_take, List.length_finRange]
  exact Nat.min_le_right _ _

theorem cloudLoop_matched (order : ByteOrder) (lawful : server.Lawful test)
    (plain : PlainCall call) {c : Conn σ}
    (room : Room (k + maxSystemNum) (server.table c.server)) :
    ∃ next answers,
      run (cloudRound server test order call) c (listedSlots call.vmcount) = some next ∧
      HostProcess.cloudLoop order call answers (server.table c.server) =
        some (server.table next.server) ∧
      next.results = c.results ∧ Room k (server.table next.server) := by
  let Rel (n : Nat) (d : Conn σ) (table : VmStateTable) : Prop :=
    table = server.table d.server ∧ d.results = c.results ∧ Room (k + n) (server.table d.server)
  have step (n : Nat) (d : Conn σ) (table : VmStateTable) (before : Rel (n + 1) d table)
      (i : Slot) (listed : i ∈ listedSlots call.vmcount) :
      ∃ next answer after, cloudRound server test order call d i = some next ∧
        cloudAnswered order call table (i, answer) = some after ∧ Rel n next after := by
    obtain ⟨rfl, kept, space⟩ := before
    obtain ⟨next, answers, done, matched, same, left⟩ :=
      cloudRound_matched order lawful plain listed space
    exact ⟨next, answers, _, done, matched, rfl, same.trans kept, left⟩
  have start : Rel (0 + (listedSlots call.vmcount).length) c (server.table c.server) := by
    refine ⟨rfl, rfl, room.mono ?_⟩
    have short := listedSlots_length_le call.vmcount
    omega
  obtain ⟨final, taken, after, reached, same, there, rfl, kept, left⟩ := run_answered Rel step start
  have once : (taken.map Prod.fst).Nodup := same ▸ listedSlots_nodup _
  obtain ⟨answers, function⟩ := run_function (cloudAnswered order call) once
  refine ⟨final, answers, reached, ?_, kept, left⟩
  rw [function, same] at there
  exact there

theorem baremetalRounds_matched (order : ByteOrder) (lawful : server.Lawful test)
    (plain : PlainCall call) {slots : List Slot} (once : slots.Nodup) {c : Conn σ}
    (room : Room (k + slots.length) (server.table c.server)) :
    ∃ next accepted after,
      run (baremetalRound server test order call) ⟨false, c⟩ slots = some next ∧
      run (HostProcess.baremetalRound order call accepted)
        ⟨false, server.table c.server, []⟩ slots = some after ∧
      after.table = server.table next.conn.server ∧
      next.conn.results = c.results ∧ Room k (server.table next.conn.server) := by
  let Rel (n : Nat) (s : BaremetalConn σ) (model : Baremetal) : Prop :=
    model.vFlag = s.vFlag ∧ model.table = server.table s.conn.server ∧
      s.conn.results = c.results ∧ Room (k + n) (server.table s.conn.server)
  have step (n : Nat) (s : BaremetalConn σ) (model : Baremetal) (before : Rel (n + 1) s model)
      (i : Slot) (_ : i ∈ slots) :
      ∃ next answer after, baremetalRound server test order call s i = some next ∧
        baremetalAnswered order call model (i, answer) = some after ∧ Rel n next after := by
    obtain ⟨flag, table, kept, space⟩ := before
    obtain ⟨next, accepted, after, done, matched, flagAfter, tableAfter, same, left⟩ :=
      baremetalRound_matched order lawful plain i flag table space
    exact ⟨next, accepted, after, done, matched, flagAfter, tableAfter, same.trans kept, left⟩
  have start : Rel (0 + slots.length) ⟨false, c⟩ ⟨false, server.table c.server, []⟩ := by
    refine ⟨rfl, rfl, rfl, ?_⟩
    rw [Nat.zero_add]
    exact room
  obtain ⟨final, taken, after, reached, rfl, there, -, table, kept, left⟩ :=
    run_answered Rel step start
  obtain ⟨accepted, function⟩ := run_function (baremetalAnswered order call) once
  refine ⟨final, accepted, after, reached, ?_, table, kept, left⟩
  rw [function] at there
  exact there

theorem baremetalLoop_matched (order : ByteOrder) (lawful : server.Lawful test)
    (plain : PlainCall call) {c : Conn σ}
    (room : Room (k + maxSystemNum) (server.table c.server)) :
    ∃ next accepted after,
      run (baremetalRound server test order call) ⟨false, c⟩ (List.finRange maxSystemNum) =
        some next ∧
      HostProcess.baremetalLoop order call accepted (server.table c.server) = some after ∧
      after.table = server.table next.conn.server ∧
      next.conn.results = c.results ∧ Room k (server.table next.conn.server) :=
  baremetalRounds_matched order lawful plain (List.nodup_finRange _)
    (by rwa [List.length_finRange])

/-- What the server makes of the statements of a call. -/
structure CallAnswers where
  cloud : Slot → PqAnswers
  baremetal : Slot → Bool

/-- The call on the table of the model. -/
def callAnswered (order : ByteOrder) (table : VmStateTable) (x : ProcessCall × CallAnswers) :
    Option VmStateTable :=
  HostProcess.processVmProcStateInfo order x.1 x.2.cloud x.2.baremetal table

/-- A call clears every result and leaves the table that the model leaves. -/
theorem processVmProcStateInfo_matched (order : ByteOrder) (lawful : server.Lawful test)
    (plain : PlainCall call) {c : Conn σ}
    (room : Room (k + 2 * maxSystemNum) (server.table c.server)) :
    ∃ next answers, processVmProcStateInfo server test order c call = some next ∧
      callAnswered order (server.table c.server) (call, answers) =
        some (server.table next.server) ∧
      next.results = c.results ∧ Room k (server.table next.server) := by
  have both : Room (k + maxSystemNum + maxSystemNum) (server.table c.server) := by
    apply room.mono
    omega
  obtain ⟨middle, cloud, cloudDone, cloudModel, cloudKept, space⟩ :=
    cloudLoop_matched order lawful plain both
  obtain ⟨next, baremetal, after, done, model, table, kept, left⟩ :=
    baremetalLoop_matched order lawful plain space
  refine ⟨next.conn, ⟨cloud, baremetal⟩, ?_, ?_, kept.trans cloudKept, left⟩
  · rw [processVmProcStateInfo, cloudDone, Option.bind_some, done, Option.map_some]
  · rw [callAnswered, HostProcess.processVmProcStateInfo, cloudModel, Option.bind_some, model,
      Option.map_some, table]

/-- Over any calls the texts do what the model says: every statement fits its buffer, every
result is cleared, and the table is one that the model leaves for what the server makes of
the statements. -/
theorem run_texts (order : ByteOrder) (lawful : server.Lawful test) {calls : List ProcessCall}
    (plain : ∀ call ∈ calls, PlainCall call) {c : Conn σ}
    (room : Room (calls.length * (2 * maxSystemNum)) (server.table c.server)) :
    ∃ final taken, run (processVmProcStateInfo server test order) c calls = some final ∧
      final.results = c.results ∧ taken.map Prod.fst = calls ∧
      run (callAnswered order) (server.table c.server) taken =
        some (server.table final.server) := by
  let Rel (n : Nat) (d : Conn σ) (table : VmStateTable) : Prop :=
    table = server.table d.server ∧ d.results = c.results ∧
      Room (n * (2 * maxSystemNum)) (server.table d.server)
  have step (n : Nat) (d : Conn σ) (table : VmStateTable) (before : Rel (n + 1) d table)
      (call : ProcessCall) (member : call ∈ calls) :
      ∃ next answer after, processVmProcStateInfo server test order d call = some next ∧
        callAnswered order table (call, answer) = some after ∧ Rel n next after := by
    obtain ⟨rfl, kept, space⟩ := before
    rw [Nat.succ_mul] at space
    obtain ⟨next, answers, done, matched, same, left⟩ :=
      processVmProcStateInfo_matched order lawful (plain call member) space
    exact ⟨next, answers, _, done, matched, rfl, same.trans kept, left⟩
  have start : Rel (0 + calls.length) c (server.table c.server) := by
    refine ⟨rfl, rfl, ?_⟩
    rw [Nat.zero_add]
    exact room
  obtain ⟨final, taken, after, reached, same, there, rfl, kept, -⟩ := run_answered Rel step start
  exact ⟨final, taken, reached, kept, same, there⟩

end Rounds

/-- A machine that only reports, and behind it a VM of the snapshot. -/
def oneOfEach : ProcessCall where
  ttime := ⟨[49, 50, 58, 51, 48] ++ List.replicate 27 0, by simp [maxTimeLength]⟩
  vmcount := 1
  vstatus := fun _ => { VmcStatus.zero with vmIpaddr := 0x0A000001 }
  vminfo := fun i =>
    { VmcStateinfo.zero with
      vmIp := if i = 0 then 0x0A000002 else if i = 1 then 0x0A000001 else 0 }
  cloudMode := 1
  baremetalMode := 1
  cloudBpMode := fun _ => .off
  baremetalBpMode := fun _ => .off

theorem oneOfEach_plain : PlainCall oneOfEach where
  ttime := ⟨[49, 50, 58, 51, 48], by rfl, by decide⟩
  vmUuid := fun _ _ => ⟨[], by rfl, by decide, by decide⟩
  statusName := fun _ _ => ⟨[], by rfl, by decide⟩
  vmHostName := fun _ _ => ⟨[], by rfl, by decide⟩
  vmId := fun _ => ⟨[], by rfl, by decide⟩
  vmName := fun _ => ⟨[], by rfl, by decide⟩
  manageIp := fun _ => ⟨[], by rfl, by decide⟩
  processName := fun _ _ => ⟨[], by rfl, by decide⟩
  processState := fun _ _ => Nat.two_pow_pos 16

/-- Two calls on the empty table. -/
theorem run_texts_oneOfEach :
    ∃ final taken, run (processVmProcStateInfo (tableServer false) false .little) ⟨[], 0⟩
        [oneOfEach, oneOfEach] = some final ∧
      final.results = 0 ∧ taken.map Prod.fst = [oneOfEach, oneOfEach] ∧
      run (callAnswered .little) [] taken = some final.server := by
  have room : Room ([oneOfEach, oneOfEach].length * (2 * maxSystemNum)) [] :=
    fun _ => (by decide : 0 + 2 * (2 * 128) < 2147483648)
  have plain : ∀ call ∈ [oneOfEach, oneOfEach], PlainCall call := by
    intro call member
    rcases List.mem_pair.mp member with rfl | rfl <;> exact oneOfEach_plain
  exact run_texts .little (tableServer_lawful false) plain room

end VnfMonitoring.HostQueries
