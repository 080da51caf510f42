import VnfMonitoring.ReportRoundTrip

set_option autoImplicit false

/- When the handling of a received message stays inside it and inside the fields of the
host's table, for every content of the receive buffer. -/
namespace VnfMonitoring.ReportSafety

open VnfMonitoring.Memory VnfMonitoring.Socket VnfMonitoring.TcpFrame VnfMonitoring.Bpapp
  VnfMonitoring.HostSock VnfMonitoring.HostReport

/-- A step that has a value under the same condition whatever the step before it gave. -/
theorem isSome_bind_of {α β : Type} {first : Option α} {next : α → Option β} {P : Prop}
    (same : ∀ x, first = some x → ((next x).isSome ↔ P)) :
    (first.bind next).isSome ↔ first.isSome ∧ P := by
  cases first with
  | none => simp
  | some x => simpa using same x rfl

section Message

variable {n : Nat} (order : ByteOrder) (message : Bytes n)

/-- The number at an offset of the message, in host order. -/
def hostWord (offset : Nat) : UInt32 :=
  order.ntohl (UInt32.ofNat (order.valueOf ((message.toList.drop offset).take 4)))

theorem ntohl_of_load32 {offset : Nat} {x : UInt32}
    (loaded : load32 order message offset = some x) :
    order.ntohl x = hostWord order message offset := by
  obtain ⟨bytes, found, rfl⟩ := Option.map_eq_some_iff.mp loaded
  rw [(loadBytes_eq found).2]
  rfl

/-- The number of rounds of the loop of `DebugVmProcessState`. -/
def debugRounds : Nat := (hostWord order message pcountAt).toInt32.toInt.toNat

theorem traceStr_isSome (traced : Bool) (offset : Nat) :
    (traceStr traced message offset).isSome ↔
      (traced = true → (0 : UInt8) ∈ message.toList.drop offset) := by
  cases traced with
  | false => simp [traceStr]
  | true => simp [traceStr, readStr, cstr_isSome]

theorem debugProcesses_isSome (traced : Bool) (remaining : Nat) :
    ∀ i, (debugProcesses order traced message remaining i).isSome ↔
      ∀ k, i ≤ k → k < i + remaining → k < maxVmProcNum ∧
        (traced = true → (0 : UInt8) ∈ message.toList.drop (pstateAt k)) ∧
        processStateAt k + 4 ≤ n := by
  induction remaining with
  | zero =>
      intro i
      simp only [debugProcesses, Option.isSome_some, true_iff]
      intro k low high
      omega
  | succ remaining ih =>
      intro i
      have split (P : Nat → Prop) : (∀ k, i ≤ k → k < i + (remaining + 1) → P k) ↔
          P i ∧ ∀ k, i + 1 ≤ k → k < i + 1 + remaining → P k := by
        constructor
        · exact fun all => ⟨all i (by omega) (by omega), fun k _ _ => all k (by omega) (by omega)⟩
        · rintro ⟨first, rest⟩ k low high
          rcases Nat.eq_or_lt_of_le low with rfl | later
          · exact first
          · exact rest k (by omega) (by omega)
      rw [split, debugProcesses]
      split
      · rename_i inside
        rw [isSome_bind_of fun _ _ => isSome_bind_of fun _ _ => ih (i + 1), traceStr_isSome,
          load32_isSome]
        simp only [inside, true_and, and_assoc]
      · rename_i outside
        simp [outside]

theorem debugVmProcessState_isSome (traced : Bool) :
    (debugVmProcessState order traced message).isSome ↔
      pcountAt + 4 ≤ n ∧
      (traced = true → (0 : UInt8) ∈ message.toList.drop vmIdAt ∧
        (0 : UInt8) ∈ message.toList.drop vmNameAt ∧
        (0 : UInt8) ∈ message.toList.drop manageIpAt) ∧
      ∀ k, k < debugRounds order message → k < maxVmProcNum ∧
        (traced = true → (0 : UInt8) ∈ message.toList.drop (pstateAt k)) ∧
        processStateAt k + 4 ≤ n := by
  have loop (count : UInt32) (loaded : load32 order message pcountAt = some count) :=
    debugProcesses_isSome order message traced (order.ntohl count).toInt32.toInt.toNat 0
  rw [debugVmProcessState, isSome_bind_of fun count loaded =>
    isSome_bind_of fun _ _ => isSome_bind_of fun _ _ => isSome_bind_of fun _ _ =>
      isSome_bind_of fun _ _ => isSome_bind_of fun _ _ => by
        rw [loop count loaded, ntohl_of_load32 order message loaded, ← debugRounds]]
  simp only [load32_isSome, traceStr_isSome, Nat.zero_le, Nat.zero_add, forall_const]
  have sizes : vmTypeAt + 4 ≤ pcountAt + 4 ∧ vmIpaddressAt + 4 ≤ pcountAt + 4 := by decide
  constructor
  · rintro ⟨size, _, _, vmId, vmName, manageIp, processes⟩
    exact ⟨size, fun on => ⟨vmId on, vmName on, manageIp on⟩, processes⟩
  · rintro ⟨size, strings, processes⟩
    exact ⟨size, by omega, by omega, fun on => (strings on).1, fun on => (strings on).2.1,
      fun on => (strings on).2.2, processes⟩

theorem ntohStates_isSome (remaining : Nat) :
    ∀ (i : Nat) (message : Bytes n), (ntohStates order remaining i message).isSome ↔
      ∀ k, i ≤ k → k < i + remaining → processStateAt k + 4 ≤ n := by
  induction remaining with
  | zero =>
      intro i message
      simp only [ntohStates, Option.isSome_some, true_iff]
      intro k low high
      omega
  | succ remaining ih =>
      intro i message
      have round (state : UInt32) (_ : load32 order message (processStateAt i) = some state) :
          ((store32 order message (processStateAt i) (order.ntohl state)).bind
            (ntohStates order remaining (i + 1))).isSome ↔ processStateAt i + 4 ≤ n ∧
              ∀ k, i + 1 ≤ k → k < i + 1 + remaining → processStateAt k + 4 ≤ n := by
        rw [isSome_bind_of fun changed _ => ih (i + 1) changed, store32_isSome]
      rw [ntohStates, isSome_bind_of round, load32_isSome]
      constructor
      · rintro ⟨here, _, rest⟩ k low high
        rcases Nat.eq_or_lt_of_le low with rfl | later
        · exact here
        · exact rest k (by omega) (by omega)
      · exact fun all => ⟨all i (by omega) (by omega), all i (by omega) (by omega),
          fun k _ _ => all k (by omega) (by omega)⟩

/-- The conversion of the states changes no byte before them. -/
theorem ntohStates_take {limit : Nat} (before : limit ≤ pstateAt 0) (remaining : Nat) :
    ∀ (i : Nat) (message final : Bytes n), ntohStates order remaining i message = some final →
      final.toList.take limit = message.toList.take limit := by
  induction remaining with
  | zero =>
      intro i message final done
      cases done
      rfl
  | succ remaining ih =>
      intro i message final done
      obtain ⟨state, _, rest⟩ := Option.bind_eq_some_iff.mp done
      obtain ⟨changed, stored, later⟩ := Option.bind_eq_some_iff.mp rest
      rw [ih (i + 1) changed final later]
      obtain ⟨inside, same⟩ := storeBytes_eq stored
      rw [ByteOrder.bytesOf_length] at inside
      have apart : limit ≤ processStateAt i := by
        rw [processStateAt, pstateAt]
        rw [pstateAt] at before
        omega
      rw [same, List.append_assoc, List.take_append_of_le_length, List.take_take,
        Nat.min_eq_left apart]
      rw [List.length_take, message.length_toList]
      omega

theorem loadPstate_isSome :
    (loadPstate order message).isSome ↔ vmProcStateMsgSize ≤ n := by
  have record (k : Nat) :
      (loadProcessState order message k).isSome ↔ processStateAt k + 4 ≤ n := by
    rw [loadProcessState, isSome_bind_of fun _ _ => by rw [Option.isSome_map, load32_isSome],
      loadBytes_isSome]
    constructor
    · exact And.right
    · intro inside
      rw [processStateAt] at inside
      exact ⟨by omega, inside⟩
  have whole : (∀ k : Fin maxVmProcNum, processStateAt k + 4 ≤ n) ↔ vmProcStateMsgSize ≤ n := by
    constructor
    · intro all
      exact all ⟨11, by decide⟩
    · intro size k
      have last := k.isLt
      simp only [processStateAt, pstateAt, maxVmProcNum, vmProcStateMsgSize] at *
      omega
  rw [← whole]
  unfold loadPstate
  simp only [record]
  split
  · rename_i inside
    simp [inside]
  · rename_i outside
    simpa using outside

/-- The strings that are copied to an entry end within the fields of the entry. -/
structure StringsFit : Prop where
  vmId : (0 : UInt8) ∈ (message.toList.drop vmIdAt).take (maxNameLength * 2)
  vmName : (0 : UInt8) ∈ (message.toList.drop vmNameAt).take maxNameLength
  manageIp : (0 : UInt8) ∈ (message.toList.drop manageIpAt).take (maxNameLength / 2)

theorem fillEntry_isSome (vmType pcount : UInt32) (entry : VmcStateinfo) :
    (fillEntry order message vmType pcount entry).isSome ↔
      vmProcStateMsgSize ≤ n ∧ StringsFit message := by
  rw [fillEntry, isSome_bind_of fun _ _ => isSome_bind_of fun _ _ => isSome_bind_of fun _ _ => by
    rw [Option.isSome_map, strcpy_isSome], loadPstate_isSome, strcpy_isSome, strcpy_isSome]
  constructor
  · rintro ⟨size, vmId, vmName, manageIp⟩
    exact ⟨size, vmId, vmName, manageIp⟩
  · rintro ⟨size, vmId, vmName, manageIp⟩
    exact ⟨size, vmId, vmName, manageIp⟩

/-- The strings lie before the states, so converting these does not change whether
they fit. -/
theorem stringsFit_ntohStates {final : Bytes n} {remaining i : Nat}
    (done : ntohStates order remaining i message = some final) :
    StringsFit final ↔ StringsFit message := by
  have window (offset width : Nat) (inside : offset + width ≤ pstateAt 0) :
      (final.toList.drop offset).take width = (message.toList.drop offset).take width := by
    rw [List.take_drop, List.take_drop,
      ntohStates_take order inside remaining i message final done]
  have same := And.intro (window vmIdAt (maxNameLength * 2) (by decide))
    (And.intro (window vmNameAt maxNameLength (by decide))
      (window manageIpAt (maxNameLength / 2) (by decide)))
  constructor
  · rintro ⟨vmId, vmName, manageIp⟩
    exact ⟨same.1 ▸ vmId, same.2.1 ▸ vmName, same.2.2 ▸ manageIp⟩
  · rintro ⟨vmId, vmName, manageIp⟩
    exact ⟨same.1.symm ▸ vmId, same.2.1.symm ▸ vmName, same.2.2.symm ▸ manageIp⟩

/-- The table has an entry for the address, or a free one. -/
def HasEntry (vmstate : Slot → VmcStateinfo) (vmIp : UInt32) : Prop :=
  ∃ i, (vmstate i).vmIp = vmIp ∨ (vmstate i).vmIp = 0

theorem storeEntry_isSome {vmstate : Slot → VmcStateinfo} {vmIp : UInt32}
    {fill : VmcStateinfo → Option VmcStateinfo} {P : Prop}
    (same : ∀ entry, (fill entry).isSome ↔ P) :
    (storeEntry vmstate vmIp fill).isSome ↔ (HasEntry vmstate vmIp → P) := by
  unfold storeEntry
  split
  · rename_i i found
    have owned : HasEntry vmstate vmIp :=
      ⟨i, Or.inl (by simpa using (Fin.find?_eq_some_iff.mp found).1)⟩
    simp [same, owned]
  · rename_i absent
    split
    · rename_i i found
      have free : HasEntry vmstate vmIp :=
        ⟨i, Or.inr (by simpa using (Fin.find?_eq_some_iff.mp found).1)⟩
      simp [same, free]
    · rename_i full
      have nowhere : ¬ HasEntry vmstate vmIp := by
        rintro ⟨i, owned | free⟩
        · simpa [owned] using Fin.find?_eq_none_iff.mp absent i
        · simpa [free] using Fin.find?_eq_none_iff.mp full i
      simp [nowhere]

theorem setVmProcessStateInfo_isSome (vmstate : Slot → VmcStateinfo) :
    (setVmProcessStateInfo order vmstate message).isSome ↔
      vmProcStateMsgSize ≤ n ∧
        (HasEntry vmstate (hostWord order message vmIpaddressAt) → StringsFit message) := by
  have states : (ntohStates order maxVmProcNum 0 message).isSome ↔ vmProcStateMsgSize ≤ n := by
    rw [ntohStates_isSome]
    constructor
    · exact fun all => all 11 (by decide) (by decide)
    · intro size k _ high
      simp only [processStateAt, pstateAt, maxVmProcNum, vmProcStateMsgSize] at *
      omega
  rw [setVmProcessStateInfo, isSome_bind_of fun vmIp loaded => isSome_bind_of fun vmType _ =>
    isSome_bind_of fun pcount _ => isSome_bind_of fun converted done => by
      have size := states.mp (by rw [done]; rfl)
      rw [storeEntry_isSome (fillEntry_isSome order converted _ _),
        ntohl_of_load32 order message loaded, stringsFit_ntohStates order message done,
        and_iff_right size]]
  simp only [load32_isSome, states]
  have sizes : pcountAt + 4 ≤ vmProcStateMsgSize ∧ vmTypeAt + 4 ≤ vmProcStateMsgSize ∧
    vmIpaddressAt + 4 ≤ vmProcStateMsgSize := by decide
  constructor
  · exact fun fits => fits.2.2.2
  · exact fun fits => ⟨by omega, by omega, by omega, fits⟩

/-- A report whose handling stays inside it: it is as long as the record it is read as,
its count is an index bound, the strings that are printed end inside it, and those that
are copied fit the fields of the entry. -/
structure RequestFits (traced : Bool) (vmstate : Slot → VmcStateinfo) : Prop where
  size : vmProcStateMsgSize ≤ n
  count : (hostWord order message pcountAt).toInt32.toInt ≤ maxVmProcNum
  strings : traced = true → (0 : UInt8) ∈ message.toList.drop vmIdAt ∧
    (0 : UInt8) ∈ message.toList.drop vmNameAt ∧ (0 : UInt8) ∈ message.toList.drop manageIpAt
  names : traced = true → ∀ k : Fin maxVmProcNum,
    (k.val : Int) < (hostWord order message pcountAt).toInt32.toInt →
      (0 : UInt8) ∈ message.toList.drop (pstateAt k)
  copies : HasEntry vmstate (hostWord order message vmIpaddressAt) → StringsFit message

theorem requestFits_iff (traced : Bool) (vmstate : Slot → VmcStateinfo) :
    (debugVmProcessState order traced message).isSome ∧
        (setVmProcessStateInfo order vmstate message).isSome ↔
      RequestFits order message traced vmstate := by
  rw [debugVmProcessState_isSome, setVmProcessStateInfo_isSome]
  constructor
  · rintro ⟨⟨_, strings, processes⟩, size, copies⟩
    refine ⟨size, ?_, strings, ?_, copies⟩
    · by_contra large
      have outside := (processes maxVmProcNum (by rw [debugRounds]; omega)).1
      omega
    · intro on k inside
      exact (processes k (by rw [debugRounds]; omega)).2.1 on
  · rintro ⟨size, count, strings, names, copies⟩
    refine ⟨⟨Nat.le_trans (by decide) size, strings, fun k round => ?_⟩, size, copies⟩
    rw [debugRounds] at round
    have inside : k < maxVmProcNum := by omega
    refine ⟨inside, fun on => names on ⟨k, inside⟩ (by simp only; omega), ?_⟩
    simp only [processStateAt, pstateAt, maxVmProcNum, vmProcStateMsgSize] at *
    omega

end Message

/-- The queued messages that can be handled: what is not a report is not looked into. -/
def MessageFits (order : ByteOrder) (traced : Bool) (vmstate : Slot → VmcStateinfo)
    (block : Block) : Prop :=
  block.msgtype = vmProcStateReq → RequestFits order block.message traced vmstate

theorem fifoGetEvent_isSome (order : ByteOrder) (traced : Bool) (s : HostTables) (block : Block)
    (env : SendEnv) :
    (fifoGetEvent order traced s block env).isSome ↔
      MessageFits order traced s.stateinfo block := by
  unfold fifoGetEvent MessageFits
  split
  · rename_i request
    obtain ⟨ret, next, wire, responded, same⟩ :=
      sendVmProcStateRsp_total order s block.alistIdx block.systemid env
    rw [responded]
    simp only [Option.bind_some, same, request, forall_const]
    rw [← requestFits_iff, isSome_bind_of fun _ _ => isSome_bind_of fun _ _ => by
      rw [Option.isSome_map], load32_isSome, debugVmProcessState_isSome]
    have first : vmIpaddressAt + 4 ≤ pcountAt + 4 := by decide
    constructor
    · exact And.right
    · exact fun fits => ⟨Nat.le_trans first fits.1.1, fits⟩
  · rename_i other
    simp [other]

theorem isSome_bind_intro {α β : Type} {first : Option α} {next : α → Option β}
    (here : first.isSome) (later : ∀ x, (next x).isSome) : (first.bind next).isSome :=
  (isSome_bind_of (P := True) fun x _ => iff_true_intro (later x)).mpr ⟨here, trivial⟩

section Queue

variable (order : ByteOrder) {size : Nat} (buf : Bytes size)

theorem tcpMsgNtoh_isSome (room : 12 ≤ size) : (tcpMsgNtoh order buf).isSome := by
  refine isSome_bind_intro ((load32_isSome ..).mpr (by omega)) fun systemId => ?_
  refine isSome_bind_intro ((store32_isSome ..).mpr (by omega)) fun buf => ?_
  refine isSome_bind_intro ((load16_isSome ..).mpr (by omega)) fun msgType => ?_
  refine isSome_bind_intro ((store16_isSome ..).mpr (by omega)) fun buf => ?_
  refine isSome_bind_intro ((load16_isSome ..).mpr (by omega)) fun msgSize => ?_
  exact (store16_isSome ..).mpr (by omega)

/-- The size that a header gives is at most what the receive buffer holds behind it. -/
theorem tcpPutFifo_isSome (slot : Slot) (room : 12 + 65535 ≤ size) :
    (tcpPutFifo order buf slot).isSome := by
  refine isSome_bind_intro ((load32_isSome ..).mpr (by omega)) fun systemid => ?_
  refine isSome_bind_intro ((load16_isSome ..).mpr (by omega)) fun msgtype => ?_
  refine isSome_bind_intro ((load16_isSome ..).mpr (by omega)) fun msgsize => ?_
  rw [Option.isSome_map, loadBytes_isSome, defaultTcpComhdrLength]
  have short := msgsize.toNat_lt
  omega

theorem tcpdSockEvent_total (slot : Slot) (room : 12 + 65535 ≤ size) :
    ∃ changed block, tcpdSockEvent order slot buf = some (changed, block) := by
  have converted := tcpMsgNtoh_isSome order buf (by omega)
  obtain ⟨changed, done⟩ := Option.isSome_iff_exists.mp converted
  obtain ⟨block, put⟩ := Option.isSome_iff_exists.mp (tcpPutFifo_isSome order changed slot room)
  exact ⟨changed, block, by rw [tcpdSockEvent, done, Option.bind_some, put, Option.map_some]⟩

end Queue

/-- For every content a receive leaves in the buffer, the message it queues is handled
without an access outside it, or outside an entry of the table, exactly when it fits. -/
theorem handling_isSome_iff (order : ByteOrder) (slot : Slot)
    (rBuf : Bytes TcpFraming.hostBufSize) :
    ∃ buf block, tcpdSockEvent order slot rBuf = some (buf, block) ∧
      ∀ traced s env, (fifoGetEvent order traced s block env).isSome ↔
        MessageFits order traced s.stateinfo block := by
  obtain ⟨buf, block, queued⟩ := tcpdSockEvent_total order rBuf slot (by decide)
  exact ⟨buf, block, queued, fun traced s env => fifoGetEvent_isSome order traced s block env⟩

/-- A frame of a header only, of type VM_PROC_STATE_REQ and with MsgSize 0. -/
def emptyRequest : Bytes 12 := ⟨[4, 0, 12, 0, 0, 0, 0, 1, 0, 1, 0, 0], rfl⟩

theorem handling_emptyRequest :
    ∃ result buf block,
      tcpRecv .little .init 0 (Bytes.zero TcpFraming.hostBufSize) (singly emptyRequest.toList) =
        some (.init, result) ∧ 0 < result.nRecv ∧
      tcpdSockEvent .little 0 result.rBuf = some (buf, block) ∧
      fifoGetEvent .little false .init block ⟨[], []⟩ = none := by
  have frame : framed .little emptyRequest.toList = emptyRequest.toList := by decide
  have arrives :
      stream (singly emptyRequest.toList) = framed .little emptyRequest.toList ++ [] := by
    rw [stream_singly, frame, List.append_nil]
  obtain ⟨result, received, positive, connected, _, stored⟩ :=
    recvFrame_complete .little emptyRequest.toList (by decide) (by decide)
      (Bytes.zero TcpFraming.hostBufSize) (by decide) arrives
  have four : ((Bytes.zero TcpFraming.hostBufSize).toList.take 4).length = 4 := by
    rw [List.length_take, Bytes.length_toList]
    rfl
  have layout : result.rBuf.toList = (Bytes.zero TcpFraming.hostBufSize).toList.take 4 ++
      (((⟨0, 1, vmProcStateReq, 0⟩ : CommonTcpmsg).hton .little).image .little).drop 4 ++ [] ++
      (Bytes.zero TcpFraming.hostBufSize).toList.drop 12 := by
    rw [(storeBytes_eq stored).2]
    rfl
  obtain ⟨buf, block, queued, _, request, _, image⟩ :=
    ReportRoundTrip.tcpdSockEvent_image four 0 ⟨0, 1, vmProcStateReq, 0⟩ rfl layout
  refine ⟨result, buf, block, by simp [tcpRecv, received, connected], positive, queued, ?_⟩
  rw [← Option.not_isSome_iff_eq_none, fifoGetEvent_isSome]
  intro fits
  have size := (fits request).size
  rw [← block.message.length_toList, image] at size
  exact absurd size (by decide)

end VnfMonitoring.ReportSafety
