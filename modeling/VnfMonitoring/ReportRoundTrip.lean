import VnfMonitoring.HostReport
import VnfMonitoring.TcpFraming
import VnfMonitoring.VmctReport

set_option autoImplicit false

/- A report from the agent's configuration to the host's table: the image of the
message is followed through the header, the queue and the conversions. -/
namespace VnfMonitoring.ReportRoundTrip

open VnfMonitoring.Memory VnfMonitoring.Socket VnfMonitoring.TcpFrame VnfMonitoring.Bpapp
  VnfMonitoring.HostSock VnfMonitoring.HostReport VnfMonitoring.VmctReport

/-- The record of a process with its state in host order. -/
def ntohState (order : ByteOrder) (state : ProcessState) : ProcessState :=
  { state with processState := order.ntohl state.processState }

/-- A message with other processes. -/
def withPstate (msg : VmProcStateMsg) (pstate : Fin maxVmProcNum → ProcessState) :
    VmProcStateMsg := { msg with pstate }

section Image

variable {n : Nat} {order : ByteOrder} {message : Bytes n} {msg : VmProcStateMsg}

/-- The message around one process, its own record written out. -/
theorem image_split (msg : VmProcStateMsg) (order : ByteOrder) (k : Fin maxVmProcNum) :
    ∃ before behind, before.length = pstateAt k ∧
      msg.image order = before ++ (msg.pstate k).image order ++ behind ∧
      ∀ state, (withPstate msg (Function.update msg.pstate k state)).image order =
        before ++ state.image order ++ behind := by
  obtain ⟨before, behind, length, split⟩ := msg.image_pstate order k
  refine ⟨before, behind, length, ?_, split⟩
  rw [← split (msg.pstate k), Function.update_eq_self]

theorem load_vmIpaddress (image : message.toList = msg.image order) :
    load32 order message vmIpaddressAt = some msg.vmIpaddress := by
  obtain ⟨behind, split⟩ : ∃ behind,
      msg.image order = [] ++ order.bytesOf 4 msg.vmIpaddress.toNat ++ behind := by
    simp only [VmProcStateMsg.image, List.nil_append, List.append_assoc,
      List.append_cancel_left_eq, exists_eq']
  exact load32_field order (image.trans split) rfl

theorem load_vmType (image : message.toList = msg.image order) :
    load32 order message vmTypeAt = some msg.vmType := by
  obtain ⟨behind, split⟩ : ∃ behind, msg.image order =
      order.bytesOf 4 msg.vmIpaddress.toNat ++ order.bytesOf 4 msg.vmType.toNat ++ behind := by
    simp only [VmProcStateMsg.image, List.append_assoc, List.append_cancel_left_eq, exists_eq']
  exact load32_field order (image.trans split) (ByteOrder.bytesOf_length ..)

theorem load_pcount (image : message.toList = msg.image order) :
    load32 order message pcountAt = some msg.pcount := by
  obtain ⟨behind, split⟩ : ∃ behind, msg.image order =
      order.bytesOf 4 msg.vmIpaddress.toNat ++ order.bytesOf 4 msg.vmType.toNat ++
        order.bytesOf 4 msg.pcount.toNat ++ behind := by
    simp only [VmProcStateMsg.image, List.append_assoc, List.append_cancel_left_eq, exists_eq']
  refine load32_field order (image.trans split) ?_
  rw [List.length_append, ByteOrder.bytesOf_length, ByteOrder.bytesOf_length]
  rfl

/-- The strings of the message start in fields that end inside it. -/
theorem drop_identifiers (msg : VmProcStateMsg) (order : ByteOrder) :
    (∃ behind, (msg.image order).drop vmIdAt = msg.vmId.toList ++ behind) ∧
      (∃ behind, (msg.image order).drop vmNameAt = msg.vmName.toList ++ behind) ∧
      ∃ behind, (msg.image order).drop manageIpAt = msg.manageIp.toList ++ behind := by
  obtain ⟨numbers, processes, length, split⟩ : ∃ numbers processes : List UInt8,
      numbers.length = vmIdAt ∧ msg.image order = numbers ++ (msg.vmId.toList ++
        (msg.vmName.toList ++ (msg.manageIp.toList ++ processes))) := by
    refine ⟨order.bytesOf 4 msg.vmIpaddress.toNat ++ order.bytesOf 4 msg.vmType.toNat ++
      order.bytesOf 4 msg.pcount.toNat, (List.ofFn msg.pstate).flatMap (ProcessState.image order),
      ?_, by simp only [VmProcStateMsg.image, List.append_assoc]⟩
    simp only [List.length_append, ByteOrder.bytesOf_length]
    rfl
  refine ⟨⟨msg.vmName.toList ++ (msg.manageIp.toList ++ processes), ?_⟩,
    ⟨msg.manageIp.toList ++ processes, ?_⟩, ⟨processes, ?_⟩⟩
  · rw [split, List.drop_left' length]
  · rw [split, ← List.append_assoc, List.drop_left']
    rw [List.length_append, length, Bytes.length_toList]
    rfl
  · rw [split, ← List.append_assoc, ← List.append_assoc, List.drop_left']
    rw [List.length_append, List.length_append, length, Bytes.length_toList, Bytes.length_toList]
    rfl

/-- The record of a process as `memcpy` finds it. -/
theorem load_processState (image : message.toList = msg.image order) (k : Fin maxVmProcNum) :
    loadProcessState order message k = some (msg.pstate k) := by
  obtain ⟨before, behind, length, split, _⟩ := image_split msg order k
  rw [split, ProcessState.image] at image
  have named : message.toList = before ++ (msg.pstate k).processName.toList ++
      (order.bytesOf 4 (msg.pstate k).processState.toNat ++ behind) := by
    rw [image]
    simp only [List.append_assoc]
  have stated : message.toList = before ++ (msg.pstate k).processName.toList ++
      order.bytesOf 4 (msg.pstate k).processState.toNat ++ behind := by
    rw [image]
    simp only [List.append_assoc]
  have place : (before ++ (msg.pstate k).processName.toList).length = processStateAt k := by
    rw [List.length_append, length, Bytes.length_toList]
    rfl
  have width : (msg.pstate k).processName.toList.length = 64 := Bytes.length_toList _
  obtain ⟨name, loaded, same⟩ := loadBytes_field named length width
  have state := load32_field order stated place
  rw [loadProcessState, loaded, Option.bind_some, state, Option.map_some]
  rw [show name = (msg.pstate k).processName from Bytes.ext same]

theorem load_pstate (image : message.toList = msg.image order) :
    loadPstate order message = some msg.pstate := by
  have loaded (k : Fin maxVmProcNum) : loadProcessState order message k = some (msg.pstate k) :=
    load_processState image k
  simp [loadPstate, loaded]

/-- Converting one state in place. -/
theorem store_processState (image : message.toList = msg.image order) (k : Fin maxVmProcNum) :
    (load32 order message (processStateAt k) = some (msg.pstate k).processState) ∧
      ∃ changed,
        store32 order message (processStateAt k) (order.ntohl (msg.pstate k).processState) =
          some changed ∧
        changed.toList = VmProcStateMsg.image order (withPstate msg
          (Function.update msg.pstate k (ntohState order (msg.pstate k)))) := by
  obtain ⟨before, behind, length, split, updated⟩ := image_split msg order k
  have place : (before ++ (msg.pstate k).processName.toList).length = processStateAt k := by
    rw [List.length_append, length, Bytes.length_toList]
    rfl
  have layout : message.toList = before ++ (msg.pstate k).processName.toList ++
      order.bytesOf 4 (msg.pstate k).processState.toNat ++ behind := by
    rw [image, split, ProcessState.image]
    simp only [List.append_assoc]
  refine ⟨load32_field order layout place, ?_⟩
  obtain ⟨changed, stored, result⟩ := storeBytes_field layout place
    (order.bytesOf 4 (order.ntohl (msg.pstate k).processState).toNat) (by simp)
  refine ⟨changed, stored, ?_⟩
  rw [result, updated, ProcessState.image, ntohState]
  simp only [List.append_assoc]

/-- The processes after the conversion of a range of them. -/
def ntohRange (order : ByteOrder) (first last : Nat) (pstate : Fin maxVmProcNum → ProcessState) :
    Fin maxVmProcNum → ProcessState := fun k =>
  if first ≤ k.val ∧ k.val < last then ntohState order (pstate k) else pstate k

theorem ntohRange_update (order : ByteOrder) (pstate : Fin maxVmProcNum → ProcessState)
    {i last : Nat} (inside : i < maxVmProcNum) (before : i < last) :
    ntohRange order (i + 1) last
        (Function.update pstate ⟨i, inside⟩ (ntohState order (pstate ⟨i, inside⟩))) =
      ntohRange order i last pstate := by
  funext k
  by_cases here : k = ⟨i, inside⟩
  · subst here
    simp [ntohRange, before]
  · have index : k.val ≠ i := fun same => here (Fin.ext same)
    simp only [ntohRange, Function.update_of_ne here]
    congr 1
    simp only [eq_iff_iff]
    omega

theorem ntohStates_image (remaining : Nat) :
    ∀ (i : Nat) (message : Bytes n) (msg : VmProcStateMsg), i + remaining ≤ maxVmProcNum →
      message.toList = msg.image order →
      ∃ final, ntohStates order remaining i message = some final ∧
        final.toList = VmProcStateMsg.image order
          (withPstate msg (ntohRange order i (i + remaining) msg.pstate)) := by
  induction remaining with
  | zero =>
      intro i message msg _ image
      refine ⟨message, rfl, ?_⟩
      have same : ntohRange order i (i + 0) msg.pstate = msg.pstate := by
        funext k
        rw [ntohRange, if_neg (by omega)]
      rw [same, image]
      rfl
  | succ remaining ih =>
      intro i message msg bound image
      obtain ⟨loaded, changed, stored, result⟩ :=
        store_processState image ⟨i, by omega⟩
      obtain ⟨final, rest, finished⟩ := ih (i + 1) changed _ (by omega) result
      refine ⟨final, ?_, ?_⟩
      · rw [ntohStates, loaded, Option.bind_some, stored, Option.bind_some, rest]
      · have together := ntohRange_update order msg.pstate (i := i) (by omega)
          (show i < i + 1 + remaining by omega)
        rw [finished, show i + (remaining + 1) = i + 1 + remaining by omega, ← together]
        rfl

end Image

section Queue

variable {size : Nat} {order : ByteOrder}

/-- A header in the buffer after `TCP_MSG_NTOH`: its three numbers are in host order. -/
theorem tcpMsgNtoh_image {buf : Bytes size} {four behind : List UInt8} (place : four.length = 4)
    (systemId : UInt32) (msgType msgSize : UInt16)
    (layout : buf.toList = four ++ order.bytesOf 4 (order.htonl systemId).toNat ++
      order.bytesOf 2 (order.htons msgType).toNat ++
      order.bytesOf 2 (order.htons msgSize).toNat ++ behind) :
    ∃ changed, tcpMsgNtoh order buf = some changed ∧
      changed.toList = four ++ order.bytesOf 4 systemId.toNat ++
        order.bytesOf 2 msgType.toNat ++ order.bytesOf 2 msgSize.toNat ++ behind := by
  have eight (x : UInt32) : (four ++ order.bytesOf 4 x.toNat).length = 8 := by
    rw [List.length_append, place, ByteOrder.bytesOf_length]
  have ten (x : UInt32) (y : UInt16) :
      (four ++ order.bytesOf 4 x.toNat ++ order.bytesOf 2 y.toNat).length = 10 := by
    rw [List.length_append, eight, ByteOrder.bytesOf_length]
  rw [List.append_assoc _ (order.bytesOf 2 (order.htons msgSize).toNat)] at layout
  rw [List.append_assoc _ (order.bytesOf 2 (order.htons msgType).toNat)] at layout
  obtain ⟨one, storedOne, layoutOne⟩ := storeBytes_field layout place
    (order.bytesOf 4 systemId.toNat) (by simp)
  have readOne := load32_field order layout place
  rw [← List.append_assoc _ (order.bytesOf 2 (order.htons msgType).toNat)] at layoutOne
  obtain ⟨two, storedTwo, layoutTwo⟩ := storeBytes_field layoutOne (eight systemId)
    (order.bytesOf 2 msgType.toNat) (by simp)
  have readTwo := load16_field order layoutOne (eight systemId)
  rw [← List.append_assoc _ (order.bytesOf 2 (order.htons msgSize).toNat)] at layoutTwo
  obtain ⟨three, storedThree, layoutThree⟩ := storeBytes_field layoutTwo (ten systemId msgType)
    (order.bytesOf 2 msgSize.toNat) (by simp)
  have readThree := load16_field order layoutTwo (ten systemId msgType)
  refine ⟨three, ?_, layoutThree⟩
  rw [tcpMsgNtoh, readOne, Option.bind_some, ByteOrder.ntohl_htonl, store32, storedOne,
    Option.bind_some, readTwo, Option.bind_some, ByteOrder.ntohs_htons, store16, storedTwo,
    Option.bind_some, readThree, Option.bind_some, ByteOrder.ntohs_htons, store16, storedThree]

/-- The block that a message behind a header is queued as. -/
theorem tcpdSockEvent_image {buf : Bytes size} {four image behind : List UInt8}
    (place : four.length = 4) (slot : Slot) (header : CommonTcpmsg)
    (whole : image.length = header.msgSize.toNat)
    (layout : buf.toList =
      four ++ ((header.hton order).image order).drop 4 ++ image ++ behind) :
    ∃ changed block, tcpdSockEvent order slot buf = some (changed, block) ∧
      block.systemid = header.systemId ∧ block.msgtype = header.msgType ∧
      block.alistIdx = slot ∧ block.message.toList = image := by
  have fields : ((header.hton order).image order).drop 4 =
      order.bytesOf 4 (order.htonl header.systemId).toNat ++
        order.bytesOf 2 (order.htons header.msgType).toNat ++
        order.bytesOf 2 (order.htons header.msgSize).toNat := by
    simp only [CommonTcpmsg.image, CommonTcpmsg.hton, List.append_assoc]
    exact List.drop_left' (ByteOrder.bytesOf_length ..)
  have wire : buf.toList = four ++ order.bytesOf 4 (order.htonl header.systemId).toNat ++
      order.bytesOf 2 (order.htons header.msgType).toNat ++
      order.bytesOf 2 (order.htons header.msgSize).toNat ++ (image ++ behind) := by
    rw [layout, fields]
    simp only [List.append_assoc]
  obtain ⟨changed, converted, result⟩ := tcpMsgNtoh_image place
    header.systemId header.msgType header.msgSize wire
  have systemidLayout : changed.toList = four ++ order.bytesOf 4 header.systemId.toNat ++
      (order.bytesOf 2 header.msgType.toNat ++
        (order.bytesOf 2 header.msgSize.toNat ++ (image ++ behind))) := by
    rw [result]
    simp only [List.append_assoc]
  have systemid := load32_field order systemidLayout place
  have msgtypeLayout : changed.toList = four ++ order.bytesOf 4 header.systemId.toNat ++
      order.bytesOf 2 header.msgType.toNat ++
      (order.bytesOf 2 header.msgSize.toNat ++ (image ++ behind)) := by
    rw [result]
    simp only [List.append_assoc]
  have eight : (four ++ order.bytesOf 4 header.systemId.toNat).length = 8 := by
    rw [List.length_append, place, ByteOrder.bytesOf_length]
  have msgtype := load16_field order msgtypeLayout eight
  have ten : (four ++ order.bytesOf 4 header.systemId.toNat ++
      order.bytesOf 2 header.msgType.toNat).length = 10 := by
    rw [List.length_append, eight, ByteOrder.bytesOf_length]
  have msgsize := load16_field order result ten
  have imageLayout : changed.toList = four ++ order.bytesOf 4 header.systemId.toNat ++
      order.bytesOf 2 header.msgType.toNat ++ order.bytesOf 2 header.msgSize.toNat ++
      image ++ behind := by
    rw [result]
    simp only [List.append_assoc]
  have twelve : (four ++ order.bytesOf 4 header.systemId.toNat ++
      order.bytesOf 2 header.msgType.toNat ++ order.bytesOf 2 header.msgSize.toNat).length =
      defaultTcpComhdrLength := by
    rw [List.length_append, ten, ByteOrder.bytesOf_length]
    rfl
  obtain ⟨message, loaded, same⟩ := loadBytes_field imageLayout twelve whole
  refine ⟨changed, ⟨header.systemId, header.msgType, header.msgSize, slot, message⟩, ?_,
    rfl, rfl, rfl, same⟩
  rw [tcpdSockEvent, converted, Option.bind_some, tcpPutFifo, systemid, Option.bind_some, msgtype,
    Option.bind_some, msgsize, Option.bind_some, loaded]
  rfl

end Queue

section Handling

variable {n : Nat} {order : ByteOrder} {message : Bytes n} {msg : VmProcStateMsg}

/-- A string that ends inside a field is read from the field's offset. -/
theorem cstr_field {size offset : Nat} {field : Bytes size} (terminated : (str field).isSome)
    {behind : List UInt8} (place : message.toList.drop offset = field.toList ++ behind) :
    cstr (message.toList.drop offset) = str field := by
  obtain ⟨chars, read⟩ := Option.isSome_iff_exists.mp terminated
  rw [place, read]
  exact cstr_append_of_some read behind

/-- Copying such a string to an entry gives the entry the same string. -/
theorem strcpy_field {size offset : Nat} {field : Bytes size} (dest : Bytes size)
    (terminated : (str field).isSome) {behind : List UInt8}
    (place : message.toList.drop offset = field.toList ++ behind) :
    ∃ copied, strcpy dest (message.toList.drop offset) = some copied ∧
      str copied = str field := by
  obtain ⟨chars, read⟩ := Option.isSome_iff_exists.mp terminated
  have short := cstr_length_lt read
  rw [field.length_toList] at short
  have source := (cstr_field terminated place).trans read
  obtain ⟨copied, done, _⟩ := strcpy_of_cstr dest source short
  exact ⟨copied, done, (cstr_strcpy done).trans (source.trans read.symm)⟩

theorem drop_pstate (image : message.toList = msg.image order) (k : Fin maxVmProcNum) :
    ∃ behind, message.toList.drop (pstateAt k) =
      (msg.pstate k).processName.toList ++ behind := by
  obtain ⟨before, behind, length, split, _⟩ := image_split msg order k
  refine ⟨order.bytesOf 4 (msg.pstate k).processState.toNat ++ behind, ?_⟩
  rw [image, split, ProcessState.image, List.append_assoc, List.drop_left' length,
    List.append_assoc]

/-- The strings of a message end inside their fields, those of the processes included. -/
structure Terminated (msg : VmProcStateMsg) : Prop where
  vmId : (str msg.vmId).isSome
  vmName : (str msg.vmName).isSome
  manageIp : (str msg.manageIp).isSome
  names : ∀ k, (str (msg.pstate k).processName).isSome

theorem traceStr_field {size offset : Nat} {field : Bytes size} (traced : Bool)
    (terminated : (str field).isSome) {behind : List UInt8}
    (place : message.toList.drop offset = field.toList ++ behind) :
    traceStr traced message offset = some () := by
  obtain ⟨chars, read⟩ := Option.isSome_iff_exists.mp terminated
  unfold traceStr readStr
  rw [cstr_field terminated place, read]
  cases traced <;> rfl

theorem debugProcesses_image (traced : Bool) (image : message.toList = msg.image order)
    (terminated : Terminated msg) (remaining : Nat) :
    ∀ i, i + remaining ≤ maxVmProcNum →
      debugProcesses order traced message remaining i = some () := by
  induction remaining with
  | zero => exact fun _ _ => rfl
  | succ remaining ih =>
      intro i bound
      have inside : i < maxVmProcNum := by omega
      obtain ⟨behind, place⟩ := drop_pstate image ⟨i, inside⟩
      have name := traceStr_field traced (terminated.names ⟨i, inside⟩) place
      have state := (store_processState image ⟨i, inside⟩).1
      rw [debugProcesses, if_pos inside, name, Option.bind_some, state, Option.bind_some]
      exact ih (i + 1) (by omega)

/-- An `unsigned int` below 2^31 keeps its value as an `int`. -/
theorem toInt_toInt32_of_lt {x : UInt32} (small : x.toNat < 2 ^ 31) :
    x.toInt32.toInt = x.toNat :=
  BitVec.toInt_eq_toNat_of_lt (by change 2 * x.toNat < 2 ^ 32; omega)

theorem debugVmProcessState_image (traced : Bool) (image : message.toList = msg.image order)
    (terminated : Terminated msg) (count : (order.ntohl msg.pcount).toNat ≤ maxVmProcNum) :
    debugVmProcessState order traced message = some () := by
  obtain ⟨⟨behindId, vmId⟩, ⟨behindName, vmName⟩, ⟨behindIp, manageIp⟩⟩ :=
    drop_identifiers msg order
  rw [← image] at vmId vmName manageIp
  have rounds : (order.ntohl msg.pcount).toInt32.toInt.toNat = (order.ntohl msg.pcount).toNat := by
    rw [maxVmProcNum] at count
    rw [toInt_toInt32_of_lt (by omega), Int.toNat_natCast]
  rw [debugVmProcessState, load_pcount image, Option.bind_some, load_vmType image,
    Option.bind_some, load_vmIpaddress image, Option.bind_some,
    traceStr_field traced terminated.vmId vmId, Option.bind_some,
    traceStr_field traced terminated.vmName vmName, Option.bind_some,
    traceStr_field traced terminated.manageIp manageIp, Option.bind_some, rounds]
  exact debugProcesses_image traced image terminated _ 0 (by omega)

/-- The strings that are copied to an entry end inside their fields. -/
structure Copyable (msg : VmProcStateMsg) : Prop where
  vmId : (str msg.vmId).isSome
  vmName : (str msg.vmName).isSome
  manageIp : (str msg.manageIp).isSome

theorem fillEntry_copyable (image : message.toList = msg.image order) (copyable : Copyable msg)
    (vmType pcount : UInt32) (entry : VmcStateinfo) :
    ∃ filled, fillEntry order message vmType pcount entry = some filled ∧
      filled.vmIp = entry.vmIp ∧ filled.vmType = vmType.toUInt16 ∧
      filled.pcount = pcount.toUInt16 ∧ filled.pstate = msg.pstate ∧
      str filled.vmId = str msg.vmId ∧ str filled.vmName = str msg.vmName ∧
      str filled.manageIp = str msg.manageIp := by
  obtain ⟨⟨behindId, vmIdPlace⟩, ⟨behindName, vmNamePlace⟩, ⟨behindIp, manageIpPlace⟩⟩ :=
    drop_identifiers msg order
  rw [← image] at vmIdPlace vmNamePlace manageIpPlace
  obtain ⟨vmId, copiedId, sameId⟩ := strcpy_field entry.vmId copyable.vmId vmIdPlace
  obtain ⟨vmName, copiedName, sameName⟩ :=
    strcpy_field entry.vmName copyable.vmName vmNamePlace
  obtain ⟨manageIp, copiedIp, sameIp⟩ :=
    strcpy_field entry.manageIp copyable.manageIp manageIpPlace
  refine ⟨⟨entry.vmIp, vmType.toUInt16, pcount.toUInt16, vmId, vmName, manageIp, msg.pstate⟩, ?_,
    rfl, rfl, rfl, rfl, sameId, sameName, sameIp⟩
  rw [fillEntry, load_pstate image, Option.bind_some, copiedId, Option.bind_some, copiedName,
    Option.bind_some, copiedIp, Option.map_some]

/-- An entry that holds what a message says. -/
structure Stored (order : ByteOrder) (msg : VmProcStateMsg) (entry : VmcStateinfo) : Prop where
  vmIp : entry.vmIp = order.ntohl msg.vmIpaddress
  vmType : entry.vmType = (order.ntohl msg.vmType).toUInt16
  pcount : entry.pcount = (order.ntohl msg.pcount).toUInt16
  pstate : ∀ k, entry.pstate k = ntohState order (msg.pstate k)
  vmId : str entry.vmId = str msg.vmId
  vmName : str entry.vmName = str msg.vmName
  manageIp : str entry.manageIp = str msg.manageIp

/-- Where the report of an address belongs: in its entry, else in the first free one. -/
def EntryFor (stateinfo : Slot → VmcStateinfo) (vmIp : UInt32) (i : Slot) : Prop :=
  (stateinfo i).vmIp = vmIp ∨
    (∀ k, (stateinfo k).vmIp ≠ vmIp) ∧ (stateinfo i).vmIp = 0 ∧ ∀ k < i, (stateinfo k).vmIp ≠ 0

/-- When the VM has an entry or one is free, the searches end there and fill it. -/
theorem storeEntry_stored {vmstate : Slot → VmcStateinfo} {vmIp : UInt32}
    {fill : VmcStateinfo → Option VmcStateinfo} {P : VmcStateinfo → Prop}
    (fills : ∀ entry, entry.vmIp = vmIp → ∃ filled, fill entry = some filled ∧ P filled)
    (place : ∃ i, (vmstate i).vmIp = vmIp ∨ (vmstate i).vmIp = 0) :
    ∃ (i : Slot) (filled : VmcStateinfo),
      storeEntry vmstate vmIp fill = some ((i.val : Int), Function.update vmstate i filled) ∧
        EntryFor vmstate vmIp i ∧ P filled := by
  unfold storeEntry
  split
  · rename_i i found
    have owned : (vmstate i).vmIp = vmIp := by
      simpa using (Fin.find?_eq_some_iff.mp found).1
    obtain ⟨filled, done, stored⟩ := fills (vmstate i) owned
    exact ⟨i, filled, by rw [done, Option.map_some], Or.inl owned, stored⟩
  · rename_i absent
    have unknown (k : Slot) : (vmstate k).vmIp ≠ vmIp := by
      simpa using Fin.find?_eq_none_iff.mp absent k
    split
    · rename_i i found
      obtain ⟨free, taken⟩ := Fin.find?_eq_some_iff.mp found
      obtain ⟨filled, done, stored⟩ := fills { vmstate i with vmIp } rfl
      refine ⟨i, filled, by rw [done, Option.map_some], Or.inr ⟨unknown, ?_, ?_⟩, stored⟩
      · simpa using free
      · exact fun k lower => by simpa using taken k lower
    · rename_i full
      obtain ⟨i, owned | free⟩ := place
      · exact absurd owned (unknown i)
      · exact absurd free (by simpa using Fin.find?_eq_none_iff.mp full i)

/-- What `SetVmProcessStateInfo` makes of a message: a search for the place of its entry,
which is filled with what the message says. -/
theorem setVmProcessStateInfo_fills (image : message.toList = msg.image order)
    (vmstate : Slot → VmcStateinfo) :
    ∃ fill, setVmProcessStateInfo order vmstate message =
        storeEntry vmstate (order.ntohl msg.vmIpaddress) fill ∧
      (Copyable msg → ∀ entry, entry.vmIp = order.ntohl msg.vmIpaddress →
        ∃ filled, fill entry = some filled ∧ Stored order msg filled) := by
  obtain ⟨converted, conversion, convertedImage⟩ :=
    ntohStates_image maxVmProcNum 0 message msg (by omega) image
  refine ⟨fillEntry order converted (order.ntohl msg.vmType) (order.ntohl msg.pcount), ?_, ?_⟩
  · rw [setVmProcessStateInfo, load_vmIpaddress image, Option.bind_some, load_vmType image,
      Option.bind_some, load_pcount image, Option.bind_some, conversion, Option.bind_some]
  · intro copyable entry owner
    have names : Copyable (withPstate msg (ntohRange order 0 (0 + maxVmProcNum) msg.pstate)) :=
      ⟨copyable.vmId, copyable.vmName, copyable.manageIp⟩
    obtain ⟨filled, done, vmIp, vmType, pcount, pstate, vmId, vmName, manageIp⟩ :=
      fillEntry_copyable convertedImage names (order.ntohl msg.vmType) (order.ntohl msg.pcount)
        entry
    refine ⟨filled, done, vmIp.trans owner, vmType, pcount, fun k => ?_, vmId, vmName, manageIp⟩
    rw [pstate]
    simp [withPstate, ntohRange]

theorem setVmProcessStateInfo_image (image : message.toList = msg.image order)
    (terminated : Terminated msg) (vmstate : Slot → VmcStateinfo)
    (place : ∃ i, (vmstate i).vmIp = order.ntohl msg.vmIpaddress ∨ (vmstate i).vmIp = 0) :
    ∃ (i : Slot) (changed : Slot → VmcStateinfo),
      setVmProcessStateInfo order vmstate message = some ((i.val : Int), changed) ∧
        Stored order msg (changed i) := by
  obtain ⟨fill, same, fills⟩ := setVmProcessStateInfo_fills image vmstate
  obtain ⟨i, filled, done, _, stored⟩ :=
    storeEntry_stored (fills ⟨terminated.vmId, terminated.vmName, terminated.manageIp⟩) place
  refine ⟨i, _, same.trans done, ?_⟩
  rwa [Function.update_self]

/-- Handling a queued report stores it, whatever becomes of the response. -/
theorem fifoGetEvent_image {block : Block} (request : block.msgtype = vmProcStateReq)
    (image : block.message.toList = msg.image order) (terminated : Terminated msg)
    (count : (order.ntohl msg.pcount).toNat ≤ maxVmProcNum) (traced : Bool) (s : HostTables)
    (env : SendEnv)
    (place : ∃ i, (s.stateinfo i).vmIp = order.ntohl msg.vmIpaddress ∨ (s.stateinfo i).vmIp = 0) :
    ∃ final i, fifoGetEvent order traced s block env = some final ∧
      Stored order msg (final.stateinfo i) := by
  obtain ⟨ret, next, wire, responded, same⟩ :=
    sendVmProcStateRsp_total order s block.alistIdx block.systemid env
  obtain ⟨i, changed, stored, entry⟩ :=
    setVmProcessStateInfo_image image terminated s.stateinfo place
  refine ⟨{ next with stateinfo := changed }, i, ?_, entry⟩
  rw [fifoGetEvent, if_pos request, load_vmIpaddress image, Option.bind_some,
    debugVmProcessState_image traced image terminated count, Option.bind_some, responded,
    Option.bind_some]
  simp only [same, stored, Option.map_some]
  rw [if_neg (by omega)]

end Handling

section EndToEnd

variable {order : ByteOrder} {conf : VmctConfig} {up : Nat → Bool} {msg : VmProcStateMsg}

theorem report_terminated (reportable : Reportable conf) (report : ReportOf order conf up msg) :
    Terminated msg where
  vmId := report.vmId
  vmName := report.vmName
  manageIp := report.manageIp
  names := by
    intro k
    by_cases configured : k.val < conf.vmctProc.pcount.toNat
    · rw [(report.configured k configured).1]
      exact reportable.names k configured
    · rw [report.others k (by omega)]
      decide

/-- The entry that the host keeps for the agent's VM. -/
structure EntryOf (conf : VmctConfig) (up : Nat → Bool) (msg : VmProcStateMsg)
    (entry : VmcStateinfo) : Prop where
  vmIp : entry.vmIp = conf.vmctIp
  vmType : entry.vmType = conf.vmType
  pcount : entry.pcount.toNat = conf.vmctProc.pcount.toNat
  configured : ∀ k : Fin maxVmProcNum, k.val < conf.vmctProc.pcount.toNat →
    str (entry.pstate k).processName = str (conf.vmctProc.pstate k).processName ∧
      (entry.pstate k).processState = checkedState up k
  others : ∀ k : Fin maxVmProcNum, conf.vmctProc.pcount.toNat ≤ k.val →
    entry.pstate k = ⟨dash 63, 0⟩
  vmId : str entry.vmId = str msg.vmId ∧ (str msg.vmId).isSome
  vmName : str entry.vmName = str msg.vmName ∧ (str msg.vmName).isSome
  manageIp : str entry.manageIp = str msg.manageIp ∧ (str msg.manageIp).isSome

theorem Stored.entryOf {entry : VmcStateinfo} (reportable : Reportable conf)
    (report : ReportOf order conf up msg) (stored : Stored order msg entry) :
    EntryOf conf up msg entry where
  vmIp := by rw [stored.vmIp, report.ip, ByteOrder.ntohl_htonl]
  vmType := by
    rw [stored.vmType, report.type, ByteOrder.ntohl_htonl, UInt16.toUInt16_toUInt32]
  pcount := by
    have count := reportable.count
    rw [maxVmProcNum] at count
    rw [stored.pcount, report.count, ByteOrder.ntohl_htonl, UInt32.toNat_toUInt16,
      Nat.mod_eq_of_lt (by omega)]
  configured := by
    intro k inside
    obtain ⟨name, state⟩ := report.configured k inside
    rw [stored.pstate, ntohState, state, ByteOrder.ntohl_htonl]
    exact ⟨name, rfl⟩
  others := by
    intro k outside
    rw [stored.pstate, report.others k outside]
    cases order <;> rfl
  vmId := ⟨stored.vmId, report.vmId⟩
  vmName := ⟨stored.vmName, report.vmName⟩
  manageIp := ⟨stored.manageIp, report.manageIp⟩

/-- The message in the receive buffer: the header's last eight bytes and the image. -/
theorem received_layout {size : Nat} {rBuf buf : Bytes size} {sndbuf : Bytes 952}
    (built : sndbuf.toList = (reqHeader.hton order).image order ++ msg.image order)
    (stored : storeBytes rBuf tpktHeaderSize (sndbuf.toList.drop tpktHeaderSize) = some buf) :
    ∃ four behind, four.length = 4 ∧ buf.toList =
      four ++ ((reqHeader.hton order).image order).drop 4 ++ msg.image order ++ behind := by
  obtain ⟨inside, same⟩ := storeBytes_eq stored
  have body : sndbuf.toList.drop tpktHeaderSize =
      ((reqHeader.hton order).image order).drop 4 ++ msg.image order := by
    rw [built, tpktHeaderSize, List.drop_append_of_le_length]
    rw [CommonTcpmsg.image_length]
    decide
  refine ⟨rBuf.toList.take 4, _, ?_, by rw [same, body, ← List.append_assoc]; rfl⟩
  rw [List.length_take, rBuf.length_toList]
  rw [List.length_drop, sndbuf.length_toList, tpktHeaderSize] at inside
  omega

/-- A report end to end: whatever the agent's checks, the cuts of the stream and the
response, the host's entry of the VM holds what the agent sent. -/
theorem report_endToEnd (order : ByteOrder) {conf : VmctConfig} (up : Nat → Bool)
    (reportable : Reportable conf) (agent : VmctSock.AgentLink)
    (clock : VmctSock.ClockEnv) {fd : Int} (open_ : 0 < fd) {env : SendEnv}
    (ready : ∀ poll ∈ env.polls, poll = .ready ∨ poll = .interrupted)
    (progress : Progress env.sends) (host : HostTables) (slot : Slot)
    (rBuf : Bytes TcpFraming.hostBufSize) (traced : Bool) :
    ∃ conf' msg sndbuf sent, sendProcStateReq order conf up = some (conf', msg, sndbuf) ∧
      VmctSock.tcpSend order agent 0 fd sndbuf 952 .client env clock = some (agent, sent) ∧
      ∀ events behind, stream events = sent.wire ++ behind →
        ∃ result buf block, tcpRecv order host slot rBuf events = some (host, result) ∧
          0 < result.nRecv ∧ stream result.events = behind ∧
          tcpdSockEvent order slot result.rBuf = some (buf, block) ∧
          ∀ (tables : HostTables) (rsp : SendEnv),
            (∃ i, (tables.stateinfo i).vmIp = conf.vmctIp ∨ (tables.stateinfo i).vmIp = 0) →
              ∃ final i, fifoGetEvent order traced tables block rsp = some final ∧
                EntryOf conf up msg (final.stateinfo i) := by
  obtain ⟨conf', msg, sndbuf, requested, report, built⟩ :=
    sendProcStateReq_report order up reportable
  obtain ⟨sndMsg, sending⟩ : ∃ sndMsg, sendFrame order fd sndbuf 952 env =
      some ⟨952, sndMsg, framed order sndbuf.toList, false⟩ :=
    sendFrame_complete order open_ sndbuf (by decide) ready progress
  refine ⟨conf', msg, sndbuf, ⟨952, sndMsg, framed order sndbuf.toList, false⟩, requested,
    by simp [VmctSock.tcpSend, sending], ?_⟩
  intro events behind arrives
  obtain ⟨result, receiving, positive, connected, later, stored⟩ :=
    recvFrame_complete order sndbuf.toList
      (by rw [sndbuf.length_toList]; decide) (by rw [sndbuf.length_toList]; decide) rBuf
      (by rw [sndbuf.length_toList]; decide) arrives
  obtain ⟨four, rest, place, layout⟩ := received_layout built stored
  obtain ⟨buf, block, queued, _, request, _, image⟩ := tcpdSockEvent_image place slot reqHeader
    (by rw [VmProcStateMsg.image_length]; decide) layout
  refine ⟨result, buf, block, by simp [tcpRecv, receiving, connected], positive, later, queued, ?_⟩
  intro tables rsp room
  obtain ⟨final, i, handled, entry⟩ := fifoGetEvent_image request image
    (report_terminated reportable report)
    (by rw [report.count, ByteOrder.ntohl_htonl]; exact reportable.count) traced tables rsp
    (by simpa only [report.ip, ByteOrder.ntohl_htonl] using room)
  exact ⟨final, i, handled, entry.entryOf reportable report⟩

/-- A host with one configured process, whose agent is at 10.0.0.1. -/
def sampleConf : VmctConfig where
  vmType := vmTypeHost
  vmctId := 1
  vmctIp := 0x0A000001
  manageHostip := dash 31
  vmctName := dash 31
  vmctProc := ⟨1, fun _ => ⟨dash 63, 0⟩⟩

theorem report_endToEnd_sample :
    ∃ conf' msg sndbuf sent block, sendProcStateReq .little sampleConf (fun _ => true) =
        some (conf', msg, sndbuf) ∧
      VmctSock.tcpSend .little .init 0 5 sndbuf 952 .client ⟨[], [.accepted 100]⟩ ⟨true, none⟩ =
        some (.init, sent) ∧
      ∃ final i, fifoGetEvent .little true .init block ⟨[], []⟩ = some final ∧
        EntryOf sampleConf (fun _ => true) msg (final.stateinfo i) := by
  have reportable : Reportable sampleConf :=
    ⟨by decide, fun _ _ => (by decide : (str (dash 63)).isSome), ⟨[45], by decide, by decide⟩,
      by decide⟩
  have ready : ∀ poll ∈ (⟨[], [.accepted 100]⟩ : SendEnv).polls,
      poll = .ready ∨ poll = .interrupted := by simp
  obtain ⟨conf', msg, sndbuf, sent, requested, sending, delivery⟩ :=
    report_endToEnd .little (fun _ => true) reportable .init ⟨true, none⟩
      (show (0 : Int) < 5 by decide) ready (by simp [Progress]) .init 0 (Bytes.zero _) true
  obtain ⟨result, buf, block, _, _, _, _, handled⟩ :=
    delivery (singly sent.wire) [] (by rw [stream_singly, List.append_nil])
  exact ⟨conf', msg, sndbuf, sent, block, requested, sending,
    handled .init ⟨[], []⟩ ⟨0, Or.inr rfl⟩⟩

end EndToEnd

end VnfMonitoring.ReportRoundTrip
