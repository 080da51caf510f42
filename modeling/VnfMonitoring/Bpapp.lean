import VnfMonitoring.Lib.Memory

set_option autoImplicit false

/- The definitions of `bpapp.h` that both programs share: sizes, status codes,
message types and the records of a VM and of its processes. -/
namespace VnfMonitoring.Bpapp

open VnfMonitoring.Memory

abbrev maxSystemNum : Nat := 128

instance : NeZero maxSystemNum := ⟨by decide⟩

def maxNameLength : Nat := 32

def maxTimeLength : Nat := 32

def maxVmProcNum : Nat := 12

/-- `vm_status` codes. -/
def statusActive : UInt16 := 0x01

def statusBuild : UInt16 := 0x02

def statusDeleted : UInt16 := 0x03

def statusStopped : UInt16 := 0x04

def statusPaused : UInt16 := 0x05

def statusSuspended : UInt16 := 0x06

/-- `vm_power_status` codes. -/
def pwStatusNostatus : UInt16 := 0x00

def pwStatusRunning : UInt16 := 0x01

def pwStatusShutdown : UInt16 := 0x04

/-- Process states. -/
def processStateUp : UInt32 := 0x01

def processStateDown : UInt32 := 0x02

def vmTypeUtm : UInt16 := 0x01

def vmTypeHost : UInt16 := 0x03

def vmProcStateReq : UInt16 := 0x0001

def vmProcStateRsp : UInt16 := 0x0002

/-- The characters of the string in a `char` array. -/
def str {n : Nat} (chars : Bytes n) : Option (List UInt8) := cstr chars.toList

theorem strcpy_reads {size : Nat} {dest copied : Bytes size} {source : List UInt8}
    (done : strcpy dest source = some copied) :
    ∃ chars, cstr source = some chars ∧ str copied = some chars := by
  have same := cstr_strcpy done
  have room := (strcpy_isSome dest source).mp (by rw [done]; rfl)
  obtain ⟨chars, read⟩ := Option.isSome_iff_exists.mp
    ((cstr_isSome source).mpr (List.mem_of_mem_take room))
  exact ⟨chars, read, same.trans read⟩

theorem strcpy_total {n m : Nat} (dest : Bytes n) {source : Bytes m}
    (terminated : (str source).isSome) (fits : m ≤ n) :
    ∃ copied, strcpy dest source.toList = some copied ∧ str copied = str source := by
  obtain ⟨chars, read⟩ := Option.isSome_iff_exists.mp terminated
  have short := cstr_length_lt read
  rw [source.length_toList] at short
  obtain ⟨copied, done, _⟩ := strcpy_of_cstr dest read (by omega)
  exact ⟨copied, done, cstr_strcpy done⟩

theorem strcpy_str {n : Nat} (dest : Bytes n) (chars rest : List UInt8)
    (text : (0 : UInt8) ∉ chars) (fits : chars.length < n) :
    ∃ copied, strcpy dest (chars ++ 0 :: rest) = some copied ∧ str copied = some chars := by
  have read := cstr_append chars rest text
  obtain ⟨copied, done, _⟩ := strcpy_of_cstr dest read fits
  exact ⟨copied, done, (cstr_strcpy done).trans read⟩

/-- `process_state_t`. -/
structure ProcessState where
  processName : Bytes (maxNameLength * 2)
  processState : UInt32
  deriving DecidableEq

def ProcessState.zero : ProcessState := ⟨.zero _, 0⟩

/-- `vmc_status_t`: one row of the database snapshot. -/
structure VmcStatus where
  vmId : UInt32
  vmIpaddr : UInt32
  vmStatus : UInt16
  vmPowerStatus : UInt16
  vmName : Bytes maxNameLength
  vmUuid : Bytes (maxNameLength * 4)
  vmHostName : Bytes maxNameLength
  deriving DecidableEq

def VmcStatus.zero : VmcStatus := ⟨0, 0, 0, 0, .zero _, .zero _, .zero _⟩

/-- `vmc_stateinfo_t`: the host's record of one VM's processes. -/
structure VmcStateinfo where
  vmIp : UInt32
  vmType : UInt16
  pcount : UInt16
  vmId : Bytes (maxNameLength * 2)
  vmName : Bytes maxNameLength
  manageIp : Bytes (maxNameLength / 2)
  pstate : Fin maxVmProcNum → ProcessState

def VmcStateinfo.zero : VmcStateinfo :=
  ⟨0, 0, 0, .zero _, .zero _, .zero _, fun _ => .zero⟩

/-- The array of the string "-". -/
def dash (n : Nat) : Bytes (n + 1) := ⟨45 :: List.replicate n 0, by simp⟩

/-- `basePState`: every process named "-", in state 0. -/
def basePState : Fin maxVmProcNum → ProcessState := fun _ => ⟨dash 63, 0⟩

/-- `vm_process_t`: what is stored of one VM at one time. -/
structure VmProcess where
  timeStamp : Bytes maxTimeLength
  vmId : Bytes (maxNameLength * 2)
  vmName : Bytes (maxNameLength * 4)
  hostId : Bytes (maxNameLength * 4)
  hostIp : Bytes (maxNameLength / 2)
  vmType : UInt16
  vmState : UInt16
  vmPowerState : UInt16
  bpState : UInt16
  vmProcessCount : UInt16
  pstate : Fin maxVmProcNum → ProcessState

def VmProcess.zero : VmProcess :=
  ⟨.zero _, .zero _, .zero _, .zero _, .zero _, 0, 0, 0, 0, 0, fun _ => .zero⟩

/-- `common_tcpmsg_t`. -/
structure CommonTcpmsg where
  tpktHdr : UInt32
  systemId : UInt32
  msgType : UInt16
  msgSize : UInt16
  deriving DecidableEq, Repr

def defaultTcpComhdrLength : Nat := 12

/-- `TCP_MSG_HTON`. -/
def CommonTcpmsg.hton (order : ByteOrder) (msg : CommonTcpmsg) : CommonTcpmsg :=
  { msg with
    systemId := order.htonl msg.systemId
    msgType := order.htons msg.msgType
    msgSize := order.htons msg.msgSize }

/-- The packed memory image of the header. -/
def CommonTcpmsg.image (order : ByteOrder) (msg : CommonTcpmsg) : List UInt8 :=
  order.bytesOf 4 msg.tpktHdr.toNat ++ order.bytesOf 4 msg.systemId.toNat ++
    order.bytesOf 2 msg.msgType.toNat ++ order.bytesOf 2 msg.msgSize.toNat

/-- `vm_proc_state_msg`. -/
structure VmProcStateMsg where
  vmIpaddress : UInt32
  vmType : UInt32
  pcount : UInt32
  vmId : Bytes (maxNameLength * 2)
  vmName : Bytes maxNameLength
  manageIp : Bytes (maxNameLength / 2)
  pstate : Fin maxVmProcNum → ProcessState

/-- Offsets in the packed layout of `vm_proc_state_msg`, and its size. -/
def vmIpaddressAt : Nat := 0

def vmTypeAt : Nat := 4

def pcountAt : Nat := 8

def vmIdAt : Nat := 12

def vmNameAt : Nat := 76

def manageIpAt : Nat := 108

def pstateAt (i : Nat) : Nat := 124 + 68 * i

def processStateAt (i : Nat) : Nat := pstateAt i + 64

def vmProcStateMsgSize : Nat := 940

def ProcessState.image (order : ByteOrder) (state : ProcessState) : List UInt8 :=
  state.processName.toList ++ order.bytesOf 4 state.processState.toNat

def VmProcStateMsg.image (order : ByteOrder) (msg : VmProcStateMsg) : List UInt8 :=
  order.bytesOf 4 msg.vmIpaddress.toNat ++ order.bytesOf 4 msg.vmType.toNat ++
    order.bytesOf 4 msg.pcount.toNat ++ msg.vmId.toList ++ msg.vmName.toList ++
    msg.manageIp.toList ++ (List.ofFn msg.pstate).flatMap (ProcessState.image order)

@[simp] theorem CommonTcpmsg.image_length (order : ByteOrder) (msg : CommonTcpmsg) :
    (msg.image order).length = defaultTcpComhdrLength := by
  simp [CommonTcpmsg.image, defaultTcpComhdrLength]

@[simp] theorem ProcessState.image_length (order : ByteOrder) (state : ProcessState) :
    (state.image order).length = 68 := by
  simp [ProcessState.image, maxNameLength]

@[simp] theorem VmProcStateMsg.image_length (order : ByteOrder) (msg : VmProcStateMsg) :
    (msg.image order).length = vmProcStateMsgSize := by
  simp only [VmProcStateMsg.image, List.length_append, List.length_flatMap,
    ProcessState.image_length, ByteOrder.bytesOf_length, Bytes.length_toList, List.map_const',
    List.sum_replicate_nat, List.length_ofFn]
  rfl

theorem flatMap_split {α : Type} (piece : α → List UInt8) {width : Nat}
    (same : ∀ x, (piece x).length = width) {size : Nat} (f : Fin size → α) (k : Fin size) :
    ∃ before behind, before.length = width * k ∧ ∀ x,
      (List.ofFn (Function.update f k x)).flatMap piece = before ++ piece x ++ behind := by
  refine ⟨((List.ofFn f).take k).flatMap piece, ((List.ofFn f).drop (k + 1)).flatMap piece,
    ?_, fun x => ?_⟩
  · have inside := k.isLt
    simp only [List.length_flatMap, same, List.map_const', List.sum_replicate_nat,
      List.length_take, List.length_ofFn]
    rw [Nat.min_eq_left (by omega), Nat.mul_comm]
  · have updated : List.ofFn (Function.update f k x) = (List.ofFn f).set k x := by
      apply List.ext_getElem
      · simp
      · intro index low high
        simp only [List.getElem_ofFn, List.getElem_set, Function.update_apply, Fin.ext_iff]
        simp only [eq_comm]
    rw [updated, List.set_eq_take_append_cons_drop, if_pos (by simp), List.flatMap_append,
      List.flatMap_cons, List.append_assoc]

/-- The image of a message around the record of one process. -/
theorem VmProcStateMsg.image_pstate (order : ByteOrder) (msg : VmProcStateMsg)
    (k : Fin maxVmProcNum) :
    ∃ before behind, before.length = pstateAt k ∧ ∀ state,
      { msg with pstate := Function.update msg.pstate k state }.image order =
        before ++ state.image order ++ behind := by
  obtain ⟨before, behind, length, split⟩ :=
    flatMap_split (ProcessState.image order) (ProcessState.image_length order) msg.pstate k
  refine ⟨order.bytesOf 4 msg.vmIpaddress.toNat ++ order.bytesOf 4 msg.vmType.toNat ++
    order.bytesOf 4 msg.pcount.toNat ++ msg.vmId.toList ++ msg.vmName.toList ++
    msg.manageIp.toList ++ before, behind, ?_, fun state => ?_⟩
  · simp only [List.length_append, ByteOrder.bytesOf_length, Bytes.length_toList, length,
      maxNameLength, pstateAt]
  · simp only [VmProcStateMsg.image, split, List.append_assoc]

end VnfMonitoring.Bpapp
