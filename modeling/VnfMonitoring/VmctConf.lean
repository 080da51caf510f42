import VnfMonitoring.ConfFile

set_option autoImplicit false

/- The configuration of the agent, `vmct_conf.c`: the structures it fills, byte by byte,
and the keys of `Gettoken`. -/
namespace VnfMonitoring.VmctConf

open VnfMonitoring.Memory VnfMonitoring.Runs VnfMonitoring.Objects VnfMonitoring.DbmbStatus
  VnfMonitoring.ConfFile

/-- `VmctConf` and `tlinkHOST`. -/
inductive Obj where
  | vmctConf
  | tlinkHost
  deriving DecidableEq

def size : Obj → Nat
  | .vmctConf => 908
  | .tlinkHost => 312

abbrev VmctConfig := Contents size

/-- The fields of `vmct_config_t`; `vmct_proc` is the number of processes and their states. -/
def vmType : Place Obj := ⟨.vmctConf, 0, 2⟩

def vmstateSendtime : Place Obj := ⟨.vmctConf, 2, 2⟩

def hostIp : Place Obj := ⟨.vmctConf, 4, 4⟩

def hostPort : Place Obj := ⟨.vmctConf, 8, 2⟩

def vmctId : Place Obj := ⟨.vmctConf, 12, 4⟩

def vmctIp : Place Obj := ⟨.vmctConf, 16, 4⟩

def vmctClientport : Place Obj := ⟨.vmctConf, 20, 2⟩

def manageHostip : Place Obj := ⟨.vmctConf, 22, 32⟩

def vmctName : Place Obj := ⟨.vmctConf, 54, 32⟩

def vmctProc : Place Obj := ⟨.vmctConf, 88, 820⟩

/-- The fields of `LinkInfo_t`. -/
def mode : Place Obj := ⟨.tlinkHost, 0, 4⟩

def version : Place Obj := ⟨.tlinkHost, 4, 4⟩

def addr : Place Obj := ⟨.tlinkHost, 8, 128⟩

def port : Place Obj := ⟨.tlinkHost, 136, 4⟩

def listenFd : Place Obj := ⟨.tlinkHost, 140, 4⟩

def tmrHb : Place Obj := ⟨.tlinkHost, 144, 20⟩

def tmrReconn : Place Obj := ⟨.tlinkHost, 164, 20⟩

/-- `tmr_hb.tmrVal` and `tmr_reconn.tmrVal`. -/
def tmrHbVal : Place Obj := ⟨.tlinkHost, 148, 4⟩

def tmrReconnVal : Place Obj := ⟨.tlinkHost, 168, 4⟩

def sockaddrStorage : Place Obj := ⟨.tlinkHost, 184, 128⟩

def fields : List (Place Obj) :=
  [vmType, vmstateSendtime, hostIp, hostPort, vmctId, vmctIp, vmctClientport, manageHostip,
    vmctName, vmctProc, mode, version, addr, port, listenFd, tmrHb, tmrReconn, sockaddrStorage]

def strSize : Nat := 1024

/-- The type that the number of `VMCT_TYPE` stands for. -/
def vmTypeOf (d : UInt32) : UInt16 := if d = 1 then 1 else if d = 2 then 2 else if d = 3 then 3 else 1

section Gettoken

variable (order : ByteOrder) (inetAddr : List UInt8 → UInt32) (d : UInt32)

/-- `HOST_PORT`: the port of the link is the one just stored, which has 16 bits. -/
def setHostPort (d : UInt32) (c : VmctConfig) : Option VmctConfig :=
  (write c (word16 order hostPort d.toUInt16)).bind fun c =>
  (load16 order (c .vmctConf) hostPort.offset).bind fun stored =>
  write c (word32 order port stored.toUInt32)

/-- The `if`s of `Gettoken`. -/
def keys : List (Key VmctConfig) :=
  [⟨chars "HOST_ADDRESS", fun value c =>
      (write c (word32 order hostIp (inetAddr value))).bind fun c => write c (copyTo addr value)⟩,
    numberKey d (chars "HOST_PORT") (setHostPort order),
    ⟨chars "VMCT_ADDRESS", fun value c => write c (word32 order vmctIp (inetAddr value))⟩,
    numberKey d (chars "VM_STATE_SEND_TIME") fun d c =>
      write c (word16 order vmstateSendtime (period d).toUInt16),
    numberKey d (chars "VMCT_TYPE") fun d c => write c (word16 order vmType (vmTypeOf d)),
    ⟨chars "MANAGEMENT_HOST_IP", fun value c => write c (copyTo manageHostip value)⟩]

/-- `InitVariable`; `name` is what `gethostname` stores. -/
def initVariable (name : List UInt8) (id : UInt32) : Option VmctConfig :=
  run write (fun o => .zero (size o))
    [word32 order listenFd (-1), word32 order mode 1, word32 order version 4,
      word32 order tmrHbVal 2000, word32 order tmrReconnVal 1000, word32 order port 0,
      copyTo addr (chars "127.0.0.1"), ⟨.vmctConf, vmctName.offset, name.take 32⟩,
      word32 order vmctId id]

/-- What the keys are for. -/
def settings : List (Setting Obj) :=
  [⟨chars "HOST_ADDRESS", [hostIp, addr], some addr.width, fun value =>
      [word32 order hostIp (inetAddr value), copyTo addr value]⟩,
    numberSetting d (chars "HOST_PORT") [hostPort, port] fun d =>
      [word16 order hostPort d.toUInt16, word32 order port d.toUInt16.toUInt32],
    ⟨chars "VMCT_ADDRESS", [vmctIp], none, fun value => [word32 order vmctIp (inetAddr value)]⟩,
    numberSetting d (chars "VM_STATE_SEND_TIME") [vmstateSendtime] fun d =>
      [word16 order vmstateSendtime (period d).toUInt16],
    numberSetting d (chars "VMCT_TYPE") [vmType] fun d => [word16 order vmType (vmTypeOf d)],
    ⟨chars "MANAGEMENT_HOST_IP", [manageHostip], some manageHostip.width, fun value =>
      [copyTo manageHostip value]⟩]

theorem setHostPort_eq (x : UInt32) (c : VmctConfig) :
    setHostPort order x c =
      run write c [word16 order hostPort x.toUInt16, word32 order port x.toUInt16.toUInt32] := by
  rw [setHostPort, run_cons]
  apply Option.bind_congr
  intro next stored
  have read : load16 order (next .vmctConf) hostPort.offset = some x.toUInt16 :=
    load16_write order stored
  rw [read, Option.bind_some, run_singleton]

theorem keys_realise :
    List.Forall₂ Realises (keys order inetAddr d) (settings order inetAddr d) := by
  refine .cons ⟨rfl, fun value _ c => ?_⟩ (.cons ?_ (.cons ⟨rfl, fun value _ c => ?_⟩
    (.cons ?_ (.cons ?_ (.cons ⟨rfl, fun value _ c => ?_⟩ .nil)))))
  · exact Option.bind_congr fun _ _ => (run_singleton ..).symm
  · exact numberKey_realises _ _ (setHostPort_eq order)
  · exact (run_singleton write c (word32 order vmctIp (inetAddr value))).symm
  · exact numberKey_realises _ _ fun _ _ => (run_singleton ..).symm
  · exact numberKey_realises _ _ fun _ _ => (run_singleton ..).symm
  · exact (run_singleton write c (copyTo manageHostip value)).symm

theorem settings_copy : ∀ setting ∈ settings order inetAddr d, setting.Copies := by
  simp only [settings, List.forall_mem_cons]
  refine ⟨fun width room => ?_, numberSetting_copies _ _ _ _, nofun, numberSetting_copies _ _ _ _,
    numberSetting_copies _ _ _ _, fun width room => ?_, nofun⟩
  · cases room
    exact ⟨addr, by simp, rfl, fun value => by simp⟩
  · cases room
    exact ⟨manageHostip, List.mem_cons_self, rfl, fun value => List.mem_cons_self⟩

theorem settings_shape : (settings order inetAddr d).map Setting.shape =
    (settings .little (fun _ => 0) 0).map Setting.shape := rfl

theorem settings_nodup : ((settings order inetAddr d).map Setting.name).Nodup := by
  have closed : ((settings .little (fun _ => 0) 0).map Setting.name).Nodup := by decide
  exact closed

theorem settings_placed : ∀ setting ∈ settings order inetAddr d, setting.Placed := by
  simp only [settings, List.forall_mem_cons]
  refine ⟨fun value w member => ?_, numberSetting_placed _ fun _ x w member => ?_,
    fun value w member => ?_, numberSetting_placed _ fun _ x w member => ?_,
    numberSetting_placed _ fun _ x w member => ?_, fun value w member => ?_, nofun⟩
  · rcases List.mem_pair.mp member with rfl | rfl
    · exact word32_placed order List.mem_cons_self _ rfl
    · exact copyTo_placed (by simp) rfl
  · rcases List.mem_pair.mp member with rfl | rfl
    · exact word16_placed order List.mem_cons_self _ rfl
    · exact word32_placed order (by simp) _ rfl
  · obtain rfl := List.mem_singleton.mp member
    exact word32_placed order List.mem_cons_self _ rfl
  · obtain rfl := List.mem_singleton.mp member
    exact word16_placed order List.mem_cons_self _ rfl
  · obtain rfl := List.mem_singleton.mp member
    exact word16_placed order List.mem_cons_self _ rfl
  · obtain rfl := List.mem_singleton.mp member
    exact copyTo_placed List.mem_cons_self rfl

end Gettoken

end VnfMonitoring.VmctConf
