import VnfMonitoring.ConfFile

set_option autoImplicit false

/- The configuration of the host, `host_conf.c`: the structures it fills, byte by byte,
and the keys of `Gettoken`. -/
namespace VnfMonitoring.HostConf

open VnfMonitoring.Memory VnfMonitoring.Runs VnfMonitoring.Objects VnfMonitoring.DbmbStatus
  VnfMonitoring.ConfFile

/-- `hostConf`, `tlink` and the variables of `host_main.c`. -/
inductive Obj where
  | hostConf
  | tlink
  | checkVmcstatusSec
  | checkTcpstatusMin
  | checkWatchdogMsec
  deriving DecidableEq

def size : Obj → Nat
  | .hostConf => 62316
  | .tlink => 296
  | _ => 4

abbrev HostConfig := Contents size

/-- The fields of `host_config_t`. -/
def envPath : Place Obj := ⟨.hostConf, 0, 512⟩

def novaDbAddr : Place Obj := ⟨.hostConf, 512, 32⟩

def novaDbUserid : Place Obj := ⟨.hostConf, 544, 32⟩

def novaDbPass : Place Obj := ⟨.hostConf, 576, 32⟩

def novaDbName : Place Obj := ⟨.hostConf, 608, 32⟩

def novaDbPort : Place Obj := ⟨.hostConf, 640, 4⟩

def orcheDbAddr : Place Obj := ⟨.hostConf, 644, 32⟩

def orcheDbUserid : Place Obj := ⟨.hostConf, 676, 32⟩

def orcheDbPass : Place Obj := ⟨.hostConf, 708, 32⟩

def orcheDbName : Place Obj := ⟨.hostConf, 740, 32⟩

def orcheDbSchema : Place Obj := ⟨.hostConf, 772, 32⟩

def orcheDbPort : Place Obj := ⟨.hostConf, 804, 4⟩

def hostIp : Place Obj := ⟨.hostConf, 808, 4⟩

def hostPort : Place Obj := ⟨.hostConf, 812, 2⟩

def hostName : Place Obj := ⟨.hostConf, 814, 32⟩

def hostId : Place Obj := ⟨.hostConf, 848, 4⟩

def bpMode : Place Obj := ⟨.hostConf, 852, 4⟩

def vmCount : Place Obj := ⟨.hostConf, 856, 4⟩

def vmcMode : Place Obj := ⟨.hostConf, 860, 4⟩

def tcpMode : Place Obj := ⟨.hostConf, 864, 4⟩

def baremetalMode : Place Obj := ⟨.hostConf, 868, 4⟩

def cloudMode : Place Obj := ⟨.hostConf, 872, 4⟩

def vmcSystem : Place Obj := ⟨.hostConf, 876, 35328⟩

def vmcStatus : Place Obj := ⟨.hostConf, 36204, 26112⟩

/-- The fields of `LinkInfo_t`. -/
def mode : Place Obj := ⟨.tlink, 0, 4⟩

def version : Place Obj := ⟨.tlink, 4, 4⟩

def addr : Place Obj := ⟨.tlink, 8, 128⟩

def port : Place Obj := ⟨.tlink, 136, 4⟩

def listenFd : Place Obj := ⟨.tlink, 140, 4⟩

def tmrReconn : Place Obj := ⟨.tlink, 144, 20⟩

/-- `tmr_reconn.tmrVal`. -/
def tmrReconnVal : Place Obj := ⟨.tlink, 148, 4⟩

def sockaddrStorage : Place Obj := ⟨.tlink, 168, 128⟩

def checkVmcstatusSec : Place Obj := ⟨.checkVmcstatusSec, 0, 4⟩

def checkTcpstatusMin : Place Obj := ⟨.checkTcpstatusMin, 0, 4⟩

def checkWatchdogMsec : Place Obj := ⟨.checkWatchdogMsec, 0, 4⟩

def fields : List (Place Obj) :=
  [envPath, novaDbAddr, novaDbUserid, novaDbPass, novaDbName, novaDbPort, orcheDbAddr,
    orcheDbUserid, orcheDbPass, orcheDbName, orcheDbSchema, orcheDbPort, hostIp, hostPort,
    hostName, hostId, bpMode, vmCount, vmcMode, tcpMode, baremetalMode, cloudMode, vmcSystem,
    vmcStatus, mode, version, addr, port, listenFd, tmrReconn, sockaddrStorage,
    checkVmcstatusSec, checkTcpstatusMin, checkWatchdogMsec]

def strSize : Nat := maxStrLength * 8

section Gettoken

variable (order : ByteOrder) (inetAddr : List UInt8 → UInt32) (d : UInt32)

/-- `HOST_ADDRESS`: the address is taken from the string just copied. -/
def hostAddress (value : List UInt8) (c : HostConfig) : Option HostConfig :=
  (write c (copyTo addr value)).bind fun c =>
  (stringAt c addr).bind fun text =>
  write c (word32 order hostIp (inetAddr text))

/-- A key whose value is copied to a field that is cleared before. -/
def stringKey (name : List UInt8) (field : Place Obj) : Key HostConfig where
  name
  set value c := (write c (clear field)).bind fun c => write c (copyTo field value)

/-- A key whose value is a number for one `int`. -/
def intKey (name : List UInt8) (field : Place Obj) (value : UInt32 → UInt32) : Key HostConfig :=
  numberKey d name fun d c => write c (word32 order field (value d))

/-- The `if`s of `Gettoken`. -/
def keys : List (Key HostConfig) :=
  [⟨chars "HOST_ADDRESS", hostAddress order inetAddr⟩,
    numberKey d (chars "HOST_PORT") fun d c =>
      (write c (word32 order port d)).bind fun c => write c (word16 order hostPort d.toUInt16),
    stringKey (chars "NOVA_DB_ADDRESS") novaDbAddr,
    stringKey (chars "NOVA_DB_PASSWORD") novaDbPass,
    stringKey (chars "NOVA_DB_USERNAME") novaDbUserid,
    stringKey (chars "NOVA_DB_SCHEMA") novaDbName,
    stringKey (chars "ORCHE_DB_ADDRESS") orcheDbAddr,
    stringKey (chars "ORCHE_DB_USERNAME") orcheDbUserid,
    stringKey (chars "ORCHE_DB_PASSWORD") orcheDbPass,
    stringKey (chars "ORCHE_DB_NAME") orcheDbName,
    stringKey (chars "ORCHE_DB_SCHEMA") orcheDbSchema,
    intKey order d (chars "ORCHE_DB_PORT") orcheDbPort id,
    intKey order d (chars "CHECK_VMC_STATUS_SEC") checkVmcstatusSec period,
    intKey order d (chars "CHECK_TCP_STATUS_MIN") checkTcpstatusMin id,
    intKey order d (chars "BYPASS_WATCHDOG_TIME") checkWatchdogMsec (· * 1000),
    intKey order d (chars "HOST_BAREMETAL_MODE") baremetalMode fun d => if 0 < d then 1 else 0,
    intKey order d (chars "HOST_CLOUDE_MODE") cloudMode fun d => if 0 < d then 1 else 0]

/-- `read_config`; the file is absent when `fopen` fails. -/
def readConfig (c : HostConfig) (file : Option (List UInt8)) : Option (Int × HostConfig) :=
  match file with
  | none => some (-1, c)
  | some content => (readLines strSize (keys order inetAddr d) c content).map fun c => (0, c)

/-- The variables before `InitVariable`, with `hostConf` and `tlink` already cleared. -/
def cleared : HostConfig
  | .hostConf => .zero _
  | .tlink => .zero _
  | .checkVmcstatusSec => ⟨order.bytesOf 4 5, order.bytesOf_length 4 5⟩
  | .checkTcpstatusMin => ⟨order.bytesOf 4 3, order.bytesOf_length 4 3⟩
  | .checkWatchdogMsec => ⟨order.bytesOf 4 2000, order.bytesOf_length 4 2000⟩

/-- `InitVariable` up to the call of `read_config`; `name` is what `gethostname` stores. -/
def initVariable (path name : List UInt8) (id : UInt32) : Option HostConfig :=
  run write (cleared order)
    [copyTo envPath path, copyTo novaDbAddr (chars "127.0.0.1"), word32 order novaDbPort 3306,
      copyTo novaDbUserid (chars "root"), copyTo novaDbPass (chars "openstack"),
      copyTo novaDbName (chars "nova"), copyTo orcheDbAddr (chars "127.0.0.1"),
      word32 order orcheDbPort 5432, copyTo orcheDbUserid (chars "bypass"),
      copyTo orcheDbPass (chars "by!234"), copyTo orcheDbName (chars "sdi"),
      word32 order vmcMode 2, word32 order tcpMode 2, ⟨.hostConf, hostName.offset, name.take 32⟩,
      word32 order hostId id, word32 order listenFd (-1), word32 order mode 2,
      word32 order version 4, word32 order tmrReconnVal 2000, word32 order port 17000,
      copyTo addr (chars "127.0.0.1")]

/-- What the keys are for. -/
def stringSetting (name : List UInt8) (field : Place Obj) : Setting Obj where
  name
  own := [field]
  room := some field.width
  writes value := [clear field, copyTo field value]

def intSetting (name : List UInt8) (field : Place Obj) (value : UInt32 → UInt32) : Setting Obj :=
  numberSetting d name [field] fun d => [word32 order field (value d)]

def settings : List (Setting Obj) :=
  [⟨chars "HOST_ADDRESS", [addr, hostIp], some addr.width, fun value =>
      [copyTo addr value, word32 order hostIp (inetAddr value)]⟩,
    numberSetting d (chars "HOST_PORT") [port, hostPort] fun d =>
      [word32 order port d, word16 order hostPort d.toUInt16],
    stringSetting (chars "NOVA_DB_ADDRESS") novaDbAddr,
    stringSetting (chars "NOVA_DB_PASSWORD") novaDbPass,
    stringSetting (chars "NOVA_DB_USERNAME") novaDbUserid,
    stringSetting (chars "NOVA_DB_SCHEMA") novaDbName,
    stringSetting (chars "ORCHE_DB_ADDRESS") orcheDbAddr,
    stringSetting (chars "ORCHE_DB_USERNAME") orcheDbUserid,
    stringSetting (chars "ORCHE_DB_PASSWORD") orcheDbPass,
    stringSetting (chars "ORCHE_DB_NAME") orcheDbName,
    stringSetting (chars "ORCHE_DB_SCHEMA") orcheDbSchema,
    intSetting order d (chars "ORCHE_DB_PORT") orcheDbPort id,
    intSetting order d (chars "CHECK_VMC_STATUS_SEC") checkVmcstatusSec period,
    intSetting order d (chars "CHECK_TCP_STATUS_MIN") checkTcpstatusMin id,
    intSetting order d (chars "BYPASS_WATCHDOG_TIME") checkWatchdogMsec (· * 1000),
    intSetting order d (chars "HOST_BAREMETAL_MODE") baremetalMode fun d => if 0 < d then 1 else 0,
    intSetting order d (chars "HOST_CLOUDE_MODE") cloudMode fun d => if 0 < d then 1 else 0]

theorem hostAddress_realises (name : List UInt8) :
    Realises ⟨name, hostAddress order inetAddr⟩ ⟨name, [addr, hostIp], some addr.width,
      fun value => [copyTo addr value, word32 order hostIp (inetAddr value)]⟩ := by
  refine ⟨rfl, fun value text c => ?_⟩
  rw [run_cons]
  apply Option.bind_congr
  intro next copied
  rw [stringAt_copyTo text copied, Option.bind_some, run_singleton]

theorem stringKey_realises (name : List UInt8) (field : Place Obj) :
    Realises (stringKey name field) (stringSetting name field) :=
  ⟨rfl, fun _ _ _ => Option.bind_congr fun _ _ => (run_singleton ..).symm⟩

theorem intKey_realises (name : List UInt8) (field : Place Obj) (value : UInt32 → UInt32) :
    Realises (intKey order d name field value) (intSetting order d name field value) :=
  numberKey_realises name [field] fun _ _ => (run_singleton ..).symm

theorem keys_realise :
    List.Forall₂ Realises (keys order inetAddr d) (settings order inetAddr d) := by
  refine .cons (hostAddress_realises order inetAddr _) (.cons ?_ ?_)
  · apply numberKey_realises _ _
    intro x c
    exact Option.bind_congr fun _ _ => (run_singleton ..).symm
  · iterate 9 refine .cons (stringKey_realises _ _) ?_
    iterate 6 refine .cons (intKey_realises order d _ _ _) ?_
    exact .nil

theorem stringSetting_placed (name : List UInt8) {field : Place Obj} (some_ : field.width ≠ 0) :
    (stringSetting name field).Placed := by
  intro value w member
  rcases List.mem_pair.mp member with rfl | rfl
  · exact placed_of_length List.mem_cons_self rfl rfl List.length_replicate some_
  · exact copyTo_placed List.mem_cons_self rfl

theorem intSetting_placed (name : List UInt8) {field : Place Obj} (value : UInt32 → UInt32)
    (int : field.width = 4) : (intSetting order d name field value).Placed := by
  apply numberSetting_placed name
  intro _ x w member
  obtain rfl := List.mem_singleton.mp member
  exact word32_placed order List.mem_cons_self _ int

theorem settings_copy : ∀ setting ∈ settings order inetAddr d, setting.Copies := by
  have string (name : List UInt8) (field : Place Obj) : (stringSetting name field).Copies := by
    intro width room
    cases room
    exact ⟨field, List.mem_cons_self, rfl, fun value => by simp [stringSetting]⟩
  rw [settings, List.forall_mem_cons, List.forall_mem_cons]
  refine ⟨fun width room => ?_, numberSetting_copies _ _ _ _, ?_⟩
  · cases room
    exact ⟨addr, List.mem_cons_self, rfl, fun value => List.mem_cons_self⟩
  · simp only [List.forall_mem_cons]
    refine ⟨?_, ?_, ?_, ?_, ?_, ?_, ?_, ?_, ?_, ?_, ?_, ?_, ?_, ?_, ?_, nofun⟩
    iterate 9 exact string _ _
    iterate 6 exact numberSetting_copies _ _ _ _

theorem settings_shape : (settings order inetAddr d).map Setting.shape =
    (settings .little (fun _ => 0) 0).map Setting.shape := rfl

theorem settings_nodup : ((settings order inetAddr d).map Setting.name).Nodup := by
  have closed : ((settings .little (fun _ => 0) 0).map Setting.name).Nodup := by decide
  exact closed

theorem settings_placed : ∀ setting ∈ settings order inetAddr d, setting.Placed := by
  rw [settings, List.forall_mem_cons, List.forall_mem_cons]
  refine ⟨fun value w member => ?_, numberSetting_placed _ fun _ x w member => ?_, ?_⟩
  · rcases List.mem_pair.mp member with rfl | rfl
    · exact copyTo_placed List.mem_cons_self rfl
    · exact word32_placed order (by simp) _ rfl
  · rcases List.mem_pair.mp member with rfl | rfl
    · exact word32_placed order List.mem_cons_self _ rfl
    · exact word16_placed order (by simp) _ rfl
  · simp only [List.forall_mem_cons]
    refine ⟨?_, ?_, ?_, ?_, ?_, ?_, ?_, ?_, ?_, ?_, ?_, ?_, ?_, ?_, ?_, nofun⟩
    iterate 9 exact stringSetting_placed _ (by decide)
    iterate 6 exact intSetting_placed order d _ _ rfl

end Gettoken

end VnfMonitoring.HostConf
