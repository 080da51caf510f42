import Mathlib.Data.Finset.Basic
import Mathlib.Data.Fin.Tuple.Basic
import VnfMonitoring.Bpapp
import VnfMonitoring.TcpFrame

set_option autoImplicit false

/- The host's connection table and the calls of `host_sock.c` that change it. -/
namespace VnfMonitoring.HostSock

open VnfMonitoring.Memory VnfMonitoring.Socket VnfMonitoring.TcpFrame VnfMonitoring.Bpapp

/-- `MAX_LISTENQ` is `MAX_SYSTEM_NUM * 1`, so one index serves `alist`, `vmc_system`
and `stateinfo`. -/
abbrev Slot := Fin maxSystemNum

/-- `link_system_t`. -/
structure LinkSystem where
  systemidx : UInt32
  systemaddr : UInt32
  port : UInt16
  deriving DecidableEq, Repr

/-- `AcceptList_t`. -/
structure AcceptList where
  acceptFd : Int
  sysinfo : LinkSystem
  deriving DecidableEq, Repr

/-- `vmc_system_t`. -/
structure VmcSystem where
  systemidx : UInt32
  systemaddr : UInt32
  systemport : UInt16
  isCheck : UInt16
  linkStatus : UInt16
  deriving DecidableEq, Repr

def VmcSystem.zero : VmcSystem := ⟨0, 0, 0, 0, 0⟩

/-- The tables the host's threads share, with the descriptors the kernel has open. -/
structure HostTables where
  mode : LinkMode
  listenFd : Int
  alist : Slot → AcceptList
  vmcSystem : Slot → VmcSystem
  stateinfo : Slot → VmcStateinfo
  allset : Finset Int
  openFds : Finset Int

def baseStateinfo : VmcStateinfo := { VmcStateinfo.zero with pstate := basePState }

/-- The tables of `InitVariable`, before `tcp_rcvTask` opens the listening socket. -/
def HostTables.init : HostTables where
  mode := .server
  listenFd := -1
  alist := fun _ => ⟨-1, 0, 0, 0⟩
  vmcSystem := fun _ => .zero
  stateinfo := fun _ => baseStateinfo
  allset := ∅
  openFds := ∅

/-- The index that `TcpAccept` returns: -1, a slot, or `MAX_LISTENQ`. -/
inductive AcceptResult where
  | failed
  | taken (i : Slot)
  | full
  deriving DecidableEq, Repr

/-- The first slot without a port. -/
@[irreducible] def freeSlot (s : HostTables) : Option Slot :=
  Fin.find? fun i : Slot => decide ((s.alist i).sysinfo.port = 0)

/-- The assignments of `TcpAccept` to the slot it takes. -/
def takeSlot (s : HostTables) (i : Slot) (acceptfd : Int) (port : UInt16) : HostTables :=
  { s with
    alist := Function.update s.alist i
      { acceptFd := acceptfd
        sysinfo :=
          { (s.alist i).sysinfo with systemidx := UInt32.ofNat (i.val + 1), port } }
    vmcSystem := Function.update s.vmcSystem i
      { s.vmcSystem i with systemidx := UInt32.ofNat (i.val + 1) } }

/-- `TcpAccept`. What `accept` returns is a descriptor and the peer's port as
`NBO_NTOHS` gives it, or an error. -/
def tcpAccept (s : HostTables) (listenFd : Int) (accepted : Option (Int × UInt16)) :
    AcceptResult × HostTables :=
  if listenFd ≤ 0 then (.failed, s)
  else
    match accepted with
    | none => (.failed, s)
    | some (acceptfd, port) =>
        let s : HostTables := { s with openFds := insert acceptfd s.openFds }
        match freeSlot s with
        | some i => (.taken i, takeSlot s i acceptfd port)
        | none => (.full, { s with openFds := s.openFds.erase acceptfd })

/-- The part of both disconnection branches that frees a slot. -/
def closeSlot (s : HostTables) (i : Slot) : HostTables :=
  let entry := s.alist i
  { s with
    allset := s.allset.erase entry.acceptFd
    openFds := s.openFds.erase entry.acceptFd
    alist := Function.update s.alist i
      { acceptFd := -1, sysinfo := { entry.sysinfo with port := 0 } } }

/-- The loop of `TcpRecv` that clears the first entry of an address. -/
def clearStateinfo (s : HostTables) (vmIp : UInt32) : HostTables :=
  match Fin.find? fun i : Slot => decide ((s.stateinfo i).vmIp = vmIp) with
  | some i => { s with stateinfo := Function.update s.stateinfo i baseStateinfo }
  | none => s

def clearSystem (s : HostTables) (i : Slot) : HostTables :=
  { s with vmcSystem := Function.update s.vmcSystem i .zero }

/-- The disconnection branch of `TcpSend`. -/
def sendDisconnect (s : HostTables) (i : Slot) : HostTables :=
  match s.mode with
  | .server => if (s.alist i).acceptFd > 0 then clearSystem (closeSlot s i) i else s
  | .client => s

/-- The disconnection branch of `TcpRecv`, which also forgets the VM's state. -/
def recvDisconnect (s : HostTables) (i : Slot) : HostTables :=
  match s.mode with
  | .server =>
      if (s.alist i).acceptFd > 0 then
        let s := closeSlot s i
        clearSystem (clearStateinfo s (s.vmcSystem i).systemaddr) i
      else s
  | .client => s

def tcpSend {size : Nat} (order : ByteOrder) (s : HostTables) (acceptIdx : Slot) (fd : Int)
    (sndMsg : Bytes size) (nbytes : Int) (env : SendEnv) :
    Option (HostTables × SendResult size) :=
  (sendFrame order fd sndMsg nbytes env).map fun result =>
    (if result.disconnect then sendDisconnect s acceptIdx else s, result)

def tcpRecv {size : Nat} (order : ByteOrder) (s : HostTables) (acceptIdx : Slot)
    (rBuf : Bytes size) (events : List RecvEvent) : Option (HostTables × RecvResult size) :=
  (recvFrame order rBuf events).map fun result =>
    (if result.disconnect then recvDisconnect s acceptIdx else s, result)

theorem freeSlot_eq_some {s : HostTables} {i : Slot} (found : freeSlot s = some i) :
    (s.alist i).sysinfo.port = 0 ∧ ∀ j < i, (s.alist j).sysinfo.port ≠ 0 := by
  unfold freeSlot at found
  obtain ⟨here, below⟩ := Fin.find?_eq_some_iff.mp found
  exact ⟨by simpa using here, fun j lower => by simpa using below j lower⟩

theorem freeSlot_eq_none {s : HostTables} :
    freeSlot s = none ↔ ∀ i, (s.alist i).sysinfo.port ≠ 0 := by
  unfold freeSlot
  simp

theorem freeSlot_congr {s other : HostTables} (same : other.alist = s.alist) :
    freeSlot other = freeSlot s := by
  unfold freeSlot
  rw [same]

/-- A slot without its connection: what both disconnection branches of a server do. -/
def teardown (s : HostTables) (i : Slot) : HostTables := clearSystem (closeSlot s i) i

theorem sendDisconnect_live {s : HostTables} (server : s.mode = .server) {i : Slot}
    (lives : 0 < (s.alist i).acceptFd) : sendDisconnect s i = teardown s i := by
  rw [sendDisconnect, server]
  simp only
  rw [if_pos lives]
  rfl

theorem recvDisconnect_live {s : HostTables} (server : s.mode = .server) {i : Slot}
    (lives : 0 < (s.alist i).acceptFd) : recvDisconnect s i =
      { teardown s i with
        stateinfo := (clearStateinfo s (s.vmcSystem i).systemaddr).stateinfo } := by
  rw [recvDisconnect, server]
  simp only
  rw [if_pos lives]
  unfold clearStateinfo
  rw [show (closeSlot s i).stateinfo = s.stateinfo from rfl,
    show (closeSlot s i).vmcSystem = s.vmcSystem from rfl]
  split <;> rfl

theorem sendDisconnect_cases {s : HostTables} (server : s.mode = .server) (i : Slot) :
    sendDisconnect s i = s ∨
      0 < (s.alist i).acceptFd ∧ sendDisconnect s i = teardown s i := by
  by_cases lives : 0 < (s.alist i).acceptFd
  · exact Or.inr ⟨lives, sendDisconnect_live server lives⟩
  · refine Or.inl ?_
    rw [sendDisconnect, server]
    exact if_neg lives

theorem recvDisconnect_cases {s : HostTables} (server : s.mode = .server) (i : Slot) :
    recvDisconnect s i = s ∨ 0 < (s.alist i).acceptFd ∧ recvDisconnect s i =
      { teardown s i with
        stateinfo := (clearStateinfo s (s.vmcSystem i).systemaddr).stateinfo } := by
  by_cases lives : 0 < (s.alist i).acceptFd
  · exact Or.inr ⟨lives, recvDisconnect_live server lives⟩
  · refine Or.inl ?_
    rw [recvDisconnect, server]
    exact if_neg lives

theorem tcpRecv_eq {size : Nat} {order : ByteOrder} {s next : HostTables} {acceptIdx : Slot}
    {rBuf : Bytes size} {events : List RecvEvent} {result : RecvResult size}
    (received : tcpRecv order s acceptIdx rBuf events = some (next, result)) :
    recvFrame order rBuf events = some result ∧
      next = if result.disconnect then recvDisconnect s acceptIdx else s := by
  obtain ⟨frame, read, same⟩ := Option.map_eq_some_iff.mp received
  cases same
  exact ⟨read, rfl⟩

theorem tcpSend_eq {size : Nat} {order : ByteOrder} {s next : HostTables} {acceptIdx : Slot}
    {fd nbytes : Int} {sndMsg : Bytes size} {env : SendEnv} {result : SendResult size}
    (sent : tcpSend order s acceptIdx fd sndMsg nbytes env = some (next, result)) :
    sendFrame order fd sndMsg nbytes env = some result ∧
      next = if result.disconnect then sendDisconnect s acceptIdx else s := by
  obtain ⟨frame, written, same⟩ := Option.map_eq_some_iff.mp sent
  cases same
  exact ⟨written, rfl⟩

@[simp] theorem sendDisconnect_stateinfo (s : HostTables) (i : Slot) :
    (sendDisconnect s i).stateinfo = s.stateinfo := by
  unfold sendDisconnect
  split
  · split <;> rfl
  · rfl

end VnfMonitoring.HostSock
