import Mathlib.Data.Finset.Basic
import VnfMonitoring.TcpFrame
import VnfMonitoring.Timer

set_option autoImplicit false

/- The agent's link to its host and the calls of `vmct_sock.c` that change it. The
agent is built with `__UTM__`. -/
namespace VnfMonitoring.VmctSock

open VnfMonitoring.Memory VnfMonitoring.Socket VnfMonitoring.TcpFrame VnfMonitoring.Timer

def maxTmrNum : Nat := 1024

abbrev maxListenq : Nat := 32

/-- The `accept_idx` of a client, which has no accepted connections. -/
def clientIdx : Fin maxListenq := 0

def tmrTcpReconnectMsg : Int32 := 0x0100

def tcpReconntime : Int32 := 1000

/-- `TmrSyncStack_t`: the agent's record of a timer it started. -/
structure TmrSyncStack where
  used : Bool
  primId : Int32
  argc1 : Int32
  argc2 : Int32
  deriving DecidableEq, Repr

/-- The fields of the agent's `AcceptList_t` that a disconnection resets. -/
structure AcceptList where
  acceptFd : Int
  systemport : UInt16
  deriving DecidableEq, Repr

/-- `tmrInfo_t`. -/
structure TmrInfo where
  tmrId : Int
  tmrVal : Int32
  sendFlag : Int
  recvFlag : Int
  retryCnt : Int
  deriving DecidableEq, Repr

/-- `tlinkHOST` and what goes with it, with the descriptors the kernel has open. -/
structure AgentLink where
  mode : LinkMode
  listenFd : Int
  tmrHb : TmrInfo
  tmrReconn : TmrInfo
  alist : Fin maxListenq → AcceptList
  allsetHost : Finset Int
  openFds : Finset Int
  timers : Timer.State
  tmrsync : Int → TmrSyncStack

def tcpHeartbeattime : Int32 := 2000

/-- The link of `InitVariable`, with the timers of `timer_init`. -/
def AgentLink.init : AgentLink where
  mode := .client
  listenFd := -1
  tmrHb := ⟨0, tcpHeartbeattime, 0, 0, 0⟩
  tmrReconn := ⟨0, tcpReconntime, 0, 0, 0⟩
  alist := fun _ => ⟨0, 0⟩
  allsetHost := ∅
  openFds := ∅
  timers := ⟨maxTmrNum, TimerIds.funcInitTid maxTmrNum, []⟩
  tmrsync := fun _ => ⟨false, 0, 0, 0⟩

/-- What `malloc` and `gettimeofday` do inside a `timer_start`. -/
structure ClockEnv where
  mallocOk : Bool
  gettimeofday : Option Timeval
  deriving DecidableEq, Repr

def tcptmrStart (s : AgentLink) (interval mType argc1 argc2 : Int32) (clock : ClockEnv) :
    Option (Int × AgentLink) :=
  (timerStart s.timers
    { msecs := interval, callback := none, arg1 := mType, arg2 := argc1, arg3 := argc2
      type := tmrMsgqueue, mallocOk := clock.mallocOk
      gettimeofday := clock.gettimeofday }).map fun (timerId, timers) =>
    let s := { s with timers }
    if 0 ≥ timerId then (timerId, s)
    else
      (timerId, { s with tmrsync := Function.update s.tmrsync timerId ⟨true, mType, argc1, argc2⟩ })

def tcptmrStop (s : AgentLink) (timerId : Int) : Option (Int × AgentLink) :=
  (timerStop s.timers timerId .stackUsed).map fun (ret, timers) =>
    (if ret = -1 then -1 else 0,
      { s with timers, tmrsync := Function.update s.tmrsync timerId ⟨false, 0, 0, 0⟩ })

/-- Replace the reconnect timer, as every place that loses the connection does. -/
def armReconnect (s : AgentLink) (clock : ClockEnv) : Option AgentLink :=
  (if s.tmrReconn.tmrId > 0 then (tcptmrStop s s.tmrReconn.tmrId).map Prod.snd
    else some s).bind fun s =>
  (tcptmrStart s s.tmrReconn.tmrVal tmrTcpReconnectMsg 0 0 clock).map fun (tmrId, s) =>
    { s with tmrReconn := { s.tmrReconn with tmrId } }

/-- The disconnection branch that `TcpSend` and `TcpRecv` of the agent share. -/
def disconnect (s : AgentLink) (acceptIdx : Fin maxListenq) (tcpmode : LinkMode)
    (clock : ClockEnv) : Option AgentLink :=
  match tcpmode with
  | .client =>
      if s.listenFd > 0 then
        armReconnect
          { s with allsetHost := ∅, openFds := s.openFds.erase s.listenFd, listenFd := -1 } clock
      else some s
  | .server =>
      let entry := s.alist acceptIdx
      if entry.acceptFd > 0 then
        some
          { s with
            allsetHost := s.allsetHost.erase entry.acceptFd
            openFds := s.openFds.erase entry.acceptFd
            alist := Function.update s.alist acceptIdx ⟨-1, 0⟩ }
      else some s

def tcpSend {size : Nat} (order : ByteOrder) (s : AgentLink) (acceptIdx : Fin maxListenq)
    (fd : Int) (sndMsg : Bytes size) (nbytes : Int) (tcpmode : LinkMode) (env : SendEnv)
    (clock : ClockEnv) : Option (AgentLink × SendResult size) :=
  (sendFrame order fd sndMsg nbytes env).bind fun result =>
    (if result.disconnect then disconnect s acceptIdx tcpmode clock else some s).map
      fun s => (s, result)

def tcpRecv {size : Nat} (order : ByteOrder) (s : AgentLink) (acceptIdx : Fin maxListenq)
    (rBuf : Bytes size) (tcpmode : LinkMode) (events : List RecvEvent) (clock : ClockEnv) :
    Option (AgentLink × RecvResult size) :=
  (recvFrame order rBuf events).bind fun result =>
    (if result.disconnect then disconnect s acceptIdx tcpmode clock else some s).map
      fun s => (s, result)

end VnfMonitoring.VmctSock
