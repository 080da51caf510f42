import VnfMonitoring.TcpFraming
import VnfMonitoring.VmctAgent

set_option autoImplicit false

/- What `TcpSend` and `TcpRecv` leave of a connection, for whatever the socket does: a
frame passes whole, or the connection is torn down. -/
namespace VnfMonitoring.TcpOutcome

open VnfMonitoring.Memory VnfMonitoring.Socket VnfMonitoring.TcpFrame VnfMonitoring.TcpFraming
  VnfMonitoring.Bpapp VnfMonitoring.HostSock VnfMonitoring.VmctSock VnfMonitoring.Timer

/-- The slot is free, and its descriptor is closed and no longer watched. -/
structure SlotLost (before after : HostTables) (i : Slot) : Prop where
  acceptFd : (after.alist i).acceptFd = -1
  port : (after.alist i).sysinfo.port = 0
  allset : after.allset = before.allset.erase (before.alist i).acceptFd
  openFds : after.openFds = before.openFds.erase (before.alist i).acceptFd

/-- What `TcptmrStart` asks of `timer_start` for the reconnect timer. -/
def reconnectCall (s : AgentLink) (clock : ClockEnv) : StartCall where
  msecs := s.tmrReconn.tmrVal
  callback := none
  arg1 := tmrTcpReconnectMsg
  arg2 := 0
  arg3 := 0
  type := tmrMsgqueue
  mallocOk := clock.mallocOk
  gettimeofday := clock.gettimeofday

/-- The link is closed and no longer watched, and one reconnect timer has been asked for,
behind the stop of the old one. -/
structure LinkLost (before after : AgentLink) (clock : ClockEnv) : Prop where
  listenFd : after.listenFd = -1
  allsetHost : after.allsetHost = ∅
  openFds : after.openFds = before.openFds.erase before.listenFd
  requested : ∃ timers, (timers = before.timers ∨
      ∃ ret, timerStop before.timers before.tmrReconn.tmrId .stackUsed = some (ret, timers)) ∧
    timerStart timers (reconnectCall before clock) = some (after.tmrReconn.tmrId, after.timers)

section Teardown

@[simp] theorem closeSlot_alist (s : HostTables) (i : Slot) : (closeSlot s i).alist i =
    { acceptFd := -1, sysinfo := { (s.alist i).sysinfo with port := 0 } } :=
  Function.update_self ..

theorem teardown_lost (s : HostTables) (i : Slot) : SlotLost s (teardown s i) i where
  acceptFd := by
    change ((closeSlot s i).alist i).acceptFd = -1
    rw [closeSlot_alist]
  port := by
    change ((closeSlot s i).alist i).sysinfo.port = 0
    rw [closeSlot_alist]
  allset := rfl
  openFds := rfl

theorem sendDisconnect_lost {s : HostTables} {i : Slot} (server : s.mode = .server)
    (lives : 0 < (s.alist i).acceptFd) : SlotLost s (sendDisconnect s i) i := by
  rw [sendDisconnect_live server lives]
  exact teardown_lost s i

theorem recvDisconnect_lost {s : HostTables} {i : Slot} (server : s.mode = .server)
    (lives : 0 < (s.alist i).acceptFd) : SlotLost s (recvDisconnect s i) i := by
  rw [recvDisconnect_live server lives]
  exact ⟨(teardown_lost s i).acceptFd, (teardown_lost s i).port, rfl, rfl⟩

/-- Arming the reconnect timer is one request, and changes nothing but the timers. -/
theorem armReconnect_requested {s next : AgentLink} {clock : ClockEnv}
    (armed : armReconnect s clock = some next) :
    next.listenFd = s.listenFd ∧ next.allsetHost = s.allsetHost ∧ next.openFds = s.openFds ∧
      ∃ timers, (timers = s.timers ∨
          ∃ ret, timerStop s.timers s.tmrReconn.tmrId .stackUsed = some (ret, timers)) ∧
        timerStart timers (reconnectCall s clock) = some (next.tmrReconn.tmrId, next.timers) := by
  obtain ⟨stopped, old, rest⟩ := Option.bind_eq_some_iff.mp armed
  obtain ⟨⟨tmrId, started⟩, request, rfl⟩ := Option.map_eq_some_iff.mp rest
  have kept : stopped.listenFd = s.listenFd ∧ stopped.allsetHost = s.allsetHost ∧
      stopped.openFds = s.openFds ∧ stopped.tmrReconn = s.tmrReconn ∧
      (stopped.timers = s.timers ∨ ∃ ret,
        timerStop s.timers s.tmrReconn.tmrId .stackUsed = some (ret, stopped.timers)) := by
    split at old
    · obtain ⟨⟨_, after⟩, called, rfl⟩ := Option.map_eq_some_iff.mp old
      obtain ⟨⟨ret, timers⟩, stop, pair⟩ := Option.map_eq_some_iff.mp called
      cases pair
      exact ⟨rfl, rfl, rfl, rfl, Or.inr ⟨ret, stop⟩⟩
    · cases old
      exact ⟨rfl, rfl, rfl, rfl, Or.inl rfl⟩
  obtain ⟨listenFd, allsetHost, openFds, tmrReconn, timers⟩ := kept
  obtain ⟨⟨id, after⟩, start, pair⟩ := Option.map_eq_some_iff.mp request
  rw [tmrReconn] at start
  simp only at pair
  split at pair <;> cases pair
  · exact ⟨listenFd, allsetHost, openFds, stopped.timers, timers, start⟩
  · exact ⟨listenFd, allsetHost, openFds, stopped.timers, timers, start⟩

theorem disconnect_lost {s next : AgentLink} (lives : 0 < s.listenFd)
    {acceptIdx : Fin maxListenq} {clock : ClockEnv}
    (done : VmctSock.disconnect s acceptIdx .client clock = some next) :
    LinkLost s next clock := by
  rw [VmctAgent.disconnect_client, if_pos lives] at done
  obtain ⟨listenFd, allsetHost, openFds, requested⟩ := armReconnect_requested done
  exact ⟨listenFd, allsetHost, openFds, requested⟩

theorem disconnect_total {s : AgentLink} (sound : Sound s.timers) (acceptIdx : Fin maxListenq)
    (clock : ClockEnv) : ∃ next, VmctSock.disconnect s acceptIdx .client clock = some next := by
  rw [VmctAgent.disconnect_client]
  split
  · obtain ⟨next, armed, _⟩ := VmctAgent.armReconnect_spec (s :=
      { s with allsetHost := ∅, openFds := s.openFds.erase s.listenFd, listenFd := -1 }) sound clock
    exact ⟨next, armed⟩
  · exact ⟨s, rfl⟩

end Teardown

/-- What a receive made of its stream. A frame is next when the stream begins with a header
and as many bytes as it announces, at least five. -/
structure Received (order : ByteOrder) {size : Nat} (rBuf : Bytes size)
    (events : List RecvEvent) (result : RecvResult size) : Prop where
  positive : 0 < result.nRecv ↔ ∃ frame, FrameNext order events frame
  consumed : ∀ frame, FrameNext order events frame →
    stream events = frame ++ stream result.events ∧
      storeBytes rBuf tpktHeaderSize (frame.drop tpktHeaderSize) = some result.rBuf
  inside : ∀ k : Nat, result.rBuf.toList[k]? ≠ rBuf.toList[k]? → ∃ nByte,
    tpktLength order ((stream events).take tpktHeaderSize) = some nByte ∧
      tpktHeaderSize ≤ k ∧ k < nByte
  torn : result.disconnect = true ↔ result.nRecv ≤ 0

theorem recvFrame_received {order : ByteOrder} {size : Nat} (room : 65535 ≤ size)
    {rBuf : Bytes size} {events : List RecvEvent} {result : RecvResult size}
    (received : recvFrame order rBuf events = some result) :
    Received order rBuf events result where
  positive := by
    constructor
    · exact recvFrame_positive received
    · rintro ⟨frame, next⟩
      obtain ⟨other, again, positive, _⟩ :=
        recvFrame_next next rBuf (Nat.le_trans (tpktLength_le next.length) room)
      cases received.symm.trans again
      exact positive
  consumed := by
    intro frame next
    obtain ⟨other, again, _, _, taken, stored⟩ :=
      recvFrame_next next rBuf (Nat.le_trans (tpktLength_le next.length) room)
    cases received.symm.trans again
    exact ⟨taken, stored⟩
  inside := by
    intro k changed
    obtain ⟨bytes, stored, bounded⟩ :=
      recvFrame_stores (Nat.le_trans (by decide) room) received
    obtain ⟨fits, written⟩ := storeBytes_eq stored
    have low : tpktHeaderSize ≤ k := by
      by_contra below
      apply changed
      rw [written, List.append_assoc, List.getElem?_append_left, List.getElem?_take_of_lt]
      · omega
      · rw [List.length_take, rBuf.length_toList]
        omega
    have high : k < tpktHeaderSize + bytes.length := by
      by_contra above
      apply changed
      have front : (rBuf.toList.take tpktHeaderSize ++ bytes).length =
          tpktHeaderSize + bytes.length := by
        rw [List.length_append, List.length_take_of_le (by rw [rBuf.length_toList]; omega)]
      rw [written, List.getElem?_append_right (by omega), front, List.getElem?_drop]
      congr 1
      omega
    have some_ : bytes ≠ [] := by
      rintro rfl
      rw [List.length_nil] at high
      omega
    obtain ⟨nByte, length, whole⟩ := bounded some_
    exact ⟨nByte, length, low, by omega⟩
  torn := by
    constructor
    · exact recvFrame_disconnect order received
    · intro none_left
      by_contra kept
      have positive := recvFrame_connected received (by simpa using kept)
      omega

theorem recvFrame_total (order : ByteOrder) {size : Nat} (room : 65535 ≤ size)
    (rBuf : Bytes size) {events : List RecvEvent}
    (settled : Ends events ∨ ∃ frame, FrameNext order events frame) :
    ∃ result, recvFrame order rBuf events = some result := by
  rcases settled with ends | ⟨frame, next⟩
  · exact recvFrame_ends order room rBuf ends
  · obtain ⟨result, received, _⟩ :=
      recvFrame_next next rBuf (Nat.le_trans (tpktLength_le next.length) room)
    exact ⟨result, received⟩

/-- `TcpRecv` on whatever arrives, at the host on a slot that is live and at the agent on
its link: it returns as soon as the stream ends or a frame has come, it takes exactly a
frame and leaves the connection, or it returns no positive value and tears it down. -/
theorem tcpRecv_outcome (order : ByteOrder) (events : List RecvEvent) :
    (∀ (s : HostTables) (i : Slot) (rBuf : Bytes hostBufSize),
      s.mode = .server → 0 < (s.alist i).acceptFd →
      ((Ends events ∨ ∃ frame, FrameNext order events frame) →
        ∃ next result, HostSock.tcpRecv order s i rBuf events = some (next, result)) ∧
      ∀ next result, HostSock.tcpRecv order s i rBuf events = some (next, result) →
        Received order rBuf events result ∧ (0 < result.nRecv → next = s) ∧
          (result.nRecv ≤ 0 → SlotLost s next i)) ∧
    ∀ (s : AgentLink) (acceptIdx : Fin maxListenq) (rBuf : Bytes vmctBufSize)
      (clock : ClockEnv), 0 < s.listenFd →
      (Sound s.timers → (Ends events ∨ ∃ frame, FrameNext order events frame) → ∃ next result,
        VmctSock.tcpRecv order s acceptIdx rBuf .client events clock = some (next, result)) ∧
      ∀ next result,
        VmctSock.tcpRecv order s acceptIdx rBuf .client events clock = some (next, result) →
          Received order rBuf events result ∧ (0 < result.nRecv → next = s) ∧
            (result.nRecv ≤ 0 → LinkLost s next clock) := by
  constructor
  · intro s i rBuf server lives
    refine ⟨fun settled => ?_, fun next result done => ?_⟩
    · obtain ⟨result, received⟩ := recvFrame_total order (by decide) rBuf settled
      exact ⟨_, result, Option.map_eq_some_iff.mpr ⟨result, received, rfl⟩⟩
    · obtain ⟨received, same⟩ := tcpRecv_eq done
      have outcome := recvFrame_received (by decide) received
      refine ⟨outcome, fun positive => ?_, fun none_left => ?_⟩
      · rw [same, if_neg fun torn => by have := outcome.torn.mp torn; omega]
      · rw [same, if_pos (outcome.torn.mpr none_left)]
        exact recvDisconnect_lost server lives
  · intro s acceptIdx rBuf clock lives
    refine ⟨fun sound settled => ?_, fun next result done => ?_⟩
    · obtain ⟨result, received⟩ := recvFrame_total order (by decide) rBuf settled
      obtain ⟨lost, closed⟩ := disconnect_total sound acceptIdx clock
      refine ⟨if result.disconnect then lost else s, result, ?_⟩
      rw [VmctSock.tcpRecv, received, Option.bind_some, closed]
      split <;> rfl
    · obtain ⟨frame, received, rest⟩ := Option.bind_eq_some_iff.mp done
      obtain ⟨after, left, pair⟩ := Option.map_eq_some_iff.mp rest
      cases pair
      have outcome := recvFrame_received (by decide) received
      refine ⟨outcome, fun positive => ?_, fun none_left => ?_⟩
      · rw [if_neg fun torn => by have := outcome.torn.mp torn; omega] at left
        exact (Option.some.inj left).symm
      · rw [if_pos (outcome.torn.mpr none_left)] at left
        exact disconnect_lost lives left

/-- A host with one connection, of a VM that is registered and has an entry. -/
def oneSlot : HostTables :=
  { HostTables.init with
    alist := Function.update HostTables.init.alist 0 ⟨7, 1, 0x0A000001, 4000⟩
    vmcSystem := Function.update HostTables.init.vmcSystem 0 ⟨1, 0x0A000001, 4000, 0, 0⟩
    stateinfo := Function.update HostTables.init.stateinfo 0
      { baseStateinfo with vmIp := 0x0A000001, pcount := 1 }
    allset := {3, 7}
    openFds := {3, 7} }

theorem tcpRecv_outcome_short :
    ∃ next result, HostSock.tcpRecv .little oneSlot 0 (Bytes.zero hostBufSize)
        [.data 4 [0, 12], .closed] = some (next, result) ∧
      (result.nRecv ≤ 0 → SlotLost oneSlot next 0) := by
  obtain ⟨host, _⟩ := tcpRecv_outcome .little [.data 4 [0, 12], .closed]
  obtain ⟨total, outcome⟩ := host oneSlot 0 (Bytes.zero hostBufSize) rfl (by decide)
  obtain ⟨next, result, done⟩ := total (Or.inl (by decide))
  exact ⟨next, result, done, (outcome next result done).2.2⟩

/-- What `TcpSend` made of a frame: it returns the length exactly when the whole frame has
gone out, and a failure leaves the connection as it was only while nothing has. -/
structure AllOrNothing (order : ByteOrder) {size : Nat} (sndMsg : Bytes size) (nbytes : Nat)
    (result : SendResult size) (kept lost : Prop) : Prop where
  ordered : result.wire <+: framed order (sndMsg.toList.take nbytes)
  whole : result.totalLen = nbytes ↔ result.wire = framed order (sndMsg.toList.take nbytes)
  sent : result.totalLen = nbytes → kept
  failed : result.totalLen ≠ nbytes → result.totalLen = -1 ∧ (result.wire = [] ∧ kept ∨ lost)

/-- A send on an open descriptor returns, and does all or nothing if the caller tears the
connection down when it says so. -/
theorem sendFrame_allOrNothing (order : ByteOrder) {fd : Int} (open_ : 0 < fd) {size : Nat}
    (sndMsg : Bytes size) {nbytes : Nat} (header : defaultTcpComhdrLength ≤ nbytes)
    (inside : nbytes ≤ size) (env : SendEnv) :
    ∃ result, sendFrame order fd sndMsg nbytes env = some result ∧
      ∀ kept lost : Prop, (result.disconnect = false → kept) → (result.disconnect = true → lost) →
        AllOrNothing order sndMsg nbytes result kept lost := by
  obtain ⟨result, sent, ordered, outcome⟩ :=
    sendFrame_outcome order open_ sndMsg (Nat.le_trans (by decide) header) inside env
  refine ⟨result, sent, fun kept lost keeps loses => ?_⟩
  rcases outcome with ⟨length, connected, wire⟩ | ⟨failed, unfinished, nothing⟩
  · exact ⟨ordered, iff_of_true length wire, fun _ => keeps connected, fun other =>
      absurd length other⟩
  · have other : result.totalLen ≠ nbytes := by omega
    refine ⟨ordered, iff_of_false other unfinished, fun same => absurd same other, fun _ =>
      ⟨failed, ?_⟩⟩
    cases torn : result.disconnect with
    | false => exact Or.inl ⟨nothing torn, keeps torn⟩
    | true => exact Or.inr (loses torn)

/-- `TcpSend` of a message with its header, at the host on a slot that is live and at the
agent on its link, whatever the polls and the sends come to: all or nothing, and never an
open connection behind a part of a frame. -/
theorem tcpSend_outcome (order : ByteOrder) {size : Nat} (sndMsg : Bytes size) (nbytes : Nat)
    (env : SendEnv) (header : defaultTcpComhdrLength ≤ nbytes) (inside : nbytes ≤ size) :
    (∀ (s : HostTables) (i : Slot), s.mode = .server → 0 < (s.alist i).acceptFd →
      ∃ next result,
        HostSock.tcpSend order s i (s.alist i).acceptFd sndMsg nbytes env = some (next, result) ∧
          AllOrNothing order sndMsg nbytes result (next = s) (SlotLost s next i)) ∧
    ∀ (s : AgentLink) (acceptIdx : Fin maxListenq) (clock : ClockEnv), 0 < s.listenFd →
      (Sound s.timers → ∃ next result,
        VmctSock.tcpSend order s acceptIdx s.listenFd sndMsg nbytes .client env clock =
          some (next, result)) ∧
      ∀ next result,
        VmctSock.tcpSend order s acceptIdx s.listenFd sndMsg nbytes .client env clock =
            some (next, result) →
          AllOrNothing order sndMsg nbytes result (next = s) (LinkLost s next clock) := by
  constructor
  · intro s i server lives
    obtain ⟨result, sent, outcome⟩ :=
      sendFrame_allOrNothing order lives sndMsg header inside env
    refine ⟨_, result, Option.map_eq_some_iff.mpr ⟨result, sent, rfl⟩, outcome _ _ ?_ ?_⟩
    · intro connected
      rw [connected]
      rfl
    · intro torn
      rw [if_pos torn]
      exact sendDisconnect_lost server lives
  · intro s acceptIdx clock lives
    obtain ⟨result, sent, outcome⟩ :=
      sendFrame_allOrNothing order lives sndMsg header inside env
    refine ⟨fun sound => ?_, fun next other done => ?_⟩
    · obtain ⟨lost, closed⟩ := disconnect_total sound acceptIdx clock
      refine ⟨if result.disconnect then lost else s, result, ?_⟩
      rw [VmctSock.tcpSend, sent, Option.bind_some, closed]
      split <;> rfl
    · obtain ⟨frame, again, rest⟩ := Option.bind_eq_some_iff.mp done
      cases sent.symm.trans again
      obtain ⟨after, left, pair⟩ := Option.map_eq_some_iff.mp rest
      cases pair
      refine outcome _ _ ?_ ?_
      · intro connected
        rw [connected] at left
        exact (Option.some.inj left).symm
      · intro torn
        rw [if_pos torn] at left
        exact disconnect_lost lives left

theorem tcpSend_outcome_partial :
    ∃ next result, HostSock.tcpSend .little oneSlot 0 7 (Bytes.zero 12) 12
        ⟨[.timeout, .ready], [.accepted 4, .failed]⟩ = some (next, result) ∧
      AllOrNothing .little (Bytes.zero 12) 12 result (next = oneSlot) (SlotLost oneSlot next 0) :=
  (tcpSend_outcome .little (Bytes.zero 12) 12 ⟨[.timeout, .ready], [.accepted 4, .failed]⟩
    (by decide) (by decide)).1 oneSlot 0 rfl (by decide)

/-- The same is left of a slot, and of the table of the VMs' states. -/
def SameTeardown (left right : HostTables) (i : Slot) : Prop :=
  left.alist i = right.alist i ∧ left.allset = right.allset ∧
    left.vmcSystem i = right.vmcSystem i ∧ left.stateinfo = right.stateinfo

/-- The first entry of the address, if there is one, is as `InitVariable` makes it. -/
def NothingToClear (stateinfo : Slot → VmcStateinfo) (vmIp : UInt32) : Prop :=
  ∀ k, (stateinfo k).vmIp = vmIp → (∀ j < k, (stateinfo j).vmIp ≠ vmIp) →
    stateinfo k = baseStateinfo

theorem clearStateinfo_unchanged {s : HostTables} {vmIp : UInt32} :
    (clearStateinfo s vmIp).stateinfo = s.stateinfo ↔ NothingToClear s.stateinfo vmIp := by
  unfold clearStateinfo
  split
  · rename_i i found
    obtain ⟨owned, before⟩ := Fin.find?_eq_some_iff.mp found
    rw [decide_eq_true_eq] at owned
    have first (j : Slot) (lower : j < i) : (s.stateinfo j).vmIp ≠ vmIp := by
      simpa using before j lower
    constructor
    · intro same k here earlier
      have only : k = i := by
        rcases lt_trichotomy k i with lower | equal | above
        · exact absurd here (first k lower)
        · exact equal
        · exact absurd owned (earlier i above)
      have cleared := congrFun same i
      rw [only, ← cleared]
      exact Function.update_self ..
    · intro nothing
      rw [← nothing i owned first]
      exact Function.update_eq_self i s.stateinfo
  · rename_i absent
    refine iff_of_true rfl fun k here => ?_
    have missing : (s.stateinfo k).vmIp ≠ vmIp := by
      simpa using Fin.find?_eq_none_iff.mp absent k
    exact absurd here missing

theorem sameTeardown_stateinfo (s : HostTables) (i : Slot) (stateinfo : Slot → VmcStateinfo) :
    SameTeardown (teardown s i) { teardown s i with stateinfo } i ↔ stateinfo = s.stateinfo := by
  constructor
  · rintro ⟨_, _, _, same⟩
    exact same.symm
  · rintro rfl
    exact ⟨rfl, rfl, rfl, rfl⟩

/-- The two teardowns of a live slot leave the same exactly when the VM on it has no state
to forget. -/
theorem sendDisconnect_agrees {s : HostTables} {i : Slot} (server : s.mode = .server)
    (lives : 0 < (s.alist i).acceptFd) :
    SameTeardown (sendDisconnect s i) (recvDisconnect s i) i ↔
      NothingToClear s.stateinfo (s.vmcSystem i).systemaddr := by
  rw [sendDisconnect_live server lives, recvDisconnect_live server lives,
    sameTeardown_stateinfo, clearStateinfo_unchanged]

theorem sendDisconnect_agrees_unknown :
    SameTeardown (sendDisconnect { oneSlot with stateinfo := fun _ => baseStateinfo } 0)
      (recvDisconnect { oneSlot with stateinfo := fun _ => baseStateinfo } 0) 0 :=
  (sendDisconnect_agrees rfl (by decide)).mpr fun _ _ _ => rfl

/-- The state of a VM survives the teardown by `TcpSend`. -/
theorem sendDisconnect_keepsState :
    ¬ ∀ (s : HostTables) (i : Slot), s.mode = .server → 0 < (s.alist i).acceptFd →
      (s.vmcSystem i).systemport ≠ 0 →
        SameTeardown (sendDisconnect s i) (recvDisconnect s i) i := by
  intro all
  have same := all oneSlot 0 rfl (by decide) (by decide)
  rw [sendDisconnect_live rfl (by decide), recvDisconnect_live rfl (by decide),
    sameTeardown_stateinfo, clearStateinfo_unchanged] at same
  have cleared := congrArg VmcStateinfo.vmIp (same 0 rfl nofun)
  exact absurd cleared (by decide)

end VnfMonitoring.TcpOutcome
