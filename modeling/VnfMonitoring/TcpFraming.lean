import VnfMonitoring.HostSock
import VnfMonitoring.VmctSock

set_option autoImplicit false

/- Frames from either program's `TcpSend` to the other's `TcpRecv` over one stream. -/
namespace VnfMonitoring.TcpFraming

open VnfMonitoring.Memory VnfMonitoring.Socket VnfMonitoring.TcpFrame

/-- A message that a caller of `TcpSend` may pass: it starts with the 12 bytes of the
common header, and its length fits the 16 bits of the TPKT header. -/
structure Frame where
  size : Nat
  bytes : Bytes size
  header : 12 ≤ size
  fits : size ≤ 65535

/-- A `TcpSend` of a frame, the socket being ready and no call failing. -/
structure SendCall where
  frame : Frame
  env : SendEnv
  ready : ∀ poll ∈ env.polls, poll = .ready ∨ poll = .interrupted
  progress : Progress env.sends

/-- Consecutive sends: what each returns and the bytes it puts on the wire. -/
def sendAll {σ : Type} (send : σ → SendCall → Option (σ × Int × List UInt8)) (s : σ) :
    List SendCall → Option (σ × List (Int × List UInt8))
  | [] => some (s, [])
  | call :: calls =>
      (send s call).bind fun (s, result) =>
        (sendAll send s calls).map fun (s, results) => (s, result :: results)

/-- Consecutive receives into one buffer. -/
def recvAll {σ : Type} {size : Nat}
    (recv : σ → Bytes size → List RecvEvent → Option (σ × RecvResult size)) :
    Nat → σ → Bytes size → List RecvEvent → Option (σ × List (RecvResult size))
  | 0, s, _, _ => some (s, [])
  | count + 1, s, rBuf, events =>
      (recv s rBuf events).bind fun (s, result) =>
        (recvAll recv count s result.rBuf result.events).map fun (s, results) =>
          (s, result :: results)

/-- Every send returns the length of its frame; every receive returns a positive value,
consumes exactly the bytes its frame was sent as, and leaves the frame's bytes from the
fourth on in the buffer. -/
def Delivered {size : Nat} : List SendCall → List (Int × List UInt8) → List RecvEvent →
    List (RecvResult size) → Prop
  | [], [], _, [] => True
  | call :: calls, (ret, wire) :: sent, events, result :: received =>
      ret = call.frame.size ∧ 0 < result.nRecv ∧
        stream events = wire ++ stream result.events ∧
        (∃ body, loadBytes result.rBuf 4 (call.frame.size - 4) = some body ∧
          body.toList = call.frame.bytes.toList.drop 4) ∧
        Delivered calls sent result.events received
  | _, _, _, _ => False

/-- A sender that puts every frame on the wire as `framed` and keeps its state. -/
def Sends {σ : Type} (order : ByteOrder) (send : σ → SendCall → Option (σ × Int × List UInt8))
    (s : σ) : Prop :=
  ∀ call, send s call = some (s, (call.frame.size : Int), framed order call.frame.bytes.toList)

/-- A receiver that takes a framed message whole and keeps its state. -/
def Receives {σ : Type} (size : Nat) (order : ByteOrder)
    (recv : σ → Bytes size → List RecvEvent → Option (σ × RecvResult size)) (s : σ) : Prop :=
  ∀ (frame : Frame) rBuf events behind,
    stream events = framed order frame.bytes.toList ++ behind →
      ∃ result, recv s rBuf events = some (s, result) ∧ 0 < result.nRecv ∧
        stream result.events = behind ∧
        ∃ body, loadBytes result.rBuf 4 (frame.size - 4) = some body ∧
          body.toList = frame.bytes.toList.drop 4

theorem sendAll_framed {σ : Type} {order : ByteOrder}
    {send : σ → SendCall → Option (σ × Int × List UInt8)} {s : σ} (sends : Sends order send s)
    (calls : List SendCall) :
    sendAll send s calls = some (s, calls.map fun call =>
      ((call.frame.size : Int), framed order call.frame.bytes.toList)) := by
  induction calls with
  | nil => rfl
  | cons call calls ih =>
      rw [sendAll, sends call, Option.bind_some]
      simp only [ih, Option.map_some, List.map_cons]

/-- The stream never goes out of step: by induction on the frames, each receive ends
where the next frame begins. -/
theorem recvAll_delivered {σ : Type} {size : Nat} {order : ByteOrder}
    {recv : σ → Bytes size → List RecvEvent → Option (σ × RecvResult size)} {s : σ}
    (receives : Receives size order recv s) (calls : List SendCall) :
    ∀ (rBuf : Bytes size) (events : List RecvEvent) (behind : List UInt8),
      stream events =
          (calls.map fun call => framed order call.frame.bytes.toList).flatten ++ behind →
        ∃ received, recvAll recv calls.length s rBuf events = some (s, received) ∧
          Delivered calls (calls.map fun call =>
            ((call.frame.size : Int), framed order call.frame.bytes.toList)) events received := by
  induction calls with
  | nil => exact fun rBuf events behind _ => ⟨[], rfl, trivial⟩
  | cons call calls ih =>
      intro rBuf events behind arrives
      rw [List.map_cons, List.flatten_cons, List.append_assoc] at arrives
      obtain ⟨result, received, positive, later, body⟩ :=
        receives call.frame rBuf events _ arrives
      obtain ⟨results, rest, delivered⟩ := ih result.rBuf result.events behind later
      refine ⟨result :: results, ?_, rfl, positive, ?_, body, delivered⟩
      · rw [List.length_cons, recvAll, received, Option.bind_some]
        simp only [rest, Option.map_some]
      · rw [later]
        exact arrives

/-- The receive buffers of `tcp_rcvTask` and `TcpRcvTask`. -/
def hostBufSize : Nat := 1400000

def vmctBufSize : Nat := 409600

def vmctSend (order : ByteOrder) (fd : Int) (clock : VmctSock.ClockEnv)
    (s : VmctSock.AgentLink) (call : SendCall) :
    Option (VmctSock.AgentLink × Int × List UInt8) :=
  (VmctSock.tcpSend order s VmctSock.clientIdx fd call.frame.bytes call.frame.size .client call.env
    clock).map fun (s, result) => (s, result.totalLen, result.wire)

def hostSend (order : ByteOrder) (slot : HostSock.Slot) (fd : Int) (s : HostSock.HostTables)
    (call : SendCall) : Option (HostSock.HostTables × Int × List UInt8) :=
  (HostSock.tcpSend order s slot fd call.frame.bytes call.frame.size call.env).map
    fun (s, result) => (s, result.totalLen, result.wire)

theorem Frame.sendFrame_eq (order : ByteOrder) {fd : Int} (open_ : 0 < fd) (call : SendCall) :
    ∃ sndMsg, sendFrame order fd call.frame.bytes call.frame.size call.env =
      some ⟨call.frame.size, sndMsg, framed order call.frame.bytes.toList, false⟩ := by
  have header := call.frame.header
  exact sendFrame_complete order open_ call.frame.bytes (by rw [tpktHeaderSize]; omega)
    call.ready call.progress

theorem vmctSend_sends (order : ByteOrder) {fd : Int} (open_ : 0 < fd)
    (clock : VmctSock.ClockEnv) (s : VmctSock.AgentLink) :
    Sends order (vmctSend order fd clock) s := by
  intro call
  obtain ⟨sndMsg, sent⟩ := Frame.sendFrame_eq order open_ call
  simp [vmctSend, VmctSock.tcpSend, sent]

theorem hostSend_sends (order : ByteOrder) (slot : HostSock.Slot) {fd : Int} (open_ : 0 < fd)
    (s : HostSock.HostTables) : Sends order (hostSend order slot fd) s := by
  intro call
  obtain ⟨sndMsg, sent⟩ := Frame.sendFrame_eq order open_ call
  simp [hostSend, HostSock.tcpSend, sent]

theorem Frame.recvFrame_eq {size : Nat} (order : ByteOrder) (room : 65535 ≤ size)
    (frame : Frame) (rBuf : Bytes size) {events : List RecvEvent} {behind : List UInt8}
    (arrives : stream events = framed order frame.bytes.toList ++ behind) :
    ∃ result, recvFrame order rBuf events = some result ∧ result.disconnect = false ∧
      0 < result.nRecv ∧ stream result.events = behind ∧
      ∃ body, loadBytes result.rBuf 4 (frame.size - 4) = some body ∧
        body.toList = frame.bytes.toList.drop 4 := by
  have header := frame.header
  have fits := frame.fits
  have length := frame.bytes.length_toList
  obtain ⟨result, received, positive, connected, later, stored⟩ :=
    recvFrame_complete order frame.bytes.toList
      (by rw [length, tpktHeaderSize]; omega) (by omega) rBuf (by omega) arrives
  refine ⟨result, received, connected, positive, later, ?_⟩
  exact loadBytes_storeBytes_same stored (by rw [List.length_drop, length])

theorem vmctRecv_receives {size : Nat} (order : ByteOrder) (room : 65535 ≤ size)
    (clock : VmctSock.ClockEnv) (s : VmctSock.AgentLink) :
    Receives size order
      (fun s rBuf events => VmctSock.tcpRecv order s 0 rBuf .client events clock) s := by
  intro frame rBuf events behind arrives
  obtain ⟨result, received, connected, rest⟩ := frame.recvFrame_eq order room rBuf arrives
  exact ⟨result, by simp [VmctSock.tcpRecv, received, connected], rest⟩

theorem hostRecv_receives {size : Nat} (order : ByteOrder) (room : 65535 ≤ size)
    (slot : HostSock.Slot) (s : HostSock.HostTables) :
    Receives size order
      (fun s rBuf events => HostSock.tcpRecv order s slot rBuf events) s := by
  intro frame rBuf events behind arrives
  obtain ⟨result, received, connected, rest⟩ := frame.recvFrame_eq order room rBuf arrives
  exact ⟨result, by simp [HostSock.tcpRecv, received, connected], rest⟩

/-- The framing round trip, from the agent to the host and back: however the sends and
the receives are cut, every receive delivers exactly its frame. -/
theorem framing_roundTrip (order : ByteOrder) (agent : VmctSock.AgentLink)
    (host : HostSock.HostTables) (slot : HostSock.Slot) (clock : VmctSock.ClockEnv)
    (calls : List SendCall) {fd : Int} (open_ : 0 < fd) :
    (∃ sent, sendAll (vmctSend order fd clock) agent calls = some (agent, sent) ∧
      ∀ (rBuf : Bytes hostBufSize) events behind,
        stream events = (sent.map Prod.snd).flatten ++ behind →
          ∃ received, recvAll (fun s => HostSock.tcpRecv order s slot) calls.length host rBuf
              events = some (host, received) ∧ Delivered calls sent events received) ∧
    (∃ sent, sendAll (hostSend order slot fd) host calls = some (host, sent) ∧
      ∀ (rBuf : Bytes vmctBufSize) events behind,
        stream events = (sent.map Prod.snd).flatten ++ behind →
          ∃ received, recvAll (fun s rBuf events =>
              VmctSock.tcpRecv order s 0 rBuf .client events clock) calls.length agent rBuf
              events = some (agent, received) ∧ Delivered calls sent events received) := by
  refine ⟨⟨_, sendAll_framed (vmctSend_sends order open_ clock agent) calls, ?_⟩,
    ⟨_, sendAll_framed (hostSend_sends order slot open_ host) calls, ?_⟩⟩
  · intro rBuf events behind arrives
    rw [List.map_map] at arrives
    exact recvAll_delivered (hostRecv_receives order (by decide) slot host) calls rBuf events
      behind arrives
  · intro rBuf events behind arrives
    rw [List.map_map] at arrives
    exact recvAll_delivered (vmctRecv_receives order (by decide) clock agent) calls rBuf events
      behind arrives

/-- A frame with a body, the rest of it behind the header being of one byte value. -/
def bodyFrame (size : Nat) (body : UInt8) (header : 12 ≤ size) (fits : size ≤ 65535) : Frame where
  size
  bytes := ⟨List.replicate 12 0 ++ List.replicate (size - 12) body, by simp; omega⟩
  header
  fits

/-- Two frames, in either direction: the sends are interrupted and cut, the first header arrives
in two parts, and the segment behind it goes on into the second frame. -/
theorem framing_roundTrip_two :
    let calls : List SendCall :=
      [⟨bodyFrame 15 7 (by decide) (by decide), ⟨[.interrupted], [.accepted 3, .interrupted]⟩,
          by decide, by simp [Progress]⟩,
        ⟨bodyFrame 400 9 (by decide) (by decide), ⟨[], [.accepted 14, .accepted 1]⟩, by decide,
          by simp [Progress]⟩]
    (∃ sent received, sendAll (vmctSend .little 5 ⟨true, none⟩) .init calls =
        some (.init, sent) ∧
      recvAll (fun s => HostSock.tcpRecv .little s 0) 2 .init (Bytes.zero hostBufSize)
          (segments [3, 1, 100] (sent.map Prod.snd).flatten) = some (.init, received) ∧
        Delivered calls sent (segments [3, 1, 100] (sent.map Prod.snd).flatten) received) ∧
      ∃ sent received, sendAll (hostSend .little 0 5) .init calls = some (.init, sent) ∧
        recvAll (fun s rBuf events =>
            VmctSock.tcpRecv .little s 0 rBuf .client events ⟨true, none⟩) 2 .init
            (Bytes.zero vmctBufSize) (segments [3, 1, 100] (sent.map Prod.snd).flatten) =
          some (.init, received) ∧
        Delivered calls sent (segments [3, 1, 100] (sent.map Prod.snd).flatten) received := by
  intro calls
  obtain ⟨⟨up, upDone, upDelivery⟩, down, downDone, downDelivery⟩ :=
    framing_roundTrip .little .init .init 0 ⟨true, none⟩ calls (show (0 : Int) < 5 by decide)
  obtain ⟨heard, upRead, upDelivered⟩ := upDelivery (Bytes.zero hostBufSize)
    (segments [3, 1, 100] (up.map Prod.snd).flatten) []
    (by rw [stream_segments, List.append_nil])
  obtain ⟨answered, downRead, downDelivered⟩ := downDelivery (Bytes.zero vmctBufSize)
    (segments [3, 1, 100] (down.map Prod.snd).flatten) []
    (by rw [stream_segments, List.append_nil])
  exact ⟨⟨up, heard, upDone, upRead, upDelivered⟩, down, answered, downDone, downRead,
    downDelivered⟩

end VnfMonitoring.TcpFraming
