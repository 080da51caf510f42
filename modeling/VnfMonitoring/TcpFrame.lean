import VnfMonitoring.Lib.Socket

set_option autoImplicit false

/- One frame through `TcpSend` or `TcpRecv`: the TPKT header, the readiness poll and
the loops are the same text in both programs, which differ in how they tear a
connection down. -/
namespace VnfMonitoring.TcpFrame

open VnfMonitoring.Memory VnfMonitoring.Socket

/-- `LINK_MODE_CLIENT` and `LINK_MODE_SERVER`. -/
inductive LinkMode where
  | client
  | server
  deriving DecidableEq, Repr

def tpktHeaderSize : Nat := 4

def tcpVersion : UInt8 := 0x04

def tcpSndRetry : Nat := 3

/-- What `send_extendedPoll` returns: ready with the socket in the set or, `unset`,
without it; a timeout; `EINTR`; one of `EBADF`, `EPIPE`, `EIO`; or another error. -/
inductive PollResult where
  | ready
  | unset
  | timeout
  | interrupted
  | broken
  | failed
  deriving DecidableEq, Repr

inductive PollVerdict where
  | send
  | giveUp
  | disconnect
  deriving DecidableEq, Repr

/-- The loop at `s_again`; after the last result of its script the socket is ready. -/
def pollLoop (retry : Nat) : List PollResult → PollVerdict
  | [] => .send
  | .ready :: _ => .send
  | .unset :: _ => .giveUp
  | .interrupted :: later => pollLoop retry later
  | .broken :: _ => .disconnect
  | .failed :: _ => .giveUp
  | .timeout :: later =>
      let retry := retry - 1
      if retry ≠ 0 then pollLoop retry later else .giveUp

/-- What the system does during one `TcpSend`. -/
structure SendEnv where
  polls : List PollResult
  sends : List SendEvent
  deriving DecidableEq, Repr

/-- What `TcpSend` returns, the message with its header filled in, the bytes the kernel
accepted, and whether the connection is to be torn down. -/
structure SendResult (size : Nat) where
  totalLen : Int
  sndMsg : Bytes size
  wire : List UInt8
  disconnect : Bool
  deriving DecidableEq, Repr

/-- The flag `h_okFlag`, `b_okFlag` or `p_okFlag` after its loop and the check behind it. -/
def okFlag (complete : Bool) (last : Int) (moved : Bool) : Int :=
  if ¬ complete ∨ last ≤ 0 then
    if ¬ complete then -2 else last
  else if moved then 1 else 0

theorem okFlag_one (complete : Bool) (last : Int) (moved : Bool) :
    okFlag complete last moved = 1 ↔ complete = true ∧ 0 < last ∧ moved = true := by
  unfold okFlag
  cases complete <;> cases moved <;> by_cases positive : last ≤ 0 <;> simp [positive] <;> omega

/-- The four bytes `TcpSend` puts before the message: the length is first swapped by
`NBO_HTONS` and then written high byte first. -/
def tpktHeader (order : ByteOrder) (nbytes : Int) : List UInt8 :=
  let pktLen := order.htons (UInt16.ofNat nbytes.toNat)
  [tcpVersion, 0x00, (pktLen >>> 8).toUInt8, (pktLen &&& 0xFF).toUInt8]

/-- `TcpSend` without its teardown; no value when the message is shorter than it says. -/
def sendFrame {size : Nat} (order : ByteOrder) (fd : Int) (sndMsg : Bytes size) (nbytes : Int)
    (env : SendEnv) : Option (SendResult size) :=
  if fd ≤ 0 ∨ nbytes ≤ 0 then some ⟨-1, sndMsg, [], false⟩
  else
    (storeBytes sndMsg 0 (tpktHeader order nbytes)).bind fun sBuf =>
      match pollLoop tcpSndRetry env.polls with
      | .giveUp => some ⟨-1, sBuf, [], false⟩
      | .disconnect => some ⟨-1, sBuf, [], true⟩
      | .send =>
          (loadBytes sBuf 0 nbytes.toNat).map fun frame =>
            let done := sendLoop frame.toList .start env.sends
            let pOkFlag := okFlag (done.sent.length = nbytes) done.last done.moved
            if pOkFlag = 1 then ⟨done.sent.length, sBuf, done.sent, false⟩
            else ⟨-1, sBuf, done.sent, true⟩

/-- What `TcpRecv` returns, the buffer and the socket behind it, and whether the
connection is to be torn down. -/
structure RecvResult (size : Nat) where
  nRecv : Int
  rBuf : Bytes size
  events : List RecvEvent
  disconnect : Bool
  deriving DecidableEq, Repr

/-- The length `TcpRecv` reads from a header: high byte first, then `NBO_NTOHS`. -/
def tpktLength (order : ByteOrder) : List UInt8 → Option Nat
  | [_, _, high, low] => some (order.ntohs ((high.toUInt16 <<< 8) + low.toUInt16)).toNat
  | _ => none

/-- `TcpRecv` without its teardown. -/
def recvFrame {size : Nat} (order : ByteOrder) (rBuf : Bytes size) (events : List RecvEvent) :
    Option (RecvResult size) :=
  (recvLoop tpktHeaderSize ⟨Bytes.zero tpktHeaderSize, 0, 0, false⟩ events).bind
    fun (header, events) =>
      let hOkFlag := okFlag (header.total = tpktHeaderSize) header.last header.moved
      if header.total ≠ tpktHeaderSize ∨ header.last ≤ 0 then
        some ⟨header.last, rBuf, events, true⟩
      else
        (tpktLength order header.buf.toList).bind fun nByte =>
          (recvLoop nByte ⟨rBuf, tpktHeaderSize, 0, false⟩ events).map fun (body, events) =>
            let bOkFlag := okFlag (body.total = nByte) body.last body.moved
            ⟨body.last, body.buf, events, ¬ (hOkFlag = 1 ∧ bOkFlag = 1)⟩

theorem tpktHeader_length (order : ByteOrder) (nbytes : Int) :
    (tpktHeader order nbytes).length = tpktHeaderSize := rfl

theorem split_join (x : UInt16) :
    ((x >>> 8).toUInt8.toUInt16 <<< 8) + (x &&& 0xFF).toUInt8.toUInt16 = x := by
  apply UInt16.toNat_inj.mp
  have small := x.toNat_lt
  have low : x.toNat &&& 255 = x.toNat % 256 := Nat.and_two_pow_sub_one_eq_mod x.toNat 8
  simp only [UInt16.toNat_add, UInt16.toNat_shiftLeft, UInt8.toNat_toUInt16, UInt16.toNat_toUInt8,
    UInt16.toNat_shiftRight, UInt16.toNat_and, Nat.shiftRight_eq_div_pow, Nat.shiftLeft_eq]
  simp only [UInt16.reduceToNat, Nat.reduceMod, Nat.reducePow, low]
  omega

/-- The receiver of a header reads the length its sender put in it, both using the
same byte order. -/
theorem tpktLength_tpktHeader (order : ByteOrder) (n : Nat) (fits : n ≤ 65535) :
    tpktLength order (tpktHeader order n) = some n := by
  simp only [tpktHeader, tpktLength, split_join, ByteOrder.ntohs_htons, Int.toNat_natCast,
    UInt16.toNat_ofNat', Option.some.injEq]
  omega

theorem pollLoop_ready {retry : Nat} {polls : List PollResult}
    (ready : ∀ poll ∈ polls, poll = .ready ∨ poll = .interrupted) :
    pollLoop retry polls = .send := by
  induction polls with
  | nil => rfl
  | cons poll later ih =>
      rcases ready poll List.mem_cons_self with rfl | rfl
      · rfl
      · exact ih fun other member => ready other (List.mem_cons_of_mem _ member)

/-- The bytes of a message with its header in place of its first four bytes. -/
def framed (order : ByteOrder) (message : List UInt8) : List UInt8 :=
  tpktHeader order message.length ++ message.drop tpktHeaderSize

theorem framed_length (order : ByteOrder) (message : List UInt8)
    (header : tpktHeaderSize ≤ message.length) :
    (framed order message).length = message.length := by
  rw [framed, List.length_append, tpktHeader_length, List.length_drop]
  omega

/-- With the socket ready and no error, the whole message goes out. -/
theorem sendFrame_complete (order : ByteOrder) {fd : Int} (open_ : 0 < fd) {n : Nat}
    (message : Bytes n) (header : tpktHeaderSize ≤ n) {env : SendEnv}
    (ready : ∀ poll ∈ env.polls, poll = .ready ∨ poll = .interrupted)
    (progress : Progress env.sends) :
    ∃ sndMsg, sendFrame order fd message n env =
      some ⟨n, sndMsg, framed order message.toList, false⟩ := by
  have size := framed_length order message.toList (by simpa using header)
  rw [message.length_toList] at size
  have positive : 0 < n := by
    rw [tpktHeaderSize] at header
    omega
  obtain ⟨sndMsg, stored⟩ := Option.isSome_iff_exists.mp
    ((storeBytes_isSome message 0 (tpktHeader order n)).mpr
      (by rw [tpktHeader_length]; omega))
  have written : sndMsg.toList = framed order message.toList := by
    rw [(storeBytes_eq stored).2, framed, tpktHeader_length, message.length_toList]
    simp
  have window : (sndMsg.toList.drop 0).take n = framed order message.toList := by
    rw [written, List.drop_zero, List.take_of_length_le (by omega)]
  obtain ⟨frame, loaded, same⟩ := loadBytes_of_toList (by omega) window
  obtain ⟨sent, moved⟩ := sendLoop_complete (framed order message.toList) env.sends
    progress .start List.nil_prefix
  obtain ⟨last, flag⟩ := moved (by rw [size]; exact positive)
  refine ⟨sndMsg, ?_⟩
  rw [sendFrame, if_neg (by omega), stored, Option.bind_some, pollLoop_ready ready]
  simp only [Int.toNat_natCast, loaded, Option.map_some, same, sent, size]
  rw [if_pos ((okFlag_one _ _ _).mpr ⟨by simp, last, flag⟩)]

/-- A send stays inside a message that has room for the header and is as long as said. -/
theorem sendFrame_isSome (order : ByteOrder) (fd : Int) {size : Nat} (sndMsg : Bytes size)
    (nbytes : Int) (header : tpktHeaderSize ≤ size) (inside : nbytes ≤ size) (env : SendEnv) :
    (sendFrame order fd sndMsg nbytes env).isSome := by
  unfold sendFrame
  split
  · rfl
  · obtain ⟨sBuf, stored⟩ := Option.isSome_iff_exists.mp
      ((storeBytes_isSome sndMsg 0 (tpktHeader order nbytes)).mpr
        (by rw [tpktHeader_length]; omega))
    rw [stored, Option.bind_some]
    cases pollLoop tcpSndRetry env.polls with
    | giveUp => rfl
    | disconnect => rfl
    | send =>
        rw [Option.isSome_map]
        exact (loadBytes_isSome _ _ _).mpr (by omega)

/-- Nothing is sent, and nothing torn down, on a descriptor that is not open. -/
theorem sendFrame_closed (order : ByteOrder) {fd : Int} (closed : fd ≤ 0) {size : Nat}
    (sndMsg : Bytes size) (nbytes : Int) (env : SendEnv) :
    sendFrame order fd sndMsg nbytes env = some ⟨-1, sndMsg, [], false⟩ := by
  rw [sendFrame, if_pos (Or.inl closed)]

/-- A frame longer than its header, and as long as the header says, is next in the stream. -/
structure FrameNext (order : ByteOrder) (events : List RecvEvent) (frame : List UInt8) : Prop where
  first : frame <+: stream events
  length : tpktLength order (frame.take tpktHeaderSize) = some frame.length
  body : tpktHeaderSize < frame.length

/-- A stream has at most one frame next. -/
theorem FrameNext.unique {order : ByteOrder} {events : List RecvEvent} {frame other : List UInt8}
    (next : FrameNext order events frame) (also : FrameNext order events other) :
    frame = other := by
  have header (frame : List UInt8) (next : FrameNext order events frame) :
      frame.take tpktHeaderSize = (stream events).take tpktHeaderSize := by
    obtain ⟨behind, arrives⟩ := next.first
    rw [← arrives, List.take_append_of_le_length (Nat.le_of_lt next.body)]
  have length : frame.length = other.length := by
    have read := next.length
    rw [header frame next, ← header other also, also.length] at read
    exact (Option.some.inj read).symm
  have before := List.prefix_of_prefix_length_le next.first also.first (Nat.le_of_eq length)
  exact before.eq_of_length length

theorem tpktLength_le {order : ByteOrder} {header : List UInt8} {nByte : Nat}
    (read : tpktLength order header = some nByte) : nByte ≤ 65535 := by
  unfold tpktLength at read
  split at read
  · cases read
    exact Nat.le_of_lt_succ (UInt16.toNat_lt _)
  · cases read

/-- A frame that is next in the stream is received whole, and nothing behind it; its
header is not stored. -/
theorem recvFrame_next {order : ByteOrder} {events : List RecvEvent} {frame : List UInt8}
    (next : FrameNext order events frame) {size : Nat} (rBuf : Bytes size)
    (room : frame.length ≤ size) :
    ∃ result, recvFrame order rBuf events = some result ∧ 0 < result.nRecv ∧
      result.disconnect = false ∧ stream events = frame ++ stream result.events ∧
      storeBytes rBuf tpktHeaderSize (frame.drop tpktHeaderSize) = some result.rBuf := by
  have body := next.body
  have whole : tpktHeaderSize ≤ frame.length := Nat.le_of_lt next.body
  obtain ⟨behind, arrives⟩ := next.first
  have enough := congrArg List.length arrives
  rw [List.length_append] at enough
  rw [tpktHeaderSize] at body
  obtain ⟨header, rest, received, full, streamRest, filled, moved⟩ :=
    recvLoop_stream (Nat.le_refl tpktHeaderSize) events
      ⟨Bytes.zero tpktHeaderSize, 0, 0, false⟩ (Nat.zero_le _)
      (by simp only [tpktHeaderSize]; omega)
  obtain ⟨last, flag⟩ := moved (by decide)
  simp only [Nat.sub_zero] at streamRest filled
  rw [← arrives, List.drop_append_of_le_length whole] at streamRest
  rw [← arrives, List.take_append_of_le_length whole] at filled
  have headerBytes : header.buf.toList = frame.take tpktHeaderSize := by
    have width : (frame.take tpktHeaderSize).length = tpktHeaderSize :=
      List.length_take_of_le whole
    rw [(storeBytes_eq filled).2, width, List.take_zero, List.nil_append,
      List.drop_eq_nil_of_le (by simp), List.append_nil]
  have bodyLength : (frame.drop tpktHeaderSize).length = frame.length - tpktHeaderSize :=
    List.length_drop
  obtain ⟨done, later, receivedBody, fullBody, streamLater, filledBody, movedBody⟩ :=
    recvLoop_stream room rest ⟨rBuf, tpktHeaderSize, 0, false⟩ whole
      (by rw [streamRest, List.length_append, bodyLength]; simp only; omega)
  obtain ⟨lastBody, flagBody⟩ := movedBody next.body
  simp only at streamLater filledBody
  rw [streamRest, ← bodyLength, List.drop_left] at streamLater
  rw [streamRest, ← bodyLength, List.take_left] at filledBody
  have headerOk : okFlag (header.total = tpktHeaderSize) header.last header.moved = 1 :=
    (okFlag_one _ _ _).mpr ⟨by simpa using full, last, flag⟩
  have bodyOk : okFlag (done.total = frame.length) done.last done.moved = 1 :=
    (okFlag_one _ _ _).mpr ⟨by simpa using fullBody, lastBody, flagBody⟩
  have normal : ¬ (header.total ≠ tpktHeaderSize ∨ header.last ≤ 0) := by
    rw [full]
    omega
  refine ⟨⟨done.last, done.buf, later, false⟩, ?_, lastBody, rfl, ?_, filledBody⟩
  · rw [recvFrame, received, Option.bind_some]
    simp only [if_neg normal, headerBytes, next.length, Option.bind_some, receivedBody,
      Option.map_some, headerOk, bodyOk]
    simp
  · rw [streamLater, arrives]

/-- A frame of the sender is received whole, and nothing behind it. -/
theorem recvFrame_complete (order : ByteOrder) (message : List UInt8)
    (body : tpktHeaderSize < message.length) (fits : message.length ≤ 65535) {size : Nat}
    (rBuf : Bytes size) (room : message.length ≤ size) {events : List RecvEvent}
    {behind : List UInt8} (arrives : stream events = framed order message ++ behind) :
    ∃ result, recvFrame order rBuf events = some result ∧ 0 < result.nRecv ∧
      result.disconnect = false ∧ stream result.events = behind ∧
      storeBytes rBuf tpktHeaderSize (message.drop tpktHeaderSize) = some result.rBuf := by
  have length := framed_length order message (Nat.le_of_lt body)
  have header : (framed order message).take tpktHeaderSize = tpktHeader order message.length :=
    List.take_left' (tpktHeader_length ..)
  have next : FrameNext order events (framed order message) :=
    ⟨⟨behind, arrives.symm⟩, by rw [header, length, tpktLength_tpktHeader order _ fits],
      by rw [length]; exact body⟩
  obtain ⟨result, received, positive, connected, left, stored⟩ :=
    recvFrame_next next rBuf (by rw [length]; exact room)
  rw [arrives, List.append_cancel_left_eq] at left
  rw [framed, List.drop_left' (tpktHeader_length ..)] at stored
  exact ⟨result, received, positive, connected, left.symm, stored⟩

/-- A header loop that ends well has the first four bytes of the stream. -/
theorem recvHeader_eq {events rest : List RecvEvent} {header : RecvLoop tpktHeaderSize}
    (read : recvLoop tpktHeaderSize ⟨Bytes.zero tpktHeaderSize, 0, 0, false⟩ events =
      some (header, rest)) (last : 0 < header.last) :
    tpktHeaderSize ≤ (stream events).length ∧
      header.buf.toList = (stream events).take tpktHeaderSize ∧
      stream rest = (stream events).drop tpktHeaderSize := by
  have four : tpktHeaderSize - 0 ≤ (stream events).length := by
    by_contra short
    have ended := recvLoop_short events (by simpa using short) read
    omega
  obtain ⟨done, after, again, _, streamRest, filled, _⟩ :=
    recvLoop_stream (Nat.le_refl tpktHeaderSize) events
      ⟨Bytes.zero tpktHeaderSize, 0, 0, false⟩ (Nat.zero_le _) four
  rw [read] at again
  cases again
  simp only [Nat.sub_zero] at filled streamRest four
  have width : ((stream events).take tpktHeaderSize).length = tpktHeaderSize :=
    List.length_take_of_le four
  refine ⟨four, ?_, streamRest⟩
  rw [(storeBytes_eq filled).2, width, List.take_zero, List.nil_append,
    List.drop_eq_nil_of_le (by simp), List.append_nil]

/-- A receive returns a positive value only for such a frame. -/
theorem recvFrame_positive {order : ByteOrder} {size : Nat} {rBuf : Bytes size}
    {events : List RecvEvent} {result : RecvResult size}
    (received : recvFrame order rBuf events = some result) (positive : 0 < result.nRecv) :
    ∃ frame, FrameNext order events frame := by
  unfold recvFrame at received
  obtain ⟨⟨header, rest⟩, read, received⟩ := Option.bind_eq_some_iff.mp received
  simp only at received
  split at received
  · rename_i lost
    cases received
    simp only at positive
    rcases recvLoop_ended _ (Or.inl (Int.le_refl 0)) read with last | ⟨full, _⟩
    · omega
    · rcases lost with short | last
      · exact absurd full short
      · omega
  · rename_i whole
    simp only [not_or, not_not, Int.not_le] at whole
    obtain ⟨nByte, length, received⟩ := Option.bind_eq_some_iff.mp received
    obtain ⟨⟨body, later⟩, readBody, rfl⟩ := Option.map_eq_some_iff.mp received
    simp only at positive
    obtain ⟨four, headerBytes, streamRest⟩ := recvHeader_eq read whole.2
    have long : tpktHeaderSize < nByte := by
      by_contra short
      rw [recvLoop_full _ _ _ (by simpa using short)] at readBody
      cases readBody
      exact absurd positive (Int.lt_irrefl 0)
    have enough : nByte - tpktHeaderSize ≤ (stream rest).length := by
      by_contra short
      have last := recvLoop_short rest (by simp only; omega) readBody
      omega
    rw [streamRest, List.length_drop] at enough
    have size : ((stream events).take nByte).length = nByte := List.length_take_of_le (by omega)
    refine ⟨(stream events).take nByte, List.take_prefix _ _, ?_, by rw [size]; exact long⟩
    rw [List.take_take, Nat.min_eq_left (Nat.le_of_lt long), size, ← headerBytes]
    exact length

/-- A receive that tears the connection down returns no positive value. -/
theorem recvFrame_disconnect (order : ByteOrder) {size : Nat} {rBuf : Bytes size}
    {events : List RecvEvent} {result : RecvResult size}
    (received : recvFrame order rBuf events = some result) (torn : result.disconnect = true) :
    result.nRecv ≤ 0 := by
  unfold recvFrame at received
  obtain ⟨⟨header, rest⟩, read, received⟩ := Option.bind_eq_some_iff.mp received
  have headerEnd := recvLoop_ended _ (Or.inl (Int.le_refl 0)) read
  simp only at received
  split at received
  · rename_i lost
    cases received
    rcases headerEnd with last | ⟨full, _⟩
    · exact last
    · exact lost.elim (fun short => absurd full short) id
  · rename_i whole
    simp only [not_or, not_not, Int.not_le] at whole
    obtain ⟨nByte, _, received⟩ := Option.bind_eq_some_iff.mp received
    obtain ⟨⟨body, later⟩, readBody, rfl⟩ := Option.map_eq_some_iff.mp received
    have headerOk : okFlag (header.total = tpktHeaderSize) header.last header.moved = 1 := by
      refine (okFlag_one _ _ _).mpr ⟨by simpa using whole.1, whole.2, ?_⟩
      exact headerEnd.elim (fun last => absurd whole.2 (by omega)) And.right
    rcases recvLoop_ended _ (Or.inl (Int.le_refl 0)) readBody with last | ⟨full, moved⟩
    · exact last
    · by_contra positive
      have bodyOk : okFlag (body.total = nByte) body.last body.moved = 1 :=
        (okFlag_one _ _ _).mpr ⟨by simpa using full, by simpa using positive, moved⟩
      simp [headerOk, bodyOk] at torn

/-- A receive that leaves the connection returns a positive value. -/
theorem recvFrame_connected {order : ByteOrder} {size : Nat} {rBuf : Bytes size}
    {events : List RecvEvent} {result : RecvResult size}
    (received : recvFrame order rBuf events = some result) (kept : result.disconnect = false) :
    0 < result.nRecv := by
  unfold recvFrame at received
  obtain ⟨⟨header, rest⟩, _, received⟩ := Option.bind_eq_some_iff.mp received
  simp only at received
  split at received
  · cases received
    cases kept
  · obtain ⟨nByte, _, received⟩ := Option.bind_eq_some_iff.mp received
    obtain ⟨⟨body, later⟩, _, rfl⟩ := Option.map_eq_some_iff.mp received
    simp only [decide_eq_false_iff_not, not_not] at kept
    exact ((okFlag_one _ _ _).mp kept.2).2.1

theorem tpktLength_isSome (order : ByteOrder) (header : Bytes tpktHeaderSize) :
    (tpktLength order header.toList).isSome := by
  obtain ⟨bytes, length⟩ := header
  match bytes, length with
  | [_, _, _, _], _ => rfl

/-- A receive whose stream ends or fails returns, if the buffer has room for every length
that a header can say. -/
theorem recvFrame_ends (order : ByteOrder) {size : Nat} (room : 65535 ≤ size)
    (rBuf : Bytes size) {events : List RecvEvent} (ends : Ends events) :
    ∃ result, recvFrame order rBuf events = some result := by
  obtain ⟨header, rest, read, remaining⟩ := recvLoop_ends (Nat.le_refl tpktHeaderSize) events
    ⟨Bytes.zero tpktHeaderSize, 0, 0, false⟩ (Nat.zero_le _) ends
  rw [recvFrame, read, Option.bind_some]
  simp only
  split
  · exact ⟨_, rfl⟩
  · rename_i whole
    simp only [not_or, not_not] at whole
    obtain ⟨nByte, length⟩ := Option.isSome_iff_exists.mp (tpktLength_isSome order header.buf)
    have bound := tpktLength_le length
    rw [length, Option.bind_some]
    by_cases long : tpktHeaderSize ≤ nByte
    · obtain ⟨body, later, readBody, _⟩ := recvLoop_ends (Nat.le_trans bound room) rest
        ⟨rBuf, tpktHeaderSize, 0, false⟩ long (remaining whole.1)
      exact ⟨_, by rw [readBody, Option.map_some]⟩
    · have none_wanted : ¬ (RecvLoop.mk rBuf tpktHeaderSize 0 false).total < nByte := by
        simp only
        omega
      exact ⟨_, by rw [recvLoop_full _ _ _ none_wanted, Option.map_some]⟩

/-- A receive stores nothing outside the body that the header announces. -/
theorem recvFrame_stores {order : ByteOrder} {size : Nat} (room : tpktHeaderSize ≤ size)
    {rBuf : Bytes size} {events : List RecvEvent} {result : RecvResult size}
    (received : recvFrame order rBuf events = some result) :
    ∃ bytes, storeBytes rBuf tpktHeaderSize bytes = some result.rBuf ∧
      (bytes ≠ [] → ∃ nByte,
        tpktLength order ((stream events).take tpktHeaderSize) = some nByte ∧
          tpktHeaderSize + bytes.length ≤ nByte) := by
  unfold recvFrame at received
  obtain ⟨⟨header, rest⟩, read, received⟩ := Option.bind_eq_some_iff.mp received
  simp only at received
  split at received
  · cases received
    exact ⟨[], storeBytes_nil room, fun some_ => absurd rfl some_⟩
  · rename_i whole
    simp only [not_or, not_not, Int.not_le] at whole
    obtain ⟨_, headerBytes, _⟩ := recvHeader_eq read whole.2
    obtain ⟨nByte, length, received⟩ := Option.bind_eq_some_iff.mp received
    obtain ⟨⟨body, later⟩, readBody, rfl⟩ := Option.map_eq_some_iff.mp received
    obtain ⟨bytes, stored, bounded⟩ := recvLoop_stores rest room readBody
    exact ⟨bytes, stored, fun some_ => ⟨nByte, headerBytes ▸ length, bounded some_⟩⟩

/-- What a send on an open descriptor comes to: the whole message goes out; nothing does,
and the connection is kept; or the connection is to be torn down before all has gone out. -/
theorem sendFrame_outcome (order : ByteOrder) {fd : Int} (open_ : 0 < fd) {size : Nat}
    (sndMsg : Bytes size) {nbytes : Nat} (header : tpktHeaderSize ≤ nbytes)
    (inside : nbytes ≤ size) (env : SendEnv) :
    ∃ result, sendFrame order fd sndMsg nbytes env = some result ∧
      result.wire <+: framed order (sndMsg.toList.take nbytes) ∧
      ((result.totalLen = nbytes ∧ result.disconnect = false ∧
          result.wire = framed order (sndMsg.toList.take nbytes)) ∨
        result.totalLen = -1 ∧ result.wire ≠ framed order (sndMsg.toList.take nbytes) ∧
          (result.disconnect = false → result.wire = [])) := by
  have taken : (sndMsg.toList.take nbytes).length = nbytes :=
    List.length_take_of_le (by rw [sndMsg.length_toList]; exact inside)
  have length := framed_length order (sndMsg.toList.take nbytes) (by rw [taken]; exact header)
  rw [taken] at length
  have some_ : ([] : List UInt8) ≠ framed order (sndMsg.toList.take nbytes) := by
    intro empty
    rw [← empty, List.length_nil] at length
    rw [tpktHeaderSize] at header
    omega
  obtain ⟨sBuf, stored⟩ := Option.isSome_iff_exists.mp
    ((storeBytes_isSome sndMsg 0 (tpktHeader order nbytes)).mpr
      (by rw [tpktHeader_length]; omega))
  have written : sBuf.toList.take nbytes = framed order (sndMsg.toList.take nbytes) := by
    rw [(storeBytes_eq stored).2, framed, taken, tpktHeader_length, Nat.zero_add, List.take_zero,
      List.nil_append, List.take_append, List.drop_take, tpktHeader_length,
      List.take_of_length_le (by rw [tpktHeader_length]; exact header)]
  have window : (sBuf.toList.drop 0).take nbytes = framed order (sndMsg.toList.take nbytes) := by
    rw [List.drop_zero, written]
  obtain ⟨frame, loaded, same⟩ := loadBytes_of_toList (by omega) window
  rw [sendFrame, if_neg (by rw [tpktHeaderSize] at header; omega), stored, Option.bind_some]
  cases pollLoop tcpSndRetry env.polls with
  | giveUp => exact ⟨_, rfl, List.nil_prefix, Or.inr ⟨rfl, some_, fun _ => rfl⟩⟩
  | disconnect => exact ⟨_, rfl, List.nil_prefix, Or.inr ⟨rfl, some_, nofun⟩⟩
  | send =>
      simp only [Int.toNat_natCast, loaded, Option.map_some, same]
      obtain ⟨first, moved⟩ := sendLoop_prefix (framed order (sndMsg.toList.take nbytes)) env.sends
        .start List.nil_prefix
      have begun : SendLoop.start.sent.length <
          (framed order (sndMsg.toList.take nbytes)).length := by
        rw [length]
        exact Nat.lt_of_lt_of_le (by decide) header
      split
      · rename_i whole
        have complete := ((okFlag_one _ _ _).mp whole).1
        rw [decide_eq_true_eq, Int.natCast_inj] at complete
        refine ⟨_, rfl, first, Or.inl ⟨?_, rfl, first.eq_of_length (complete.trans length.symm)⟩⟩
        simp only [complete]
      · rename_i torn
        refine ⟨_, rfl, first, Or.inr ⟨rfl, fun whole => torn ?_, nofun⟩⟩
        obtain ⟨last, flag⟩ := moved begun whole
        refine (okFlag_one _ _ _).mpr ⟨?_, last, flag⟩
        simp only at whole
        rw [whole, length, decide_eq_true_eq]

end VnfMonitoring.TcpFrame
