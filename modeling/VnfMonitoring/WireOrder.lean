import VnfMonitoring.ReportRoundTrip

set_option autoImplicit false

/- The report on the wire and the byte orders of its two machines. The numbers that are
converted once are the same for any host; the length of the frame and the address of the
VM are converted twice, and are not. -/
namespace VnfMonitoring.WireOrder

open VnfMonitoring.Memory VnfMonitoring.Socket VnfMonitoring.TcpFrame VnfMonitoring.Bpapp
  VnfMonitoring.VmctReport VnfMonitoring.ReportRoundTrip

/-- `inet_addr`: the bytes of the dotted address are those of the result in memory. -/
def inetAddr (order : ByteOrder) (addr : Bytes 4) : UInt32 :=
  UInt32.ofNat (order.valueOf addr.toList)

/-- The configuration that a machine reads from a file with the address in it. -/
def readConfig (order : ByteOrder) (conf : VmctConfig) (addr : Bytes 4) : VmctConfig :=
  { conf with vmctIp := inetAddr order addr }

/-- The bytes that `SendProcStateReq` and `TcpSend` put on the wire. -/
def reportWire (order : ByteOrder) (conf : VmctConfig) (up : Nat → Bool) (fd : Int)
    (env : SendEnv) : Option (List UInt8) :=
  (sendProcStateReq order conf up).bind fun (_, _, sndbuf) =>
    (sendFrame order fd sndbuf 952 env).map fun sent => sent.wire

/-- A 32-bit field of the frame as the host converts it. -/
def wireWord (host : ByteOrder) (wire : List UInt8) (offset : Nat) : UInt32 :=
  host.ntohl (UInt32.ofNat (host.valueOf ((wire.drop offset).take 4)))

def wireHalf (host : ByteOrder) (wire : List UInt8) (offset : Nat) : UInt16 :=
  host.ntohs (UInt16.ofNat (host.valueOf ((wire.drop offset).take 2)))

/-- The length that `TcpRecv` of a host takes from the frame. -/
def wireLength (host : ByteOrder) (wire : List UInt8) : Option Nat :=
  tpktLength host (wire.take tpktHeaderSize)

/-- The address that a host stores for the VM, as the bytes that `inet_ntoa` prints. -/
def wireAddr (host : ByteOrder) (wire : List UInt8) : List UInt8 :=
  host.bytesOf 4 (wireWord host wire (defaultTcpComhdrLength + vmIpaddressAt)).toNat

section Wire

variable {agent host : ByteOrder}

theorem bytesOf_inetAddr (agent host : ByteOrder) (addr : Bytes 4) :
    host.bytesOf 4 (inetAddr agent addr).toNat =
      if host = agent then addr.toList else addr.toList.reverse := by
  have small : agent.valueOf addr.toList < 2 ^ 32 := by
    have bound := agent.valueOf_lt addr.toList
    rwa [addr.length_toList] at bound
  have image := agent.bytesOf_valueOf addr.toList
  rw [addr.length_toList] at image
  rw [inetAddr, UInt32.toNat_ofNat', Nat.mod_eq_of_lt small]
  cases agent <;> cases host
  · exact image
  · exact congrArg List.reverse image
  · exact (List.reverse_reverse _).symm.trans (congrArg List.reverse image)
  · exact image

theorem wireWord_field {wire before behind : List UInt8} {x : UInt32}
    (layout : wire = before ++ agent.bytesOf 4 (agent.htonl x).toNat ++ behind) {offset : Nat}
    (place : before.length = offset) : wireWord host wire offset = x := by
  have window : (wire.drop offset).take 4 = agent.bytesOf 4 (agent.htonl x).toNat := by
    rw [layout, List.append_assoc, List.drop_left' place,
      List.take_left' (ByteOrder.bytesOf_length ..)]
  rw [wireWord, window]
  exact agent.ntohl_valueOf_htonl host x

theorem wireHalf_field {wire before behind : List UInt8} {x : UInt16}
    (layout : wire = before ++ agent.bytesOf 2 (agent.htons x).toNat ++ behind) {offset : Nat}
    (place : before.length = offset) : wireHalf host wire offset = x := by
  have window : (wire.drop offset).take 2 = agent.bytesOf 2 (agent.htons x).toNat := by
    rw [layout, List.append_assoc, List.drop_left' place,
      List.take_left' (ByteOrder.bytesOf_length ..)]
  rw [wireHalf, window]
  exact agent.ntohs_valueOf_htons host x

/-- The frame of a report: its own header, the rest of the message header, and the message. -/
structure FrameOf (agent : ByteOrder) (conf : VmctConfig) (up : Nat → Bool)
    (msg : VmProcStateMsg) (wire : List UInt8) : Prop where
  report : ReportOf agent conf up msg
  layout : wire = tpktHeader agent 952 ++
    (agent.bytesOf 4 (agent.htonl reqHeader.systemId).toNat ++
      agent.bytesOf 2 (agent.htons reqHeader.msgType).toNat ++
      agent.bytesOf 2 (agent.htons reqHeader.msgSize).toNat) ++ msg.image agent

theorem reportWire_frame (agent : ByteOrder) {conf : VmctConfig} (up : Nat → Bool)
    (reportable : Reportable conf) {fd : Int} (open_ : 0 < fd) {env : SendEnv}
    (ready : ∀ poll ∈ env.polls, poll = .ready ∨ poll = .interrupted)
    (progress : Progress env.sends) :
    ∃ wire msg, reportWire agent conf up fd env = some wire ∧ FrameOf agent conf up msg wire := by
  obtain ⟨conf', msg, sndbuf, requested, report, built⟩ :=
    sendProcStateReq_report agent up reportable
  obtain ⟨sndMsg, sending⟩ : ∃ sndMsg, sendFrame agent fd sndbuf 952 env =
      some ⟨952, sndMsg, framed agent sndbuf.toList, false⟩ :=
    sendFrame_complete agent open_ sndbuf (by decide) ready progress
  refine ⟨framed agent sndbuf.toList, msg, ?_, report, ?_⟩
  · rw [reportWire, requested, Option.bind_some]
    simp only [sending, Option.map_some]
  · have header : (reqHeader.hton agent).image agent =
        agent.bytesOf 4 reqHeader.tpktHdr.toNat ++
          (agent.bytesOf 4 (agent.htonl reqHeader.systemId).toNat ++
            agent.bytesOf 2 (agent.htons reqHeader.msgType).toNat ++
            agent.bytesOf 2 (agent.htons reqHeader.msgSize).toNat) := by
      simp only [CommonTcpmsg.image, CommonTcpmsg.hton, List.append_assoc]
    have size : ((sndbuf.toList.length : Nat) : Int) = 952 := by rw [sndbuf.length_toList]; rfl
    have front : (agent.bytesOf 4 reqHeader.tpktHdr.toNat).length = tpktHeaderSize :=
      ByteOrder.bytesOf_length ..
    rw [framed, size, built, header, List.append_assoc, List.drop_left' front, ← List.append_assoc]

variable {conf : VmctConfig} {up : Nat → Bool} {msg : VmProcStateMsg} {wire : List UInt8}

theorem FrameOf.wireLength_iff (frame : FrameOf agent conf up msg wire) :
    wireLength host wire = some wire.length ↔ host = agent := by
  have length : wire.length = 952 := by
    rw [frame.layout]
    simp only [List.length_append, tpktHeader_length, ByteOrder.bytesOf_length,
      VmProcStateMsg.image_length]
    rfl
  have header : wire.take tpktHeaderSize = tpktHeader agent 952 := by
    rw [frame.layout, List.append_assoc, List.take_left' (tpktHeader_length ..)]
  rw [wireLength, header, length]
  cases host <;> cases agent <;> decide

/-- The place of the message in the frame. -/
theorem FrameOf.message (frame : FrameOf agent conf up msg wire) :
    ∃ header, header.length = defaultTcpComhdrLength ∧ wire = header ++ msg.image agent := by
  refine ⟨_, ?_, frame.layout⟩
  simp only [List.length_append, tpktHeader_length, ByteOrder.bytesOf_length]
  rfl

theorem FrameOf.wireWord_message (frame : FrameOf agent conf up msg wire)
    {before behind : List UInt8} {x : UInt32} {offset : Nat}
    (layout : msg.image agent = before ++ agent.bytesOf 4 (agent.htonl x).toNat ++ behind)
    (place : before.length = offset) :
    wireWord host wire (defaultTcpComhdrLength + offset) = x := by
  obtain ⟨header, size, whole⟩ := frame.message
  rw [layout, ← List.append_assoc, ← List.append_assoc] at whole
  exact wireWord_field whole (by rw [List.length_append, size, place])

theorem FrameOf.wireAddr_eq (frame : FrameOf agent conf up msg wire) :
    wireAddr host wire = host.bytesOf 4 conf.vmctIp.toNat := by
  obtain ⟨behind, split⟩ : ∃ behind,
      msg.image agent = [] ++ agent.bytesOf 4 msg.vmIpaddress.toNat ++ behind := by
    simp only [VmProcStateMsg.image, List.nil_append, List.append_assoc,
      List.append_cancel_left_eq, exists_eq']
  rw [frame.report.ip] at split
  have place : ([] : List UInt8).length = vmIpaddressAt := rfl
  rw [wireAddr, frame.wireWord_message split place]

/-- A host of either order recovers the header and the numbers of the message. -/
theorem FrameOf.fields (frame : FrameOf agent conf up msg wire) (host : ByteOrder) :
    (wireWord host wire 4 = reqHeader.systemId ∧ wireHalf host wire 8 = reqHeader.msgType ∧
      wireHalf host wire 10 = reqHeader.msgSize) ∧
    wireWord host wire (defaultTcpComhdrLength + vmTypeAt) = conf.vmType.toUInt32 ∧
    wireWord host wire (defaultTcpComhdrLength + pcountAt) = conf.vmctProc.pcount ∧
    ∀ k : Fin maxVmProcNum, k.val < conf.vmctProc.pcount.toNat →
      wireWord host wire (defaultTcpComhdrLength + processStateAt k) = checkedState up k := by
  have layout := frame.layout
  simp only [List.append_assoc] at layout
  have bytes (width value : Nat) : (agent.bytesOf width value).length = width :=
    agent.bytesOf_length width value
  have header : (tpktHeader agent 952).length = 4 := rfl
  refine ⟨⟨?_, ?_, ?_⟩, ?_, ?_, fun k configured => ?_⟩
  · rw [← List.append_assoc] at layout
    exact wireWord_field layout header
  · rw [← List.append_assoc, ← List.append_assoc] at layout
    exact wireHalf_field layout (by rw [List.length_append, header, bytes])
  · rw [← List.append_assoc, ← List.append_assoc, ← List.append_assoc] at layout
    apply wireHalf_field layout
    rw [List.length_append, List.length_append, header, bytes, bytes]
  · obtain ⟨behind, split⟩ : ∃ behind, msg.image agent =
        agent.bytesOf 4 msg.vmIpaddress.toNat ++ agent.bytesOf 4 msg.vmType.toNat ++ behind := by
      simp only [VmProcStateMsg.image, List.append_assoc, List.append_cancel_left_eq, exists_eq']
    rw [frame.report.type] at split
    exact frame.wireWord_message split (bytes ..)
  · obtain ⟨behind, split⟩ : ∃ behind, msg.image agent =
        agent.bytesOf 4 msg.vmIpaddress.toNat ++ agent.bytesOf 4 msg.vmType.toNat ++
          agent.bytesOf 4 msg.pcount.toNat ++ behind := by
      simp only [VmProcStateMsg.image, List.append_assoc, List.append_cancel_left_eq, exists_eq']
    rw [frame.report.count] at split
    exact frame.wireWord_message split (by rw [List.length_append, bytes, bytes]; rfl)
  · obtain ⟨before, behind, size, split, _⟩ := image_split msg agent k
    rw [ProcessState.image, (frame.report.configured k configured).2, ← List.append_assoc] at split
    apply frame.wireWord_message split
    rw [List.length_append, size, Bytes.length_toList]
    rfl

end Wire

/-- Whatever the report, machines of different byte orders put different bytes on the
wire, and a host recovers the length of a frame only from an agent of its own byte order,
and the address of a VM only from such an agent or if it reads the same backwards. -/
theorem report_orderDependent {conf : VmctConfig} (up : Nat → Bool) (addr : Bytes 4)
    (reportable : Reportable conf) {fd : Int} (open_ : 0 < fd) {env : SendEnv}
    (ready : ∀ poll ∈ env.polls, poll = .ready ∨ poll = .interrupted)
    (progress : Progress env.sends) :
    reportWire .little (readConfig .little conf addr) up fd env ≠
        reportWire .big (readConfig .big conf addr) up fd env ∧
      ∀ agent host, ∃ wire, reportWire agent (readConfig agent conf addr) up fd env = some wire ∧
        (wireLength host wire = some wire.length ↔ host = agent) ∧
        (wireAddr host wire = addr.toList ↔ host = agent ∨ addr.toList.reverse = addr.toList) := by
  have built (agent : ByteOrder) : ∃ wire msg,
      reportWire agent (readConfig agent conf addr) up fd env = some wire ∧
        FrameOf agent (readConfig agent conf addr) up msg wire := by
    have read : Reportable (readConfig agent conf addr) :=
      ⟨reportable.count, reportable.names, reportable.manage, reportable.name⟩
    exact reportWire_frame agent up read open_ ready progress
  refine ⟨fun same => ?_, fun agent host => ?_⟩
  · obtain ⟨little, _, sent, frame⟩ := built .little
    obtain ⟨big, _, also, other⟩ := built .big
    rw [sent, also, Option.some.injEq] at same
    have length : wireLength .little little = some little.length := frame.wireLength_iff.mpr rfl
    rw [same] at length
    exact absurd (other.wireLength_iff.mp length) (by decide)
  · obtain ⟨wire, _, sent, frame⟩ := built agent
    refine ⟨wire, sent, frame.wireLength_iff, ?_⟩
    rw [frame.wireAddr_eq, readConfig, bytesOf_inetAddr]
    by_cases same : host = agent
    · simp [same]
    · simp [same]

/-- The agent at 10.0.0.1 of the sample configuration. -/
def sampleWire (order : ByteOrder) : Option (List UInt8) :=
  reportWire order (readConfig order sampleConf ⟨[10, 0, 0, 1], rfl⟩) (fun _ => true) 5 ⟨[], []⟩

theorem report_orderDependent_sample : sampleWire .little ≠ sampleWire .big := by
  have reportable : Reportable sampleConf :=
    ⟨by decide, fun _ _ => (by decide : (str (dash 63)).isSome), ⟨[45], by decide, by decide⟩,
      by decide⟩
  have ready : ∀ poll ∈ (⟨[], []⟩ : SendEnv).polls, poll = .ready ∨ poll = .interrupted := by
    simp
  exact (report_orderDependent (fun _ => true) ⟨[10, 0, 0, 1], rfl⟩ reportable
    (show (0 : Int) < 5 by decide) ready (by simp [Progress])).1

/-- The length 952 of the frame, written by a machine of either order. -/
theorem sampleWire_length :
    ((sampleWire .little).map fun wire => wire.take 4) = some [4, 0, 0xB8, 3] ∧
      ((sampleWire .big).map fun wire => wire.take 4) = some [4, 0, 3, 0xB8] ∧
        sampleWire .little ≠ sampleWire .big := by
  have little : ((sampleWire .little).map fun wire => wire.take 4) = some [4, 0, 0xB8, 3] := by
    decide +kernel
  have big : ((sampleWire .big).map fun wire => wire.take 4) = some [4, 0, 3, 0xB8] := by
    decide +kernel
  refine ⟨little, big, fun same => ?_⟩
  rw [same, big] at little
  exact absurd little (by decide)

end VnfMonitoring.WireOrder
