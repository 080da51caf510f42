import VnfMonitoring.Lib.Memory

set_option autoImplicit false

/- `ipcSend` and `ipcRecv` on a message queue of the system, with everything that the two
`msgrcv` calls of one `ipcRecv` may meet there. -/
namespace VnfMonitoring.Mqipc

open VnfMonitoring.Memory

/-- `IPC_MAX_LENGTH`, `IPC_DATA_LENGTH` and `IPC_HEAD_LENGTH`. -/
def ipcMaxLength : Nat := 4098

def ipcDataLength : Nat := 2048

def ipcHeadLength : Nat := 16

/-- `ipc_msg_struct`; `text` is what lies behind `msgtype`, with the padding at its end. -/
structure IpcMsgStruct where
  msgtype : Int64
  text : Bytes 2048
  deriving DecidableEq

/-- `sizeof(ipc_msg_struct)`. -/
def ipcMsgStructSize : Nat := 2056

/-- Offsets in `text`, and the size of `userdata`. -/
def datalenAt : Nat := 8

def userdataAt : Nat := 12

def userdataSize : Nat := ipcDataLength - ipcHeadLength

def IpcMsgStruct.datalen (order : ByteOrder) (msgBuf : IpcMsgStruct) : Int32 :=
  (UInt32.ofNat (order.valueOf ((msgBuf.text.toList.drop datalenAt).take 4))).toInt32

def IpcMsgStruct.userdata (msgBuf : IpcMsgStruct) : List UInt8 :=
  (msgBuf.text.toList.drop userdataAt).take userdataSize

/-- A message in the queue. -/
structure Message where
  msgtype : Int64
  positive : 0 < msgtype.toInt
  body : List UInt8

/-- The error numbers that `ipcRecv` tells apart, and the one of an empty queue. -/
inductive Errno where
  | einval
  | e2big
  | eidrm
  | eagain
  | enomsg
  | other
  deriving DecidableEq, Repr

/-- `IPC_NOWAIT` and `MSG_NOERROR`. -/
structure Flags where
  nowait : Bool
  noerror : Bool

/-- What a call of `msgrcv` meets: an error of its own, or the queue as it stands when the
call is served. -/
inductive Attempt where
  | error (errno : Errno)
  | queue (messages : List Message)

inductive Rcv where
  | blocked
  | failed (errno : Errno)
  | received (message : Message) (bytes : List UInt8)

/-- `msgrcv` of a message of any type, with room for `size` bytes. A message that does not
fit stays in the queue. -/
def msgrcv (attempt : Attempt) (size : Nat) (flags : Flags) : Rcv :=
  match attempt with
  | .error errno => .failed errno
  | .queue [] => if flags.nowait then .failed .enomsg else .blocked
  | .queue (message :: _) =>
      if message.body.length ≤ size then .received message message.body
      else if flags.noerror then .received message (message.body.take size)
      else .failed .e2big

/-- The bytes over the front of an object; what goes past its end is not in it. -/
def overwrite {n : Nat} (old : Bytes n) (bytes : List UInt8) : Bytes n :=
  ⟨(bytes ++ old.toList.drop bytes.length).take n, by
    simp only [List.length_take, List.length_append, List.length_drop, Bytes.length_toList]
    omega⟩

/-- What `msgrcv` stores. -/
def IpcMsgStruct.fill (msgBuf : IpcMsgStruct) (message : Message) (bytes : List UInt8) :
    IpcMsgStruct :=
  ⟨message.msgtype, overwrite msgBuf.text bytes⟩

@[simp] theorem IpcMsgStruct.fill_msgtype (msgBuf : IpcMsgStruct) (message : Message)
    (bytes : List UInt8) : (msgBuf.fill message bytes).msgtype = message.msgtype := rfl

/-- A return from `ipcRecv`: its value, `*msgBuf`, the message stored there and the one
taken out of the queue by this call. -/
structure Report where
  ret : Int32
  msgBuf : Option IpcMsgStruct
  delivered : Option Message
  taken : Option Message

/-- The part behind a `msgrcv` that failed. -/
def recvFailed (msgBuf : IpcMsgStruct) (errno : Errno) (second : Attempt) : Option Report :=
  match errno with
  | .e2big =>
      match msgrcv second ipcMaxLength ⟨false, false⟩ with
      | .blocked => none
      | .failed _ => some ⟨-1, some msgBuf, none, none⟩
      | .received message bytes =>
          some ⟨Int32.ofNat bytes.length, some msgBuf, none, some message⟩
  | _ => some ⟨-1, some msgBuf, none, none⟩

/-- The part behind a `msgrcv` that received a message. -/
def recvMessage (order : ByteOrder) (msgBuf : IpcMsgStruct) (message : Message)
    (bytes : List UInt8) : Report :=
  let msgBuf := msgBuf.fill message bytes
  if (msgBuf.datalen order).toInt > ipcDataLength then
    ⟨-1, some msgBuf, some message, some message⟩
  else ⟨msgBuf.msgtype.toInt32, some msgBuf, some message, some message⟩

/-- `ipcRecv`; without a value it waits for ever. -/
def ipcRecv (order : ByteOrder) (msgQid : Int32) (msgBuf : Option IpcMsgStruct) (flags : Flags)
    (first second : Attempt) : Option Report :=
  if msgQid < 0 then some ⟨-1, msgBuf, none, none⟩
  else
    match msgBuf with
    | none => some ⟨-1, none, none, none⟩
    | some msgBuf =>
        match msgrcv first ipcMsgStructSize flags with
        | .blocked => none
        | .failed errno => recvFailed msgBuf errno second
        | .received message bytes => some (recvMessage order msgBuf message bytes)

/-- The message that `ipcSend` hands to `msgsnd`, absent when it refuses to; no value when
`memcpy` leaves one of its two objects. -/
def ipcSend (order : ByteOrder) (msgQid : Int32) (mtype : UInt32) (srcQid msgsize : Int32)
    (sndBuf : List UInt8) : Option (Option Message) :=
  if sendable : ¬ (mtype.toNat < 1 ∨ msgQid < 0) then
    if 0 ≤ msgsize.toInt ∧ msgsize.toInt ≤ sndBuf.length then
      let header := order.bytesOf 4 srcQid.toUInt32.toNat ++ order.bytesOf 4 msgQid.toUInt32.toNat ++
        order.bytesOf 4 msgsize.toUInt32.toNat
      (storeBytes (.zero 2048) 0 header).bind fun text =>
      (storeBytes text userdataAt (sndBuf.take msgsize.toInt.toNat)).map fun text =>
        some
          { msgtype := Int64.ofNat mtype.toNat
            positive := by
              have small := mtype.toNat_lt
              rw [Int64.toInt_ofNat_of_lt (by omega)]
              omega
            body := text.toList.take (msgsize.toInt.toNat + ipcHeadLength) }
    else none
  else some none

section Overwrite

variable {n : Nat} {old : Bytes n} {bytes : List UInt8}

theorem overwrite_toList (fits : bytes.length ≤ n) :
    (overwrite old bytes).toList = bytes ++ old.toList.drop bytes.length := by
  apply List.take_of_length_le
  simp only [List.length_append, List.length_drop, Bytes.length_toList]
  omega

/-- A part of the object that lies inside the bytes written. -/
theorem overwrite_inside {offset width : Nat} (inside : offset + width ≤ bytes.length)
    (fits : bytes.length ≤ n) :
    ((overwrite old bytes).toList.drop offset).take width = (bytes.drop offset).take width := by
  rw [overwrite_toList fits, List.drop_append_of_le_length (by omega),
    List.take_append_of_le_length (by rw [List.length_drop]; omega)]

end Overwrite

/-- `msgBuf` holds the whole message. -/
def IpcMsgStruct.Holds (msgBuf : IpcMsgStruct) (message : Message) : Prop :=
  msgBuf.msgtype = message.msgtype ∧ msgBuf.text.toList.take message.body.length = message.body

/-- What a value other than -1 says. -/
def Reported (order : ByteOrder) (report : Report) : Prop :=
  report.ret ≠ -1 →
    ∃ message msgBuf, report.delivered = some message ∧ report.msgBuf = some msgBuf ∧
      msgBuf.Holds message ∧ report.ret.toInt = message.msgtype.toInt ∧
      0 ≤ (msgBuf.datalen order).toInt ∧ (msgBuf.datalen order).toInt ≤ userdataSize

/-- What the call that takes a message of `ipcSend` gives. -/
def Handed (order : ByteOrder) (report : Report) : Prop :=
  ∀ msgQid mtype srcQid msgsize sndBuf message,
    ipcSend order msgQid mtype srcQid msgsize sndBuf = some (some message) →
    0 ≤ msgsize.toInt → msgsize.toInt ≤ userdataSize → mtype.toNat < 2 ^ 31 →
    report.taken = some message →
      ∃ msgBuf, report.msgBuf = some msgBuf ∧ report.ret.toInt = mtype.toNat ∧
        msgBuf.datalen order = msgsize ∧
        msgBuf.userdata.take msgsize.toInt.toNat = sndBuf.take msgsize.toInt.toNat

/-- `INT_MAX`. -/
def intMax : Int := 0x7FFFFFFF

/-- A message that `ipcRecv` refuses, or reports as it is. -/
def Deliverable (order : ByteOrder) (msgBuf : IpcMsgStruct) (message : Message)
    (bytes : List UInt8) : Prop :=
  let datalen := ((msgBuf.fill message bytes).datalen order).toInt
  datalen > ipcDataLength ∨ message.msgtype.toInt32 = -1 ∨
    message.body.length ≤ 2048 ∧ message.msgtype.toInt ≤ intMax ∧ 0 ≤ datalen ∧
      datalen ≤ userdataSize

/-- No message is taken by the second `msgrcv`, and one taken by the first is deliverable. -/
def Sound (order : ByteOrder) (msgBuf : IpcMsgStruct) (flags : Flags)
    (first second : Attempt) : Prop :=
  match msgrcv first ipcMsgStructSize flags with
  | .blocked => True
  | .failed errno =>
      errno = .e2big → ∀ message bytes,
        msgrcv second ipcMaxLength ⟨false, false⟩ ≠ .received message bytes
  | .received message bytes => Deliverable order msgBuf message bytes

section Receive

variable {order : ByteOrder} {msgBuf : IpcMsgStruct} {flags : Flags}

/-- A message that is received has its first bytes stored, all of them if they fit. -/
theorem received_bytes {attempt : Attempt} {size : Nat} {message : Message}
    {bytes : List UInt8} (received : msgrcv attempt size flags = .received message bytes) :
    bytes.length ≤ size ∧ (message.body.length ≤ size → bytes = message.body) := by
  unfold msgrcv at received
  split at received
  · cases received
  · split at received <;> cases received
  · split at received
    · rename_i fits
      cases received
      exact ⟨fits, fun _ => rfl⟩
    · rename_i large
      split at received
      · cases received
        exact ⟨List.length_take_le _ _, fun fits => absurd fits large⟩
      · cases received

theorem holds_length {message : Message} (holds : msgBuf.Holds message) :
    message.body.length ≤ 2048 := by
  have size := congrArg List.length holds.2
  rw [List.length_take, Bytes.length_toList] at size
  omega

theorem fill_holds {message : Message} (fits : message.body.length ≤ 2048) :
    (msgBuf.fill message message.body).Holds message :=
  ⟨rfl, by rw [IpcMsgStruct.fill, overwrite_toList fits, List.take_left]⟩

theorem toInt32_eq_iff (message : Message) :
    message.msgtype.toInt32.toInt = message.msgtype.toInt ↔ message.msgtype.toInt ≤ intMax := by
  have positive := message.positive
  rw [Int64.toInt_toInt32, intMax]
  constructor
  · intro same
    rw [← same]
    exact Int.le_of_lt_add_one (Int.bmod_lt (by decide))
  · intro small
    exact Int.bmod_eq_of_le_mul_two (by omega) (by omega)

theorem reported_iff {message : Message} {bytes : List UInt8}
    (stored : message.body.length ≤ 2048 → bytes = message.body) :
    Reported order (recvMessage order msgBuf message bytes) ↔
      Deliverable order msgBuf message bytes := by
  unfold recvMessage Reported Deliverable
  simp only [IpcMsgStruct.fill_msgtype]
  by_cases refused : ((msgBuf.fill message bytes).datalen order).toInt > ipcDataLength
  · simp [refused]
  · by_cases minus : message.msgtype.toInt32 = -1
    · simp [refused, minus]
    · simp only [refused, if_false, ne_eq, minus, not_false_eq_true, true_imp_iff, false_or]
      constructor
      · rintro ⟨_, _, same, same', holds, type, low, high⟩
        cases same
        cases same'
        exact ⟨holds_length holds, (toInt32_eq_iff message).mp type, low, high⟩
      · rintro ⟨fits, type, low, high⟩
        refine ⟨message, _, rfl, rfl, ?_, (toInt32_eq_iff message).mpr type, low, high⟩
        rw [stored fits]
        exact fill_holds fits

end Receive

section Send

variable {order : ByteOrder} {msgQid srcQid msgsize : Int32} {mtype : UInt32}
  {sndBuf : List UInt8} {message : Message}

theorem take_drop_take {bytes : List UInt8} {offset width size : Nat}
    (inside : offset + width ≤ size) :
    ((bytes.take size).drop offset).take width = (bytes.drop offset).take width := by
  rw [List.drop_take, List.take_take, Nat.min_eq_left (by omega)]

theorem take_drop_field {before field behind : List UInt8} {offset width : Nat}
    (place : before.length = offset) (size : field.length = width) :
    ((before ++ (field ++ behind)).drop offset).take width = field := by
  rw [← place, List.drop_left, ← size, List.take_left]

/-- What a message of `ipcSend` is made of. -/
structure Sent (order : ByteOrder) (mtype : UInt32) (msgsize : Int32) (sndBuf : List UInt8)
    (message : Message) : Prop where
  msgtype : message.msgtype = Int64.ofNat mtype.toNat
  length : message.body.length = msgsize.toInt.toNat + ipcHeadLength
  datalen : (message.body.drop datalenAt).take 4 = order.bytesOf 4 msgsize.toUInt32.toNat
  userdata : (message.body.drop userdataAt).take msgsize.toInt.toNat =
    sndBuf.take msgsize.toInt.toNat

theorem ipcSend_spec (sent : ipcSend order msgQid mtype srcQid msgsize sndBuf = some (some message))
    (fits : msgsize.toInt ≤ userdataSize) : Sent order mtype msgsize sndBuf message := by
  unfold ipcSend at sent
  split at sent
  · split at sent
    · rename_i readable
      obtain ⟨text, header, sent⟩ := Option.bind_eq_some_iff.mp sent
      obtain ⟨text', data, sent⟩ := Option.map_eq_some_iff.mp sent
      cases sent
      simp only [userdataSize, ipcDataLength, ipcHeadLength] at fits
      have width : (sndBuf.take msgsize.toInt.toNat).length = msgsize.toInt.toNat := by
        rw [List.length_take]
        omega
      have whole := storeBytes_append header (sndBuf.take msgsize.toInt.toNat)
      simp only [List.length_append, ByteOrder.bytesOf_length] at whole
      obtain ⟨-, layout⟩ := storeBytes_eq (whole.symm.trans data)
      simp only [List.take_zero, List.nil_append, List.length_append, ByteOrder.bytesOf_length,
        Nat.zero_add, width, List.append_assoc] at layout
      refine ⟨rfl, ?_, ?_, ?_⟩
      · simp only [List.length_take, Bytes.length_toList, ipcHeadLength]
        omega
      · refine (take_drop_take (by simp only [datalenAt, ipcHeadLength]; omega)).trans ?_
        rw [layout, ← List.append_assoc]
        exact take_drop_field (by simp [datalenAt]) (order.bytesOf_length _ _)
      · refine (take_drop_take (by simp only [userdataAt, ipcHeadLength]; omega)).trans ?_
        rw [layout, ← List.append_assoc, ← List.append_assoc]
        exact take_drop_field (by simp [userdataAt]) width
    · cases sent
  · cases sent

/-- A message that was sent is received as it is. -/
theorem handed_received (msgBuf : IpcMsgStruct) (bytes : List UInt8)
    (stored : message.body.length ≤ 2048 → bytes = message.body) :
    Handed order (recvMessage order msgBuf message bytes) := by
  intro msgQid mtype srcQid msgsize sndBuf sent done nonneg fits type taken
  have same : sent = message := by
    unfold recvMessage at taken
    dsimp only at taken
    split at taken <;> exact (Option.some.inj taken).symm
  subst same
  obtain ⟨msgtype, length, datalen, userdata⟩ := ipcSend_spec done fits
  simp only [userdataSize, ipcDataLength, ipcHeadLength] at fits length
  obtain rfl := stored (by omega)
  have read : (msgBuf.fill sent sent.body).datalen order = msgsize := by
    rw [IpcMsgStruct.datalen, IpcMsgStruct.fill,
      overwrite_inside (by simp only [datalenAt]; omega) (by omega), datalen,
      order.valueOf_bytesOf 4 _ msgsize.toUInt32.toNat_lt, UInt32.ofNat_toNat,
      Int32.toInt32_toUInt32]
  have kept : ¬ ((msgBuf.fill sent sent.body).datalen order).toInt > ipcDataLength := by
    rw [read, ipcDataLength]
    omega
  refine ⟨msgBuf.fill sent sent.body, ?_, ?_, read, ?_⟩
  · simp only [recvMessage, kept, if_false]
  · simp only [recvMessage, kept, if_false, IpcMsgStruct.fill_msgtype]
    rw [(toInt32_eq_iff sent).mpr, msgtype, Int64.toInt_ofNat_of_lt (by omega)]
    rw [msgtype, Int64.toInt_ofNat_of_lt (by omega), intMax]
    omega
  · rw [IpcMsgStruct.userdata, List.take_take,
      Nat.min_eq_left (by simp only [userdataSize, ipcDataLength, ipcHeadLength]; omega),
      IpcMsgStruct.fill, overwrite_inside (by simp only [userdataAt]; omega) (by omega), userdata]

end Send

theorem failed_fine (order : ByteOrder) (msgBuf : Option IpcMsgStruct) :
    Reported order ⟨-1, msgBuf, none, none⟩ ∧ Handed order ⟨-1, msgBuf, none, none⟩ :=
  ⟨fun other => absurd rfl other, fun _ _ _ _ _ _ _ _ _ _ taken => nomatch taken⟩

/-- A message that the second `msgrcv` takes is lost, and its length returned. -/
theorem dropped_not_reported {order : ByteOrder} {msgBuf : IpcMsgStruct} {second : Attempt}
    {flags : Flags} {message : Message} {bytes : List UInt8}
    (received : msgrcv second ipcMaxLength flags = .received message bytes) :
    ¬ Reported order ⟨Int32.ofNat bytes.length, some msgBuf, none, some message⟩ := by
  have short := (received_bytes received).1
  simp only [ipcMaxLength] at short
  have value : (Int32.ofNat bytes.length).toInt = bytes.length :=
    Int32.toInt_ofNat_of_lt (by omega)
  intro reported
  obtain ⟨_, _, delivered, _⟩ := reported fun same => by
    have minus : (Int32.ofNat bytes.length).toInt = -1 := by
      rw [show Int32.ofNat bytes.length = -1 from same]
      rfl
    omega
  cases delivered

theorem recvFailed_iff (order : ByteOrder) (msgBuf : IpcMsgStruct) (errno : Errno)
    (second : Attempt) :
    (∀ report, recvFailed msgBuf errno second = some report →
        Reported order report ∧ Handed order report) ↔
      (errno = .e2big → ∀ message bytes,
        msgrcv second ipcMaxLength ⟨false, false⟩ ≠ .received message bytes) := by
  by_cases large : errno = .e2big
  · subst large
    simp only [recvFailed, true_imp_iff]
    cases met : msgrcv second ipcMaxLength ⟨false, false⟩ with
    | blocked => simp
    | failed errno => simpa using failed_fine order (some msgBuf)
    | received message bytes =>
        refine iff_of_false (fun fine => ?_) (fun none_ => none_ message bytes rfl)
        exact dropped_not_reported met (fine _ rfl).1
  · have other : recvFailed msgBuf errno second = some ⟨-1, some msgBuf, none, none⟩ := by
      cases errno <;> first | rfl | exact absurd rfl large
    simpa [other, large] using failed_fine order (some msgBuf)

/-- `ipcRecv` reports only what it delivered, and a message of `ipcSend` as it was sent,
exactly if its second `msgrcv` takes no message and one that the first takes is
deliverable. -/
theorem ipcRecv_reports_iff (order : ByteOrder) (msgQid : Int32) (msgBuf : Option IpcMsgStruct)
    (flags : Flags) (first second : Attempt) :
    (∀ report, ipcRecv order msgQid msgBuf flags first second = some report →
        Reported order report ∧ Handed order report) ↔
      msgQid < 0 ∨ ∀ buf, msgBuf = some buf → Sound order buf flags first second := by
  unfold ipcRecv
  by_cases closed : msgQid < 0
  · simpa [closed] using failed_fine order msgBuf
  · cases msgBuf with
    | none => simpa [closed] using failed_fine order none
    | some buf =>
        simp only [closed, if_false, false_or, Option.some.injEq, forall_eq']
        unfold Sound
        cases met : msgrcv first ipcMsgStructSize flags with
        | blocked => simp
        | failed errno => exact recvFailed_iff order buf errno second
        | received message bytes =>
            have stored (fits : message.body.length ≤ 2048) : bytes = message.body :=
              (received_bytes met).2 (by simp only [ipcMsgStructSize]; omega)
            have reports : (∀ report, some (recvMessage order buf message bytes) = some report →
                Reported order report ∧ Handed order report) ↔
                Reported order (recvMessage order buf message bytes) := by
              simp only [Option.some.injEq, forall_eq', and_iff_left_iff_imp]
              exact fun _ => handed_received buf bytes stored
            exact reports.trans (reported_iff stored)

/-- A message of `ipcSend` at the head of the queue is received as it was sent. -/
theorem ipcRecv_ipcSend {order : ByteOrder} {msgQid qid srcQid msgsize : Int32} {mtype : UInt32}
    {sndBuf : List UInt8} {message : Message} (rest : List Message) (msgBuf : IpcMsgStruct)
    (flags : Flags) (second : Attempt)
    (sent : ipcSend order msgQid mtype srcQid msgsize sndBuf = some (some message))
    (nonneg : 0 ≤ msgsize.toInt) (fits : msgsize.toInt ≤ userdataSize)
    (type : mtype.toNat < 2 ^ 31) (opened : ¬ qid < 0) :
    ∃ report, ipcRecv order qid (some msgBuf) flags (.queue (message :: rest)) second = some report ∧
      ∃ buf, report.msgBuf = some buf ∧ report.ret.toInt = mtype.toNat ∧
        buf.datalen order = msgsize ∧
        buf.userdata.take msgsize.toInt.toNat = sndBuf.take msgsize.toInt.toNat := by
  have length := (ipcSend_spec sent fits).length
  simp only [userdataSize, ipcDataLength, ipcHeadLength] at fits length
  have received : msgrcv (.queue (message :: rest)) ipcMsgStructSize flags =
      .received message message.body :=
    if_pos (by simp only [ipcMsgStructSize]; omega)
  refine ⟨recvMessage order msgBuf message message.body, ?_,
    handed_received msgBuf message.body (fun _ => rfl) _ _ _ _ _ _ sent nonneg fits type ?_⟩
  · simp only [ipcRecv, if_neg opened, received]
  · unfold recvMessage
    dsimp only
    split <;> rfl

/-- A message of type 1 that no `ipc_msg_struct` has room for. -/
def largeMessage : Message := ⟨1, by decide, List.replicate 3000 0⟩

def emptyStruct : IpcMsgStruct := ⟨0, .zero 2048⟩

/-- The message is dropped and its length returned as a type. -/
theorem large_message_reported :
    ∃ report, ipcRecv .little 0 (some emptyStruct) ⟨false, false⟩ (.queue [largeMessage])
        (.queue [largeMessage]) = some report ∧ report.ret = 3000 ∧
      ¬ Reported .little report := by
  have length : largeMessage.body.length = 3000 := List.length_replicate
  generalize largeMessage = message at length
  have first : msgrcv (.queue [message]) ipcMsgStructSize ⟨false, false⟩ = .failed .e2big := by
    simp only [msgrcv, length, ipcMsgStructSize]
    rfl
  have second : msgrcv (.queue [message]) ipcMaxLength ⟨false, false⟩ =
      .received message message.body :=
    if_pos (by rw [length]; decide)
  refine ⟨⟨Int32.ofNat message.body.length, some emptyStruct, none, some message⟩, ?_, ?_,
    dropped_not_reported second⟩
  · have opened : ¬ (0 : Int32) < 0 := by decide
    simp only [ipcRecv, if_neg opened, first, recvFailed, second]
  · rw [length]
    rfl

end VnfMonitoring.Mqipc
