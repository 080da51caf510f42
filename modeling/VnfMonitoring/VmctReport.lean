import VnfMonitoring.Bpapp

set_option autoImplicit false

/- The report of the agent: `SendProcStateReq` up to the bytes it hands to `TcpSend`. -/
namespace VnfMonitoring.VmctReport

open VnfMonitoring.Memory VnfMonitoring.Bpapp

/-- `vmct_proc_t`. -/
structure VmctProc where
  pcount : UInt32
  pstate : Fin maxVmProcNum → ProcessState

/-- The fields of `vmct_config_t` that the report uses. -/
structure VmctConfig where
  vmType : UInt16
  vmctId : UInt32
  vmctIp : UInt32
  manageHostip : Bytes maxNameLength
  vmctName : Bytes maxNameLength
  vmctProc : VmctProc

def digit (d : Nat) : UInt8 := UInt8.ofNat (if d < 10 then 48 + d else 87 + d)

/-- A number in a base, without leading zeros and with at most `width` digits. -/
def digits (base : Nat) : Nat → Nat → List UInt8
  | 0, _ => []
  | width + 1, value =>
      if value < base then [digit value]
      else digits base width (value / base) ++ [digit (value % base)]

/-- `addr2ntoa`: the bytes of the address in memory order, in dotted decimal. -/
def addr2ntoa (order : ByteOrder) (addr : UInt32) : List UInt8 :=
  List.intercalate [46] ((order.bytesOf 4 addr.toNat).map fun byte => digits 10 3 byte.toNat)

/-- One round of the loop over the configured processes, `up` being the outcome of
`proccheckbyname`. There is no value when the index leaves the arrays or a name does
not fit. -/
def reportProcess (order : ByteOrder) (up : Nat → Bool) (i : Nat)
    (s : VmctProc × VmProcStateMsg) : Option (VmctProc × VmProcStateMsg) :=
  if inside : i < maxVmProcNum then
    let (proc, msg) := s
    let k : Fin maxVmProcNum := ⟨i, inside⟩
    let processState := if up i then processStateUp else processStateDown
    let entry := { proc.pstate k with processState }
    (strcpy (msg.pstate k).processName entry.processName.toList).map fun processName =>
      ({ proc with pstate := Function.update proc.pstate k entry },
        { msg with
          pstate := Function.update msg.pstate k
            ⟨processName, order.htonl entry.processState⟩ })
  else none

/-- The loop: `remaining` rounds from index `i` on. -/
def reportProcesses (order : ByteOrder) (up : Nat → Bool) :
    Nat → Nat → VmctProc × VmProcStateMsg → Option (VmctProc × VmProcStateMsg)
  | 0, _, s => some s
  | remaining + 1, i, s =>
      (reportProcess order up i s).bind (reportProcesses order up remaining (i + 1))

/-- The message before the loop: cleared, with "-" for every process name. -/
def blankMsg (order : ByteOrder) (conf : VmctConfig) : VmProcStateMsg where
  vmIpaddress := order.htonl conf.vmctIp
  vmType := order.htonl conf.vmType.toUInt32
  pcount := order.htonl conf.vmctProc.pcount
  vmId := .zero _
  vmName := .zero _
  manageIp := .zero _
  pstate := fun _ => ⟨dash 63, 0⟩

/-- The text "vUTM_". -/
def vUtm : List UInt8 := [118, 85, 84, 77, 95]

/-- The identifiers of the message, which differ between a host and a virtual machine. -/
def setIdentifiers (order : ByteOrder) (conf : VmctConfig) (msg : VmProcStateMsg) :
    Option VmProcStateMsg :=
  (strcpy msg.manageIp conf.manageHostip.toList).bind fun manageIp =>
    if conf.vmType = vmTypeHost then
      (cstr conf.vmctName.toList).bind fun vmctName =>
        (strcpy msg.vmId (vmctName ++ 45 :: digits 16 8 conf.vmctId.toNat ++ [0])).bind
          fun vmId =>
            (strcpy msg.vmName (vUtm ++ addr2ntoa order conf.vmctIp ++ [0])).map fun vmName =>
              { msg with manageIp, vmId, vmName }
    else
      (strcpy msg.vmId [45, 0]).bind fun vmId =>
        (strcpy msg.vmName [45, 0]).map fun vmName => { msg with manageIp, vmId, vmName }

def reqHeader : CommonTcpmsg where
  tpktHdr := 0x00
  systemId := 0x01
  msgType := vmProcStateReq
  msgSize := UInt16.ofNat vmProcStateMsgSize

/-- `SendProcStateReq` up to its `TcpSend`: the updated configuration, the message, and
the buffer with the header before it. -/
def sendProcStateReq (order : ByteOrder) (conf : VmctConfig) (up : Nat → Bool) :
    Option (VmctConfig × VmProcStateMsg × Bytes 952) :=
  (reportProcesses order up conf.vmctProc.pcount.toNat 0
    (conf.vmctProc, blankMsg order conf)).bind fun (vmctProc, msg) =>
  (setIdentifiers order { conf with vmctProc } msg).map fun msg =>
    ({ conf with vmctProc }, msg,
      ⟨(reqHeader.hton order).image order ++ msg.image order, by
        rw [List.length_append, CommonTcpmsg.image_length, VmProcStateMsg.image_length]
        rfl⟩)

/-- The state the loop gives process `i`. -/
def checkedState (up : Nat → Bool) (i : Nat) : UInt32 :=
  if up i then processStateUp else processStateDown

/-- What the loop has done to a configuration and a message once the processes in a
range have been visited. -/
structure Reported (order : ByteOrder) (up : Nat → Bool) (first last : Nat)
    (before after : VmctProc × VmProcStateMsg) : Prop where
  frame : after.2 = { before.2 with pstate := after.2.pstate }
  count : after.1.pcount = before.1.pcount
  names : ∀ k, (after.1.pstate k).processName = (before.1.pstate k).processName
  visited : ∀ k : Fin maxVmProcNum, first ≤ k.val → k.val < last →
    (after.1.pstate k).processState = checkedState up k ∧
      str (after.2.pstate k).processName = str (before.1.pstate k).processName ∧
      (after.2.pstate k).processState = order.htonl (checkedState up k)
  others : ∀ k : Fin maxVmProcNum, k.val < first ∨ last ≤ k.val →
    after.1.pstate k = before.1.pstate k ∧ after.2.pstate k = before.2.pstate k

theorem reportProcess_reported (order : ByteOrder) (up : Nat → Bool) {i : Nat}
    (inside : i < maxVmProcNum) (s : VmctProc × VmProcStateMsg)
    (terminated : (str (s.1.pstate ⟨i, inside⟩).processName).isSome) :
    ∃ next, reportProcess order up i s = some next ∧ Reported order up i (i + 1) s next := by
  obtain ⟨proc, msg⟩ := s
  obtain ⟨copied, done, same⟩ :=
    strcpy_total (msg.pstate ⟨i, inside⟩).processName terminated (Nat.le_refl _)
  refine ⟨_, by rw [reportProcess, dif_pos inside]; simp only [done, Option.map_some]; rfl, ?_⟩
  exact
    { frame := rfl
      count := rfl
      names := by
        intro k
        by_cases here : k = ⟨i, inside⟩
        · subst here
          simp
        · simp [here]
      visited := by
        intro k low high
        have here : k = ⟨i, inside⟩ := Fin.ext (by simp only; omega)
        subst here
        simp [checkedState, same]
      others := by
        intro k apart
        have here : k ≠ ⟨i, inside⟩ := fun same => by
          have index : k.val = i := congrArg Fin.val same
          omega
        simp [here] }

theorem Reported.trans {order : ByteOrder} {up : Nat → Bool} {first middle last : Nat}
    {before between after : VmctProc × VmProcStateMsg} (low : first ≤ middle)
    (high : middle ≤ last) (one : Reported order up first middle before between)
    (two : Reported order up middle last between after) :
    Reported order up first last before after where
  frame := by rw [two.frame, one.frame]
  count := two.count.trans one.count
  names := fun k => (two.names k).trans (one.names k)
  visited := by
    intro k from_ to_
    by_cases here : k.val < middle
    · obtain ⟨proc, msg⟩ := two.others k (Or.inl here)
      rw [proc, msg]
      exact one.visited k from_ here
    · obtain ⟨state, name, value⟩ := two.visited k (by omega) to_
      exact ⟨state, name.trans (congrArg str (one.names k)), value⟩
  others := by
    intro k apart
    obtain ⟨proc, msg⟩ := one.others k (by omega)
    obtain ⟨procAfter, msgAfter⟩ := two.others k (by omega)
    exact ⟨procAfter.trans proc, msgAfter.trans msg⟩

/-- The loop over a range of processes whose names are terminated. -/
theorem reportProcesses_reported (order : ByteOrder) (up : Nat → Bool) (remaining : Nat) :
    ∀ (i : Nat) (s : VmctProc × VmProcStateMsg), i + remaining ≤ maxVmProcNum →
      (∀ k : Fin maxVmProcNum, k.val < i + remaining →
        (str (s.1.pstate k).processName).isSome) →
      ∃ final, reportProcesses order up remaining i s = some final ∧
        Reported order up i (i + remaining) s final := by
  induction remaining with
  | zero =>
      intro i s _ _
      exact ⟨s, rfl, rfl, rfl, fun _ => rfl, fun k low high => by omega, fun _ _ => ⟨rfl, rfl⟩⟩
  | succ remaining ih =>
      intro i s bound terminated
      obtain ⟨next, done, one⟩ := reportProcess_reported order up (by omega) s
        (terminated ⟨i, by omega⟩ (by simp only; omega))
      obtain ⟨final, rest, two⟩ := ih (i + 1) next (by omega) fun k high => by
        rw [one.names k]
        exact terminated k (by omega)
      refine ⟨final, ?_, ?_⟩
      · rw [reportProcesses, done, Option.bind_some, rest]
      · rw [Nat.add_comm remaining 1, ← Nat.add_assoc]
        exact one.trans (by omega) (by omega) two

theorem digit_ne_zero {d : Nat} (small : d < 16) : digit d ≠ 0 := by
  unfold digit
  intro zero
  have value : (UInt8.ofNat (if d < 10 then 48 + d else 87 + d)).toNat = 0 := by
    rw [zero]
    rfl
  rw [UInt8.toNat_ofNat'] at value
  split at value <;> omega

theorem digits_length (base width value : Nat) : (digits base width value).length ≤ width := by
  induction width generalizing value with
  | zero => simp [digits]
  | succ width ih =>
      unfold digits
      split
      · simp
      · have := ih (value / base)
        rw [List.length_append, List.length_singleton]
        omega

theorem zero_notMem_digits (base : Nat) (positive : 0 < base) (small : base ≤ 16)
    (width value : Nat) : (0 : UInt8) ∉ digits base width value := by
  induction width generalizing value with
  | zero => simp [digits]
  | succ width ih =>
      unfold digits
      split
      · rename_i low
        simpa using (digit_ne_zero (d := value) (by omega)).symm
      · have last := digit_ne_zero (d := value % base)
          (by have := Nat.mod_lt value positive; omega)
        simpa using ⟨ih (value / base), last.symm⟩

theorem addr2ntoa_text (order : ByteOrder) (addr : UInt32) :
    (0 : UInt8) ∉ addr2ntoa order addr ∧ (addr2ntoa order addr).length ≤ 15 := by
  have decimal (value : Nat) : (0 : UInt8) ∉ digits 10 3 value :=
    zero_notMem_digits 10 (by decide) (by decide) 3 value
  have short (value : Nat) : (digits 10 3 value).length ≤ 3 := digits_length 10 3 value
  obtain ⟨a, b, c, d, bytes⟩ := List.length_eq_four.mp (order.bytesOf_length 4 addr.toNat)
  rw [addr2ntoa, bytes]
  constructor
  · simp [List.intercalate, decimal]
  · have := short a.toNat
    have := short b.toNat
    have := short c.toNat
    have := short d.toNat
    simp [List.intercalate]
    omega

/-- The identifiers fit their fields and end inside them. -/
theorem setIdentifiers_total (order : ByteOrder) (conf : VmctConfig) (msg : VmProcStateMsg)
    (manage : ∃ chars, str conf.manageHostip = some chars ∧ chars.length ≤ 15)
    (name : (str conf.vmctName).isSome) :
    ∃ final, setIdentifiers order conf msg = some final ∧
      final = { msg with vmId := final.vmId, vmName := final.vmName, manageIp := final.manageIp } ∧
      (str final.vmId).isSome ∧ (str final.vmName).isSome ∧ (str final.manageIp).isSome := by
  obtain ⟨chars, read, short⟩ := manage
  obtain ⟨manageIp, copied, _⟩ := strcpy_of_cstr msg.manageIp read
    (by simp only [maxNameLength]; omega)
  have manageStr : (str manageIp).isSome := by
    rw [str, cstr_strcpy copied, ← str, read]
    rfl
  unfold setIdentifiers
  rw [copied, Option.bind_some]
  split
  · obtain ⟨vmctName, readName⟩ := Option.isSome_iff_exists.mp name
    have text := (cstr_eq_some readName).1
    have length := cstr_length_lt readName
    have hex := zero_notMem_digits 16 (by decide) (by decide) 8 conf.vmctId.toNat
    have hexLength := digits_length 16 8 conf.vmctId.toNat
    obtain ⟨addrText, addrLength⟩ := addr2ntoa_text order conf.vmctIp
    obtain ⟨vmId, idCopied, idStr⟩ := strcpy_str msg.vmId
      (vmctName ++ 45 :: digits 16 8 conf.vmctId.toNat) [] (by simp [text, hex]) (by
        simp only [Bytes.length_toList, maxNameLength] at length
        simp only [List.length_append, List.length_cons, maxNameLength]
        omega)
    obtain ⟨vmName, nameCopied, nameStr⟩ := strcpy_str msg.vmName
      (vUtm ++ addr2ntoa order conf.vmctIp) [] (by simp [vUtm, addrText]) (by
        simp only [vUtm, List.length_append, List.length_cons, List.length_nil, maxNameLength]
        omega)
    rw [str] at readName
    rw [readName, Option.bind_some, idCopied, Option.bind_some, nameCopied, Option.map_some]
    exact ⟨_, rfl, rfl, by rw [idStr]; rfl, by rw [nameStr]; rfl, manageStr⟩
  · obtain ⟨vmId, idCopied, idStr⟩ := strcpy_str msg.vmId [45] []
      (by decide) (by decide)
    obtain ⟨vmName, nameCopied, nameStr⟩ := strcpy_str msg.vmName [45] []
      (by decide) (by decide)
    rw [List.singleton_append] at idCopied nameCopied
    rw [idCopied, Option.bind_some, nameCopied, Option.map_some]
    exact ⟨_, rfl, rfl, by rw [idStr]; rfl, by rw [nameStr]; rfl, manageStr⟩

/-- The configurations a report can be built from: as many processes as the arrays hold,
and strings that fit the fields they are copied to. -/
structure Reportable (conf : VmctConfig) : Prop where
  count : conf.vmctProc.pcount.toNat ≤ maxVmProcNum
  names : ∀ k : Fin maxVmProcNum, k.val < conf.vmctProc.pcount.toNat →
    (str (conf.vmctProc.pstate k).processName).isSome
  manage : ∃ chars, str conf.manageHostip = some chars ∧ chars.length ≤ 15
  name : (str conf.vmctName).isSome

/-- The content of a report: addresses and counts in network order, the checked state of
each configured process, "-" for the others, and terminated identifiers. -/
structure ReportOf (order : ByteOrder) (conf : VmctConfig) (up : Nat → Bool)
    (msg : VmProcStateMsg) : Prop where
  ip : msg.vmIpaddress = order.htonl conf.vmctIp
  type : msg.vmType = order.htonl conf.vmType.toUInt32
  count : msg.pcount = order.htonl conf.vmctProc.pcount
  configured : ∀ k : Fin maxVmProcNum, k.val < conf.vmctProc.pcount.toNat →
    str (msg.pstate k).processName = str (conf.vmctProc.pstate k).processName ∧
      (msg.pstate k).processState = order.htonl (checkedState up k)
  others : ∀ k : Fin maxVmProcNum, conf.vmctProc.pcount.toNat ≤ k.val →
    msg.pstate k = ⟨dash 63, 0⟩
  vmId : (str msg.vmId).isSome
  vmName : (str msg.vmName).isSome
  manageIp : (str msg.manageIp).isSome

theorem sendProcStateReq_report (order : ByteOrder) {conf : VmctConfig} (up : Nat → Bool)
    (reportable : Reportable conf) :
    ∃ conf' msg sndbuf, sendProcStateReq order conf up = some (conf', msg, sndbuf) ∧
      ReportOf order conf up msg ∧
      sndbuf.toList = (reqHeader.hton order).image order ++ msg.image order := by
  obtain ⟨⟨vmctProc, msg⟩, looped, reported⟩ := reportProcesses_reported order up
    conf.vmctProc.pcount.toNat 0 (conf.vmctProc, blankMsg order conf)
    (by have := reportable.count; omega)
    fun k high => reportable.names k (by omega)
  obtain ⟨final, identified, frame, vmId, vmName, manageIp⟩ :=
    setIdentifiers_total order { conf with vmctProc } msg reportable.manage reportable.name
  have blank := reported.frame
  simp only at blank
  refine ⟨_, _, _, by rw [sendProcStateReq, looped, Option.bind_some]; simp only [identified,
    Option.map_some]; rfl, ?_, rfl⟩
  exact
    { ip := by rw [frame, blank]; rfl
      type := by rw [frame, blank]; rfl
      count := by rw [frame, blank]; rfl
      configured := by
        intro k high
        obtain ⟨_, name, state⟩ := reported.visited k (Nat.zero_le _) (by omega)
        rw [frame]
        exact ⟨name, state⟩
      others := by
        intro k low
        rw [frame]
        exact (reported.others k (Or.inr (by omega))).2
      vmId
      vmName
      manageIp }

end VnfMonitoring.VmctReport
