import VnfMonitoring.HostSock

set_option autoImplicit false

/- The accept branch of `tcp_rcvTask`: what `TcpAccept` returns is an index of `alist`, -1
or `MAX_LISTENQ`, and the caller tells only the last apart. -/
namespace VnfMonitoring.HostAccept

open VnfMonitoring.Bpapp VnfMonitoring.HostSock

def maxListenq : Nat := maxSystemNum

/-- The `int` that `TcpAccept` returns. -/
def index : AcceptResult → Int
  | .failed => -1
  | .taken i => i.val
  | .full => maxListenq

/-- `alist[i]`, absent outside the array. -/
def alistAt (t : HostTables) (i : Int) : Option AcceptList :=
  if inside : 0 ≤ i ∧ i < maxListenq then
    some (t.alist ⟨i.toNat, (Int.toNat_lt inside.1).mpr inside.2⟩)
  else none

/-- Where the task goes on behind the branch: with the connections that can be read, or
with the next round, which polls them again. -/
inductive After where
  | connections
  | nextRound
  deriving DecidableEq, Repr

/-- What follows `TcpAccept`, in its own section. -/
def acceptSecond (t : HostTables) (i : Int) : Option (HostTables × After) :=
  if i = maxListenq then some (t, .nextRound)
  else
    (alistAt t i).map fun entry =>
      if entry.acceptFd > 0 then
        ({ t with allset := insert entry.acceptFd t.allset }, .connections)
      else (t, .nextRound)

/-- `TcpAccept` is called when the listening socket of the server is open and can be read. -/
def Called (s : HostTables) (rset : Finset Int) : Prop :=
  s.mode = .server ∧ s.listenFd > 0 ∧ s.listenFd ∈ rset

instance (s : HostTables) (rset : Finset Int) : Decidable (Called s rset) :=
  inferInstanceAs (Decidable (_ ∧ _))

/-- The tables behind the section of `TcpAccept`. -/
def accepted (s : HostTables) (connection : Option (Int × UInt16)) : HostTables :=
  (tcpAccept s s.listenFd connection).2

/-- The branch; `others` is what the other threads do between its two sections. No value
when it reads outside `alist`. -/
def acceptBranch (s : HostTables) (rset : Finset Int) (connection : Option (Int × UInt16))
    (others : HostTables → HostTables) : Option (HostTables × After) :=
  if Called s rset then
    acceptSecond (others (accepted s connection)) (index (tcpAccept s s.listenFd connection).1)
  else some (s, if s.mode = .server then .connections else .nextRound)

/-- A connection has been given a slot. -/
def Established (s : HostTables) (rset : Finset Int) (connection : Option (Int × UInt16)) : Prop :=
  Called s rset ∧ ∃ i, (tcpAccept s s.listenFd connection).1 = .taken i

def SameConnections (s next : HostTables) : Prop :=
  next.alist = s.alist ∧ next.vmcSystem = s.vmcSystem ∧ next.allset = s.allset

/-- `alist` is only read inside its bounds, and without a new connection the branch changes
no connection, before and behind what other threads do, and goes on. -/
def AcceptSafe (s : HostTables) (rset : Finset Int) (connection : Option (Int × UInt16))
    (others : HostTables → HostTables) : Prop :=
  ∃ final after, acceptBranch s rset connection others = some (final, after) ∧
    (¬ Called s rset → final = s ∧ (s.mode = .server → after = .connections)) ∧
    (Called s rset → ¬ Established s rset connection →
      SameConnections s (accepted s connection) ∧ final = others (accepted s connection) ∧
        after = .nextRound)

section Result

variable {s : HostTables}

theorem index_slot (i : Slot) : index (.taken i) ≠ maxListenq ∧
    ∀ t, alistAt t (index (.taken i)) = some (t.alist i) := by
  have inside := i.isLt
  refine ⟨?_, fun t => ?_⟩
  · simp only [index, maxListenq]
    omega
  · have bounds : 0 ≤ index (.taken i) ∧ index (.taken i) < maxListenq := by
      simp only [index, maxListenq]
      omega
    rw [alistAt, dif_pos bounds]
    rfl

/-- A failed `accept` is the one result that is no index. -/
theorem acceptSecond_isSome (t : HostTables) (result : AcceptResult) :
    (acceptSecond t (index result)).isSome ↔ result ≠ .failed := by
  cases result with
  | failed =>
      simp [acceptSecond, alistAt, index, maxListenq]
  | taken i =>
      obtain ⟨inside, here⟩ := index_slot i
      simp [acceptSecond, inside, here]
  | full => simp [acceptSecond, index]

theorem tcpAccept_failed {listenFd : Int} (open_ : 0 < listenFd)
    (connection : Option (Int × UInt16)) :
    (tcpAccept s listenFd connection).1 = .failed ↔ connection = none := by
  have valid : ¬ listenFd ≤ 0 := by omega
  cases connection with
  | none => simp [tcpAccept, valid]
  | some pair =>
      unfold tcpAccept
      rw [if_neg valid]
      simp only [reduceCtorEq, iff_false]
      split <;> exact nofun

/-- With a full table the new connection is closed again. -/
theorem accepted_full {connection : Option (Int × UInt16)}
    (full : (tcpAccept s s.listenFd connection).1 = .full) :
    SameConnections s (accepted s connection) := by
  unfold accepted
  unfold tcpAccept at full ⊢
  split at full
  · cases full
  · rename_i open_
    rw [if_neg open_]
    cases connection with
    | none => cases full
    | some pair =>
        simp only at full ⊢
        split at full
        · cases full
        · exact ⟨rfl, rfl, rfl⟩

end Result

/-- The branch keeps to `alist` exactly when no `accept` that it makes fails. -/
theorem acceptBranch_safe (s : HostTables) (rset : Finset Int)
    (connection : Option (Int × UInt16)) (others : HostTables → HostTables) :
    AcceptSafe s rset connection others ↔ (Called s rset → connection ≠ none) := by
  by_cases called : Called s rset
  · have failure := tcpAccept_failed (s := s) called.2.1 connection
    have defined := acceptSecond_isSome (others (accepted s connection))
      (tcpAccept s s.listenFd connection).1
    constructor
    · rintro ⟨final, after, done, _⟩ _ lost
      rw [acceptBranch, if_pos called] at done
      exact defined.mp (by rw [done]; rfl) (failure.mpr lost)
    · intro taken
      have result := taken called
      obtain ⟨⟨final, after⟩, done⟩ := Option.isSome_iff_exists.mp
        (defined.mpr fun lost => result (failure.mp lost))
      refine ⟨final, after, by rw [acceptBranch, if_pos called, done], absurd called,
        fun _ refused => ?_⟩
      cases value : (tcpAccept s s.listenFd connection).1 with
      | failed => exact absurd (failure.mp value) result
      | taken i => exact absurd ⟨called, i, value⟩ refused
      | full =>
          have same := accepted_full value
          rw [value] at done
          cases done
          exact ⟨same, rfl, rfl⟩
  · apply iff_of_true
    · refine ⟨s, if s.mode = .server then .connections else .nextRound, ?_, fun _ => ?_, ?_⟩
      · rw [acceptBranch, if_neg called]
      · exact ⟨rfl, fun server => if_pos server⟩
      · exact fun here => absurd here called
    · exact fun here => absurd here called

/-- The listening socket can be read, and `accept` fails. -/
theorem acceptBranch_failed :
    ¬ ∀ (s : HostTables) (rset : Finset Int) (connection : Option (Int × UInt16)),
      AcceptSafe s rset connection id := by
  intro all
  obtain ⟨final, after, done, _⟩ := all { HostTables.init with listenFd := 3 } {3} none
  cases done

end VnfMonitoring.HostAccept
