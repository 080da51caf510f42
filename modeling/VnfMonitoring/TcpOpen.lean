import Mathlib.Data.Finset.Basic
import VnfMonitoring.TcpFrame

set_option autoImplicit false

/- `TcpOpen`, which the host and the agent have but for the options of a client, down to
the calls that it makes: what it returns and which descriptors it leaves open. -/
namespace VnfMonitoring.TcpOpen

open VnfMonitoring.TcpFrame

/-- `connect` on a socket that does not block. -/
inductive Connect where
  | connected
  | inProgress
  | refused
  deriving DecidableEq, Repr

/-- What the calls of `connect_timeout` return: whether the three `fcntl` succeed, and
the sets and the error of the socket behind the `select`. -/
structure ConnectEnv where
  getFlags : Bool
  setNonblock : Bool
  connect : Connect
  select : Int
  readable : Bool
  writable : Bool
  /-- `SO_ERROR`, if `getsockopt` succeeds. -/
  soError : Option Int
  setFlags : Bool
  deriving DecidableEq, Repr

/-- The end of `connect_timeout`. -/
def ConnectEnv.done (env : ConnectEnv) : Int := if env.setFlags then 0 else -1

/-- `connect_timeout`. -/
def connectTimeout (env : ConnectEnv) : Int :=
  if ¬ env.getFlags then -1
  else if ¬ env.setNonblock then -1
  else
    match env.connect with
    | .refused => -1
    | .connected => env.done
    | .inProgress =>
        if env.select = 0 then -1
        else if env.select = -1 then -1
        else if env.readable ∨ env.writable then
          -- the error is looked at only when both sets have the socket
          if env.readable ∧ env.writable then
            match env.soError with
            | none => -1
            | some error => if error = 0 then env.done else -1
          else env.done
        else -1

/-- What the calls of `TcpOpen` return. -/
structure OpenEnv where
  /-- `inet_pton` reads the address, or is not called. -/
  addressRead : Bool
  socket : Int
  /-- Whether the call fails that is the `k`th to set the socket up. -/
  fails : Nat → Bool
  connect : ConnectEnv

/-- What `TcpOpen` returns when a call fails that sets the socket up, call by call: the
`setsockopt` of a server, its `bind` and its `listen`. -/
def serverSetup : List Int := [-2, -3, -3, -3, -5, -6]

def hostSetup : LinkMode → List Int
  | .client => [-1, -1]
  | .server => serverSetup

def vmctSetup : LinkMode → List Int
  | .client => [-2, -3, -1, -1]
  | .server => serverSetup

/-- The value of the first of these calls that fails. -/
def failedAt (fails : Nat → Bool) : Nat → List Int → Option Int
  | _, [] => none
  | k, code :: rest => if fails k then some code else failedAt fails (k + 1) rest

section Open

variable (setup : LinkMode → List Int) (mode : LinkMode)

/-- `TcpOpen`, with the descriptors of the process. The kernel has none to give that is in
use, nor that of the standard input. The result of `setNonblocking` is not looked at. -/
def tcpOpen (fds : Finset Int) (env : OpenEnv) : Option (Int × Finset Int) :=
  if ¬ env.addressRead then some (-1, fds)
  else if env.socket < 0 then some (env.socket, fds)
  else if env.socket = 0 ∨ env.socket ∈ fds then none
  else
    match failedAt env.fails 0 (setup mode) with
    | some code => some (code, insert env.socket fds)
    | none =>
        match mode with
        | .client =>
            if connectTimeout env.connect < 0 then
              some (-1, (insert env.socket fds).erase env.socket)
            else some (env.socket, insert env.socket fds)
        | .server => some (env.socket, insert env.socket fds)

/-- What `TcpOpen` returns, which the descriptors do not change. -/
def returned (env : OpenEnv) : Int :=
  if ¬ env.addressRead then -1
  else if env.socket < 0 then env.socket
  else
    match failedAt env.fails 0 (setup mode) with
    | some code => code
    | none =>
        match mode with
        | .client => if connectTimeout env.connect < 0 then -1 else env.socket
        | .server => env.socket

/-- A call that sets the socket up fails, and `TcpOpen` returns without its `close`. -/
def Leaks (env : OpenEnv) : Prop :=
  env.addressRead = true ∧ 0 < env.socket ∧ (failedAt env.fails 0 (setup mode)).isSome = true

instance : DecidablePred (Leaks setup mode) := fun _ => inferInstanceAs (Decidable (_ ∧ _))

end Open

section Outcome

variable {setup : LinkMode → List Int} {mode : LinkMode} {fds after : Finset Int}
  {env : OpenEnv} {value : Int}

theorem failedAt_mem {fails : Nat → Bool} {k : Nat} {codes : List Int} {code : Int}
    (failed : failedAt fails k codes = some code) : code ∈ codes := by
  induction codes generalizing k with
  | nil => cases failed
  | cons first rest ih =>
      rw [failedAt] at failed
      split at failed
      · cases failed
        exact List.mem_cons_self
      · exact List.mem_cons_of_mem _ (ih failed)

theorem vmctSetup_negative (mode : LinkMode) : ∀ code ∈ vmctSetup mode, code < 0 := by
  cases mode <;> decide

theorem hostSetup_negative (mode : LinkMode) : ∀ code ∈ hostSetup mode, code < 0 := by
  cases mode <;> decide

/-- The three ways in which a call ends: with nothing opened, with the socket lost, and
with the socket that it returns. -/
theorem tcpOpen_cases (negative : ∀ code ∈ setup mode, code < 0)
    (done : tcpOpen setup mode fds env = some (value, after)) :
    value = returned setup mode env ∧
      ((value < 0 ∧ after = fds ∧ ¬ Leaks setup mode env) ∨
        (value < 0 ∧ 0 < env.socket ∧ env.socket ∉ fds ∧ after = insert env.socket fds ∧
          Leaks setup mode env) ∨
        (0 < value ∧ value ∉ fds ∧ after = insert value fds ∧ ¬ Leaks setup mode env)) := by
  unfold tcpOpen at done
  unfold returned Leaks
  by_cases address : env.addressRead = true
  · rw [if_neg (not_not.mpr address)] at done ⊢
    by_cases small : env.socket < 0
    · rw [if_pos small] at done ⊢
      cases done
      exact ⟨rfl, Or.inl ⟨small, rfl, fun leaks => by omega⟩⟩
    rw [if_neg small] at done ⊢
    by_cases taken : env.socket = 0 ∨ env.socket ∈ fds
    · rw [if_pos taken] at done
      cases done
    rw [if_neg taken] at done
    rw [not_or] at taken
    have positive : 0 < env.socket := by omega
    cases failed : failedAt env.fails 0 (setup mode) with
    | some code =>
        rw [failed] at done
        cases done
        have code_neg := negative _ (failedAt_mem failed)
        exact ⟨rfl, Or.inr (Or.inl ⟨code_neg, positive, taken.2, rfl, address, positive, rfl⟩)⟩
    | none =>
        rw [failed] at done
        have whole : ¬ (env.addressRead = true ∧ 0 < env.socket ∧
            (none : Option Int).isSome = true) := fun leaks => nomatch leaks.2.2
        cases mode with
        | client =>
            dsimp only at done ⊢
            by_cases lost : connectTimeout env.connect < 0
            · rw [if_pos lost] at done ⊢
              cases done
              rw [Finset.erase_insert taken.2]
              exact ⟨rfl, Or.inl ⟨by decide, rfl, whole⟩⟩
            · rw [if_neg lost] at done ⊢
              cases done
              exact ⟨rfl, Or.inr (Or.inr ⟨positive, taken.2, rfl, whole⟩)⟩
        | server =>
            cases done
            exact ⟨rfl, Or.inr (Or.inr ⟨positive, taken.2, rfl, whole⟩)⟩
  · rw [if_pos address] at done ⊢
    cases done
    exact ⟨rfl, Or.inl ⟨by decide, rfl, fun leaks => address leaks.1⟩⟩

end Outcome

end VnfMonitoring.TcpOpen
