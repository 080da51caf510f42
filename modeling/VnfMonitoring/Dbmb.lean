import Mathlib.Data.Finset.Basic
import VnfMonitoring.Lib.Runs

set_option autoImplicit false

/- The database block: the calls that run a query on one of four global handles or on
a handle of their caller, and open a lost connection again. `mysql_init` succeeds. -/
namespace VnfMonitoring.Dbmb

open VnfMonitoring.Runs

/-- A `MYSQL *`: NULL, or one of the handles that `mysql_init` has returned. -/
abbrev Mysql := Option Nat

inductive Global where
  | handler1
  | handler2
  | dbManager
  | orchehandler
  deriving DecidableEq, Repr

/-- An error number, as `mysql_errno` returns it after a query that failed. -/
abbrev Errno := { errno : Int // errno ≠ 0 }

def crUnknownError : Int := 2000

def crServerGoneError : Int := 2006

def crServerLost : Int := 2013

def crCommandsOutOfSync : Int := 2014

/-- A `mysql_real_query` or `mysql_errno`: its handle, and whether that was open. -/
structure Use where
  handle : Mysql
  isOpen : Bool
  deriving DecidableEq, Repr

/-- A call that has returned: what its attempts to connect came to, and its result. -/
structure Call where
  connects : List Bool
  ret : Int
  deriving DecidableEq, Repr

/-- The handles of the process. `held` are the variables of the callers of `ExecQuery`;
the last fields record what was done with handles and what the calls returned. -/
structure Db where
  handler : Global → Mysql
  held : Nat → Mysql
  created : Nat
  live : Finset Nat
  connects : List Bool
  uses : List Use
  calls : List Call

def Db.init : Db where
  handler := fun _ => none
  held := fun _ => none
  created := 0
  live := ∅
  connects := []
  uses := []
  calls := []

/-- What the server does during one call: whether each attempt to connect succeeds, before
the query and after it, and what the query comes to. -/
structure ExecEnv where
  first : Bool
  second : Bool
  again : Bool
  query : Option Errno
  deriving DecidableEq, Repr

def mysqlInit (s : Db) : Mysql → Mysql × Db
  | some h => (some h, s)
  | none => (some s.created, { s with created := s.created + 1, live := insert s.created s.live })

def mysqlClose (s : Db) : Mysql → Db
  | some h => { s with live := s.live.erase h }
  | none => s

/-- `CloseDatabase1` and its copies for the other globals. -/
def closeGlobal (g : Global) (s : Db) : Db :=
  match s.handler g with
  | some h => { mysqlClose s (some h) with handler := Function.update s.handler g none }
  | none => s

/-- `OpenDatabase1` and its copies. -/
def openGlobal (g : Global) (connected : Bool) (s : Db) : Int × Db :=
  let (h, s) := mysqlInit s (s.handler g)
  let s :=
    { s with handler := Function.update s.handler g h, connects := s.connects ++ [connected] }
  if connected then (0, s) else (-1, closeGlobal g s)

/-- `CloseDBHandler`: the NULL it assigns is that of its own parameter. -/
def closeDBHandler (h : Mysql) (s : Db) : Db := mysqlClose s h

def openDBHandler (connected : Bool) (s : Db) : Mysql × Db :=
  let (h, s) := mysqlInit s none
  let s := { s with connects := s.connects ++ [connected] }
  if connected then (h, s) else (none, closeDBHandler h s)

def Db.isOpen (s : Db) : Mysql → Bool
  | some h => decide (h ∈ s.live)
  | none => false

def Db.use (s : Db) (h : Mysql) : Db := { s with uses := s.uses ++ [⟨h, s.isOpen h⟩] }

/-- `mysql_real_query`, and `mysql_errno` when it fails. -/
def queryOn (s : Db) (h : Mysql) (query : Option Errno) : Int × Db :=
  let s := s.use h
  match query with
  | none => (0, s)
  | some errno => (errno, s.use h)

/-- The errors after which the connection is opened again. -/
def reconnects (retval : Int) : Bool :=
  retval = crServerGoneError ∨ retval = crServerLost ∨ retval = crUnknownError ∨
    retval = crCommandsOutOfSync

/-- The calls on a global handle from the query on. -/
def execOpened (g : Global) (s : Db) (env : ExecEnv) : Int × Db :=
  let (retval, s) := queryOn s (s.handler g) env.query
  if reconnects retval then (retval, (openGlobal g env.again (closeGlobal g s)).2) else (retval, s)

/-- A call that tries twice to open a missing handle, and goes on in any case. -/
def execRetrying (g : Global) (s : Db) (env : ExecEnv) : Int × Db :=
  let s :=
    if s.handler g = none then
      let (ret, s) := openGlobal g env.first s
      if ret < 0 then (openGlobal g env.second s).2 else s
    else s
  execOpened g s env

/-- A call that gives up when a missing handle cannot be opened. -/
def execGivingUp (g : Global) (s : Db) (env : ExecEnv) : Int × Db :=
  if s.handler g = none then
    let (ret, s) := openGlobal g env.first s
    if ret < 0 then (-1, s) else execOpened g s env
  else execOpened g s env

def execQuery1 (s : Db) (env : ExecEnv) : Int × Db := execRetrying .handler1 s env

def execQuery2 (s : Db) (env : ExecEnv) : Int × Db := execRetrying .handler2 s env

def execDBM (s : Db) (env : ExecEnv) : Int × Db := execGivingUp .dbManager s env

def execOrcheDB (s : Db) (env : ExecEnv) : Int × Db := execGivingUp .orchehandler s env

/-- `ExecQuery` from the query on: the handle it opens again is in its parameter only. -/
def execQueryOn (h : Mysql) (s : Db) (env : ExecEnv) : Int × Db :=
  let (retval, s) := queryOn s h env.query
  if reconnects retval then (retval, (openDBHandler env.again (closeDBHandler h s)).2)
  else (retval, s)

def execQuery (h : Mysql) (s : Db) (env : ExecEnv) : Int × Db :=
  match h with
  | some h => execQueryOn (some h) s env
  | none =>
      match openDBHandler env.first s with
      | (some h, s) => execQueryOn (some h) s env
      | (none, s) => (-1, s)

inductive DbEvent where
  | execQuery1 (env : ExecEnv)
  | execQuery2 (env : ExecEnv)
  | execDBM (env : ExecEnv)
  | execOrcheDB (env : ExecEnv)
  /-- `ExecQuery` with the handle in a variable of its caller. -/
  | execQuery (k : Nat) (env : ExecEnv)
  /-- A caller of `ExecQuery` opens its handle. -/
  | openDBHandler (k : Nat) (connected : Bool)

/-- What a call starts from: it has not tried to connect yet. -/
def Db.begin (s : Db) : Db := { s with connects := [] }

/-- Make a call and record what it did. -/
def record (s : Db) (exec : Db → Int × Db) : Db :=
  let (ret, s) := exec s.begin
  { s with calls := s.calls ++ [⟨s.connects, ret⟩] }

def step (s : Db) : DbEvent → Option Db
  | .execQuery1 env => some (record s fun s => execQuery1 s env)
  | .execQuery2 env => some (record s fun s => execQuery2 s env)
  | .execDBM env => some (record s fun s => execDBM s env)
  | .execOrcheDB env => some (record s fun s => execOrcheDB s env)
  | .execQuery k env => some (record s fun s => execQuery (s.held k) s env)
  | .openDBHandler k connected =>
      let (h, s) := openDBHandler connected s
      some { s with held := Function.update s.held k h }

/-- Queries ran on open handles only, and a call whose every attempt to connect failed
returned an error. -/
structure Good (s : Db) : Prop where
  uses : ∀ use ∈ s.uses, use.isOpen = true
  calls : ∀ call ∈ s.calls, call.connects ≠ [] → (∀ c ∈ call.connects, c = false) → call.ret ≠ 0

/-- The global handles are open, distinct, and not those of a caller. -/
structure Handles (s : Db) : Prop where
  globals : ∀ g h, s.handler g = some h → h ∈ s.live
  distinct : ∀ g other h, s.handler g = some h → s.handler other = some h → g = other
  apart : ∀ g k h, s.handler g = some h → s.held k ≠ some h
  created : ∀ h ∈ s.live, h < s.created
  held : ∀ k h, s.held k = some h → h < s.created

/-- What opening and closing a handle leaves alone. -/
structure Silent (s next : Db) : Prop where
  held : next.held = s.held
  uses : next.uses = s.uses
  calls : next.calls = s.calls

theorem Silent.trans {s middle next : Db} (one : Silent s middle) (two : Silent middle next) :
    Silent s next :=
  ⟨two.held.trans one.held, two.uses.trans one.uses, two.calls.trans one.calls⟩

section Handles

variable {s : Db} {g : Global}

theorem closeGlobal_spec (handles : Handles s) (g : Global) :
    Handles (closeGlobal g s) ∧ (closeGlobal g s).handler g = none ∧
      Silent s (closeGlobal g s) ∧ (closeGlobal g s).connects = s.connects := by
  unfold closeGlobal
  cases owned : s.handler g with
  | none => exact ⟨handles, owned, ⟨rfl, rfl, rfl⟩, rfl⟩
  | some closed =>
      have old {other : Global} {h : Nat}
          (kept : Function.update s.handler g none other = some h) :
          other ≠ g ∧ s.handler other = some h := by
        by_cases here : other = g
        · rw [here, Function.update_self] at kept
          cases kept
        · rw [Function.update_of_ne here] at kept
          exact ⟨here, kept⟩
      refine ⟨⟨fun other h kept => ?_, fun other another h kept also => ?_,
        fun other k h kept => handles.apart other k h (old kept).2, fun h member => ?_,
        handles.held⟩, Function.update_self .., ⟨rfl, rfl, rfl⟩, rfl⟩
      · obtain ⟨apart, stored⟩ := old kept
        refine Finset.mem_erase.mpr ⟨?_, handles.globals other h stored⟩
        rintro rfl
        exact apart (handles.distinct other g h stored owned)
      · exact handles.distinct other another h (old kept).2 (old also).2
      · exact handles.created h (Finset.mem_of_mem_erase member)

/-- A handle just returned by `mysql_init` is open and no one else's. -/
theorem mysqlInit_handles (handles : Handles s) :
    Handles { s with created := s.created + 1, live := insert s.created s.live } where
  globals := fun g h owned => Finset.mem_insert_of_mem (handles.globals g h owned)
  distinct := handles.distinct
  apart := handles.apart
  created := by
    intro h member
    rcases Finset.mem_insert.mp member with rfl | old
    · exact Nat.lt_succ_self _
    · exact Nat.lt_succ_of_lt (handles.created h old)
  held := fun k h owned => Nat.lt_succ_of_lt (handles.held k h owned)

theorem openGlobal_spec (handles : Handles s) (missing : s.handler g = none) (connected : Bool) :
    ∃ next, openGlobal g connected s = (if connected then 0 else -1, next) ∧ Handles next ∧
      (next.handler g).isSome = connected ∧ Silent s next ∧
      next.connects = s.connects ++ [connected] := by
  have opened : Handles
      { s with
        handler := Function.update s.handler g (some s.created)
        created := s.created + 1
        live := insert s.created s.live
        connects := s.connects ++ [connected] } := by
    have fresh := mysqlInit_handles handles
    have below {other : Global} {h : Nat} (kept : s.handler other = some h) : h < s.created :=
      handles.created h (handles.globals other h kept)
    refine ⟨fun other h kept => ?_, fun other another h kept also => ?_, fun other k h kept => ?_,
      fresh.created, fresh.held⟩
    all_goals simp only at kept
    · by_cases here : other = g
      · rw [here, Function.update_self] at kept
        cases kept
        exact Finset.mem_insert_self _ _
      · rw [Function.update_of_ne here] at kept
        exact fresh.globals other h kept
    · simp only at also
      by_cases here : other = g <;> by_cases there : another = g
      · rw [here, there]
      · rw [here, Function.update_self] at kept
        rw [Function.update_of_ne there] at also
        cases kept
        exact absurd (below also) (Nat.lt_irrefl _)
      · rw [there, Function.update_self] at also
        rw [Function.update_of_ne here] at kept
        cases also
        exact absurd (below kept) (Nat.lt_irrefl _)
      · rw [Function.update_of_ne here] at kept
        rw [Function.update_of_ne there] at also
        exact handles.distinct other another h kept also
    · by_cases here : other = g
      · rw [here, Function.update_self] at kept
        cases kept
        exact fun owned => absurd (handles.held k _ owned) (Nat.lt_irrefl _)
      · rw [Function.update_of_ne here] at kept
        exact handles.apart other k h kept
  unfold openGlobal
  rw [missing]
  cases connected with
  | true => exact ⟨_, rfl, opened, by simp, ⟨rfl, rfl, rfl⟩, rfl⟩
  | false =>
      obtain ⟨closed, none_, silent, same⟩ := closeGlobal_spec opened g
      exact ⟨_, rfl, closed, by rw [none_]; rfl, ⟨silent.held, silent.uses, silent.calls⟩, same⟩

theorem openDBHandler_spec (handles : Handles s) (connected : Bool) :
    ∃ h next, openDBHandler connected s = (h, next) ∧ Handles next ∧ Silent s next ∧
      next.handler = s.handler ∧ next.connects = s.connects ++ [connected] ∧
      h.isSome = connected ∧
      ∀ x ∈ h, x ∈ next.live ∧ (∀ g, next.handler g ≠ some x) ∧ ∀ k, next.held k ≠ some x := by
  have fresh := mysqlInit_handles handles
  unfold openDBHandler
  cases connected with
  | true =>
      refine ⟨_, _, rfl, ⟨fresh.globals, fresh.distinct, fresh.apart, fresh.created, fresh.held⟩,
        ⟨rfl, rfl, rfl⟩, rfl, rfl, rfl, ?_⟩
      rintro _ ⟨⟩
      refine ⟨Finset.mem_insert_self _ _, fun g owned => ?_, fun k owned => ?_⟩
      · exact absurd (handles.created _ (handles.globals g _ owned)) (Nat.lt_irrefl _)
      · exact absurd (handles.held k _ owned) (Nat.lt_irrefl _)
  | false =>
      refine ⟨_, _, rfl, ⟨fun g h owned => ?_, handles.distinct, handles.apart, fun h member => ?_,
        fresh.held⟩, ⟨rfl, rfl, rfl⟩, rfl, rfl, rfl, nofun⟩
      · have old := handles.globals g h owned
        refine Finset.mem_erase.mpr ⟨?_, Finset.mem_insert_of_mem old⟩
        rintro rfl
        exact absurd (handles.created _ old) (Nat.lt_irrefl _)
      · exact fresh.created h (Finset.mem_of_mem_erase member)

end Handles

section Calls

variable {s : Db}

/-- A call that used open handles only, with its result. -/
structure Performed (s : Db) (done : Int × Db) : Prop where
  handles : Handles done.2
  held : done.2.held = s.held
  calls : done.2.calls = s.calls
  uses : ∀ use ∈ done.2.uses, use ∈ s.uses ∨ use.isOpen = true
  failed : done.2.connects ≠ [] → (∀ c ∈ done.2.connects, c = false) → done.1 ≠ 0

theorem Silent.performed {next : Db} (silent : Silent s next) {done : Int × Db}
    (performed : Performed next done) : Performed s done where
  handles := performed.handles
  held := performed.held.trans silent.held
  calls := performed.calls.trans silent.calls
  uses := silent.uses ▸ performed.uses
  failed := performed.failed

theorem Handles.use (handles : Handles s) (h : Mysql) : Handles (s.use h) :=
  ⟨handles.globals, handles.distinct, handles.apart, handles.created, handles.held⟩

/-- On an open handle, a query and the question for its error are proper uses. -/
theorem queryOn_performed (handles : Handles s) {h : Mysql} (opened : s.isOpen h = true)
    (query : Option Errno) (connected : s.connects = [] ∨ true ∈ s.connects) :
    Performed s (queryOn s h query) ∧ (queryOn s h query).2.live = s.live ∧
      (queryOn s h query).2.handler = s.handler ∧
      (queryOn s h query).2.connects = s.connects := by
  have answered : s.connects ≠ [] → ¬ ∀ c ∈ s.connects, c = false := fun nonempty all =>
    connected.elim nonempty fun succeeded => nomatch all true succeeded
  have proper : ∀ use ∈ (s.use h).uses, use ∈ s.uses ∨ use.isOpen = true := by
    intro use member
    rcases List.mem_append.mp member with old | new
    · exact Or.inl old
    · exact Or.inr (by rw [List.mem_singleton.mp new]; exact opened)
  cases query with
  | none =>
      exact ⟨⟨handles.use h, rfl, rfl, proper, fun nonempty all => absurd all (answered nonempty)⟩,
        rfl, rfl, rfl⟩
  | some errno =>
      refine ⟨⟨(handles.use h).use h, rfl, rfl, fun use member => ?_, fun _ _ => errno.2⟩,
        rfl, rfl, rfl⟩
      rcases List.mem_append.mp member with old | new
      · exact proper use old
      · exact Or.inr (by rw [List.mem_singleton.mp new]; exact opened)

theorem ne_zero_of_reconnects {retval : Int} (lost : reconnects retval = true) : retval ≠ 0 := by
  rintro rfl
  exact absurd lost (by decide)

/-- With its global open, a call uses that handle, and no other. -/
theorem execOpened_performed (handles : Handles s) {g : Global}
    (opened : (s.handler g).isSome = true) (env : ExecEnv)
    (connected : s.connects = [] ∨ true ∈ s.connects) : Performed s (execOpened g s env) := by
  obtain ⟨h, owned⟩ := Option.isSome_iff_exists.mp opened
  have live : s.isOpen (s.handler g) = true := by
    rw [owned]
    exact decide_eq_true (handles.globals g h owned)
  obtain ⟨performed, _⟩ := queryOn_performed handles live env.query connected
  unfold execOpened
  generalize queryOn s (s.handler g) env.query = asked at performed
  obtain ⟨retval, after⟩ := asked
  simp only
  split
  · rename_i lost
    obtain ⟨closed, missing, silent, _⟩ := closeGlobal_spec performed.handles g
    obtain ⟨next, reopened, kept, _, also, _⟩ := openGlobal_spec closed missing env.again
    rw [reopened]
    have unchanged := silent.trans also
    exact ⟨kept, unchanged.held.trans performed.held, unchanged.calls.trans performed.calls,
      unchanged.uses ▸ performed.uses, fun _ _ => ne_zero_of_reconnects lost⟩
  · exact performed

theorem execQueryOn_performed (handles : Handles s) {h : Nat} (opened : h ∈ s.live)
    (apart : ∀ g, s.handler g ≠ some h) (env : ExecEnv)
    (connected : s.connects = [] ∨ true ∈ s.connects) :
    Performed s (execQueryOn (some h) s env) := by
  obtain ⟨performed, live, handler, _⟩ :=
    queryOn_performed handles (h := some h) (decide_eq_true opened) env.query connected
  unfold execQueryOn
  generalize queryOn s (some h) env.query = asked at performed live handler
  obtain ⟨retval, after⟩ := asked
  simp only at live handler ⊢
  split
  · rename_i lost
    have closed : Handles (closeDBHandler (some h) after) := by
      refine ⟨fun g x owned => Finset.mem_erase.mpr ⟨?_, performed.handles.globals g x owned⟩,
        performed.handles.distinct, performed.handles.apart, fun x member => ?_,
        performed.handles.held⟩
      · rintro rfl
        exact apart g (handler ▸ owned)
      · exact performed.handles.created x (Finset.mem_of_mem_erase member)
    obtain ⟨_, next, reopened, kept, silent, _⟩ := openDBHandler_spec closed env.again
    rw [reopened]
    exact ⟨kept, silent.held.trans performed.held, silent.calls.trans performed.calls,
      silent.uses ▸ performed.uses, fun _ _ => ne_zero_of_reconnects lost⟩
  · exact performed

theorem execRetrying_performed (handles : Handles s) {g : Global} {env : ExecEnv}
    (opens : s.handler g = none → env.first = true ∨ env.second = true)
    (begun : s.connects = []) : Performed s (execRetrying g s env) := by
  unfold execRetrying
  by_cases missing : s.handler g = none
  · obtain ⟨next, opened, kept, owned, silent, connects⟩ :=
      openGlobal_spec handles missing env.first
    rw [if_pos missing, opened]
    cases first : env.first with
    | true =>
        rw [first] at owned connects
        exact silent.performed (execOpened_performed kept owned env (Or.inr (by simp [connects])))
    | false =>
        rw [first] at owned
        have second : env.second = true := by simpa [first] using opens missing
        obtain ⟨final, again, keptAgain, ownedAgain, silentAgain, connectsAgain⟩ :=
          openGlobal_spec kept (by simpa using owned) env.second
        simp only [Bool.false_eq_true, ↓reduceIte, Int.reduceNeg, Int.neg_lt_zero_iff,
          Int.one_pos, again]
        rw [second] at ownedAgain connectsAgain
        exact (silent.trans silentAgain).performed
          (execOpened_performed keptAgain ownedAgain env (Or.inr (by simp [connectsAgain])))
  · rw [if_neg missing]
    exact execOpened_performed handles (Option.isSome_iff_ne_none.mpr missing) env (Or.inl begun)

theorem execGivingUp_performed (handles : Handles s) (g : Global) (env : ExecEnv)
    (begun : s.connects = []) : Performed s (execGivingUp g s env) := by
  unfold execGivingUp
  by_cases missing : s.handler g = none
  · obtain ⟨next, opened, kept, owned, silent, connects⟩ :=
      openGlobal_spec handles missing env.first
    rw [if_pos missing, opened]
    cases first : env.first with
    | true =>
        rw [first] at owned connects
        exact silent.performed (execOpened_performed kept owned env (Or.inr (by simp [connects])))
    | false =>
        exact ⟨kept, silent.held, silent.calls, fun use member => Or.inl (silent.uses ▸ member),
          fun _ _ => (by decide : (-1 : Int) ≠ 0)⟩
  · rw [if_neg missing]
    exact execOpened_performed handles (Option.isSome_iff_ne_none.mpr missing) env (Or.inl begun)

theorem execQuery_performed (handles : Handles s) {h : Mysql}
    (opened : ∀ x ∈ h, x ∈ s.live ∧ ∀ g, s.handler g ≠ some x) (env : ExecEnv)
    (begun : s.connects = []) : Performed s (execQuery h s env) := by
  cases h with
  | some h =>
      obtain ⟨live, apart⟩ := opened h rfl
      exact execQueryOn_performed handles live apart env (Or.inl begun)
  | none =>
      obtain ⟨h, next, done, kept, silent, _, connects, owned, fresh⟩ :=
        openDBHandler_spec handles env.first
      rw [execQuery, done]
      cases h with
      | none =>
          exact ⟨kept, silent.held, silent.calls, fun use member => Or.inl (silent.uses ▸ member),
            fun _ _ => (by decide : (-1 : Int) ≠ 0)⟩
      | some h =>
          obtain ⟨live, apart, _⟩ := fresh h rfl
          refine silent.performed (execQueryOn_performed kept live apart env (Or.inr ?_))
          rw [connects, ← owned]
          simp

theorem Handles.begin (handles : Handles s) : Handles s.begin :=
  ⟨handles.globals, handles.distinct, handles.apart, handles.created, handles.held⟩

theorem init_good : Good Db.init :=
  ⟨fun _ member => absurd member List.not_mem_nil, fun _ member => absurd member List.not_mem_nil⟩

theorem init_handles : Handles Db.init where
  globals := fun _ _ owned => absurd owned.symm (Option.some_ne_none _)
  distinct := fun _ _ _ owned => absurd owned.symm (Option.some_ne_none _)
  apart := fun _ _ _ owned => absurd owned.symm (Option.some_ne_none _)
  created := fun _ member => absurd member (Finset.notMem_empty _)
  held := fun _ _ owned => absurd owned.symm (Option.some_ne_none _)

theorem record_good {exec : Db → Int × Db} (good : Good s)
    (performed : Performed s.begin (exec s.begin)) :
    Good (record s exec) ∧ Handles (record s exec) := by
  have handles := performed.handles
  refine ⟨⟨fun use member => ?_, fun call member => ?_⟩,
    ⟨handles.globals, handles.distinct, handles.apart, handles.created, handles.held⟩⟩
  · exact (performed.uses use member).elim (good.uses use) id
  · rcases List.mem_append.mp member with old | new
    · exact good.calls call (performed.calls ▸ old)
    · rw [List.mem_singleton.mp new]
      exact performed.failed

end Calls

section Broken

variable {s : Db}

theorem closeGlobal_uses (g : Global) (s : Db) : (closeGlobal g s).uses = s.uses := by
  unfold closeGlobal
  split <;> rfl

theorem openGlobal_uses (g : Global) (connected : Bool) (s : Db) :
    (openGlobal g connected s).2.uses = s.uses := by
  have created (h : Mysql) : (mysqlInit s h).2.uses = s.uses := by cases h <;> rfl
  unfold openGlobal
  cases connected with
  | true => exact created (s.handler g)
  | false => exact (closeGlobal_uses g _).trans (created (s.handler g))

theorem closeDBHandler_uses (h : Mysql) (s : Db) : (closeDBHandler h s).uses = s.uses := by
  cases h <;> rfl

theorem openDBHandler_uses (connected : Bool) (s : Db) :
    (openDBHandler connected s).2.uses = s.uses := by
  cases connected <;> rfl

theorem queryOn_uses (s : Db) (h : Mysql) (query : Option Errno) :
    ⟨h, s.isOpen h⟩ ∈ (queryOn s h query).2.uses := by
  cases query <;> simp [queryOn, Db.use]

/-- A query on a global that is NULL stays on record. -/
theorem execOpened_null {g : Global} (missing : s.handler g = none) (env : ExecEnv) :
    ⟨none, false⟩ ∈ (execOpened g s env).2.uses := by
  have used := queryOn_uses s (s.handler g) env.query
  rw [missing] at used
  unfold execOpened
  rw [missing]
  generalize queryOn s none env.query = asked at used
  obtain ⟨retval, after⟩ := asked
  simp only
  split
  · rwa [openGlobal_uses, closeGlobal_uses]
  · exact used

theorem execRetrying_null (handles : Handles s) {g : Global} {env : ExecEnv}
    (refused : ¬ (s.handler g = none → env.first = true ∨ env.second = true)) :
    ⟨none, false⟩ ∈ (execRetrying g s env).2.uses := by
  obtain ⟨missing, neither⟩ := Classical.not_imp.mp refused
  simp only [not_or, Bool.not_eq_true] at neither
  obtain ⟨first, second⟩ := neither
  obtain ⟨next, opened, kept, unowned, _⟩ := openGlobal_spec handles missing env.first
  rw [first] at opened unowned
  obtain ⟨final, again, _, stillUnowned, _⟩ :=
    openGlobal_spec kept (by simpa using unowned) env.second
  rw [second] at again stillUnowned
  unfold execRetrying
  rw [if_pos missing, first, opened]
  simp only [Bool.false_eq_true, ↓reduceIte, Int.reduceNeg, Int.neg_lt_zero_iff, Int.one_pos,
    second, again]
  exact execOpened_null (by simpa using stillUnowned) env

/-- So does a query on a handle that an earlier call has closed. -/
theorem execQueryOn_closed {h : Nat} (closed : h ∉ s.live) (env : ExecEnv) :
    ⟨some h, false⟩ ∈ (execQueryOn (some h) s env).2.uses := by
  have used := queryOn_uses s (some h) env.query
  rw [Db.isOpen, decide_eq_false closed] at used
  unfold execQueryOn
  generalize queryOn s (some h) env.query = asked at used
  obtain ⟨retval, after⟩ := asked
  simp only
  split
  · rwa [openDBHandler_uses, closeDBHandler_uses]
  · exact used

theorem record_broken {exec : Db → Int × Db} {h : Mysql}
    (used : ⟨h, false⟩ ∈ (exec s.begin).2.uses) : ¬ Good (record s exec) :=
  fun good => absurd (good.uses _ used) Bool.false_ne_true

end Broken

/-- The handle of a call can be used: a call that tries twice opens it when it is missing,
and the handle of a caller has not been closed. -/
def HandleOk (s : Db) : DbEvent → Prop
  | .execQuery1 env => s.handler .handler1 = none → env.first = true ∨ env.second = true
  | .execQuery2 env => s.handler .handler2 = none → env.first = true ∨ env.second = true
  | .execDBM _ => True
  | .execOrcheDB _ => True
  | .execQuery k _ => ∀ h ∈ s.held k, h ∈ s.live
  | .openDBHandler _ _ => True

section Step

variable {s next : Db} {event : DbEvent}

theorem step_kept (good : Good s) (handles : Handles s) (ok : HandleOk s event)
    (stepped : step s event = some next) : Good next ∧ Handles next := by
  cases event with
  | execQuery1 env =>
      cases stepped
      exact record_good good (execRetrying_performed handles.begin ok rfl)
  | execQuery2 env =>
      cases stepped
      exact record_good good (execRetrying_performed handles.begin ok rfl)
  | execDBM env =>
      cases stepped
      exact record_good good (execGivingUp_performed handles.begin .dbManager env rfl)
  | execOrcheDB env =>
      cases stepped
      exact record_good good (execGivingUp_performed handles.begin .orchehandler env rfl)
  | execQuery k env =>
      cases stepped
      refine record_good good (execQuery_performed handles.begin (fun h held => ?_) env rfl)
      exact ⟨ok h held, fun g owned => handles.apart g k h owned held⟩
  | openDBHandler k connected =>
      obtain ⟨h, opened, done, kept, silent, _, _, _, fresh⟩ := openDBHandler_spec handles connected
      simp only [step, done, Option.some.injEq] at stepped
      subst stepped
      have new {other : Nat} {x : Nat} (held : Function.update opened.held k h other = some x) :
          (∀ g, opened.handler g ≠ some x) ∧ x < opened.created := by
        by_cases here : other = k
        · rw [here, Function.update_self] at held
          obtain ⟨live, apart, _⟩ := fresh x held
          exact ⟨apart, kept.created x live⟩
        · rw [Function.update_of_ne here] at held
          exact ⟨fun g owned => kept.apart g other x owned held, kept.held other x held⟩
      refine ⟨⟨fun use member => good.uses use (silent.uses ▸ member), fun call member =>
        good.calls call (silent.calls ▸ member)⟩, ⟨kept.globals, kept.distinct,
        fun g other x owned held => (new held).1 g owned, kept.created,
        fun other x held => (new held).2⟩⟩

theorem step_broken (handles : Handles s) (refused : ¬ HandleOk s event)
    (stepped : step s event = some next) : ¬ Good next := by
  cases event with
  | execQuery1 env =>
      cases stepped
      exact record_broken (execRetrying_null handles.begin refused)
  | execQuery2 env =>
      cases stepped
      exact record_broken (execRetrying_null handles.begin refused)
  | execDBM env => exact absurd trivial refused
  | execOrcheDB env => exact absurd trivial refused
  | execQuery k env =>
      cases stepped
      obtain ⟨h, refused⟩ := not_forall.mp refused
      obtain ⟨held, closed⟩ := Classical.not_imp.mp refused
      have held : s.begin.held k = some h := held
      refine record_broken (h := some h) ?_
      rw [held]
      exact execQueryOn_closed (s := s.begin) closed env
  | openDBHandler k connected => exact absurd trivial refused

end Step

/-- From the start of the process, every query of a run is on an open handle, and every
call that could not connect returns an error, exactly when each call finds its handle
usable. -/
theorem run_queries (events : List DbEvent) :
    (∀ taken, taken <+: events → ∀ s, run step Db.init taken = some s → Good s) ↔
      AllSteps step HandleOk Db.init events :=
  run_exact (fun s => Good s ∧ Handles s) Good (fun _ inv => inv.1)
    (fun _ _ _ inv ok stepped => step_kept inv.1 inv.2 ok stepped)
    (fun _ _ _ inv refused stepped => step_broken inv.2 refused stepped)
    ⟨init_good, init_handles⟩ events

/-- The variable of the caller keeps the handle that was closed when the server was lost. -/
def lostServer : List DbEvent :=
  [.openDBHandler 0 true, .execQuery 0 ⟨true, true, true, some ⟨crServerLost, by decide⟩⟩,
    .execQuery 0 ⟨true, true, true, none⟩]

theorem queries_closedHandle :
    ¬ ∀ events s, run step Db.init events = some s → Good s := by
  intro all
  have used : ∃ s, run step Db.init lostServer = some s ∧ ∃ use ∈ s.uses, use.isOpen = false :=
    exists_of_any (by decide)
  obtain ⟨s, reached, use, member, closed⟩ := used
  exact absurd ((all lostServer s reached).uses use member) (by rw [closed]; decide)

end VnfMonitoring.Dbmb
