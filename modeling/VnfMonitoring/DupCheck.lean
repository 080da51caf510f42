import Mathlib.Data.Set.Subsingleton
import Mathlib.Logic.Function.Basic
import VnfMonitoring.KutilProcess

set_option autoImplicit false

/- The start of both programs: `main` goes on when `dupcheckbyname` finds no other process of
its name, however the starts, checks and ends of such processes interleave. A process is found
by its line in `ps`, which arguments behind the name or a path with `vi` hide. -/
namespace VnfMonitoring.DupCheck

open VnfMonitoring.DbmbStatus VnfMonitoring.KutilProcess VnfMonitoring.Patterns
  VnfMonitoring.Runs

/-- A process of the program: its line in `ps`, and whether it is past the check. -/
structure Process where
  line : List UInt8
  running : Bool
  deriving DecidableEq, Repr

/-- The processes by their ids. -/
abbrev Processes := Nat → Option Process

inductive StartEvent where
  | exec (pid : Nat) (line : List UInt8)
  /-- The check at the head of `main`; with another process found it exits. -/
  | check (pid : Nat) (popen : Popen)
  | exit (pid : Nat)

/-- One step of the processes that are started as `name`. -/
def step (name : List UInt8) (s : Processes) : StartEvent → Option Processes
  | .exec pid line =>
      if (s pid).isSome then none else some (Function.update s pid (some ⟨line, false⟩))
  | .check pid popen =>
      (s pid).bind fun process =>
        if process.running then none
        else
          (dupcheckbyname popen pid (some name)).map fun result =>
            Function.update s pid
              (if result ≠ 0 then none else some { process with running := true })
  | .exit pid => some (Function.update s pid none)

section Runs

variable {name : List UInt8} {s next : Processes}

/-- What the kernel and `ps` do: a process has a line with its id, and the list that a check
reads has the lines of all processes there are. -/
def Listed (name : List UInt8) (s : Processes) : StartEvent → Prop
  | .exec pid line => secondField line = decimal pid
  | .check _ popen => ∃ ps, Lists popen ps ∧
      (∀ pid process, s pid = some process → process.line ∈ ps) ∧
      ∀ line ∈ ps, EndsWith name line → ∃ pid < 2147483648, secondField line = decimal pid
  | .exit _ => True

/-- A process past the check that the checks of others find. -/
structure Seen (name : List UInt8) (process : Process) : Prop where
  running : process.running = true
  last : EndsWith name process.line

/-- Every process shows its id, and at most one that can be found is past the check. -/
structure SingleInv (name : List UInt8) (s : Processes) : Prop where
  lines : ∀ pid process, s pid = some process → secondField process.line = decimal pid
  single : ∀ pid other process another, s pid = some process → s other = some another →
    Seen name process → Seen name another → pid = other

theorem init_singleInv (name : List UInt8) : SingleInv name fun _ => none := by
  constructor
  · intro pid process found
    cases found
  · intro pid other process another found
    cases found

theorem SingleInv.remove (inv : SingleInv name s) (pid : Nat) :
    SingleInv name (Function.update s pid none) := by
  have left_ {q : Nat} {process : Process}
      (found : Function.update s pid none q = some process) : s q = some process := by
    by_cases here : q = pid
    · subst here
      rw [Function.update_self] at found
      cases found
    · rwa [Function.update_of_ne here] at found
  exact
    { lines := fun q process found => inv.lines q process (left_ found)
      single := fun q other process another found also =>
        inv.single q other process another (left_ found) (left_ also) }

theorem SingleInv.put (inv : SingleInv name s) {pid : Nat} {process : Process}
    (line : secondField process.line = decimal pid)
    (alone : Seen name process → ∀ other another, s other = some another →
      Seen name another → other = pid) :
    SingleInv name (Function.update s pid (some process)) := by
  have cases_ {q : Nat} {here : Process}
      (found : Function.update s pid (some process) q = some here) :
      (q = pid ∧ process = here) ∨ s q = some here := by
    by_cases same : q = pid
    · subst same
      rw [Function.update_self] at found
      exact Or.inl ⟨rfl, Option.some_inj.mp found⟩
    · rw [Function.update_of_ne same] at found
      exact Or.inr found
  constructor
  · intro q here found
    rcases cases_ found with ⟨rfl, rfl⟩ | old
    · exact line
    · exact inv.lines q here old
  · intro q other here another found also runs others
    rcases cases_ found with ⟨rfl, rfl⟩ | old
    · rcases cases_ also with ⟨rfl, _⟩ | kept
      · rfl
      · exact (alone runs other another kept others).symm
    · rcases cases_ also with ⟨rfl, rfl⟩ | kept
      · exact alone others q here old runs
      · exact inv.single q other here another old kept runs others

/-- A check that passes has found no other process. -/
theorem check_alone {pid : Nat} {process : Process} {popen : Popen} {ps : List (List UInt8)}
    (plain : PlainName name) (inv : SingleInv name s) (lists : Lists popen ps)
    (all : ∀ pid process, s pid = some process → process.line ∈ ps)
    (ids : ∀ line ∈ ps, EndsWith name line → ∃ pid < 2147483648, secondField line = decimal pid)
    (passed : dupcheckbyname popen pid (some name) = some 0) {other : Nat}
    (found : s other = some process) (last : EndsWith name process.line) : other = pid := by
  have seen := ((dupcheckbyname_iff lists plain pid ids passed).mp rfl).2
  have line := inv.lines other process found
  have own : secondField process.line = decimal pid := seen _ (all other process found) last
  exact decimal_inj (line.symm.trans own)

theorem step_singleInv (plain : PlainName name) {event : StartEvent} (inv : SingleInv name s)
    (listed : Listed name s event) (stepped : step name s event = some next) :
    SingleInv name next := by
  cases event with
  | exec pid line =>
      rw [step, Option.ite_none_left_eq_some] at stepped
      obtain ⟨free, same⟩ := stepped
      cases same
      exact inv.put listed fun seen => by cases seen.running
  | check pid popen =>
      obtain ⟨ps, lists, all, ids⟩ := listed
      obtain ⟨process, found, checked⟩ := Option.bind_eq_some_iff.mp stepped
      rw [Option.ite_none_left_eq_some] at checked
      obtain ⟨waiting, done⟩ := checked
      obtain ⟨result, decided, rfl⟩ := Option.map_eq_some_iff.mp done
      by_cases failed : result ≠ 0
      · rw [if_pos failed]
        exact inv.remove pid
      · rw [if_neg failed]
        have passed : dupcheckbyname popen pid (some name) = some 0 := by
          rw [decided, not_not.mp failed]
        have line : secondField (Process.mk process.line true).line = decimal pid :=
          inv.lines pid process found
        apply inv.put line
        intro _ other another present seen
        exact check_alone plain inv lists all ids passed present seen.last
  | exit pid =>
      cases stepped
      exact inv.remove pid

/-- Whatever the order of the starts, the checks and the ends, at most one process whose line
ends with the name, and has neither of the two words in it, is past its check. -/
theorem run_single (plain : PlainName name) {events : List StartEvent} {final : Processes}
    (listed : AllSteps (step name) (Listed name) (fun _ => none) events)
    (reached : run (step name) (fun _ => none) events = some final) :
    {pid | ∃ process, final pid = some process ∧ Seen name process}.Subsingleton := by
  have inv := run_invariant_of (SingleInv name)
    (fun _ _ _ before allowed stepped => step_singleInv plain before allowed stepped)
    (init_singleInv name) listed reached
  intro pid found other also
  obtain ⟨process, present, seen⟩ := found
  obtain ⟨another, kept, others⟩ := also
  exact inv.single pid other process another present kept seen others

/-- A line of `ps` for the host. -/
def hostLine (pid : Nat) : List UInt8 :=
  chars "root " ++ decimal pid ++ chars " 1 0 10:00 ? 00:00:00 /bp/host"

/-- Under a path with `vi` neither of two processes finds the other. -/
example :
    let line (pid : Nat) : List UInt8 :=
      chars "root " ++ decimal pid ++ chars " 1 0 10:00 ? 00:00:00 /srv/vims/host"
    (run (step (chars "/srv/vims/host")) (fun _ => none)
        [.exec 10 (line 10), .check 10 (listing [line 10]), .exec 11 (line 11),
          .check 11 (listing [line 10, line 11])]).map
      (fun s => ((s 10).map Process.running, (s 11).map Process.running)) =
        some (some true, some true) := by
  decide +kernel

/-- The second of two processes finds the first. -/
def twoStarts : List StartEvent :=
  [.exec 10 (hostLine 10), .check 10 (listing [hostLine 10]), .exec 11 (hostLine 11),
    .check 11 (listing [hostLine 10, hostLine 11])]

theorem hostLine_listed {pids : List Nat}
    (ids : ∀ pid ∈ pids, pid < 2147483648 ∧ secondField (hostLine pid) = decimal pid)
    (present : ∀ pid process, s pid = some process → process.line ∈ pids.map hostLine)
    (pid : Nat) : Listed (chars "host") s (.check pid (listing (pids.map hostLine))) := by
  refine ⟨pids.map hostLine, listing_lists _, present, fun line member _ => ?_⟩
  obtain ⟨shown, among, rfl⟩ := List.mem_map.mp member
  exact ⟨shown, ids shown among⟩

/-- The processes after each step. -/
def afterStart : Processes := Function.update (fun _ => none) 10 (some ⟨hostLine 10, false⟩)

def afterCheck : Processes := Function.update afterStart 10 (some ⟨hostLine 10, true⟩)

def afterSecond : Processes := Function.update afterCheck 11 (some ⟨hostLine 11, false⟩)

theorem twoStarts_steps :
    step (chars "host") (fun _ => none) (.exec 10 (hostLine 10)) = some afterStart ∧
      step (chars "host") afterStart (.check 10 (listing [hostLine 10])) = some afterCheck ∧
      step (chars "host") afterCheck (.exec 11 (hostLine 11)) = some afterSecond ∧
      step (chars "host") afterSecond (.check 11 (listing [hostLine 10, hostLine 11])) =
        some (Function.update afterSecond 11 none) := by
  have first : dupcheckbyname (listing [hostLine 10]) (10 : Nat) (some (chars "host")) =
      some 0 := by
    decide +kernel
  have second : dupcheckbyname (listing [hostLine 10, hostLine 11]) (11 : Nat)
      (some (chars "host")) = some (-1) := by
    decide +kernel
  refine ⟨rfl, ?_, rfl, ?_⟩
  · have here : afterStart 10 = some ⟨hostLine 10, false⟩ := rfl
    rw [step, here, Option.bind_some, if_neg (by decide), first]
    rfl
  · have here : afterSecond 11 = some ⟨hostLine 11, false⟩ := rfl
    rw [step, here, Option.bind_some, if_neg (by decide), second]
    rfl

theorem afterStart_present (pid : Nat) (process : Process) (found : afterStart pid = some process) :
    process.line ∈ [10].map hostLine := by
  simp only [afterStart, Function.update_apply] at found
  split at found
  · cases found
    exact List.mem_cons_self
  · cases found

theorem afterSecond_present (pid : Nat) (process : Process)
    (found : afterSecond pid = some process) : process.line ∈ [10, 11].map hostLine := by
  simp only [afterSecond, afterCheck, afterStart, Function.update_apply] at found
  split at found
  · cases found
    exact List.mem_cons_of_mem _ List.mem_cons_self
  · split at found
    · cases found
      exact List.mem_cons_self
    · cases found

theorem run_single_twoStarts :
    ∃ final, run (step (chars "host")) (fun _ => none) twoStarts = some final ∧
      (∃ process, final 10 = some process ∧ Seen (chars "host") process) ∧ final 11 = none ∧
      {pid | ∃ process, final pid = some process ∧ Seen (chars "host") process}.Subsingleton := by
  obtain ⟨first, checked, second, refused⟩ := twoStarts_steps
  have plain : PlainName (chars "host") :=
    ⟨⟨104, rfl, by decide⟩, List.all_eq_true.mp (by decide)⟩
  have listed : AllSteps (step (chars "host")) (Listed (chars "host")) (fun _ => none)
      twoStarts := by
    apply allSteps_cons first (show secondField (hostLine 10) = decimal 10 by decide +kernel)
    apply allSteps_cons checked
    · exact hostLine_listed (by decide +kernel) afterStart_present 10
    apply allSteps_cons second (show secondField (hostLine 11) = decimal 11 by decide +kernel)
    apply allSteps_cons refused
    · exact hostLine_listed (by decide +kernel) afterSecond_present 11
    trivial
  have reached : run (step (chars "host")) (fun _ => none) twoStarts =
      some (Function.update afterSecond 11 none) := by
    rw [twoStarts, run_cons, first, Option.bind_some, run_cons, checked, Option.bind_some,
      run_cons, second, Option.bind_some, run_cons, refused, Option.bind_some, run_nil]
  have seen : Seen (chars "host") ⟨hostLine 10, true⟩ :=
    ⟨rfl, endsWith_iff.mpr (by decide +kernel)⟩
  exact ⟨_, reached, ⟨_, rfl, seen⟩, rfl, run_single plain listed reached⟩

end Runs

end VnfMonitoring.DupCheck
