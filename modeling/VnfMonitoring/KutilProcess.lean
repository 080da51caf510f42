import VnfMonitoring.Lib.Lines
import VnfMonitoring.Lib.Patterns
import VnfMonitoring.Logdir

set_option autoImplicit false

/- The process checks of `kutil.c`: what `proccheckbyname` and `dupcheckbyname` make of the
processes that `ps` lists. -/
namespace VnfMonitoring.KutilProcess

open VnfMonitoring.DbmbStatus VnfMonitoring.Lines VnfMonitoring.Logdir VnfMonitoring.Patterns

/-- `popen` of a command: what it prints, or a failure. -/
abbrev Popen := List UInt8 → Option (List UInt8)

def cmdSize : Nat := 512

def lineSize : Nat := 65535

def grepFilters : List UInt8 := chars " | grep -v grep | grep -v vi"

/-- The command of `proccheckbyname`. -/
def psLines (name : List UInt8) : List UInt8 := chars "ps -ef | grep " ++ name ++ grepFilters

/-- The command of `dupcheckbyname`. -/
def psPids (name : List UInt8) : List UInt8 :=
  chars "ps -ef | grep " ++ name ++ chars "$" ++ grepFilters ++
    chars " | awk '\x7bprint $2\x7d'"

/-- A command that fits `cmd`. -/
def inCmd (cmd : List UInt8) : Option (List UInt8) :=
  if cmd.length < cmdSize then some cmd else none

/-- The loop over `getc`, and what `line` has. No value when it leaves the array. -/
def readLine (line : List UInt8) : List UInt8 → Option (List UInt8)
  | [] => some line
  | c :: text => if line.length < lineSize then readLine (line ++ [c]) text else none

/-- `proccheckbyname`. -/
def proccheckbyname (popen : Popen) : Option (List UInt8) → Option Int
  | none => some (-1)
  | some name =>
      (inCmd (psLines name)).bind fun cmd =>
        match popen cmd with
        | none => some (-1)
        | some text => (readLine [] text).map fun line => line.length

theorem scanInt_shorter {text rest : List UInt8} {value : Int}
    (scanned : scanInt none text = some (value, rest)) : rest.length < text.length := by
  unfold scanInt at scanned
  simp only [Option.map_none, Option.getD_none] at scanned
  have fewer := (List.dropWhile_sublist isSpace (l := text)).length_le
  generalize text.dropWhile isSpace = field at scanned fewer
  generalize (if field.head? = some 43 ∨ field.head? = some 45 then 1 else 0) = sign at scanned
  split at scanned
  · cases scanned
  · rename_i some_
    cases scanned
    have digits := List.length_pos_of_ne_nil some_
    have inside := (List.takeWhile_sublist isDigit (l := field.drop sign)).length_le
    rw [List.length_drop] at inside ⊢
    omega

/-- The loop over `fscanf`. -/
def pidLoop (ppid : Int) (text : List UInt8) : Int :=
  match scanned : scanInt none text with
  | none => 0
  | some (pid, rest) => if pid ≠ ppid then -1 else pidLoop ppid rest
termination_by text.length
decreasing_by exact scanInt_shorter scanned

/-- `dupcheckbyname`, in the process with this id. -/
def dupcheckbyname (popen : Popen) (ppid : Int) : Option (List UInt8) → Option Int
  | none => some (-1)
  | some name =>
      (inCmd (psPids name)).map fun cmd =>
        match popen cmd with
        | none => -1
        | some text => pidLoop ppid text

section Listing

/-- `.` in a pattern of `grep`. -/
def dot : UInt8 := 46

/-- The filters behind the search for the name. -/
def passes (line : List UInt8) : Bool :=
  !occurs dot (chars "grep") line && !occurs dot (chars "vi") line

/-- The second field of a line, as `awk` takes it apart. -/
def secondField (line : List UInt8) : List UInt8 :=
  let blank (c : UInt8) : Bool := c = 32 ∨ c = 9
  let behind := (line.dropWhile blank).dropWhile fun c => !blank c
  (behind.dropWhile blank).takeWhile fun c => !blank c

/-- A character that neither the shell nor `grep` changes, but for the dot. -/
def plainChar (c : UInt8) : Bool :=
  isDigit c ∨ (65 ≤ c ∧ c ≤ 90) ∨ (97 ≤ c ∧ c ≤ 122) ∨ c = 95 ∨ c = 47 ∨ c = 45 ∨ c = dot

/-- A name that is a pattern as it is, and no option. -/
def PlainName (name : List UInt8) : Prop :=
  (∃ c ∈ name.head?, c ≠ 45) ∧ ∀ c ∈ name, plainChar c = true

/-- The commands run on these lines of `ps -ef`. -/
structure Lists (popen : Popen) (ps : List (List UInt8)) : Prop where
  lines : ∀ name, PlainName name → ∀ text, popen (psLines name) = some text →
    text = ended 10 (ps.filter fun line => occurs dot name line && passes line)
  pids : ∀ name, PlainName name → ∀ text, popen (psPids name) = some text →
    text = ended 10 ((ps.filter fun line => ends dot name line && passes line).map secondField)

/-- A line that ends with the name. -/
structure EndsWith (name line : List UInt8) : Prop where
  named : ∃ front window, line = front ++ window ∧ Stands dot name window
  grep : ¬ chars "grep" <:+: line
  vi : ¬ chars "vi" <:+: line

variable {name line : List UInt8} {popen : Popen} {ps : List (List UInt8)}

theorem passes_iff :
    passes line = true ↔ ¬ chars "grep" <:+: line ∧ ¬ chars "vi" <:+: line := by
  have grep : dot ∉ chars "grep" := by decide
  have vi : dot ∉ chars "vi" := by decide
  rw [passes, Bool.and_eq_true, Bool.not_eq_true', Bool.not_eq_true', ← Bool.not_eq_true,
    ← Bool.not_eq_true, occurs_plain grep, occurs_plain vi]

theorem endsWith_iff : EndsWith name line ↔ (ends dot name line && passes line) = true := by
  rw [Bool.and_eq_true, ends_iff, passes_iff]
  constructor
  · intro last
    exact ⟨last.named, last.grep, last.vi⟩
  · intro both
    exact ⟨both.1, both.2.1, both.2.2⟩

/-- The commands on a list of lines. -/
def listing (ps : List (List UInt8)) : Popen := fun cmd =>
  let behind := cmd.drop (chars "ps -ef | grep ").length
  let name := behind.takeWhile plainChar
  if (behind.drop name.length).head? = some 36 then
    some (ended 10 ((ps.filter fun line => ends dot name line && passes line).map secondField))
  else some (ended 10 (ps.filter fun line => occurs dot name line && passes line))

theorem takeWhile_plain (plain : PlainName name) {c : UInt8} {rest : List UInt8}
    (stop : plainChar c = false) : (name ++ c :: rest).takeWhile plainChar = name := by
  rw [List.takeWhile_append_of_pos plain.2, List.takeWhile_cons_of_neg (by simp [stop]),
    List.append_nil]

theorem listing_lists (ps : List (List UInt8)) : Lists (listing ps) ps where
  lines name plain text printed := by
    have behind : (psLines name).drop (chars "ps -ef | grep ").length = name ++ grepFilters := by
      rw [psLines, List.append_assoc, List.drop_left]
    have taken : (name ++ grepFilters).takeWhile plainChar = name :=
      takeWhile_plain plain (by decide : plainChar 32 = false)
    simp only [listing, behind, taken, List.drop_left] at printed
    rw [if_neg (by decide)] at printed
    exact (Option.some_inj.mp printed).symm
  pids name plain text printed := by
    have behind : (psPids name).drop (chars "ps -ef | grep ").length =
        name ++ (chars "$" ++ grepFilters ++ chars " | awk '\x7bprint $2\x7d'") := by
      rw [psPids, List.append_assoc, List.append_assoc, List.append_assoc, List.drop_left,
        List.append_assoc]
    have taken : (name ++ (chars "$" ++ grepFilters ++
        chars " | awk '\x7bprint $2\x7d'")).takeWhile plainChar = name :=
      takeWhile_plain plain (by decide : plainChar 36 = false)
    simp only [listing, behind, taken, List.drop_left] at printed
    rw [if_pos (by decide)] at printed
    exact (Option.some_inj.mp printed).symm

end Listing

section Checks

variable {name : List UInt8} {popen : Popen} {ps : List (List UInt8)}

theorem inCmd_some {cmd kept : List UInt8} (fits : inCmd cmd = some kept) : kept = cmd := by
  obtain ⟨_, same⟩ := Option.ite_none_right_eq_some.mp fits
  exact (Option.some_inj.mp same).symm

theorem pidLoop_none {ppid : Int} {text : List UInt8} (scanned : scanInt none text = none) :
    pidLoop ppid text = 0 := by
  rw [pidLoop]
  split
  · rfl
  · rename_i other
    cases scanned.symm.trans other

theorem pidLoop_some {ppid pid : Int} {text rest : List UInt8}
    (scanned : scanInt none text = some (pid, rest)) :
    pidLoop ppid text = if pid ≠ ppid then -1 else pidLoop ppid rest := by
  rw [pidLoop]
  split
  · rename_i other
    cases scanned.symm.trans other
  · rename_i other
    cases scanned.symm.trans other
    rfl

/-- `%d` passes over the end of a line. -/
theorem pidLoop_newline (ppid : Int) (text : List UInt8) :
    pidLoop ppid (10 :: text) = pidLoop ppid text := by
  have same : scanInt none (10 :: text) = scanInt none text := rfl
  cases scanned : scanInt none text with
  | none => rw [pidLoop_none scanned, pidLoop_none (same.trans scanned)]
  | some read =>
      obtain ⟨pid, rest⟩ := read
      rw [pidLoop_some scanned, pidLoop_some (same.trans scanned)]

theorem scanInt_decimal {pid : Nat} (small : pid < 2147483648) (rest : List UInt8) :
    scanInt none (decimal pid ++ 10 :: rest) = some ((pid : Int), 10 :: rest) := by
  obtain ⟨some_, all, number⟩ := decimal_digits pid
  have stop : ∀ c ∈ (10 :: rest).head?, isDigit c = false := by
    intro c member
    cases member
    rfl
  rw [scanInt_digits some_ all stop (by simp), number, intOf_eq (by omega) (by omega)]

/-- The loop looks for an id other than its own. -/
theorem pidLoop_ended (own : Nat) {pids : List Nat} (small : ∀ pid ∈ pids, pid < 2147483648) :
    pidLoop own (ended 10 (pids.map decimal)) = 0 ↔ ∀ pid ∈ pids, pid = own := by
  induction pids with
  | nil => exact iff_of_true (pidLoop_none rfl) nofun
  | cons pid pids ih =>
      rw [List.forall_mem_cons] at small ⊢
      rw [List.map_cons, ended_cons, pidLoop_some (scanInt_decimal small.1 _), pidLoop_newline]
      by_cases same : pid = own
      · subst same
        rw [if_neg (not_not.mpr rfl), ih small.2]
        exact (and_iff_right rfl).symm
      · have other : (pid : Int) ≠ own := by omega
        rw [if_pos other]
        exact iff_of_false (by decide) fun both => same both.1

theorem exists_decimals {fields : List (List UInt8)}
    (ids : ∀ field ∈ fields, ∃ pid < 2147483648, field = decimal pid) :
    ∃ pids : List Nat, fields = pids.map decimal ∧ ∀ pid ∈ pids, pid < 2147483648 := by
  induction fields with
  | nil => exact ⟨[], rfl, nofun⟩
  | cons field fields ih =>
      rw [List.forall_mem_cons] at ids
      obtain ⟨pid, small, rfl⟩ := ids.1
      obtain ⟨pids, rfl, others⟩ := ih ids.2
      exact ⟨pid :: pids, rfl, List.forall_mem_cons.mpr ⟨small, others⟩⟩

theorem decimal_inj {n m : Nat} (same : decimal n = decimal m) : n = m := by
  rw [← (decimal_digits n).2.2, same, (decimal_digits m).2.2]

/-- `dupcheckbyname` lets the program start when `popen` works and every process whose line
ends with the name is the program itself. -/
theorem dupcheckbyname_iff (lists : Lists popen ps) (plain : PlainName name) (own : Nat)
    (ids : ∀ line ∈ ps, EndsWith name line →
      ∃ pid < 2147483648, secondField line = decimal pid)
    {result : Int} (done : dupcheckbyname popen own (some name) = some result) :
    result = 0 ↔ (popen (psPids name)).isSome ∧
      ∀ line ∈ ps, EndsWith name line → secondField line = decimal own := by
  obtain ⟨cmd, fits, rfl⟩ := Option.map_eq_some_iff.mp done
  obtain rfl := inCmd_some fits
  cases printed : popen (psPids name) with
  | none =>
      have failed : ¬ (-1 : Int) = 0 := by decide
      exact iff_of_false failed (by simp)
  | some text =>
      have same := lists.pids name plain text printed
      have listed {line : List UInt8} :
          line ∈ ps.filter (fun line => ends dot name line && passes line) ↔
            line ∈ ps ∧ EndsWith name line := by
        rw [List.mem_filter, endsWith_iff]
      have decimals : ∀ field ∈
          (ps.filter fun line => ends dot name line && passes line).map secondField,
          ∃ pid < 2147483648, field = decimal pid := by
        intro field member
        obtain ⟨line, among, rfl⟩ := List.mem_map.mp member
        exact ids line (listed.mp among).1 (listed.mp among).2
      obtain ⟨pids, fields, small⟩ := exists_decimals decimals
      simp only [same, fields, pidLoop_ended own small, Option.isSome_some, true_and]
      constructor
      · intro all line member last
        have among : secondField line ∈ pids.map decimal :=
          fields ▸ List.mem_map_of_mem (listed.mpr ⟨member, last⟩)
        obtain ⟨pid, shown, field⟩ := List.mem_map.mp among
        rw [← field, all pid shown]
      · intro all pid shown
        have among : decimal pid ∈ pids.map decimal := List.mem_map_of_mem shown
        rw [← fields] at among
        obtain ⟨line, member, field⟩ := List.mem_map.mp among
        exact decimal_inj (field.symm.trans
          (all line (listed.mp member).1 (listed.mp member).2))

end Checks

end VnfMonitoring.KutilProcess
