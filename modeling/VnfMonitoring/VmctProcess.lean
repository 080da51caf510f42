import VnfMonitoring.VmctConf

set_option autoImplicit false

/- `ReadUtmProcessConfig`, one `getc` after the other. The text it gathers between two
names, and when it comes to an end. -/
namespace VnfMonitoring.VmctProcess

open VnfMonitoring.Memory VnfMonitoring.Runs VnfMonitoring.Objects VnfMonitoring.Bpapp
  VnfMonitoring.DbmbStatus VnfMonitoring.ConfFile VnfMonitoring.VmctConf

/-- The array `subline`. -/
def sublineSize : Nat := 200

/-- `vmct_proc.pcount`, and the name of one of `vmct_proc.pstate`. -/
def pcount : Place Obj := ⟨.vmctConf, 88, 4⟩

def processName (i : Nat) : Place Obj := ⟨.vmctConf, 92 + 68 * i, 64⟩

/-- Where the function stands: in its outer loop, in the loop over a comment, or behind
both. -/
inductive Phase where
  | reading
  | skipping
  | ended
  deriving DecidableEq, Repr

structure Reader where
  phase : Phase
  i : Nat
  subline : Bytes sublineSize
  total : Nat
  /-- Absent once a name has been copied past the end of `VmctConf`. -/
  config : Option VmctConfig

def start (c : VmctConfig) : Reader := ⟨.reading, 0, .zero _, 0, some c⟩

/-- The branch that ends a name. -/
def takeName (s : Reader) (name : List UInt8) : Reader :=
  { s with
    i := 0
    subline := .zero _
    total := s.total + 1
    config := s.config.bind fun c => write c (copyTo (processName s.total) name) }

/-- `subline[i++] = c`. -/
def appendChar (s : Reader) (c : UInt8) : Option Reader :=
  (storeBytes s.subline s.i [c]).map fun subline => { s with subline, i := s.i + 1 }

/-- The body of the outer loop behind the test for a comment; no value when `strlen` or
the store leaves `subline`. -/
def readChar (s : Reader) (c : UInt8) : Option Reader :=
  (if c = newline then
    (cstr s.subline.toList).bind fun name =>
      if name ≠ [] then some (takeName s name) else appendChar s c
  else appendChar s c).map fun s =>
    if maxVmProcNum ≤ s.total then { s with phase := .ended } else s

/-- What follows one `getc`, which returned a character or `EOF`. -/
def getcStep (s : Reader) (c : Option UInt8) : Option Reader :=
  match s.phase with
  | .ended => some s
  | .skipping => some (if c = some newline then { s with phase := .reading } else s)
  | .reading =>
      match c with
      | none => some { s with phase := .ended }
      | some c => if c = commentMark then some { s with phase := .skipping } else readChar s c

/-- The results of the first calls of `getc` on a file: its bytes, then `EOF` every time. -/
def calls (content : List UInt8) (count : Nat) : List (Option UInt8) :=
  (List.range count).map (content[·]?)

/-- `ReadUtmProcessConfig`; the file is absent when `fopen` fails. A function that has
not come to its end after the first `EOF` never does. -/
def readUtmProcessConfig (order : ByteOrder) (c : VmctConfig) (file : Option (List UInt8)) :
    Option (Int × VmctConfig) :=
  match file with
  | none => some (-1, c)
  | some content =>
      (run getcStep (start c) (calls content (content.length + 1))).bind fun s =>
      if s.phase = .ended then
        (s.config.bind fun c => write c (word32 order pcount (UInt32.ofNat s.total))).map
          fun c => (0, c)
      else none

/-- `read_config`. -/
def readConfig (order : ByteOrder) (inetAddr : List UInt8 → UInt32) (d : UInt32)
    (c : VmctConfig) (file processes : Option (List UInt8)) : Option (Int × VmctConfig) :=
  match file with
  | none => some (-1, c)
  | some content =>
      (readLines strSize (keys order inetAddr d) c content).bind fun c =>
        readUtmProcessConfig order c processes

/-- The character behind which `subline[i++] = c` is reached. -/
def Stores (s : Reader) (c : UInt8) : Prop :=
  s.phase = .reading ∧ c ≠ commentMark ∧ (c = newline → cstr s.subline.toList = some [])

/-- The function ends after finitely many calls of `getc`, and the index of each store is
inside `subline`. -/
def Safe (s : Reader) (content : List UInt8) : Prop :=
  (∃ count final, run getcStep s (calls content count) = some final ∧ final.phase = .ended) ∧
    ∀ count mid c, run getcStep s (calls content count) = some mid →
      content[count]? = some c → Stores mid c → mid.i < sublineSize

section Abstract

/-- What the function takes of a text: comments are left out with their newline. -/
def visible : Bool → List UInt8 → List UInt8
  | _, [] => []
  | true, c :: rest => visible (c ≠ newline) rest
  | false, c :: rest => if c = commentMark then visible true rest else c :: visible false rest

/-- Whether a text ends inside a comment. -/
def inComment : Bool → List UInt8 → Bool
  | comment, [] => comment
  | true, c :: rest => inComment (c ≠ newline) rest
  | false, c :: rest => inComment (c = commentMark) rest

/-- A text that is not empty as a string. -/
def IsName (text : List UInt8) : Prop := ∃ c rest, text = c :: rest ∧ c ≠ 0

instance : (text : List UInt8) → Decidable (IsName text)
  | [] => isFalse (by simp [IsName])
  | c :: rest => decidable_of_iff (c ≠ 0) (by simp [IsName])

/-- The texts gathered for one name each, and what is left: a name ends at a newline once
the text is not empty as a string. -/
def gathered : List UInt8 → List UInt8 → List (List UInt8) × List UInt8
  | held, [] => ([], held)
  | held, c :: rest =>
      if c = newline ∧ IsName held then
        (held :: (gathered [] rest).1, (gathered [] rest).2)
      else gathered (held ++ [c]) rest

/-- The texts for the first `room` names are such as `P` says and, unless they are that
many, the rest is such as `Q` says and ends outside a comment. -/
def Gathers (P Q : List UInt8 → Prop) (room : Nat) (comment : Bool)
    (held content : List UInt8) : Prop :=
  (∀ text ∈ (gathered held (visible comment content)).1.take room, P text) ∧
    (room ≤ (gathered held (visible comment content)).1.length ∨
      Q (gathered held (visible comment content)).2 ∧ inComment comment content = false)

/-- A text whose string `strlen` finds inside `subline`. -/
def Reads (text : List UInt8) : Prop :=
  text.length < sublineSize ∨ text.length = sublineSize ∧ (0 : UInt8) ∈ text

instance (text : List UInt8) : Decidable (Reads text) := inferInstanceAs (Decidable (_ ∨ _))

/-- A text that `subline` takes. -/
def Fits (text : List UInt8) : Prop := text.length ≤ sublineSize

instance (text : List UInt8) : Decidable (Fits text) := inferInstanceAs (Decidable (_ ≤ _))

instance (P Q : List UInt8 → Prop) [DecidablePred P] [DecidablePred Q] (room : Nat)
    (comment : Bool) (held content : List UInt8) :
    Decidable (Gathers P Q room comment held content) :=
  inferInstanceAs (Decidable (_ ∧ _))

end Abstract

/-- The characters of a text up to its first NUL. -/
def cname (text : List UInt8) : List UInt8 := text.takeWhile (· ≠ 0)

theorem cstr_padded (text : List UInt8) (count : Nat) :
    cstr (text ++ List.replicate (count + 1) 0) = some (cname text) := by
  unfold cname
  induction text with
  | nil => rfl
  | cons c text ih =>
      rw [List.cons_append, cstr]
      split
      · rename_i zero
        rw [List.takeWhile_cons_of_neg (by simp [zero])]
      · rename_i nonzero
        rw [ih, List.takeWhile_cons_of_pos (by simpa using nonzero), Option.map_some]

theorem cname_ne_nil {text : List UInt8} : cname text ≠ [] ↔ IsName text := by
  cases text with
  | nil => simp [cname, IsName]
  | cons c rest => by_cases zero : c = 0 <;> simp [cname, IsName, zero]

theorem cname_eq_nil {text : List UInt8} (empty : ¬ IsName text) : cname text = [] :=
  Classical.not_not.mp (cname_ne_nil.not.mpr empty)

theorem IsName.append {text : List UInt8} (name : IsName text) (behind : List UInt8) :
    IsName (text ++ behind) := by
  obtain ⟨c, rest, rfl, nonzero⟩ := name
  exact ⟨c, rest ++ behind, rfl, nonzero⟩

/-- A state inside the loops: what `subline` holds, and that names are still wanted. -/
structure Describes (s : Reader) (comment : Bool) (held : List UInt8) : Prop where
  phase : s.phase = if comment then .skipping else .reading
  index : s.i = held.length
  bytes : s.subline.toList = held ++ List.replicate (sublineSize - held.length) 0
  wanted : s.total < maxVmProcNum

theorem Describes.fits {s : Reader} {comment : Bool} {held : List UInt8}
    (state : Describes s comment held) : held.length ≤ sublineSize := by
  have length := s.subline.length_toList
  rw [state.bytes, List.length_append, List.length_replicate] at length
  omega

theorem start_describes (c : VmctConfig) : Describes (start c) false [] :=
  ⟨rfl, rfl, rfl, show (0 : Nat) < 12 by decide⟩

section Step

variable {s : Reader} {held : List UInt8}

theorem describes_skip (state : Describes s true held) (c : UInt8) :
    ∃ next, getcStep s (some c) = some next ∧ Describes next (c ≠ newline) held ∧
      next.total = s.total ∧ next.config = s.config := by
  obtain ⟨phase, index, bytes, wanted⟩ := state
  rw [if_pos rfl] at phase
  by_cases here : c = newline
  · refine ⟨{ s with phase := .reading }, ?_, ⟨by simp [here], index, bytes, wanted⟩, rfl, rfl⟩
    simp [getcStep, phase, here]
  · refine ⟨s, ?_, ⟨by simp [here, phase], index, bytes, wanted⟩, rfl, rfl⟩
    simp [getcStep, phase, here]

theorem describes_comment (state : Describes s false held) :
    ∃ next, getcStep s (some commentMark) = some next ∧ Describes next true held ∧
      next.total = s.total ∧ next.config = s.config := by
  obtain ⟨phase, index, bytes, wanted⟩ := state
  refine ⟨{ s with phase := .skipping }, ?_, ⟨rfl, index, bytes, wanted⟩, rfl, rfl⟩
  simp [getcStep, phase]

theorem getcStep_reading (state : Describes s false held) {c : UInt8} (plain : c ≠ commentMark) :
    getcStep s (some c) = readChar s c := by
  have phase : s.phase = .reading := state.phase
  simp [getcStep, phase, plain]

/-- The string in `subline`. -/
theorem Describes.string {comment : Bool} (state : Describes s comment held)
    (room : held.length < sublineSize ∨ (0 : UInt8) ∈ held) :
    cstr s.subline.toList = some (cname held) := by
  rw [state.bytes]
  by_cases short : held.length < sublineSize
  · obtain ⟨left, more⟩ := Nat.exists_eq_add_of_lt short
    rw [show sublineSize - held.length = left + 1 by omega]
    exact cstr_padded held left
  · have zero := room.resolve_left short
    obtain ⟨front, behind, rfl, first⟩ := List.eq_append_cons_of_mem zero
    have string := cstr_append front behind first
    rw [cstr_append_of_some string]
    exact congrArg some (Lines.cut_marked first behind).symm

theorem Describes.endless {comment : Bool} (state : Describes s comment held)
    (full : held.length = sublineSize) (plain : (0 : UInt8) ∉ held) :
    cstr s.subline.toList = none := by
  rw [← Option.not_isSome_iff_eq_none, cstr_isSome, state.bytes, full, Nat.sub_self]
  simpa using plain

/-- A character is gathered while `subline` has room. -/
theorem describes_append (state : Describes s false held) {c : UInt8} (plain : c ≠ commentMark)
    (gather : ¬ (c = newline ∧ IsName held)) (room : held.length < sublineSize) :
    ∃ next, getcStep s (some c) = some next ∧ Describes next false (held ++ [c]) ∧
      next.total = s.total ∧ next.config = s.config := by
  obtain ⟨changed, stored⟩ := Option.isSome_iff_exists.mp
    ((storeBytes_isSome s.subline s.i [c]).mpr (by
      rw [state.index, List.length_singleton]
      omega))
  have appended : appendChar s c = some { s with subline := changed, i := s.i + 1 } := by
    rw [appendChar, stored]
    rfl
  have read : readChar s c = some { s with subline := changed, i := s.i + 1 } := by
    unfold readChar
    by_cases here : c = newline
    · have string := state.string (Or.inl room)
      have empty := cname_eq_nil fun name => gather ⟨here, name⟩
      rw [if_pos here, string, Option.bind_some, if_neg (by simp [empty]), appended,
        Option.map_some, if_neg (by simpa using state.wanted)]
    · rw [if_neg here, appended, Option.map_some, if_neg (by simpa using state.wanted)]
  refine ⟨_, (getcStep_reading state plain).trans read, ⟨state.phase, ?_, ?_, state.wanted⟩,
    rfl, rfl⟩
  · simp [state.index]
  · change changed.toList = _
    have size : (held ++ List.replicate (sublineSize - held.length) 0).length = sublineSize := by
      rw [← state.bytes, s.subline.length_toList]
    rw [(storeBytes_eq stored).2, state.bytes, state.index, List.take_left, List.append_assoc,
      List.append_assoc]
    congr 2
    rw [List.length_singleton, List.drop_append, List.drop_eq_nil_of_le (by omega),
      List.nil_append, List.drop_replicate]
    simp only [List.length_append, List.length_singleton]
    congr 1
    omega

/-- Without room for it, the run has no next state. -/
theorem describes_full (state : Describes s false held) {c : UInt8} (plain : c ≠ commentMark)
    (gather : ¬ (c = newline ∧ IsName held)) (full : held.length = sublineSize) :
    getcStep s (some c) = none := by
  have refused : appendChar s c = none := by
    rw [appendChar, storeBytes, dif_neg, Option.map_none]
    rw [state.index, List.length_singleton]
    omega
  rw [getcStep_reading state plain, readChar]
  split
  · rename_i here
    by_cases zero : (0 : UInt8) ∈ held
    · have empty := cname_eq_nil fun name => gather ⟨here, name⟩
      rw [state.string (Or.inr zero), Option.bind_some, if_neg (by simp [empty]), refused,
        Option.map_none]
    · rw [state.endless full zero]
      rfl
  · rw [refused, Option.map_none]

/-- A newline ends a name; the twelfth one ends the loop. -/
theorem describes_take (state : Describes s false held) (name : IsName held)
    (room : held.length < sublineSize ∨ (0 : UInt8) ∈ held) :
    ∃ next, getcStep s (some newline) = some next ∧ next.i = 0 ∧ next.total = s.total + 1 ∧
      next.config = (s.config.bind fun c =>
        write c (copyTo (processName s.total) (cname held))) ∧
      (next.total < maxVmProcNum ∧ Describes next false [] ∨
        next.total = maxVmProcNum ∧ next.phase = .ended) := by
  have wanted := state.wanted
  have read : readChar s newline =
      some (if maxVmProcNum ≤ s.total + 1 then { takeName s (cname held) with phase := .ended }
        else takeName s (cname held)) := by
    unfold readChar
    rw [if_pos rfl, state.string room, Option.bind_some, if_pos (cname_ne_nil.mpr name),
      Option.map_some]
    rfl
  rw [getcStep_reading state (by decide), read]
  refine ⟨_, rfl, ?_⟩
  by_cases last : maxVmProcNum ≤ s.total + 1
  · rw [if_pos last]
    exact ⟨rfl, rfl, rfl, Or.inr ⟨Nat.le_antisymm wanted last, rfl⟩⟩
  · rw [if_neg last]
    exact ⟨rfl, rfl, rfl, Or.inl ⟨Nat.not_le.mp last, state.phase, rfl, rfl, Nat.not_le.mp last⟩⟩

end Step

section Calls

theorem calls_nil (count : Nat) : calls [] count = List.replicate count none := by
  simp [calls]

theorem calls_cons (c : UInt8) (rest : List UInt8) (count : Nat) :
    calls (c :: rest) (count + 1) = some c :: calls rest count := by
  simp [calls, List.range_succ_eq_map, Function.comp_def]

theorem calls_add (content : List UInt8) (count more : Nat) :
    calls content (count + more) = calls content count ++ calls (content.drop count) more := by
  simp [calls, List.range_add, Function.comp_def]

theorem calls_succ (content : List UInt8) (count : Nat) :
    calls content (count + 1) = calls content count ++ [content[count]?] := by
  simp [calls, List.range_succ]

/-- Nothing happens behind the end. -/
theorem run_ended {s : Reader} (ended : s.phase = .ended) (events : List (Option UInt8)) :
    run getcStep s events = some s := by
  induction events with
  | nil => rfl
  | cons event rest ih =>
      have stays : getcStep s event = some s := by simp [getcStep, ended]
      rw [run_cons, stays, Option.bind_some, ih]

/-- A comment that the file does not end is never left. -/
theorem run_skipping {s : Reader} (skipping : s.phase = .skipping) (count : Nat) :
    run getcStep s (calls [] count) = some s := by
  have stays : getcStep s none = some s := by simp [getcStep, skipping]
  rw [calls_nil]
  induction count with
  | zero => rfl
  | succ count ih => rw [List.replicate_succ, run_cons, stays, Option.bind_some, ih]

end Calls

theorem ended_of_eof {s : Reader} {held : List UInt8} (state : Describes s false held) :
    getcStep s none = some { s with phase := .ended } := by
  have phase : s.phase = .reading := state.phase
  simp [getcStep, phase]

theorem Describes.running {s : Reader} {comment : Bool} {held : List UInt8}
    (state : Describes s comment held) : s.phase ≠ .ended := by
  rw [state.phase]
  cases comment <;> decide

section Gathers

variable {P Q : List UInt8 → Prop} {room : Nat} {held : List UInt8} {c : UInt8}
  {rest : List UInt8}

theorem gathers_skip : Gathers P Q room true held (c :: rest) ↔
    Gathers P Q room (c ≠ newline) held rest :=
  Iff.rfl

theorem gathers_comment : Gathers P Q room false held (commentMark :: rest) ↔
    Gathers P Q room true held rest := by
  simp [Gathers, visible, inComment]

theorem gathers_append (plain : c ≠ commentMark) (gather : ¬ (c = newline ∧ IsName held)) :
    Gathers P Q room false held (c :: rest) ↔ Gathers P Q room false (held ++ [c]) rest := by
  simp [Gathers, visible, inComment, gathered, plain, gather]

theorem gathers_take (name : IsName held) :
    Gathers P Q (room + 1) false held (newline :: rest) ↔
      P held ∧ Gathers P Q room false [] rest := by
  simp [Gathers, visible, inComment, gathered, name, show newline ≠ commentMark by decide,
    and_assoc]

theorem gathers_zero (content : List UInt8) : Gathers P Q 0 false [] content := by
  simp [Gathers]

/-- While more names are wanted, what is held is no longer than what is gathered may be. -/
theorem length_of_gathers {limit : Nat} (P_le : ∀ text, P text → text.length ≤ limit)
    (Q_le : ∀ text, Q text → text.length ≤ limit) {comment : Bool} {content : List UInt8}
    (gathers : Gathers P Q (room + 1) comment held content) : held.length ≤ limit := by
  induction content generalizing comment held with
  | nil => exact Q_le _ (gathers.2.resolve_left (by simp [visible, gathered])).1
  | cons c rest ih =>
      cases comment with
      | true => exact ih (gathers_skip.mp gathers)
      | false =>
          by_cases comment : c = commentMark
          · subst comment
            exact ih (gathers_comment.mp gathers)
          · by_cases gather : c = newline ∧ IsName held
            · obtain ⟨rfl, name⟩ := gather
              exact P_le _ ((gathers_take name).mp gathers).1
            · have longer := ih ((gathers_append comment gather).mp gathers)
              rw [List.length_append, List.length_singleton] at longer
              omega

end Gathers

/-- The copies of the names, from the `i`-th place on. -/
def nameWrites : Nat → List (List UInt8) → List (Write Obj)
  | _, [] => []
  | i, name :: rest => copyTo (processName i) name :: nameWrites (i + 1) rest

/-- The name that a newline would take does not end inside `subline`. -/
theorem describes_stuck {s : Reader} {held : List UInt8} (state : Describes s false held)
    (endless : ¬ Reads held) : getcStep s (some newline) = none := by
  have fits := state.fits
  unfold Reads at endless
  rw [not_or, not_and] at endless
  have full : held.length = sublineSize := by omega
  rw [getcStep_reading state (by decide), readChar, if_pos rfl, state.endless full (endless.2 full)]
  rfl

/-- What the calls up to the first `EOF` come to: the names are those of the gathered texts,
provided that `subline` took them. -/
def ReadsAs (s : Reader) (room : Nat) (comment : Bool) (held content : List UInt8) : Prop :=
  (Gathers Reads Fits room comment held content →
    ∃ final, run getcStep s (calls content (content.length + 1)) = some final ∧
      final.phase = .ended ∧
      final.total = s.total + ((gathered held (visible comment content)).1.take room).length ∧
      final.config = s.config.bind fun c => run write c (nameWrites s.total
        (((gathered held (visible comment content)).1.take room).map cname))) ∧
  (¬ Gathers Reads Fits room comment held content →
    ∀ final, run getcStep s (calls content (content.length + 1)) = some final →
      final.phase ≠ .ended)

section ReadsAs

variable {s : Reader} {held : List UInt8} {comment : Bool} {room : Nat} {c : UInt8}
  {rest : List UInt8}

theorem readsAs_open (state : Describes s true held) (wanted : room ≠ 0) :
    ReadsAs s room true held [] := by
  refine ⟨fun completes => ?_, fun _ final reached => ?_⟩
  · simp [Gathers, visible, gathered, inComment, wanted] at completes
  · rw [run_skipping state.phase] at reached
    cases reached
    exact state.running

theorem readsAs_eof (state : Describes s false held) : ReadsAs s room false held [] := by
  have stepped : run getcStep s (calls [] 1) = some { s with phase := .ended } := by
    rw [calls_nil, List.replicate_one, run_singleton, ended_of_eof state]
  have fits : Fits held := state.fits
  refine ⟨fun _ => ⟨_, stepped, rfl, ?_, ?_⟩, fun incomplete => absurd ?_ incomplete⟩
  · simp [visible, gathered]
  · simp [visible, gathered, nameWrites]
  · simp [Gathers, visible, gathered, inComment, fits]

/-- A character that ends no name. -/
theorem readsAs_step {next : Reader} {comment' : Bool} {held' : List UInt8}
    (stepped : getcStep s (some c) = some next) (total : next.total = s.total)
    (config : next.config = s.config)
    (same : gathered held (visible comment (c :: rest)) = gathered held' (visible comment' rest))
    (open_ : inComment comment (c :: rest) = inComment comment' rest)
    (later : ReadsAs next room comment' held' rest) : ReadsAs s room comment held (c :: rest) := by
  unfold ReadsAs Gathers at later ⊢
  rw [List.length_cons, calls_cons, run_cons, stepped, Option.bind_some, same, open_]
  rw [total, config] at later
  exact later

/-- A character that the function cannot take. -/
theorem readsAs_stuck (stuck : getcStep s (some c) = none)
    (incomplete : ¬ Gathers Reads Fits room comment held (c :: rest)) :
    ReadsAs s room comment held (c :: rest) := by
  refine ⟨fun completes => absurd completes incomplete, fun _ final reached => ?_⟩
  rw [List.length_cons, calls_cons, run_cons, stuck] at reached
  cases reached

/-- A newline that ends a name. -/
theorem readsAs_take (state : Describes s false held) (name : IsName held) (reads : Reads held)
    (all : s.total + (room + 1) = maxVmProcNum)
    (later : ∀ {next : Reader}, Describes next false [] → next.total + room = maxVmProcNum →
      ReadsAs next room false [] rest) : ReadsAs s (room + 1) false held (newline :: rest) := by
  obtain ⟨next, stepped, _, total, config, more⟩ := describes_take state name
    (reads.imp_right And.right)
  have split : (gathered held (visible false (newline :: rest))).1.take (room + 1) =
      held :: (gathered [] (visible false rest)).1.take room := by
    simp [visible, gathered, name, show newline ≠ commentMark by decide]
  unfold ReadsAs
  rw [gathers_take name, and_iff_right reads, List.length_cons, calls_cons, run_cons, stepped,
    Option.bind_some, split, List.map_cons, nameWrites, List.length_cons]
  rcases more with ⟨_, after⟩ | ⟨twelve, ended⟩
  · refine (later after (by omega)).imp_left fun good completes => ?_
    obtain ⟨final, reached, ended, sum, names⟩ := good completes
    refine ⟨final, reached, ended, by omega, ?_⟩
    rw [names, config, Option.bind_assoc, total]
    rfl
  · obtain rfl : room = 0 := by omega
    refine ⟨fun _ => ⟨next, run_ended ended _, ended, by simp [total], ?_⟩,
      fun incomplete => absurd (gathers_zero rest) incomplete⟩
    rw [config]
    apply Option.bind_congr
    intro c _
    rw [List.take_zero, List.map_nil, nameWrites, run_singleton]

end ReadsAs

/-- A text that fills `subline` takes no further character. -/
theorem not_gathers_full {held : List UInt8} {c : UInt8} {room : Nat} {rest : List UInt8}
    (full : held.length = sublineSize) :
    ¬ Gathers Reads Fits (room + 1) false (held ++ [c]) rest := by
  intro completes
  have inside : (held ++ [c]).length ≤ sublineSize :=
    length_of_gathers (fun _ reads => reads.elim Nat.le_of_lt fun whole => Nat.le_of_eq whole.1)
      (fun _ fits => fits) completes
  rw [List.length_append, List.length_singleton, full] at inside
  omega

/-- From any state inside the loops. -/
theorem run_calls (content : List UInt8) :
    ∀ {s : Reader} {comment : Bool} {held : List UInt8} {room : Nat}, Describes s comment held →
      s.total + room = maxVmProcNum → ReadsAs s room comment held content := by
  induction content with
  | nil =>
      intro s comment held room state all
      have wanted := state.wanted
      cases comment with
      | true => exact readsAs_open state (by omega)
      | false => exact readsAs_eof state
  | cons c rest ih =>
      intro s comment held room state all
      have wanted := state.wanted
      obtain ⟨left, rfl⟩ := Nat.exists_eq_succ_of_ne_zero (show room ≠ 0 by omega)
      cases comment with
      | true =>
          obtain ⟨next, stepped, after, total, config⟩ := describes_skip state c
          exact readsAs_step stepped total config rfl rfl (ih after (total ▸ all))
      | false =>
          by_cases comment : c = commentMark
          · subst comment
            obtain ⟨next, stepped, after, total, config⟩ := describes_comment state
            exact readsAs_step stepped total config (by simp [visible]) (by simp [inComment])
              (ih after (total ▸ all))
          · by_cases gather : c = newline ∧ IsName held
            · obtain ⟨rfl, name⟩ := gather
              by_cases reads : Reads held
              · exact readsAs_take state name reads all ih
              · apply readsAs_stuck (describes_stuck state reads)
                rw [gathers_take name]
                exact fun completes => reads completes.1
            · by_cases full : held.length = sublineSize
              · apply readsAs_stuck (describes_full state comment gather full)
                rw [gathers_append comment gather]
                exact not_gathers_full full
              · have fits := state.fits
                obtain ⟨next, stepped, after, total, config⟩ :=
                  describes_append state comment gather (by omega)
                exact readsAs_step stepped total config
                  (by simp [visible, gathered, comment, gather]) (by simp [inComment, comment])
                  (ih after (total ▸ all))

/-- The function as a whole. -/
theorem readUtmProcessConfig_eq (order : ByteOrder) (c : VmctConfig) (content : List UInt8) :
    readUtmProcessConfig order c (some content) =
      if Gathers Reads Fits maxVmProcNum false [] content then
        (run write c (nameWrites 0
          (((gathered [] (visible false content)).1.take maxVmProcNum).map cname) ++
          [word32 order pcount (UInt32.ofNat
            ((gathered [] (visible false content)).1.take maxVmProcNum).length)])).map
          fun c => (0, c)
      else none := by
  obtain ⟨complete, incomplete⟩ := run_calls content (start_describes c)
    (show (0 : Nat) + maxVmProcNum = maxVmProcNum by decide)
  rw [readUtmProcessConfig]
  split
  · rename_i completes
    obtain ⟨final, reached, ended, total, config⟩ := complete completes
    simp only [reached, Option.bind_some, ended, if_true, total, config, run_append]
    change Option.map _ ((((some c).bind _)).bind _) = _
    simp only [Option.bind_some, run_singleton, start, Nat.zero_add]
  · rename_i refused
    cases reached : run getcStep (start c) (calls content (content.length + 1)) with
    | none => rfl
    | some final => rw [Option.bind_some, if_neg (incomplete refused final reached)]

/-- A store that happens is inside. -/
theorem Stores.inside {s next : Reader} {c : UInt8} (stores : Stores s c)
    (stepped : getcStep s (some c) = some next) : s.i < sublineSize := by
  obtain ⟨phase, plain, empty⟩ := stores
  have appends : ∃ after, appendChar s c = some after := by
    simp only [getcStep, phase, plain, if_false, readChar] at stepped
    obtain ⟨after, taken, _⟩ := Option.map_eq_some_iff.mp stepped
    refine ⟨after, ?_⟩
    by_cases here : c = newline
    · simpa [here, empty here] using taken
    · simpa [here] using taken
  obtain ⟨after, appended⟩ := appends
  obtain ⟨changed, stored, _⟩ := Option.map_eq_some_iff.mp appended
  have fits := (storeBytes_isSome s.subline s.i [c]).mp (by rw [stored]; rfl)
  rw [List.length_singleton] at fits
  omega

/-- At the end of the file the function ends, or it stands in a comment. -/
theorem eof_cases {s next : Reader} (stepped : getcStep s none = some next) :
    next.phase = .ended ∨ next.phase = .skipping := by
  cases phase : s.phase with
  | reading =>
      simp only [getcStep, phase] at stepped
      cases stepped
      exact Or.inl rfl
  | skipping =>
      simp only [getcStep, phase, reduceCtorEq, if_false] at stepped
      cases stepped
      exact Or.inr phase
  | ended =>
      simp only [getcStep, phase] at stepped
      cases stepped
      exact Or.inl phase

/-- A function that ends at all has ended at the first `EOF`. -/
theorem ended_at_eof {s final : Reader} {content : List UInt8} {count : Nat}
    (reached : run getcStep s (calls content count) = some final) (ended : final.phase = .ended) :
    ∃ last, run getcStep s (calls content (content.length + 1)) = some last ∧
      last.phase = .ended := by
  rcases Nat.le_total count (content.length + 1) with early | late
  · obtain ⟨more, whole⟩ := Nat.exists_eq_add_of_le early
    rw [whole, calls_add, run_append, reached, Option.bind_some, run_ended ended]
    exact ⟨final, rfl, ended⟩
  · obtain ⟨more, rfl⟩ := Nat.exists_eq_add_of_le late
    rw [calls_add, run_append] at reached
    obtain ⟨last, before, behind⟩ := Option.bind_eq_some_iff.mp reached
    refine ⟨last, before, ?_⟩
    rw [calls_succ, List.getElem?_eq_none (Nat.le_refl _), run_append] at before
    obtain ⟨mid, _, stepped⟩ := Option.bind_eq_some_iff.mp before
    rw [run_singleton] at stepped
    rcases eof_cases stepped with done | skipping
    · exact done
    · rw [List.drop_eq_nil_of_le (by omega), run_skipping skipping] at behind
      cases behind
      exact ended

/-- The index at a store is inside when the call behind it is not the last that can be made. -/
theorem stores_inside {s last : Reader} {content : List UInt8}
    (reached : run getcStep s (calls content (content.length + 1)) = some last) {count : Nat}
    {mid : Reader} {c : UInt8} (before : run getcStep s (calls content count) = some mid)
    (read : content[count]? = some c) (stores : Stores mid c) : mid.i < sublineSize := by
  obtain ⟨inside, _⟩ := List.getElem?_eq_some_iff.mp read
  obtain ⟨more, whole⟩ := Nat.exists_eq_add_of_lt inside
  rw [show content.length + 1 = count + 1 + (more + 1) by omega, calls_add, calls_succ, read,
    run_append, run_append, before, Option.bind_some, run_singleton] at reached
  obtain ⟨next, stepped, _⟩ := Option.bind_eq_some_iff.mp reached
  exact stores.inside stepped

theorem safe_iff (content : List UInt8) {s : Reader} {comment : Bool} {held : List UInt8}
    {room : Nat} (state : Describes s comment held) (all : s.total + room = maxVmProcNum) :
    Safe s content ↔ Gathers Reads Fits room comment held content := by
  obtain ⟨complete, incomplete⟩ := run_calls content state all
  constructor
  · rintro ⟨⟨count, final, reached, ended⟩, _⟩
    by_contra refused
    obtain ⟨last, whole, done⟩ := ended_at_eof reached ended
    exact incomplete refused last whole done
  · intro completes
    obtain ⟨final, reached, ended, _⟩ := complete completes
    exact ⟨⟨_, final, reached, ended⟩, fun _ _ _ => stores_inside reached⟩

/-- The function comes to its end, with every store inside `subline`, exactly when that array
takes the texts it gathers for the first twelve names, with their strings, and, unless there
are twelve, what is left outside a comment. -/
theorem readUtmProcessConfig_ends (c : VmctConfig) (content : List UInt8) :
    Safe (start c) content ↔ Gathers Reads Fits maxVmProcNum false [] content :=
  safe_iff content (start_describes c) (show (0 : Nat) + maxVmProcNum = maxVmProcNum by decide)

/-- Two hundred bytes without a newline fill `subline`, and one more does not fit. -/
example : Gathers Reads Fits maxVmProcNum false [] (List.replicate 200 97) ∧
    ¬ Gathers Reads Fits maxVmProcNum false [] (List.replicate 201 97) := by
  decide +kernel

/-- A comment without a newline behind it. -/
theorem readUtmProcessConfig_open :
    ¬ Safe (start fun o => .zero (size o)) (chars "sshd # the shell") :=
  (safe_iff _ (start_describes _) (show (0 : Nat) + 12 = 12 by decide)).not.mpr
    (show ¬ Gathers Reads Fits 12 false [] (chars "sshd # the shell") by decide)

end VnfMonitoring.VmctProcess
