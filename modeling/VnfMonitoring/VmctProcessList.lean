import VnfMonitoring.VmctProcess

set_option autoImplicit false

/- The list of processes against the lines of its file: when `ReadUtmProcessConfig` finds
exactly their names. -/
namespace VnfMonitoring.VmctProcessList

open VnfMonitoring.Memory VnfMonitoring.Runs VnfMonitoring.Objects VnfMonitoring.Lines
  VnfMonitoring.Fields VnfMonitoring.Bpapp VnfMonitoring.DbmbStatus VnfMonitoring.ConfFile
  VnfMonitoring.VmctConf VnfMonitoring.VmctProcess

/-- The names that lines give: their texts in front of a comment that are not empty. -/
def names (lines : List (List UInt8)) : List (List UInt8) :=
  (lines.map (cut commentMark)).filter (· ≠ [])

/-- What `vmct_proc` holds: so many names, each as a string in its entry. -/
def Holds (order : ByteOrder) (c : VmctConfig) (expected : List (List UInt8)) : Prop :=
  load32 order (c .vmctConf) pcount.offset = some (UInt32.ofNat expected.length) ∧
    ∀ i name, expected[i]? = some name → cstr (Objects.read c (processName i)) = some name

/-- The function returns, with the first twelve names of the lines. -/
def Lists (order : ByteOrder) (c : VmctConfig) (lines : List (List UInt8)) : Prop :=
  ∃ final, readUtmProcessConfig order c (some (ended newline lines)) = some (0, final) ∧
    Holds order final ((names lines).take maxVmProcNum)

/-- Each of the next `room` names comes out on its own: the lines up to the first one without
a comment have no other, and behind the last name there is at most one such line. -/
inductive Kept : Nat → List (List UInt8) → Prop
  | full (lines : List (List UInt8)) : Kept 0 lines
  | done {room : Nat} {lines : List (List UInt8)} (empty : names lines = [])
      (few : (lines.filter (commentMark ∉ ·)).length ≤ 1) : Kept (room + 1) lines
  | name {room : Nat} {cuts behind : List (List UInt8)} {line name : List UInt8}
      (marked : ∀ other ∈ cuts, commentMark ∈ other) (plain : commentMark ∉ line)
      (only : names (cuts ++ [line]) = [name]) (text : (0 : UInt8) ∉ name)
      (rest : Kept room behind) : Kept (room + 1) (cuts ++ line :: behind)
  /-- The twelfth name may be followed by texts that a NUL hides. -/
  | last {cuts behind more : List (List UInt8)} {line name next : List UInt8}
      (marked : ∀ other ∈ cuts, commentMark ∈ other) (plain : commentMark ∉ line)
      (first : names (cuts ++ [line]) = name :: (0 :: next) :: more) (text : (0 : UInt8) ∉ name)
      (fits : (names (cuts ++ [line])).flatten.length ≤ sublineSize) :
      Kept 1 (cuts ++ line :: behind)

section Names

theorem names_append (lines others : List (List UInt8)) :
    names (lines ++ others) = names lines ++ names others := by
  rw [names, List.map_append, List.filter_append]
  rfl

theorem mem_names {lines : List (List UInt8)} {name : List UInt8} (member : name ∈ names lines) :
    name ≠ [] ∧ ∃ line ∈ lines, name = cut commentMark line := by
  obtain ⟨inside, some_⟩ := List.mem_filter.mp member
  obtain ⟨line, there, rfl⟩ := List.mem_map.mp inside
  exact ⟨by simpa using some_, line, there, rfl⟩

theorem newline_notMem_names {lines : List (List UInt8)} {name : List UInt8}
    (whole : ∀ line ∈ lines, newline ∉ line) (member : name ∈ names lines) : newline ∉ name := by
  obtain ⟨_, line, inside, rfl⟩ := mem_names member
  exact fun here => whole line inside (mem_of_mem_cut here).1

theorem names_flatten (lines : List (List UInt8)) :
    (names lines).flatten = (lines.map (cut commentMark)).flatten := by
  rw [names]
  induction lines.map (cut commentMark) with
  | nil => rfl
  | cons text rest ih =>
      by_cases empty : text = []
      · rw [List.filter_cons_of_neg (by simpa using empty), ih, empty]
        rfl
      · rw [List.filter_cons_of_pos (by simpa using empty), List.flatten_cons, ih,
          List.flatten_cons]

end Names

section Entries

theorem mem_nameWrites {given : List (List UInt8)} {i : Nat} {w : Write Obj}
    (member : w ∈ nameWrites i given) :
    ∃ j name, i ≤ j ∧ j < i + given.length ∧ name ∈ given ∧ w = copyTo (processName j) name := by
  induction given generalizing i with
  | nil => cases member
  | cons name given ih =>
      rcases List.mem_cons.mp member with rfl | later
      · exact ⟨i, name, Nat.le_refl i, by simp, List.mem_cons_self, rfl⟩
      · obtain ⟨j, other, from_, upto, inside, rfl⟩ := ih later
        exact ⟨j, other, by omega, by simp only [List.length_cons]; omega,
          List.mem_cons_of_mem name inside, rfl⟩

/-- The function keeps what is in front of `vmct_proc`. -/
theorem readUtmProcessConfig_keeps {order : ByteOrder} {c final : VmctConfig}
    {file : Option (List UInt8)} {ret : Int} {field : Place Obj}
    (front : field.obj ≠ .vmctConf ∨ field.offset + field.width ≤ pcount.offset)
    (done : readUtmProcessConfig order c file = some (ret, final)) :
    Objects.read final field = Objects.read c field := by
  cases file with
  | none =>
      cases done
      rfl
  | some content =>
      rw [readUtmProcessConfig_eq] at done
      split at done
      · obtain ⟨_, written, pair⟩ := Option.map_eq_some_iff.mp done
        cases pair
        refine read_run (fun w member => ?_) written
        rcases front with other | before
        · rcases List.mem_append.mp member with entry | number
          · obtain ⟨_, _, _, _, _, rfl⟩ := mem_nameWrites entry
            exact Or.inl (Ne.symm other)
          · obtain rfl := List.mem_singleton.mp number
            exact Or.inl (Ne.symm other)
        · refine Or.inr (Or.inr (Nat.le_trans before ?_))
          rcases List.mem_append.mp member with entry | number
          · obtain ⟨_, _, _, _, _, rfl⟩ := mem_nameWrites entry
            simp only [Write.place, copyTo, processName, pcount]
            omega
          · obtain rfl := List.mem_singleton.mp number
            exact Nat.le_refl _
      · cases done

/-- An entry keeps what is written to it, also while the ones behind it are. -/
theorem cstr_processName (order : ByteOrder) {c final : VmctConfig} {name : List UInt8}
    {given : List (List UInt8)} {i count : Nat} (text : (0 : UInt8) ∉ name)
    (done : run write c (nameWrites i (name :: given) ++
      [word32 order pcount (UInt32.ofNat count)]) = some final) :
    cstr (Objects.read final (processName i)) = if name.length < 64 then some name else none := by
  rw [nameWrites, List.cons_append] at done
  obtain ⟨changed, first, later⟩ := run_cons_some done
  have kept : Objects.read final (processName i) = Objects.read changed (processName i) := by
    refine read_run (fun w member => ?_) later
    rcases List.mem_append.mp member with inside | number
    · obtain ⟨j, other, from_, _, _, rfl⟩ := mem_nameWrites inside
      refine Or.inr (Or.inr ?_)
      simp only [Write.place, copyTo, processName]
      omega
    · obtain rfl := List.mem_singleton.mp number
      refine Or.inr (Or.inl ?_)
      simp only [Write.place, word32, pcount, processName, ByteOrder.bytesOf_length]
      omega
  have here : Objects.read changed (processName i) =
      (name ++ [(0 : UInt8)] ++
        (Objects.read c (processName i)).drop (name ++ [(0 : UInt8)]).length).take 64 :=
    read_write first 64
  rw [kept, here]
  split
  · rename_i short
    have inside : (name ++ [(0 : UInt8)]).length ≤ 64 := by
      rw [List.length_append, List.length_singleton]
      exact short
    rw [List.take_append, List.take_of_length_le inside, List.append_assoc]
    exact cstr_append name _ text
  · rename_i long
    rw [← Option.not_isSome_iff_eq_none, cstr_isSome, List.append_assoc,
      List.take_append_of_le_length (Nat.not_lt.mp long)]
    exact fun zero => text (List.mem_of_mem_take zero)

theorem nameWrites_append (i : Nat) (given others : List (List UInt8)) :
    nameWrites i (given ++ others) = nameWrites i given ++ nameWrites (i + given.length) others := by
  induction given generalizing i with
  | nil => rfl
  | cons name given ih =>
      rw [List.cons_append, nameWrites, ih, nameWrites, List.cons_append, List.length_cons,
        Nat.add_right_comm, Nat.add_assoc]

/-- The entries behind a run hold the names exactly when the run wrote them. -/
theorem holds_iff (order : ByteOrder) {c final : VmctConfig} {given expected : List (List UInt8)}
    (texts : ∀ name ∈ given, (0 : UInt8) ∉ name) (few : given.length ≤ maxVmProcNum)
    (few' : expected.length ≤ maxVmProcNum) (short : ∀ name ∈ expected, name.length < 64)
    (done : run write c (nameWrites 0 given ++
      [word32 order pcount (UInt32.ofNat given.length)]) = some final) :
    Holds order final expected ↔ given = expected := by
  have count : load32 order (final .vmctConf) pcount.offset =
      some (UInt32.ofNat given.length) := by
    rw [run_append] at done
    obtain ⟨changed, _, last⟩ := Option.bind_eq_some_iff.mp done
    rw [run_singleton] at last
    have stored := region_write last
    rw [word32, ByteOrder.bytesOf_length] at stored
    exact load32_region (by decide) stored
  have entry (i : Nat) (name : List UInt8) (here : given[i]? = some name) :
      cstr (Objects.read final (processName i)) = if name.length < 64 then some name else none := by
    obtain ⟨inside, rfl⟩ := List.getElem?_eq_some_iff.mp here
    have split : given = given.take i ++ given[i] :: given.drop (i + 1) := by
      rw [List.getElem_cons_drop, List.take_append_drop]
    rw [split, nameWrites_append, List.append_assoc, run_append, List.length_take_of_le (by omega),
      Nat.zero_add] at done
    obtain ⟨between, _, later⟩ := Option.bind_eq_some_iff.mp done
    exact cstr_processName order (texts _ (List.getElem_mem inside)) later
  constructor
  · rintro ⟨number, entries⟩
    have length : given.length = expected.length := by
      have same := congrArg UInt32.toNat (Option.some.inj (count.symm.trans number))
      unfold maxVmProcNum at few few'
      rwa [UInt32.toNat_ofNat_of_lt' (by show _ < 4294967296; omega),
        UInt32.toNat_ofNat_of_lt' (by show _ < 4294967296; omega)] at same
    apply List.ext_getElem length
    intro i inside inside'
    have found := entry i given[i] (List.getElem?_eq_getElem inside)
    rw [entries i expected[i] (List.getElem?_eq_getElem inside')] at found
    split at found
    · exact (Option.some.inj found).symm
    · cases found
  · rintro rfl
    refine ⟨count, fun i name here => ?_⟩
    rw [entry i name here, if_pos (short name (List.mem_of_getElem? here))]

theorem zero_not_mem_cname (text : List UInt8) : (0 : UInt8) ∉ cname text := fun zero => by
  simpa using List.mem_takeWhile_imp zero

/-- The file is listed when nothing stops the function and the texts it gathers are read as
the names. -/
theorem lists_iff (order : ByteOrder) (c : VmctConfig) {lines : List (List UInt8)}
    (short : ∀ line ∈ lines, line.length ≤ 63) :
    Lists order c lines ↔ Gathers Reads Fits maxVmProcNum false [] (ended newline lines) ∧
      ((gathered [] (visible false (ended newline lines))).1.take maxVmProcNum).map cname =
        (names lines).take maxVmProcNum := by
  have fits (name : List UInt8) (member : name ∈ (names lines).take maxVmProcNum) :
      name.length < 64 := by
    obtain ⟨_, line, inside, rfl⟩ := mem_names (List.mem_of_mem_take member)
    exact Nat.lt_succ_of_le (Nat.le_trans (List.takeWhile_prefix _).length_le (short line inside))
  unfold Lists
  rw [readUtmProcessConfig_eq]
  generalize given_ : (gathered [] (visible false (ended newline lines))).1.take maxVmProcNum = given
  have few : given.length ≤ maxVmProcNum := given_ ▸ List.length_take_le _ _
  have compared (final : VmctConfig) (done : run write c (nameWrites 0 (given.map cname) ++
      [word32 order pcount (UInt32.ofNat given.length)]) = some final) :
      Holds order final ((names lines).take maxVmProcNum) ↔
        given.map cname = (names lines).take maxVmProcNum := by
    rw [← List.length_map cname] at done few
    refine holds_iff order (fun name member => ?_) few (List.length_take_le _ _) fits done
    obtain ⟨text, _, rfl⟩ := List.mem_map.mp member
    exact zero_not_mem_cname text
  constructor
  · rintro ⟨final, found, holds⟩
    split at found
    · rename_i completes
      obtain ⟨_, done, pair⟩ := Option.map_eq_some_iff.mp found
      cases pair
      exact ⟨completes, (compared final done).mp holds⟩
    · cases found
  · rintro ⟨completes, same⟩
    rw [if_pos completes, same]
    have inside : ∀ w ∈ nameWrites 0 ((names lines).take maxVmProcNum) ++
        [word32 order pcount (UInt32.ofNat given.length)],
        w.offset + w.bytes.length ≤ size w.obj := by
      intro w member
      rcases List.mem_append.mp member with entry | number
      · obtain ⟨j, name, _, upto, listed, rfl⟩ := mem_nameWrites entry
        have room := fits name listed
        have few : ((names lines).take maxVmProcNum).length ≤ 12 := List.length_take_le _ _
        simp only [copyTo, processName, size, List.length_append, List.length_singleton]
        omega
      · obtain rfl := List.mem_singleton.mp number
        simp [word32, pcount, size, ByteOrder.bytesOf_length]
    obtain ⟨final, done⟩ := Option.isSome_iff_exists.mp ((run_isSome_iff c _).mpr inside)
    exact ⟨final, by rw [done]; rfl, (compared final (same ▸ done)).mpr same⟩

end Entries

section Lines

theorem visible_append {front : List UInt8} (plain : commentMark ∉ front) (rest : List UInt8) :
    visible false (front ++ rest) = front ++ visible false rest := by
  induction front with
  | nil => rfl
  | cons c front ih =>
      rw [List.mem_cons, not_or] at plain
      rw [List.cons_append, visible, if_neg (Ne.symm plain.1), ih plain.2, List.cons_append]

theorem visible_comment {line : List UInt8} (whole : newline ∉ line) (rest : List UInt8) :
    visible true (line ++ newline :: rest) = visible false rest := by
  induction line with
  | nil => simp [visible]
  | cons c line ih =>
      rw [List.mem_cons, not_or] at whole
      rw [List.cons_append, visible, decide_eq_true (Ne.symm whole.1), ih whole.2]

/-- A line with a comment leaves its text, without a newline. -/
theorem visible_marked {line : List UInt8} (whole : newline ∉ line) (marked : commentMark ∈ line)
    (rest : List UInt8) :
    visible false (line ++ newline :: rest) = cut commentMark line ++ visible false rest := by
  obtain ⟨behind, split⟩ := exists_cut marked
  have plain : commentMark ∉ cut commentMark line := fun mark => (mem_of_mem_cut mark).2 rfl
  have open_ : newline ∉ behind := fun member => whole (by
    rw [split]
    exact List.mem_append_right _ (List.mem_cons_of_mem _ member))
  calc visible false (line ++ newline :: rest)
      = visible false (cut commentMark line ++ commentMark :: (behind ++ newline :: rest)) := by
        conv_lhs => rw [split]
        simp
    _ = cut commentMark line ++ visible true (behind ++ newline :: rest) := by
        rw [visible_append plain, visible, if_pos rfl]
    _ = cut commentMark line ++ visible false rest := by rw [visible_comment open_]

theorem inComment_ended (lines : List (List UInt8)) :
    inComment false (ended newline lines) = false := by
  have line_ (comment : Bool) (line rest : List UInt8) :
      inComment comment (line ++ newline :: rest) = inComment false rest := by
    induction line generalizing comment with
    | nil => cases comment <;> simp [inComment, show newline ≠ commentMark by decide]
    | cons c line ih => cases comment <;> exact ih _
  induction lines with
  | nil => rfl
  | cons line lines ih => rw [ended_cons, line_, ih]

theorem gathered_append {piece : List UInt8} (whole : newline ∉ piece) (held rest : List UInt8) :
    gathered held (piece ++ rest) = gathered (held ++ piece) rest := by
  induction piece generalizing held with
  | nil => simp
  | cons c piece ih =>
      rw [List.mem_cons, not_or] at whole
      rw [List.cons_append, gathered, if_neg fun here => whole.1 here.1.symm, ih whole.2,
        List.append_assoc]
      rfl

/-- What is gathered from lines, behind what is held. -/
def taken (held : List UInt8) (lines : List (List UInt8)) : List (List UInt8) × List UInt8 :=
  gathered held (visible false (ended newline lines))

variable {held line : List UInt8} {lines : List (List UInt8)}

theorem taken_marked (whole : newline ∉ line) (marked : commentMark ∈ line) :
    taken held (line :: lines) = taken (held ++ cut commentMark line) lines := by
  rw [taken, ended_cons, visible_marked whole marked,
    gathered_append fun member => whole (mem_of_mem_cut member).1]
  rfl

theorem taken_plain (whole : newline ∉ line) (plain : commentMark ∉ line) :
    taken held (line :: lines) =
      if IsName (held ++ line) then ((held ++ line) :: (taken [] lines).1, (taken [] lines).2)
      else taken (held ++ line ++ [newline]) lines := by
  rw [taken, ended_cons, visible_append plain, gathered_append whole, visible,
    if_neg (by decide), gathered]
  simp only [true_and]
  rfl

theorem taken_cuts {cuts : List (List UInt8)} (whole : ∀ line ∈ cuts, newline ∉ line)
    (marked : ∀ line ∈ cuts, commentMark ∈ line) (held : List UInt8) :
    taken held (cuts ++ lines) = taken (held ++ (names cuts).flatten) lines := by
  rw [names_flatten]
  induction cuts generalizing held with
  | nil => simp
  | cons line cuts ih =>
      rw [List.forall_mem_cons] at whole marked
      rw [List.cons_append, taken_marked whole.1 marked.1, ih whole.2 marked.2, List.map_cons,
        List.flatten_cons, List.append_assoc]

/-- Lines with comments end no name. -/
theorem taken_all_marked (whole : ∀ line ∈ lines, newline ∉ line)
    (marked : ∀ line ∈ lines, commentMark ∈ line) (held : List UInt8) :
    taken held lines = ([], held ++ (names lines).flatten) := by
  have through : taken held (lines ++ []) = taken (held ++ (names lines).flatten) [] :=
    taken_cuts whole marked held
  rw [List.append_nil] at through
  exact through

/-- A text that is held is at the front of the next one gathered. -/
theorem prefix_of_gathered {content text : List UInt8} {more : List (List UInt8)}
    (first : (gathered held content).1 = text :: more) : held <+: text := by
  induction content generalizing held with
  | nil => cases first
  | cons c rest ih =>
      rw [gathered] at first
      split at first
      · cases first
        exact List.prefix_rfl
      · exact (List.prefix_append held [c]).trans (ih first)

/-- A line without a comment ends a name that is held. -/
theorem marked_of_taken (name : IsName held) (whole : ∀ line ∈ lines, newline ∉ line)
    (none_ : (taken held lines).1 = []) : ∀ line ∈ lines, commentMark ∈ line := by
  induction lines generalizing held with
  | nil => nofun
  | cons line lines ih =>
      rw [List.forall_mem_cons] at whole ⊢
      by_cases marked : commentMark ∈ line
      · rw [taken_marked whole.1 marked] at none_
        exact ⟨marked, ih (name.append _) whole.2 none_⟩
      · rw [taken_plain whole.1 marked, if_pos (name.append _)] at none_
        cases none_

theorem first_plain (lines : List (List UInt8)) :
    (∀ line ∈ lines, commentMark ∈ line) ∨
      ∃ cuts line behind, lines = cuts ++ line :: behind ∧ (∀ other ∈ cuts, commentMark ∈ other) ∧
        commentMark ∉ line := by
  induction lines with
  | nil => exact Or.inl nofun
  | cons line lines ih =>
      by_cases marked : commentMark ∈ line
      · rcases ih with all | ⟨cuts, other, behind, rfl, cutsMarked, plain⟩
        · exact Or.inl (List.forall_mem_cons.mpr ⟨marked, all⟩)
        · exact Or.inr ⟨line :: cuts, other, behind, rfl,
            List.forall_mem_cons.mpr ⟨marked, cutsMarked⟩, plain⟩
      · exact Or.inr ⟨[], line, lines, rfl, nofun, marked⟩

end Lines

section Kept

variable {lines : List (List UInt8)}

theorem isName_of_text {name : List UInt8} (some_ : name ≠ []) (text : (0 : UInt8) ∉ name) :
    IsName name := by
  obtain ⟨c, rest, rfl⟩ := List.exists_cons_of_ne_nil some_
  exact ⟨c, rest, rfl, fun zero => text (by rw [zero]; exact List.mem_cons_self)⟩

theorem cname_eq_self {name : List UInt8} (text : (0 : UInt8) ∉ name) : cname name = name :=
  cut_eq_self text

theorem names_plain {line : List UInt8} (plain : commentMark ∉ line) :
    (names [line]).flatten = line := by
  rw [names_flatten, List.map_singleton, cut_eq_self plain, List.flatten_singleton]

/-- Up to the first line without a comment, from nothing held. -/
theorem taken_first {cuts behind : List (List UInt8)} {line : List UInt8}
    (whole : ∀ other ∈ cuts ++ line :: behind, newline ∉ other)
    (marked : ∀ other ∈ cuts, commentMark ∈ other) (plain : commentMark ∉ line) :
    taken [] (cuts ++ line :: behind) =
      if IsName (names (cuts ++ [line])).flatten then
        ((names (cuts ++ [line])).flatten :: (taken [] behind).1, (taken [] behind).2)
      else taken ((names (cuts ++ [line])).flatten ++ [newline]) behind := by
  rw [List.forall_mem_append, List.forall_mem_cons] at whole
  rw [taken_cuts whole.1 marked, taken_plain whole.2.1 plain, names_append, List.flatten_append,
    names_plain plain, List.nil_append]

/-- Lines without a name, at most one of which has no comment, leave no name and at most a
newline. -/
theorem taken_empty (whole : ∀ line ∈ lines, newline ∉ line) (empty : names lines = [])
    (few : (lines.filter (commentMark ∉ ·)).length ≤ 1) :
    (taken [] lines).1 = [] ∧ (taken [] lines).2.length ≤ 1 := by
  rcases first_plain lines with marked | ⟨cuts, line, behind, rfl, marked, plain⟩
  · rw [taken_all_marked whole marked, empty]
    simp
  · have front : names (cuts ++ [line]) = [] ∧ names behind = [] := by
      rw [← List.append_eq_nil_iff, ← names_append, List.append_assoc]
      exact empty
    have others : ∀ other ∈ behind, commentMark ∈ other := by
      rw [List.filter_append, List.filter_cons_of_pos (by simpa using plain), List.length_append,
        List.length_cons] at few
      have none_ : behind.filter (commentMark ∉ ·) = [] :=
        List.length_eq_zero_iff.mp (by omega)
      simpa using List.filter_eq_nil_iff.mp none_
    rw [taken_first whole marked plain, front.1, List.flatten_nil, if_neg (by simp [IsName])]
    rw [List.forall_mem_append, List.forall_mem_cons] at whole
    rw [taken_all_marked whole.2.2 others, front.2]
    simp

/-- When the names come out one by one, the function gathers them. -/
theorem names_of_kept {room : Nat} (kept : Kept room lines)
    (whole : ∀ line ∈ lines, newline ∉ line) (short : ∀ line ∈ lines, line.length ≤ 63) :
    (∀ text ∈ (taken [] lines).1.take room, Reads text) ∧
      (room ≤ (taken [] lines).1.length ∨ Fits (taken [] lines).2) ∧
      ((taken [] lines).1.take room).map cname = (names lines).take room := by
  induction kept with
  | full lines => simp
  | done empty few =>
      obtain ⟨none_, rest⟩ := taken_empty whole empty few
      have fits : Fits (taken [] _).2 := Nat.le_trans rest (by decide)
      rw [none_, empty]
      exact ⟨by simp, Or.inr fits, by simp⟩
  | @name room cuts behind line name marked plain only text _ ih =>
      have listed : name ∈ names (cuts ++ [line]) := by rw [only]; exact List.mem_cons_self
      obtain ⟨some_, other, inside, cutAt⟩ := mem_names listed
      have length : name.length ≤ 63 := by
        rw [cutAt]
        refine Nat.le_trans (List.takeWhile_prefix _).length_le (short other ?_)
        simp only [List.mem_append, List.mem_cons] at inside ⊢
        tauto
      have first := taken_first whole marked plain
      rw [only, List.flatten_singleton, if_pos (isName_of_text some_ text)] at first
      have whole' := whole
      rw [List.forall_mem_append, List.forall_mem_cons] at whole' short
      obtain ⟨reads, fits, same⟩ := ih whole'.2.2 short.2.2
      have split : names (cuts ++ line :: behind) = name :: names behind := by
        rw [List.append_cons, names_append, only]
        rfl
      rw [first, split]
      refine ⟨?_, ?_, ?_⟩
      · rw [List.take_succ_cons, List.forall_mem_cons]
        exact ⟨Or.inl (Nat.lt_of_le_of_lt length (by decide)), reads⟩
      · rw [List.length_cons, Nat.add_le_add_iff_right]
        exact fits
      · rw [List.take_succ_cons, List.map_cons, List.take_succ_cons, same,
          cname_eq_self text]
  | @last cuts behind more line name next marked plain first text fits =>
      have listed : name ∈ names (cuts ++ [line]) := by rw [first]; exact List.mem_cons_self
      have held : (names (cuts ++ [line])).flatten = name ++ 0 :: (next ++ more.flatten) := by
        rw [first]
        rfl
      have gathers := taken_first whole marked plain
      have isName : IsName (names (cuts ++ [line])).flatten := by
        rw [held]
        exact (isName_of_text (mem_names listed).1 text).append _
      rw [if_pos isName] at gathers
      have split : names (cuts ++ line :: behind) =
          name :: ((0 :: next) :: more ++ names behind) := by
        rw [List.append_cons, names_append, first]
        rfl
      have reads : Reads (names (cuts ++ [line])).flatten := by
        rcases Nat.lt_or_eq_of_le fits with below | whole
        · exact Or.inl below
        · exact Or.inr ⟨whole, by rw [held]; exact List.mem_append_right _ List.mem_cons_self⟩
      have string : cname (names (cuts ++ [line])).flatten = name := by
        rw [held]
        exact cut_marked text _
      rw [gathers, split]
      refine ⟨?_, Or.inl (by simp), ?_⟩
      · simpa using reads
      · simpa using string

/-- Behind a newline that is held, a text can only count as no name. -/
theorem marked_of_newline {room : Nat} (whole : ∀ line ∈ lines, newline ∉ line)
    (same : ((taken [newline] lines).1.take (room + 1)).map cname =
      (names lines).take (room + 1)) :
    names lines = [] ∧ ∀ line ∈ lines, commentMark ∈ line := by
  rcases found : (taken [newline] lines).1 with _ | ⟨text, others⟩
  · rw [found] at same
    exact ⟨by simpa using same.symm, marked_of_taken ⟨newline, [], rfl, by decide⟩ whole found⟩
  · obtain ⟨rest, rfl⟩ := prefix_of_gathered found
    rcases expected : names lines with _ | ⟨name, others⟩
    · rw [found, expected] at same
      cases same
    · rw [found, expected] at same
      have front : newline :: cname rest = name := by
        simpa [cname, show newline ≠ 0 by decide] using List.head_eq_of_cons_eq same
      have here : newline ∈ name := front ▸ List.mem_cons_self
      exact absurd here (newline_notMem_names whole (expected ▸ List.mem_cons_self))

/-- Only a NUL keeps the next text out of the string. -/
theorem zero_of_cname {name next behind : List UInt8} (text : (0 : UInt8) ∉ name)
    (some_ : next ≠ []) (string : cname (name ++ (next ++ behind)) = name) :
    ∃ rest, next = 0 :: rest := by
  obtain ⟨c, rest, rfl⟩ := List.exists_cons_of_ne_nil some_
  have nothing : cname (c :: rest ++ behind) = [] :=
    List.append_cancel_left ((cut_append text _).symm.trans (string.trans (List.append_nil _).symm))
  by_cases zero : c = 0
  · exact ⟨rest, by rw [zero]⟩
  · rw [List.cons_append, cname, List.takeWhile_cons_of_pos (by simpa using zero)] at nothing
    cases nothing

/-- The other way round. -/
theorem kept_of_names {room : Nat} (whole : ∀ line ∈ lines, newline ∉ line)
    (reads : ∀ text ∈ (taken [] lines).1.take room, Reads text)
    (same : ((taken [] lines).1.take room).map cname = (names lines).take room) :
    Kept room lines := by
  induction room generalizing lines with
  | zero => exact .full lines
  | succ room ih =>
      rcases first_plain lines with all | ⟨cuts, line, behind, rfl, marked, plain⟩
      · rw [taken_all_marked whole all] at same
        refine .done ?_ ?_
        · simpa using same.symm
        · rw [List.filter_eq_nil_iff.mpr (by simpa using all)]
          exact Nat.zero_le 1
      have gathers := taken_first whole marked plain
      have split : names (cuts ++ line :: behind) = names (cuts ++ [line]) ++ names behind := by
        rw [← names_append, List.append_assoc]
        rfl
      rw [split] at same
      rw [List.forall_mem_append, List.forall_mem_cons] at whole
      rcases listed : names (cuts ++ [line]) with _ | ⟨name, more⟩
      · -- a newline without a name stays in front of the next one
        rw [listed, List.flatten_nil, if_neg (by simp [IsName]), List.nil_append] at gathers
        rw [gathers, listed, List.nil_append] at same
        obtain ⟨empty, others⟩ := marked_of_newline whole.2.2 same
        refine .done (by rw [split, listed, empty, List.nil_append]) ?_
        rw [List.filter_append, List.filter_cons_of_pos (by simpa using plain),
          List.filter_eq_nil_iff.mpr (by simpa using marked),
          List.filter_eq_nil_iff.mpr (by simpa using others)]
        exact Nat.le_refl 1
      · have text (found : List UInt8) (member : found ∈ name :: (more ++ names behind).take room) :
            (0 : UInt8) ∉ found := by
          rw [listed, List.cons_append, List.take_succ_cons] at same
          rw [← same] at member
          obtain ⟨from_, _, rfl⟩ := List.mem_map.mp member
          exact zero_not_mem_cname from_
        have nameText := text name List.mem_cons_self
        have some_ : name ≠ [] := (mem_names (listed ▸ List.mem_cons_self)).1
        rw [if_pos (by rw [listed]; exact (isName_of_text some_ nameText).append _)] at gathers
        rw [gathers, List.take_succ_cons] at reads
        rw [gathers, listed, List.take_succ_cons, List.cons_append, List.take_succ_cons,
          List.map_cons] at same
        obtain ⟨string, later⟩ := List.cons.inj same
        rw [List.forall_mem_cons] at reads
        rcases more with _ | ⟨second, others⟩
        · exact .name marked plain listed nameText (ih whole.2.2 reads.2 later)
        · have inside : second ∈ names (cuts ++ [line]) := by simp [listed]
          obtain ⟨next, rfl⟩ := zero_of_cname nameText (mem_names inside).1 string
          cases room with
          | zero =>
              refine .last marked plain listed nameText ?_
              exact reads.1.elim Nat.le_of_lt fun whole => Nat.le_of_eq whole.1
          | succ room => exact absurd List.mem_cons_self (text (0 :: next) (by simp))

end Kept

/-- The function lists the names of a file, all lines of which fit a name, exactly when they
come out one by one. -/
theorem readUtmProcessConfig_lists (order : ByteOrder) (c : VmctConfig)
    {lines : List (List UInt8)} (whole : ∀ line ∈ lines, newline ∉ line)
    (short : ∀ line ∈ lines, line.length ≤ 63) :
    Lists order c lines ↔ Kept maxVmProcNum lines := by
  rw [lists_iff order c short, Gathers]
  constructor
  · rintro ⟨gathers, same⟩
    exact kept_of_names whole gathers.1 same
  · intro kept
    obtain ⟨reads, fits, same⟩ := names_of_kept kept whole short
    exact ⟨⟨reads, fits.imp_right fun rest => ⟨rest, inComment_ended lines⟩⟩, same⟩

theorem readUtmProcessConfig_lists_two :
    Lists .little (fun o => .zero (size o)) [chars "# list", chars "sshd", chars "httpd"] := by
  refine (readUtmProcessConfig_lists .little _ (by decide) (by decide)).mpr ?_
  have last : Kept 11 ([] ++ chars "httpd" :: []) :=
    .name (by decide) (by decide) rfl (by decide) (.done rfl (by decide))
  have both : Kept 12 ([chars "# list"] ++ chars "sshd" :: [chars "httpd"]) :=
    .name (by decide) (by decide) rfl (by decide) last
  exact both

/-- Behind a comment, two names become one. -/
theorem readUtmProcessConfig_merges :
    ¬ Lists .little (fun o => .zero (size o)) [chars "sshd # shell", chars "httpd"] := by
  rw [lists_iff .little _ (by decide)]
  exact fun listed => absurd listed.2 (by decide)

end VnfMonitoring.VmctProcessList
