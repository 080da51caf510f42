import VnfMonitoring.HostConf
import VnfMonitoring.VmctProcess

set_option autoImplicit false

/- Comments in `bpapp.cfg`: what a file sets against the texts of its lines, where `fgets`
hands out a long line in several pieces. -/
namespace VnfMonitoring.ConfComment

open VnfMonitoring.Memory VnfMonitoring.Runs VnfMonitoring.Objects VnfMonitoring.Lines
  VnfMonitoring.Fields VnfMonitoring.Bpapp VnfMonitoring.DbmbStatus VnfMonitoring.ConfFile

/-- The lines of a file, each without its comment. -/
def stripped (content : List UInt8) : List (List UInt8) :=
  (content.splitOn newline).map (cut commentMark)

theorem lineText_append (front behind : List UInt8) :
    lineText (front ++ commentMark :: behind) = lineText front := by
  unfold lineText
  rw [List.takeWhile_append, List.takeWhile_cons_of_neg (by simp), List.append_nil]
  split
  · rename_i whole
    exact ((List.takeWhile_prefix _).eq_of_length whole).symm
  · rfl

/-- The first piece of a line whose text it holds has the words of the text. -/
theorem words_piece {line ending : List UInt8} {width : Nat}
    (short : (cut commentMark line).length < width) (blank : ∀ c ∈ ending, c = newline)
    (one : ending.length ≤ 1) :
    words (lineText ((line ++ ending).take width)) = words (lineText (cut commentMark line)) := by
  by_cases marked : commentMark ∈ line
  · obtain ⟨behind, split⟩ := exists_cut marked
    obtain ⟨left, more⟩ := Nat.exists_eq_add_of_lt short
    have front : (line ++ ending).take width =
        cut commentMark line ++ commentMark :: (behind ++ ending).take left := by
      conv_lhs => rw [split]
      rw [List.append_assoc, List.take_append, List.take_of_length_le (Nat.le_of_lt short),
        show width - (cut commentMark line).length = left + 1 by omega, List.cons_append,
        List.take_succ_cons]
    rw [front, lineText_append]
  · rw [cut_eq_self marked] at short ⊢
    rw [List.take_of_length_le (by rw [List.length_append]; omega)]
    match ending, blank, one with
    | [], _, _ => rw [List.append_nil]
    | [c], blank, _ =>
        obtain rfl := blank c List.mem_cons_self
        exact words_newline line

section Quiet

variable {Obj : Type} [DecidableEq Obj] {size : Obj → Nat} {keys : List (Key (Contents size))}
  {settings : List (Setting Obj)} {strSize : Nat}

/-- A piece that sets nothing: its words stay in their array, and if they are an assignment, no
key takes it. -/
def Inert (settings : List (Setting Obj)) (buf : List UInt8) : Prop :=
  ∃ tokens, scanLine buf = some tokens ∧
    ∀ entry ∈ tokens, assigned settings entry.1 entry.2 = []

/-- No piece that continues a line sets anything. -/
def Quiet (settings : List (Setting Obj)) (strSize : Nat) (content : List UInt8) : Prop :=
  ∀ buf ∈ continued newline (pieces newline (strSize - 1) [] content), Inert settings buf

variable (realised : List.Forall₂ Realises keys settings)
include realised

theorem lineparser_inert {buf : List UInt8} (inert : Inert settings buf) (c : Contents size) :
    lineparser keys c buf = some c := by
  obtain ⟨tokens, scanned, void⟩ := inert
  rw [lineparser, scanned, Option.bind_some]
  cases tokens with
  | none => rfl
  | some entry =>
      obtain ⟨name, value⟩ := entry
      change gettoken keys name value c = some c
      rw [gettoken_eq realised name (scanLine_some scanned).1, void (name, value) rfl, run_nil]

theorem run_inert {bufs : List (List UInt8)} (inert : ∀ buf ∈ bufs, Inert settings buf)
    (c : Contents size) : run (lineparser keys) c bufs = some c := by
  induction bufs with
  | nil => rfl
  | cons buf bufs ih =>
      rw [List.forall_mem_cons] at inert
      rw [run_cons, lineparser_inert realised inert.1, Option.bind_some, ih inert.2]

/-- One line, or the last one without a newline. -/
theorem run_line {line ending : List UInt8} (plain : newline ∉ line)
    (short : (cut commentMark line).length < strSize - 1)
    (stops : ending = [newline] ∨ ending = [] ∧ line ≠ []) :
    ∀ others, (ending = [newline] ∨ others = []) →
      (∀ buf ∈ continued newline (pieces newline (strSize - 1) [] (line ++ ending) ++ others),
        Inert settings buf) →
      (∀ c : Contents size,
        run (lineparser keys) c (pieces newline (strSize - 1) [] (line ++ ending)) =
          lineparser keys c (cut commentMark line)) ∧
      ∀ buf ∈ continued newline others, Inert settings buf := by
  intro others ends inert
  have open_ : newline ∉ (line ++ ending).dropLast := by
    rcases stops with rfl | ⟨rfl, _⟩
    · rwa [List.dropLast_concat]
    · rw [List.append_nil]
      exact fun member => plain (List.dropLast_subset line member)
  have some_ : [] ++ (line ++ ending) ≠ [] := by
    rcases stops with rfl | ⟨rfl, more⟩
    · simp
    · simpa using more
  obtain ⟨more, split, later⟩ :=
    pieces_head List.not_mem_nil open_ (Nat.zero_lt_of_lt short) some_
  rw [List.nil_append] at split later
  rw [later others (ends.imp_left fun stop => by rw [stop]; simp)] at inert
  rw [List.forall_mem_append] at inert
  refine ⟨fun c => ?_, inert.2⟩
  have same := words_piece short
    (show ∀ c ∈ ending, c = newline by rcases stops with rfl | ⟨rfl, _⟩ <;> simp)
    (show ending.length ≤ 1 by rcases stops with rfl | ⟨rfl, _⟩ <;> simp)
  rw [split, run_cons, lineparser, scanLine_congr same, ← lineparser]
  cases lineparser keys c (cut commentMark line) with
  | none => rfl
  | some next => exact run_inert realised inert.1 next

/-- A quiet file sets what its texts set. -/
theorem readLines_stripped {content : List UInt8}
    (short : ∀ text ∈ stripped content, text.length < strSize - 1)
    (quiet : Quiet settings strSize content) (c : Contents size) :
    readLines strSize keys c content = run (lineparser keys) c (stripped content) := by
  obtain ⟨lines, last, rfl, plain, open_⟩ := exists_lines newline content
  unfold Quiet at quiet
  unfold readLines
  unfold stripped at short ⊢
  rw [splitOn_ended plain open_] at short ⊢
  induction lines generalizing c with
  | nil =>
      rw [ended_nil, List.nil_append] at quiet ⊢
      by_cases empty : last = []
      · subst empty
        rfl
      · obtain ⟨all, _⟩ := run_line realised open_ (short _ (by simp)) (Or.inr ⟨rfl, empty⟩) []
          (Or.inr rfl) (by rwa [List.append_nil, List.append_nil])
        rw [List.append_nil] at all
        rw [all c]
        exact (run_singleton ..).symm
  | cons line lines ih =>
      rw [ended_cons, List.append_assoc, List.cons_append, pieces_line] at quiet ⊢
      rw [List.forall_mem_cons] at plain
      rw [List.cons_append, List.map_cons, List.forall_mem_cons] at short
      obtain ⟨first, rest⟩ := run_line realised plain.1 short.1 (Or.inl rfl) _ (Or.inl rfl) quiet
      rw [run_append, first c, List.cons_append, List.map_cons, run_cons]
      exact Option.bind_congr fun next _ => ih next short.2 rest plain.2

/-- A file of nothing but comments changes nothing exactly when it is quiet. -/
theorem quiet_iff {content : List UInt8}
    (placed : ∀ setting ∈ settings, setting.Placed) (short : 1 < strSize)
    (empty : ∀ text ∈ stripped content, text = []) :
    (∀ c : Contents size, readLines strSize keys c content = some c) ↔
      Quiet settings strSize content := by
  constructor
  · intro unchanged
    have all (c : Contents size) :=
      (readLines_eq realised strSize c content).symm.trans (unchanged c)
    obtain ⟨given, scanned, _⟩ := Option.bind_eq_some_iff.mp (all fun o => .zero (size o))
    simp only [scanned, Option.bind_some] at all
    have void := eq_nil_of_run (fun w member => by
      obtain ⟨entry, _, inside⟩ := List.mem_flatMap.mp member
      obtain ⟨setting, here, _, writes⟩ := mem_assigned.mp inside
      exact (placed setting here entry.2 w writes).1) all
    intro buf member
    obtain ⟨tokens, found, listed⟩ := tokens_of_assignments scanned (continued_subset _ member)
    exact ⟨tokens, found, fun entry inside =>
      List.flatMap_eq_nil_iff.mp void entry (listed entry inside)⟩
  · intro quiet c
    have inside : ∀ text ∈ stripped content, text.length < strSize - 1 := fun text member => by
      rw [empty text member, List.length_nil]
      omega
    rw [readLines_stripped realised inside quiet]
    refine run_inert realised (fun text member => ?_) c
    rw [empty text member]
    exact ⟨none, rfl, fun entry inside => by cases inside⟩

end Quiet

section Programs

variable (order : ByteOrder) (inetAddr : List UInt8 → UInt32) (d : UInt32)

/-- The pieces that `fgets` hands the host, or the agent, of a line that they do not hold. -/
def HostQuiet (content : List UInt8) : Prop :=
  Quiet (HostConf.settings order inetAddr d) HostConf.strSize content

def VmctQuiet (content : List UInt8) : Prop :=
  Quiet (VmctConf.settings order inetAddr d) VmctConf.strSize content

theorem host_stripped {content : List UInt8} (short : ∀ text ∈ stripped content, text.length ≤ 255)
    (quiet : HostQuiet order inetAddr d content) (c : HostConf.HostConfig) :
    HostConf.readConfig order inetAddr d c (some content) =
      (run (lineparser (HostConf.keys order inetAddr d)) c (stripped content)).map fun c => (0, c) :=
  congrArg (Option.map _) (readLines_stripped (HostConf.keys_realise order inetAddr d)
    (fun text member => Nat.lt_of_le_of_lt (short text member) (by decide)) quiet c)

theorem vmct_stripped {content : List UInt8} (short : ∀ text ∈ stripped content, text.length ≤ 255)
    (quiet : VmctQuiet order inetAddr d content) (c : VmctConf.VmctConfig)
    (processes : Option (List UInt8)) :
    VmctProcess.readConfig order inetAddr d c (some content) processes =
      (run (lineparser (VmctConf.keys order inetAddr d)) c (stripped content)).bind fun c =>
        VmctProcess.readUtmProcessConfig order c processes := by
  rw [← readLines_stripped (VmctConf.keys_realise order inetAddr d)
    (fun text member => Nat.lt_of_le_of_lt (short text member) (by decide)) quiet c]
  rfl

/-- Comments have no influence as long as the pieces that continue their lines are inert; for
files of nothing but comments that is needed, too. -/
theorem readConfig_comments {f g : List UInt8} (same : stripped f = stripped g)
    (short : ∀ text ∈ stripped f, text.length ≤ 255) :
    (HostQuiet order inetAddr d f → HostQuiet order inetAddr d g → ∀ c,
      HostConf.readConfig order inetAddr d c (some f) =
        HostConf.readConfig order inetAddr d c (some g)) ∧
    (VmctQuiet order inetAddr d f → VmctQuiet order inetAddr d g → ∀ c processes,
      VmctProcess.readConfig order inetAddr d c (some f) processes =
        VmctProcess.readConfig order inetAddr d c (some g) processes) ∧
    ((∀ text ∈ stripped f, text = []) →
      ((∀ c, HostConf.readConfig order inetAddr d c (some f) = some (0, c)) ↔
        HostQuiet order inetAddr d f) ∧
      ((∀ c processes, VmctProcess.readConfig order inetAddr d c (some f) processes =
          VmctProcess.readUtmProcessConfig order c processes) ↔
        VmctQuiet order inetAddr d f)) := by
  refine ⟨fun quiet quiet' c => ?_, fun quiet quiet' c processes => ?_, fun empty => ⟨?_, ?_⟩⟩
  · rw [host_stripped order inetAddr d short quiet, same,
      host_stripped order inetAddr d (same ▸ short) quiet']
  · rw [vmct_stripped order inetAddr d short quiet, same,
      vmct_stripped order inetAddr d (same ▸ short) quiet']
  · rw [HostQuiet, ← quiet_iff (HostConf.keys_realise order inetAddr d)
      (HostConf.settings_placed order inetAddr d) (by decide) empty]
    apply forall_congr'
    intro c
    rw [HostConf.readConfig, Option.map_eq_some_iff]
    simp
  · rw [VmctQuiet, ← quiet_iff (VmctConf.keys_realise order inetAddr d)
      (VmctConf.settings_placed order inetAddr d) (by decide) empty]
    refine ⟨fun unchanged c => ?_, fun unchanged c processes => ?_⟩
    · obtain ⟨next, read_, missing⟩ := Option.bind_eq_some_iff.mp (unchanged c none)
      cases missing
      exact read_
    · rw [VmctProcess.readConfig, unchanged c, Option.bind_some]

end Programs

/-- A comment of blanks. -/
def blanks (count : Nat) : List UInt8 := commentMark :: List.replicate count 32

theorem newline_not_mem_blanks (count : Nat) : newline ∉ blanks count := by
  rw [blanks, List.mem_cons, List.mem_replicate, not_or]
  exact ⟨by decide, fun member => absurd member.2 (by decide)⟩

/-- What fills the host's buffer is a piece of its own. -/
theorem pieces_behind {front : List UInt8} (plain : newline ∉ front)
    (full : front.length = HostConf.strSize - 1) (rest : List UInt8) :
    pieces newline (HostConf.strSize - 1) [] (front ++ rest) =
      front :: pieces newline (HostConf.strSize - 1) [] rest := by
  have some_ : front ≠ [] := by
    rintro rfl
    cases full
  rw [pieces_full plain (by rw [List.length_nil, Nat.zero_add, full]) some_, List.nil_append]

/-- A setting with a comment that `fgets` hands the host in two pieces, of which the second has
the form of a setting. -/
def longComment : List UInt8 :=
  (chars "HOST_PORT = 80 " ++ blanks 2031) ++ chars "OLD_PORT = 1"

theorem newline_not_mem_longComment : newline ∉ chars "HOST_PORT = 80 " ++ blanks 2031 :=
  List.not_mem_append (by decide) (newline_not_mem_blanks 2031)

theorem pieces_longComment :
    pieces newline (HostConf.strSize - 1) [] longComment =
      [chars "HOST_PORT = 80 " ++ blanks 2031, chars "OLD_PORT = 1"] := by
  rw [longComment, pieces_behind newline_not_mem_longComment,
    show pieces newline (HostConf.strSize - 1) [] (chars "OLD_PORT = 1") =
      [chars "OLD_PORT = 1"] by decide]
  rw [List.length_append, blanks, List.length_cons, List.length_replicate]
  rfl

theorem stripped_longComment : stripped longComment = [chars "HOST_PORT = 80 "] := by
  have plain : newline ∉ longComment :=
    List.not_mem_append newline_not_mem_longComment (by decide)
  rw [stripped, List.splitOn_eq_singleton plain, List.map_singleton, longComment, blanks,
    List.append_assoc, List.cons_append, cut_marked (by decide)]

theorem readConfig_comments_long :
    HostConf.readConfig .little (fun _ => 0) 0 (HostConf.cleared .little) (some longComment) =
      HostConf.readConfig .little (fun _ => 0) 0 (HostConf.cleared .little)
        (some (chars "HOST_PORT = 80 # web")) := by
  have same : stripped longComment = stripped (chars "HOST_PORT = 80 # web") :=
    stripped_longComment.trans (by decide)
  have short : ∀ text ∈ stripped longComment, text.length ≤ 255 := by
    rw [stripped_longComment]
    decide
  refine (readConfig_comments .little (fun _ => 0) 0 same short).1 ?_ ?_ _
  · intro buf member
    rw [pieces_longComment] at member
    have last : buf = chars "OLD_PORT = 1" := by
      simp only [continued, List.take_succ_cons, List.take_nil, List.append_nil] at member
      split at member
      · cases member
      · exact List.mem_singleton.mp member
    subst last
    refine ⟨some (chars "OLD_PORT", chars "1"), by decide +kernel, fun entry inside => ?_⟩
    cases inside
    rfl
  · intro buf member
    cases member

/-- A comment of 2047 characters, and what follows it on its line. -/
def spilled : List UInt8 := blanks 2046 ++ chars "HOST_PORT = 1"

theorem pieces_spilled :
    pieces newline (HostConf.strSize - 1) [] spilled = [blanks 2046, chars "HOST_PORT = 1"] := by
  rw [spilled, pieces_behind (newline_not_mem_blanks 2046),
    show pieces newline (HostConf.strSize - 1) [] (chars "HOST_PORT = 1") =
      [chars "HOST_PORT = 1"] by decide]
  rw [blanks, List.length_cons, List.length_replicate]
  rfl

theorem assignments_spilled :
    assignments (pieces newline (HostConf.strSize - 1) [] spilled) =
      some [(chars "HOST_PORT", chars "1")] := by
  have comment (count : Nat) : scanLine (blanks count) = some none :=
    (scanLine_congr rfl).trans (show scanLine [] = some none by decide)
  rw [pieces_spilled, assignments, comment, Option.bind_some]
  decide +kernel

/-- The host takes the port that the comment names. -/
theorem readConfig_spilled : stripped spilled = stripped [] ∧
    ∃ c, HostConf.initVariable .little [] [] 0 = some c ∧
      HostConf.readConfig .little (fun _ => 0) 0 c (some spilled) ≠
        HostConf.readConfig .little (fun _ => 0) 0 c (some []) := by
  refine ⟨?_, ?_⟩
  · have plain : newline ∉ spilled :=
      List.not_mem_append (newline_not_mem_blanks 2046) (by decide)
    rw [stripped, List.splitOn_eq_singleton plain]
    rfl
  · obtain ⟨c, initial, port⟩ := Option.map_eq_some_iff.mp
      (show (HostConf.initVariable .little [] [] 0).map
        (fun c => load32 .little (c .tlink) HostConf.port.offset) = some (some 17000) by decide +kernel)
    refine ⟨c, initial, fun same => ?_⟩
    have writes : assignedAll (HostConf.settings .little (fun _ => 0) 0)
        [(chars "HOST_PORT", chars "1")] =
          [word32 .little HostConf.port 1, word16 .little HostConf.hostPort 1] := rfl
    rw [HostConf.readConfig, readLines_eq (HostConf.keys_realise ..), assignments_spilled,
      Option.bind_some, writes] at same
    obtain ⟨final, done, pair⟩ := Option.map_eq_some_iff.mp same
    cases pair
    obtain ⟨changed, first, later⟩ := run_cons_some done
    have kept : Objects.read c HostConf.port = Objects.read changed HostConf.port := by
      refine read_run (fun w member => ?_) later
      obtain rfl := List.mem_singleton.mp member
      exact Or.inl (by decide)
    have one : Objects.read changed HostConf.port = ByteOrder.bytesOf .little 4 1 :=
      region_write first
    have loaded : load32 .little (c .tlink) HostConf.port.offset = some 1 :=
      load32_region (by decide) (kept.trans one)
    rw [loaded] at port
    exact absurd port (by decide)

end VnfMonitoring.ConfComment
