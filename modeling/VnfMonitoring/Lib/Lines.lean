import Mathlib.Data.List.Basic
import Mathlib.Data.List.TakeWhile

set_option autoImplicit false

/- Text in lines, each ended by a stop symbol: reading it in pieces that end with a line
or when a buffer is full, and cutting every line at a mark. -/
namespace VnfMonitoring.Lines

variable {α : Type}

/-- The text of lines that are all ended. -/
def ended (stop : α) (lines : List (List α)) : List α := lines.flatMap fun line => line ++ [stop]

@[simp] theorem ended_nil (stop : α) : ended stop [] = [] := rfl

@[simp] theorem ended_cons (stop : α) (line : List α) (lines : List (List α)) :
    ended stop (line :: lines) = line ++ stop :: ended stop lines := by
  simp [ended]

variable [DecidableEq α]

/-- A line in front of its first mark. -/
def cut (mark : α) (line : List α) : List α := line.takeWhile (· ≠ mark)

theorem cut_append {mark : α} {front : List α} (plain : mark ∉ front) (behind : List α) :
    cut mark (front ++ behind) = front ++ cut mark behind :=
  List.takeWhile_append_of_pos fun x member => by
    simpa using fun here : x = mark => plain (here ▸ member)

theorem cut_marked {mark : α} {front : List α} (plain : mark ∉ front) (behind : List α) :
    cut mark (front ++ mark :: behind) = front := by
  rw [cut_append plain, cut, List.takeWhile_cons_of_neg (by simp), List.append_nil]

theorem cut_eq_self {mark : α} {line : List α} (plain : mark ∉ line) : cut mark line = line :=
  List.takeWhile_eq_self_iff.mpr fun x member => by
    simpa using fun here : x = mark => plain (here ▸ member)

theorem mem_of_mem_cut {mark x : α} {line : List α} (member : x ∈ cut mark line) :
    x ∈ line ∧ x ≠ mark :=
  ⟨List.takeWhile_subset _ member, by simpa using List.mem_takeWhile_imp member⟩

theorem exists_cut {mark : α} {line : List α} (marked : mark ∈ line) :
    ∃ behind, line = cut mark line ++ mark :: behind := by
  obtain ⟨front, behind, rfl, plain⟩ := List.eq_append_cons_of_mem marked
  exact ⟨behind, by rw [cut_marked plain]⟩

/-- Every text is made of ended lines and a last one without its stop. -/
theorem exists_lines (stop : α) (text : List α) :
    ∃ lines last, text = ended stop lines ++ last ∧ (∀ line ∈ lines, stop ∉ line) ∧
      stop ∉ last := by
  induction text with
  | nil => exact ⟨[], [], rfl, by simp, by simp⟩
  | cons c text ih =>
      obtain ⟨lines, last, rfl, plain, open_⟩ := ih
      by_cases here : c = stop
      · subst here
        exact ⟨[] :: lines, last, by simp, by simpa using plain, open_⟩
      · cases lines with
        | nil => exact ⟨[], c :: last, by simp, by simp, by simp [Ne.symm here, open_]⟩
        | cons line lines =>
            rw [List.forall_mem_cons] at plain
            exact ⟨(c :: line) :: lines, last, by simp,
              List.forall_mem_cons.mpr ⟨by simp [Ne.symm here, plain.1], plain.2⟩, open_⟩

theorem splitOn_ended {stop : α} {lines : List (List α)} {last : List α}
    (plain : ∀ line ∈ lines, stop ∉ line) (open_ : stop ∉ last) :
    (ended stop lines ++ last).splitOn stop = lines ++ [last] := by
  induction lines with
  | nil => exact List.splitOn_eq_singleton open_
  | cons line lines ih =>
      rw [List.forall_mem_cons] at plain
      rw [ended_cons, List.append_assoc, List.cons_append, List.splitOn_append_cons_self,
        ih plain.2, List.splitOn_eq_singleton plain.1]
      rfl

section Pieces

/-- Reads of at most `width` symbols that go no further than a stop, one after the other;
`held` is what the current one has. -/
def pieces (stop : α) (width : Nat) (held : List α) : List α → List (List α)
  | [] => if held = [] then [] else [held]
  | c :: rest =>
      if c = stop ∨ (held ++ [c]).length = width then
        (held ++ [c]) :: pieces stop width [] rest
      else pieces stop width (held ++ [c]) rest

variable {stop : α} {width : Nat}

/-- No piece goes over the end of a line. -/
theorem pieces_line (held line rest : List α) :
    pieces stop width held (line ++ stop :: rest) =
      pieces stop width held (line ++ [stop]) ++ pieces stop width [] rest := by
  induction line generalizing held with
  | nil => simp [pieces]
  | cons c line ih =>
      simp only [List.cons_append, pieces]
      split
      · rw [ih, List.cons_append]
      · rw [ih]

/-- A line that is too long for the buffer fills it first. -/
theorem pieces_full {held line rest : List α} (plain : stop ∉ line)
    (full : held.length + line.length = width) (more : line ≠ []) :
    pieces stop width held (line ++ rest) = (held ++ line) :: pieces stop width [] rest := by
  induction line generalizing held with
  | nil => exact absurd rfl more
  | cons c line ih =>
      rw [List.mem_cons, not_or] at plain
      rw [List.length_cons] at full
      rw [List.cons_append, pieces]
      by_cases end_ : line = []
      · subst end_
        rw [if_pos (Or.inr (by simpa using full)), List.nil_append]
      · rw [if_neg, ih plain.2 _ end_]
        · simp
        · simp only [List.length_append, List.length_singleton]
          omega
        · have some_ := List.length_pos_iff.mpr end_
          rw [not_or, List.length_append, List.length_singleton]
          exact ⟨Ne.symm plain.1, by omega⟩

/-- The pieces that continue the line of the one in front of them. -/
def continued (stop : α) : List (List α) → List (List α)
  | [] => []
  | first :: rest =>
      (if first.getLast? = some stop then [] else rest.take 1) ++ continued stop rest

theorem continued_subset (bufs : List (List α)) : continued stop bufs ⊆ bufs := by
  induction bufs with
  | nil => exact List.Subset.refl []
  | cons first rest ih =>
      intro buf member
      rcases List.mem_append.mp member with next | later
      · split at next
        · cases next
        · exact List.mem_cons_of_mem first (List.mem_of_mem_take next)
      · exact List.mem_cons_of_mem first (ih later)

theorem continued_cons {first : List α} {others : List (List α)}
    (ends : first.getLast? = some stop ∨ others = []) :
    continued stop (first :: others) = continued stop others := by
  rw [continued]
  rcases ends with stops | rfl
  · rw [if_pos stops, List.nil_append]
  · simp

/-- The first piece of a text without a stop but at its end, and the ones that continue it. -/
theorem pieces_head {held text : List α} (plain : stop ∉ held) (open_ : stop ∉ text.dropLast)
    (room : held.length < width) (some_ : held ++ text ≠ []) :
    ∃ more, pieces stop width held text = (held ++ text).take width :: more ∧
      ∀ others, ((held ++ text).getLast? = some stop ∨ others = []) →
        continued stop (pieces stop width held text ++ others) = more ++ continued stop others := by
  induction text generalizing held with
  | nil =>
      rw [List.append_nil] at some_ ⊢
      refine ⟨[], ?_, fun others ends => ?_⟩
      · rw [pieces, if_neg some_, List.take_of_length_le (Nat.le_of_lt room)]
      · rw [pieces, if_neg some_]
        exact continued_cons ends
  | cons c rest ih =>
      have text : held ++ c :: rest = held ++ [c] ++ rest := by simp
      rw [pieces, text]
      by_cases last : rest = []
      · subst last
        rw [List.append_nil]
        have whole : pieces stop width (held ++ [c]) [] = [held ++ [c]] := by simp [pieces]
        have same : (if c = stop ∨ (held ++ [c]).length = width then
            (held ++ [c]) :: pieces stop width [] []
          else pieces stop width (held ++ [c]) []) = [held ++ [c]] := by
          rw [whole]
          split <;> rfl
        refine ⟨[], ?_, fun others ends => ?_⟩
        · rw [same, List.take_of_length_le (by simpa using Nat.succ_le_of_lt room)]
        · rw [same]
          exact continued_cons ends
      · rw [List.dropLast_cons_of_ne_nil last, List.mem_cons, not_or] at open_
        by_cases full : (held ++ [c]).length = width
        · obtain ⟨more, split, later⟩ :=
            ih List.not_mem_nil open_.2 (Nat.zero_lt_of_lt room) (by simpa using last)
          rw [List.nil_append] at split later
          rw [if_pos (Or.inr full)]
          refine ⟨pieces stop width [] rest, ?_, fun others ends => ?_⟩
          · rw [List.take_append_of_le_length (Nat.le_of_eq full.symm),
              List.take_of_length_le (Nat.le_of_eq full)]
          · rw [List.cons_append, continued, if_neg (by simp [Ne.symm open_.1]), later others ?_,
              split]
            · rfl
            · rwa [List.getLast?_append_of_ne_nil _ last] at ends
        · have plain' : stop ∉ held ++ [c] := by simp [plain, open_.1]
          rw [if_neg (by rw [not_or]; exact ⟨Ne.symm open_.1, full⟩)]
          rw [List.length_append, List.length_singleton] at full
          exact ih plain' open_.2 (by simp; omega) (by simp)

end Pieces

end VnfMonitoring.Lines
