import Mathlib.Data.List.Basic

set_option autoImplicit false

/- Cells that latch: a cell takes every value offered to it until it holds a good one,
which stays. After a list of offers it holds the first good value, else the last. -/
namespace VnfMonitoring.Latch

variable {κ α : Type} (good : α → Bool)

/-- What a cell holds after an offer. -/
def offer (held : Option α) (value : α) : Option α :=
  if held.any good then held else some value

/-- The first good value of a list, else its last. -/
def pick (values : List α) : Option α := (values.find? good).or values.getLast?

theorem offer_good {held : α} (kept : good held = true) (value : α) :
    offer good (some held) value = some held := by
  simp only [offer, Option.any_some, kept, if_true]

theorem offer_bad {held : Option α} (unsettled : held.any good = false) (value : α) :
    offer good held value = some value := by
  simp only [offer, unsettled, Bool.false_eq_true, if_false]

theorem foldl_offer_good {held : α} (kept : good held = true) (values : List α) :
    values.foldl (offer good) (some held) = some held := by
  induction values with
  | nil => rfl
  | cons value rest ih => rw [List.foldl_cons, offer_good good kept, ih]

/-- A cell without a good value ends with the one picked from the offers. -/
theorem foldl_offer_bad {held : Option α} (unsettled : held.any good = false) (values : List α) :
    values.foldl (offer good) held = (pick good values).or held := by
  induction values generalizing held with
  | nil => rfl
  | cons value rest ih =>
      rw [List.foldl_cons, offer_bad good unsettled]
      by_cases kept : good value = true
      · rw [foldl_offer_good good kept, pick, List.find?_cons_of_pos kept]
        rfl
      · rw [ih (by simpa using kept), pick, pick, List.find?_cons_of_neg kept, Option.or_assoc,
          List.getLast?_cons]
        cases rest.find? good <;> cases rest.getLast? <;> rfl

theorem pick_isSome {values : List α} (nonempty : values ≠ []) : (pick good values).isSome := by
  rw [pick, Option.isSome_or, List.getLast?_isSome.mpr nonempty, Bool.or_true]

theorem pick_map {β : Type} (f : β → α) (values : List β) :
    pick good (values.map f) = (pick (good ∘ f) values).map f := by
  rw [pick, pick, List.find?_map, List.getLast?_map, Option.map_or]

/-- Where the value picked stands. -/
theorem pick_eq_some {values : List α} {value : α} (picked : pick good values = some value) :
    ∃ before after, values = before ++ value :: after ∧ (∀ x ∈ before, good x = false) ∧
      (good value = true ∨ good value = false ∧ after = []) := by
  cases found : values.find? good with
  | some first =>
      rw [pick, found, Option.some_or, Option.some_inj] at picked
      obtain ⟨kept, before, after, split, earlier⟩ := List.find?_eq_some_iff_append.mp found
      subst picked
      exact ⟨before, after, split, fun x member => by simpa using earlier x member, Or.inl kept⟩
  | none =>
      rw [pick, found, Option.none_or] at picked
      have bad := List.find?_eq_none.mp found
      obtain ⟨before, split⟩ := List.getLast?_eq_some_iff.mp picked
      subst split
      refine ⟨before, [], rfl, fun x member => ?_, Or.inr ⟨?_, rfl⟩⟩
      · simpa using bad x (List.mem_append_left _ member)
      · simpa using bad value (by simp)

section Cells

variable [DecidableEq κ]

/-- One offer to the cell of a key. -/
def write (cells : κ → Option α) (entry : κ × α) : κ → Option α :=
  Function.update cells entry.1 (offer good (cells entry.1) entry.2)

/-- The values that a list of entries offers to a key. -/
def valuesAt (entries : List (κ × α)) (key : κ) : List α :=
  (entries.filter fun entry => decide (entry.1 = key)).map Prod.snd

theorem write_self (cells : κ → Option α) (key : κ) (value : α) :
    write good cells (key, value) key = offer good (cells key) value := by
  rw [write, Function.update_self]

theorem write_other (cells : κ → Option α) {key other : κ} (value : α) (apart : other ≠ key) :
    write good cells (key, value) other = cells other := by
  rw [write, Function.update_of_ne apart]

/-- Each cell sees the offers to its own key only. -/
theorem foldl_write (cells : κ → Option α) (entries : List (κ × α)) (key : κ) :
    entries.foldl (write good) cells key =
      (valuesAt entries key).foldl (offer good) (cells key) := by
  induction entries generalizing cells with
  | nil => rfl
  | cons entry rest ih =>
      obtain ⟨first, value⟩ := entry
      rw [List.foldl_cons, ih]
      by_cases here : first = key
      · subst here
        simp only [valuesAt, List.filter_cons, decide_true, if_true, List.map_cons,
          List.foldl_cons, write_self]
      · simp only [valuesAt, List.filter_cons, here, decide_false, Bool.false_eq_true, if_false]
        rw [write_other good cells value (Ne.symm here)]

end Cells

end VnfMonitoring.Latch
