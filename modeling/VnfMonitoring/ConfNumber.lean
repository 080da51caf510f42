import Mathlib.Data.Nat.Digits.Defs
import VnfMonitoring.HostConf
import VnfMonitoring.VmctConf

set_option autoImplicit false

/- The numbers of `bpapp.cfg`: which tokens the two copies of `Isdigit` take for one, and
what they make of it. -/
namespace VnfMonitoring.ConfNumber

open VnfMonitoring.Memory VnfMonitoring.Runs VnfMonitoring.Objects VnfMonitoring.DbmbStatus
  VnfMonitoring.ConfFile

/-- The value of digits in a base, the first of them the highest. -/
def valueIn (base : Nat) (digits : List UInt8) : Nat :=
  Nat.ofDigits base (digits.reverse.map xdigitValue)

/-- The numbers that a token may stand for. -/
inductive Numeral : List UInt8 → Nat → Prop
  | decimal {digits : List UInt8} (some_ : digits ≠ []) (all : ∀ c ∈ digits, isDigit c) :
      Numeral digits (valueIn 10 digits)
  | hex {mark : UInt8} {digits : List UInt8} (marked : mark ∈ chars "xX") (some_ : digits ≠ [])
      (all : ∀ c ∈ digits, isXdigit c) : Numeral (48 :: mark :: digits) (valueIn 16 digits)

/-- What the callers do with a token does not depend on the number. -/
def Unused (d : UInt32) (s : List UInt8) : Prop :=
  ∀ (e : UInt32) (order : ByteOrder) (inetAddr : List UInt8 → UInt32) (name : List UInt8),
    (∀ c, gettoken (HostConf.keys order inetAddr d) name s c =
      gettoken (HostConf.keys order inetAddr e) name s c) ∧
    ∀ c, gettoken (VmctConf.keys order inetAddr d) name s c =
      gettoken (VmctConf.keys order inetAddr e) name s c

/-- `Isdigit` takes the numbers of 32 bits and no other token. -/
structure Exact (d : UInt32) (s : List UInt8) : Prop where
  accepts : (isdigit d s).isSome ↔ ∃ n, Numeral s n ∧ n < 2 ^ 32
  value : ∀ x, isdigit d s = some x → Numeral s x.toNat
  refuses : isdigit d s = none → Unused d s

/-- A prefix without a digit behind it. -/
def Bare (s : List UInt8) : Prop := ∃ mark ∈ chars "xX", s = [48, mark]

section Value

theorem foldl_value (base : Nat) (digits : List UInt8) :
    digits.foldl (fun value c => base * value + xdigitValue c) 0 = valueIn base digits := by
  rw [valueIn, Nat.ofDigits_eq_foldr, List.foldr_map, List.foldr_reverse]
  congr 1
  funext value c
  exact Nat.add_comm _ _

theorem digitsValue_eq {digits : List UInt8} (all : ∀ c ∈ digits, isDigit c) :
    digitsValue digits = valueIn 10 digits := by
  rw [← foldl_value, digitsValue]
  apply List.foldl_ext
  intro value c member
  rw [xdigitValue, if_pos (all c member)]

theorem not_isDigit_of_mark {mark : UInt8} (marked : mark ∈ chars "xX") :
    isDigit mark = false := by
  rw [show chars "xX" = [120, 88] from rfl] at marked
  rcases List.mem_cons.mp marked with rfl | marked
  · decide
  · rw [List.mem_singleton.mp marked]
    decide

theorem Numeral.unique {s : List UInt8} {n m : Nat} (one : Numeral s n) (other : Numeral s m) :
    n = m := by
  cases one with
  | decimal some_ all =>
      cases other with
      | decimal => rfl
      | hex marked =>
          have digit := all _ (List.mem_cons_of_mem _ List.mem_cons_self)
          rw [not_isDigit_of_mark marked] at digit
          cases digit
  | hex marked some_ all =>
      cases other with
      | decimal _ digits =>
          have digit := digits _ (List.mem_cons_of_mem _ List.mem_cons_self)
          rw [not_isDigit_of_mark marked] at digit
          cases digit
      | hex => rfl

end Value

section Prefix

variable {s : List UInt8}

theorem toLower_eq_zero {c : UInt8} : toLower c = 48 ↔ c = 48 := by
  unfold toLower
  simp only [← UInt8.toNat_inj, UInt8.le_iff_toNat_le]
  split
  · rename_i upper
    have low := upper.1
    have high := upper.2
    simp only [UInt8.toNat_add, UInt8.reduceToNat] at low high ⊢
    omega
  · rfl

theorem toLower_eq_x {c : UInt8} : toLower c = 120 ↔ c ∈ chars "xX" := by
  have listed : c ∈ chars "xX" ↔ c = 120 ∨ c = 88 := by
    rw [show chars "xX" = [120, 88] from rfl]
    simp
  rw [listed]
  unfold toLower
  simp only [← UInt8.toNat_inj, UInt8.le_iff_toNat_le]
  split
  · rename_i upper
    have low := upper.1
    have high := upper.2
    simp only [UInt8.toNat_add, UInt8.reduceToNat] at low high ⊢
    omega
  · rename_i lower
    simp only [UInt8.reduceToNat] at lower ⊢
    omega

theorem prefix_iff : (s.take 2).map toLower = chars "0x" ↔
    ∃ mark ∈ chars "xX", ∃ digits, s = 48 :: mark :: digits := by
  rw [show chars "0x" = [48, 120] from rfl]
  constructor
  · intro same
    rcases s with _ | ⟨zero, _ | ⟨mark, digits⟩⟩
    · cases same
    · simp at same
    · simp only [List.take_succ_cons, List.take_zero, List.map_cons, List.map_nil,
        List.cons.injEq, and_true, toLower_eq_zero, toLower_eq_x] at same
      exact ⟨mark, same.2, digits, by rw [same.1]⟩
  · rintro ⟨mark, marked, digits, rfl⟩
    simp only [List.take_succ_cons, List.take_zero, List.map_cons, List.map_nil,
      toLower_eq_x.mpr marked]
    rfl

end Prefix

section Isdigit

variable {d : UInt32} {s : List UInt8}

/-- Behind the prefix all digits are hexadecimal. -/
theorem isdigit_hex {mark : UInt8} {digits : List UInt8} (marked : mark ∈ chars "xX") :
    isdigit d (48 :: mark :: digits) =
      if digits.all isXdigit then
        some (if digits = [] then d
          else if 2 ^ 64 ≤ valueIn 16 digits then UInt32.ofNat ((2 ^ 64 - 1) % 2 ^ 32)
          else UInt32.ofNat (valueIn 16 digits % 2 ^ 32))
      else none := by
  have marks := prefix_iff.mpr ⟨mark, marked, digits, rfl⟩
  rw [isdigit, if_pos marks]
  simp only [List.drop_succ_cons, List.drop_zero]
  split
  · rename_i all
    have whole : digits.takeWhile isXdigit = digits :=
      List.takeWhile_eq_self_iff.mpr (List.all_eq_true.mp all)
    rw [scanHex]
    simp only [List.drop_succ_cons, List.drop_zero, whole, foldl_value]
    split
    · rfl
    · split <;> rfl
  · rfl

/-- Without the prefix they are decimal. -/
theorem isdigit_decimal (plain : ¬ ∃ mark ∈ chars "xX", ∃ digits, s = 48 :: mark :: digits) :
    isdigit d s =
      if s.all isDigit then
        some (if s = [] then d
          else if 2 ^ 64 ≤ valueIn 10 s then UInt32.ofNat ((2 ^ 64 - 1) % 2 ^ 32)
          else UInt32.ofNat (valueIn 10 s % 2 ^ 32))
      else none := by
  rw [isdigit, if_neg (mt prefix_iff.mp plain)]
  split
  · rename_i all
    rw [List.all_eq_true] at all
    rw [scanUnsigned_digits 32 all, digitsValue_eq all]
    split
    · rfl
    · split <;> rfl
  · rfl

theorem not_numeral_bare (bare : Bare s) (n : Nat) : ¬ Numeral s n := by
  obtain ⟨mark, marked, rfl⟩ := bare
  intro numeral
  cases numeral with
  | decimal _ all =>
      have digit := all mark (by simp)
      rw [not_isDigit_of_mark marked] at digit
      cases digit
  | hex _ some_ _ => exact some_ rfl

theorem isdigit_bare (bare : Bare s) : isdigit d s = some d := by
  obtain ⟨mark, marked, rfl⟩ := bare
  rw [isdigit_hex marked, if_pos (by simp), if_pos rfl]

theorem not_exact_bare (bare : Bare s) : ¬ Exact d s := by
  intro exact_
  have taken : (isdigit d s).isSome := by
    rw [isdigit_bare bare]
    rfl
  obtain ⟨n, numeral, _⟩ := exact_.accepts.mp taken
  exact not_numeral_bare bare n numeral

/-- A number is taken, whatever its size. -/
theorem isdigit_numeral {n : Nat} (numeral : Numeral s n) :
    isdigit d s =
      some (if 2 ^ 64 ≤ n then UInt32.ofNat ((2 ^ 64 - 1) % 2 ^ 32)
        else UInt32.ofNat (n % 2 ^ 32)) := by
  cases numeral with
  | decimal some_ all =>
      have plain : ¬ ∃ mark ∈ chars "xX", ∃ digits, s = 48 :: mark :: digits := by
        rintro ⟨mark, marked, digits, rfl⟩
        have digit := all mark (by simp)
        rw [not_isDigit_of_mark marked] at digit
        cases digit
      rw [isdigit_decimal plain, if_pos (List.all_eq_true.mpr all), if_neg some_]
  | hex marked some_ all =>
      rw [isdigit_hex marked, if_pos (List.all_eq_true.mpr all), if_neg some_]

/-- Apart from a bare prefix, nothing else is. -/
theorem isdigit_other (some_ : s ≠ []) (whole : ¬ Bare s) (other : ∀ n, ¬ Numeral s n) :
    isdigit d s = none := by
  by_cases marks : ∃ mark ∈ chars "xX", ∃ digits, s = 48 :: mark :: digits
  · obtain ⟨mark, marked, digits, rfl⟩ := marks
    rw [isdigit_hex marked, if_neg]
    intro all
    apply other _ (.hex marked ?_ (List.all_eq_true.mp all))
    rintro rfl
    exact whole ⟨mark, marked, rfl⟩
  · rw [isdigit_decimal marks, if_neg]
    intro all
    exact other _ (.decimal some_ (List.all_eq_true.mp all))

end Isdigit

section Callers

variable {C : Type} {d e : UInt32} {s : List UInt8}

/-- Two lists of keys that do the same with a token. -/
theorem gettoken_congr {keys others : List (Key C)}
    (same : List.Forall₂ (fun key other => key.name = other.name ∧ key.set s = other.set s)
      keys others) (name : List UInt8) (c : C) :
    gettoken keys name s c = gettoken others name s c := by
  unfold gettoken
  induction same generalizing c with
  | nil => rfl
  | cons first _ ih =>
      rw [run_cons, run_cons, first.1, first.2]
      apply Option.bind_congr
      intro next _
      exact ih next

theorem numberKey_refused (refused : ∀ x, isdigit x s = none) (name : List UInt8)
    (assign : UInt32 → C → Option C) :
    (numberKey d name assign).set s = (numberKey e name assign).set s := by
  funext c
  simp only [numberKey, refused]

theorem unused_of_refused (refused : ∀ x, isdigit x s = none) : Unused d s := by
  intro e order inetAddr name
  refine ⟨gettoken_congr ?_ name, gettoken_congr ?_ name⟩
  · unfold HostConf.keys
    refine .cons ⟨rfl, rfl⟩ (.cons ⟨rfl, numberKey_refused refused _ _⟩ ?_)
    iterate 9 refine .cons ⟨rfl, rfl⟩ ?_
    iterate 6 refine .cons ⟨rfl, numberKey_refused refused _ _⟩ ?_
    exact .nil
  · unfold VmctConf.keys
    exact .cons ⟨rfl, rfl⟩ (.cons ⟨rfl, numberKey_refused refused _ _⟩ (.cons ⟨rfl, rfl⟩
      (.cons ⟨rfl, numberKey_refused refused _ _⟩ (.cons ⟨rfl, numberKey_refused refused _ _⟩
        (.cons ⟨rfl, rfl⟩ .nil)))))

end Callers

/-- `Isdigit` is exact on every token but a bare prefix and a number of more than 32 bits. -/
theorem isdigit_exact_iff (d : UInt32) {s : List UInt8} (some_ : s ≠ []) :
    Exact d s ↔ ¬ Bare s ∧ ∀ n, Numeral s n → n < 2 ^ 32 := by
  constructor
  · intro exact_
    refine ⟨fun bare => not_exact_bare bare exact_, fun n numeral => ?_⟩
    have taken : (isdigit d s).isSome := by
      rw [isdigit_numeral numeral]
      rfl
    obtain ⟨m, other, small⟩ := exact_.accepts.mp taken
    rwa [numeral.unique other]
  · rintro ⟨whole, small⟩
    by_cases number : ∃ n, Numeral s n
    · obtain ⟨n, numeral⟩ := number
      have fits := small n numeral
      have read_ : isdigit d s = some (UInt32.ofNat n) := by
        rw [isdigit_numeral numeral, if_neg (by omega), Nat.mod_eq_of_lt fits]
      have same : (UInt32.ofNat n).toNat = n := UInt32.toNat_ofNat_of_lt' fits
      refine ⟨?_, ?_, ?_⟩
      · rw [read_]
        exact iff_of_true rfl ⟨n, numeral, fits⟩
      · intro x taken
        rw [read_] at taken
        cases taken
        rwa [same]
      · intro refused
        rw [read_] at refused
        cases refused
    · have refused (x : UInt32) : isdigit x s = none :=
        isdigit_other some_ whole fun n numeral => number ⟨n, numeral⟩
      refine ⟨?_, ?_, fun _ => unused_of_refused refused⟩
      · rw [refused]
        apply iff_of_false (by simp)
        rintro ⟨n, numeral, _⟩
        exact number ⟨n, numeral⟩
      · intro x taken
        rw [refused] at taken
        cases taken

theorem isdigit_exact_port : Exact 0 (chars "0x1F90") := by
  apply (isdigit_exact_iff 0 (by decide)).mpr
  constructor
  · rintro ⟨mark, _, same⟩
    exact absurd (show 6 = 2 from congrArg List.length same) (by decide)
  · intro n numeral
    have digits : ∀ c ∈ chars "1F90", isXdigit c := by
      simp [chars, isXdigit, isDigit]
    have port : Numeral (chars "0x1F90") (valueIn 16 (chars "1F90")) :=
      .hex (show 120 ∈ chars "xX" by decide) (by decide) digits
    rw [numeral.unique port]
    decide

/-- A bare prefix is taken for a number, which is whatever the variable held. -/
theorem isdigit_prefix : isdigit 7 (chars "0x") = some 7 ∧ ¬ Exact 7 (chars "0x") := by
  have bare : Bare (chars "0x") := ⟨120, by decide, rfl⟩
  exact ⟨isdigit_bare bare, not_exact_bare bare⟩

end VnfMonitoring.ConfNumber
