import VnfMonitoring.DbmbStatus
import VnfMonitoring.Lib.Lines
import VnfMonitoring.Lib.Objects

set_option autoImplicit false

/- What `host_conf.c` and `vmct_conf.c` have in common: the numbers, the lines and the
keys of `bpapp.cfg`, and the loop that reads it. -/
namespace VnfMonitoring.ConfFile

open VnfMonitoring.Memory VnfMonitoring.Runs VnfMonitoring.Objects VnfMonitoring.Lines
  VnfMonitoring.DbmbStatus VnfMonitoring.Fields

def newline : UInt8 := 10

def commentMark : UInt8 := 35

def isXdigit (c : UInt8) : Bool := isDigit c ∨ (97 ≤ c ∧ c ≤ 102) ∨ (65 ≤ c ∧ c ≤ 70)

def xdigitValue (c : UInt8) : Nat :=
  if isDigit c then c.toNat - 48 else if 97 ≤ c then c.toNat - 87 else c.toNat - 55

def toLower (c : UInt8) : UInt8 := if 65 ≤ c ∧ c ≤ 90 then c + 32 else c

/-- `sscanf` with `%x` of a text that begins with 0x, into 32 bits as `strtoul` reads it.
Without a digit behind the prefix nothing is assigned. -/
def scanHex (text : List UInt8) : Option Nat :=
  let digits := (text.drop 2).takeWhile isXdigit
  let value := digits.foldl (fun value c => 16 * value + xdigitValue c) 0
  if digits = [] then none
  else if value ≥ 2 ^ 64 then some ((2 ^ 64 - 1) % 2 ^ 32)
  else some (value % 2 ^ 32)

/-- `Isdigit`: the number, when it returns 1. The caller's variable, which is not
initialised, keeps its value `d` when `sscanf` assigns nothing. -/
def isdigit (d : UInt32) (s : List UInt8) : Option UInt32 :=
  if (s.take 2).map toLower = chars "0x" then
    if (s.drop 2).all isXdigit then some (((scanHex s).map UInt32.ofNat).getD d) else none
  else if s.all isDigit then some (((scanUnsigned 32 s).map UInt32.ofNat).getD d)
  else none

/-- The words that `sscanf` finds with `%s`. -/
def words (text : List UInt8) : List (List UInt8) := (text.splitOnP isSpace).filter (· ≠ [])

def maxStrLength : Nat := 256

/-- The array `token[5][256]`. -/
def tokenSize : Nat := 5 * maxStrLength

/-- `sscanf` stores the words one after the other, from the `i`-th token on; nothing keeps
one inside its token. -/
def storeTokens : Nat → List (List UInt8) → Bytes tokenSize → Option (Bytes tokenSize)
  | _, [], token => some token
  | i, word :: rest, token =>
      (storeBytes token (maxStrLength * i) (word ++ [0])).bind (storeTokens (i + 1) rest)

/-- What `Lineparser` copies of its buffer to `str`, an array of the same size. -/
def lineText (buf : List UInt8) : List UInt8 := buf.takeWhile fun c => c ≠ commentMark ∧ c ≠ 0

/-- `Lineparser` up to the call of `Gettoken`: the name and the value it calls it with, if
`sscanf` returned 3. Absent when a word leaves the array. -/
def scanLine (buf : List UInt8) : Option (Option (List UInt8 × List UInt8)) :=
  let tokens := (words (lineText buf)).take 5
  (storeTokens 0 tokens (.zero _)).bind fun token =>
  if tokens.length = 3 then
    (cstr token.toList).bind fun name =>
    (cstr (token.toList.drop (maxStrLength * 2))).map fun value => some (name, value)
  else some none

/-- A word has only characters of the text, none of them blank. -/
theorem mem_words {text word : List UInt8} (member : word ∈ words text) :
    word ≠ [] ∧ ∀ c ∈ word, c ∈ text ∧ isSpace c = false := by
  obtain ⟨inside, some_⟩ := List.mem_filter.mp member
  refine ⟨by simpa using some_, ?_⟩
  clear some_ member
  induction text generalizing word with
  | nil =>
      obtain rfl : word = [] := by simpa [List.splitOnP_nil] using inside
      nofun
  | cons x text ih =>
      rw [List.splitOnP_cons_eq_if_modifyHead] at inside
      split at inside
      · rcases List.mem_cons.mp inside with rfl | later
        · nofun
        · exact fun c here => (ih later c here).imp_left (List.mem_cons_of_mem x)
      · rename_i plain
        obtain ⟨first, rest, split⟩ :=
          List.exists_cons_of_ne_nil (List.splitOnP_ne_nil isSpace text)
        rw [split, List.modifyHead_cons] at inside
        rcases List.mem_cons.mp inside with rfl | later
        · intro c here
          rcases List.mem_cons.mp here with rfl | behind
          · exact ⟨List.mem_cons_self, by simpa using plain⟩
          · exact (ih (by rw [split]; exact List.mem_cons_self) c behind).imp_left
              (List.mem_cons_of_mem x)
        · intro c here
          exact (ih (by rw [split]; exact List.mem_cons_of_mem _ later) c here).imp_left
            (List.mem_cons_of_mem x)

theorem mem_words_lineText {buf word : List UInt8} (member : word ∈ words (lineText buf)) :
    (0 : UInt8) ∉ word := by
  intro zero
  have kept := List.mem_takeWhile_imp ((mem_words member).2 0 zero).1
  simp at kept

/-- Blanks at the end of a text make no word. -/
theorem words_append_blank (text : List UInt8) {c : UInt8} (blank : isSpace c = true) :
    words (text ++ [c]) = words text := by
  rw [words, List.splitOnP_append_cons text [] blank, List.filter_append, List.splitOnP_nil]
  simp [words]

/-- Nor does the newline of a line. -/
theorem words_newline (line : List UInt8) :
    words (lineText (line ++ [newline])) = words (lineText line) := by
  unfold lineText
  rw [List.takeWhile_append]
  split
  · rename_i whole
    rw [List.takeWhile_cons_of_pos (by decide), List.takeWhile_nil,
      words_append_blank line (by decide), (List.takeWhile_prefix _).eq_of_length whole]
  · rfl

theorem scanLine_congr {buf other : List UInt8}
    (same : words (lineText buf) = words (lineText other)) : scanLine buf = scanLine other := by
  unfold scanLine
  rw [same]

section Tokens

variable {token final : Bytes tokenSize}

/-- The words from a token on do not touch what is in front of it. -/
theorem region_storeTokens {i : Nat} {tokens : List (List UInt8)} {offset width : Nat}
    (before : offset + width ≤ maxStrLength * i)
    (stored : storeTokens i tokens token = some final) :
    region final offset width = region token offset width := by
  induction tokens generalizing i token with
  | nil =>
      cases stored
      rfl
  | cons word rest ih =>
      obtain ⟨changed, first, later⟩ := Option.bind_eq_some_iff.mp stored
      rw [ih (by unfold maxStrLength at *; omega) later]
      have misses : Misses offset width (maxStrLength * i, word ++ [0]) := Or.inr before
      exact region_misses misses first

/-- A word that fits its token, or is the last, stays there as a string. -/
theorem cstr_storeTokens {i : Nat} {word : List UInt8} {rest : List (List UInt8)}
    (text : (0 : UInt8) ∉ word) (whole : word.length < maxStrLength ∨ rest = [])
    (stored : storeTokens i (word :: rest) token = some final) :
    cstr (final.toList.drop (maxStrLength * i)) = some word := by
  obtain ⟨changed, first, later⟩ := Option.bind_eq_some_iff.mp stored
  have here : region changed (maxStrLength * i) (word.length + 1) = word ++ [0] := by
    rw [region_store first, List.take_append_of_le_length (by simp),
      List.take_of_length_le (by simp)]
  have kept : region final (maxStrLength * i) (word.length + 1) = word ++ [0] := by
    rcases whole with short | rfl
    · rw [region_storeTokens (by rw [Nat.mul_succ]; omega) later, here]
    · cases later
      exact here
  rw [← List.take_append_drop (word.length + 1) (final.toList.drop _), ← region, kept,
    List.append_assoc]
  exact cstr_append word _ text

/-- A word that overruns its token is read with at least the token's characters. -/
theorem cstr_storeTokens_long {i : Nat} {word name : List UInt8} {rest : List (List UInt8)}
    (text : (0 : UInt8) ∉ word) (long : maxStrLength ≤ word.length)
    (stored : storeTokens i (word :: rest) token = some final)
    (read : cstr (final.toList.drop (maxStrLength * i)) = some name) :
    maxStrLength ≤ name.length := by
  obtain ⟨changed, first, later⟩ := Option.bind_eq_some_iff.mp stored
  have kept : region final (maxStrLength * i) maxStrLength = word.take maxStrLength := by
    rw [region_storeTokens (by rw [Nat.mul_succ]) later, region_store first, List.append_assoc,
      List.take_append_of_le_length long]
  obtain ⟨_, behind, split⟩ := cstr_eq_some read
  by_contra short
  have zero : (0 : UInt8) ∈ region final (maxStrLength * i) maxStrLength := by
    rw [region, split, List.take_append]
    obtain ⟨left, more⟩ := Nat.exists_eq_add_of_lt (Nat.not_le.mp short)
    rw [show maxStrLength - name.length = left + 1 by omega, List.take_succ_cons]
    simp
  rw [kept] at zero
  exact text (List.mem_of_mem_take zero)

end Tokens

theorem take_five_length {α : Type} (l : List α) :
    (l.take 5).length = 3 ↔ ∃ a b c, l = [a, b, c] := by
  constructor
  · intro three
    rw [List.length_take] at three
    exact List.length_eq_three.mp (by omega)
  · rintro ⟨a, b, c, rfl⟩
    rfl

/-- Whatever the lengths: the value is the third of exactly three words, and the name is
the first one or longer than every key. -/
theorem scanLine_some {buf name value : List UInt8}
    (scanned : scanLine buf = some (some (name, value))) :
    (0 : UInt8) ∉ value ∧ ∃ first between, words (lineText buf) = [first, between, value] ∧
      (name = first ∨ maxStrLength ≤ name.length ∧ maxStrLength ≤ first.length) := by
  obtain ⟨token, stored, rest⟩ := Option.bind_eq_some_iff.mp scanned
  split at rest
  · rename_i three
    obtain ⟨readName, foundName, rest⟩ := Option.bind_eq_some_iff.mp rest
    obtain ⟨readValue, foundValue, pair⟩ := Option.map_eq_some_iff.mp rest
    cases pair
    obtain ⟨first, between, last, split⟩ := take_five_length _ |>.mp three
    have text (word : List UInt8) (member : word ∈ [first, between, last]) : (0 : UInt8) ∉ word :=
      mem_words_lineText (split ▸ member)
    rw [split] at stored
    obtain ⟨_, _, later⟩ := Option.bind_eq_some_iff.mp stored
    obtain ⟨_, _, later⟩ := Option.bind_eq_some_iff.mp later
    have third := cstr_storeTokens (text last (by simp)) (Or.inr rfl) later
    obtain rfl : value = last := Option.some.inj (foundValue.symm.trans third)
    refine ⟨text value (by simp), first, between, split, ?_⟩
    rw [← List.drop_zero (l := token.toList)] at foundName
    by_cases short : first.length < maxStrLength
    · have whole := cstr_storeTokens (text first (by simp)) (Or.inl short) stored
      exact Or.inl (Option.some.inj (foundName.symm.trans whole))
    · exact Or.inr ⟨cstr_storeTokens_long (text first (by simp)) (Nat.not_lt.mp short) stored
        foundName, Nat.not_lt.mp short⟩
  · cases rest

/-- The periods that a number of seconds is rounded up to. -/
def period (d : UInt32) : UInt32 :=
  if d ≤ 5 then 5 else if d ≤ 10 then 10 else if d ≤ 20 then 20 else if d ≤ 30 then 30 else 60

section Writes

variable {Obj : Type}

/-- `strcpy` to a field; nothing keeps it inside. -/
def copyTo (field : Place Obj) (value : List UInt8) : Write Obj :=
  ⟨field.obj, field.offset, value ++ [0]⟩

/-- The string that is read from a field on. -/
def stringAt {size : Obj → Nat} (c : Contents size) (field : Place Obj) : Option (List UInt8) :=
  cstr ((c field.obj).toList.drop field.offset)

/-- `memset` of a field to zeros. -/
def clear (field : Place Obj) : Write Obj :=
  ⟨field.obj, field.offset, List.replicate field.width 0⟩

def word32 (order : ByteOrder) (field : Place Obj) (x : UInt32) : Write Obj :=
  ⟨field.obj, field.offset, order.bytesOf 4 x.toNat⟩

def word16 (order : ByteOrder) (field : Place Obj) (x : UInt16) : Write Obj :=
  ⟨field.obj, field.offset, order.bytesOf 2 x.toNat⟩

theorem word32_place (order : ByteOrder) {o : Obj} {offset : Nat} (x : UInt32) :
    (word32 order ⟨o, offset, 4⟩ x).place = ⟨o, offset, 4⟩ := by
  rw [Write.place, word32, ByteOrder.bytesOf_length]

theorem word16_place (order : ByteOrder) {o : Obj} {offset : Nat} (x : UInt16) :
    (word16 order ⟨o, offset, 2⟩ x).place = ⟨o, offset, 2⟩ := by
  rw [Write.place, word16, ByteOrder.bytesOf_length]

/-- A string copied is read back whole, also one that runs over its field. -/
theorem stringAt_copyTo [DecidableEq Obj] {size : Obj → Nat} {c next : Contents size}
    {field : Place Obj} {value : List UInt8} (text : (0 : UInt8) ∉ value)
    (copied : write c (copyTo field value) = some next) :
    stringAt next field = some value := by
  have here : region (next field.obj) field.offset (value ++ [0]).length = value ++ [0] :=
    region_write copied
  rw [stringAt, ← List.take_append_drop (value ++ [0]).length ((next field.obj).toList.drop _),
    ← region, here, List.append_assoc]
  exact cstr_append value _ text

/-- A number that is stored is read back. -/
theorem load16_write [DecidableEq Obj] {size : Obj → Nat} (order : ByteOrder)
    {c next : Contents size} {field : Place Obj} {x : UInt16}
    (stored : write c (word16 order field x) = some next) :
    load16 order (next field.obj) field.offset = some x := by
  have inside := (write_isSome c (word16 order field x)).mp (by rw [stored]; rfl)
  have here := region_write stored
  rw [word16, ByteOrder.bytesOf_length] at inside here
  exact load16_region inside here

end Writes

section Program

variable {C : Type}

/-- One `if` of `Gettoken`: the name it compares with and what it does with the value. -/
structure Key (C : Type) where
  name : List UInt8
  set : List UInt8 → C → Option C

/-- A key whose value goes through `Isdigit`; a value it rejects only leaves a message. -/
def numberKey (d : UInt32) (name : List UInt8) (assign : UInt32 → C → Option C) : Key C where
  name
  set value c :=
    match isdigit d value with
    | some d => assign d c
    | none => some c

/-- `Gettoken`: its `if`s in their order. -/
def gettoken (keys : List (Key C)) (name value : List UInt8) (c : C) : Option C :=
  run (fun c key => if name = key.name then key.set value c else some c) c keys

/-- `Lineparser`. -/
def lineparser (keys : List (Key C)) (c : C) (buf : List UInt8) : Option C :=
  (scanLine buf).bind fun tokens =>
  match tokens with
  | some (name, value) => gettoken keys name value c
  | none => some c

/-- The loop of `read_config` over an open file, with `fgets` into `strSize` characters. -/
def readLines (strSize : Nat) (keys : List (Key C)) (c : C) (content : List UInt8) : Option C :=
  run (lineparser keys) c (pieces newline (strSize - 1) [] content)

end Program

/-- The assignments of a sequence of pieces, in order. -/
def assignments : List (List UInt8) → Option (List (List UInt8 × List UInt8))
  | [] => some []
  | buf :: rest =>
      (scanLine buf).bind fun tokens => (assignments rest).map (tokens.toList ++ ·)

theorem assignments_append (bufs others : List (List UInt8)) :
    assignments (bufs ++ others) =
      (assignments bufs).bind fun first => (assignments others).map (first ++ ·) := by
  induction bufs with
  | nil => simp [assignments]
  | cons buf bufs ih =>
      rw [List.cons_append, assignments, assignments, ih, Option.bind_assoc]
      apply Option.bind_congr
      intro tokens _
      cases assignments bufs with
      | none => rfl
      | some first =>
          cases assignments others with
          | none => rfl
          | some second => simp

/-- Every piece was scanned, and its assignment is one of them. -/
theorem tokens_of_assignments {bufs : List (List UInt8)}
    {given : List (List UInt8 × List UInt8)} (scanned : assignments bufs = some given)
    {buf : List UInt8} (member : buf ∈ bufs) :
    ∃ tokens, scanLine buf = some tokens ∧ ∀ entry ∈ tokens, entry ∈ given := by
  induction bufs generalizing given with
  | nil => cases member
  | cons first rest ih =>
      obtain ⟨tokens, found, later⟩ := Option.bind_eq_some_iff.mp scanned
      obtain ⟨others, last, rfl⟩ := Option.map_eq_some_iff.mp later
      rcases List.mem_cons.mp member with rfl | behind
      · exact ⟨tokens, found, fun entry inside =>
          List.mem_append_left _ (Option.mem_toList.mpr inside)⟩
      · obtain ⟨tokens, found, listed⟩ := ih last behind
        exact ⟨tokens, found, fun entry inside => List.mem_append_right _ (listed entry inside)⟩

section Settings

variable {Obj : Type}

/-- What a key is for: its own places, the width of the `char` array that takes its value
if there is one, and the writes that a value stands for. -/
structure Setting (Obj : Type) where
  name : List UInt8
  own : List (Place Obj)
  room : Option Nat
  writes : List UInt8 → List (Write Obj)

/-- All of a setting but the bytes it writes. -/
def Setting.shape (setting : Setting Obj) : List UInt8 × List (Place Obj) × Option Nat :=
  (setting.name, setting.own, setting.room)

theorem forall_of_shape {settings others : List (Setting Obj)}
    (same : settings.map Setting.shape = others.map Setting.shape)
    {P : List UInt8 × List (Place Obj) × Option Nat → Prop}
    (all : ∀ setting ∈ others, P setting.shape) : ∀ setting ∈ settings, P setting.shape := by
  rw [← List.forall_mem_map] at all ⊢
  rw [same]
  exact all

/-- The setting of a key whose value is a number. -/
def numberSetting (d : UInt32) (name : List UInt8) (own : List (Place Obj))
    (writes : UInt32 → List (Write Obj)) : Setting Obj where
  name
  own
  room := none
  writes value := ((isdigit d value).map writes).getD []

/-- A write that fills one of the places, or copies the value to one that has `room` for it. -/
def Placed (own : List (Place Obj)) (room : Option Nat) (value : List UInt8) (w : Write Obj) :
    Prop :=
  w.bytes ≠ [] ∧ (w.place ∈ own ∨ ∃ p ∈ own, w = copyTo p value ∧ room = some p.width)

def Setting.Placed (setting : Setting Obj) : Prop :=
  ∀ value, ∀ w ∈ setting.writes value, ConfFile.Placed setting.own setting.room value w

/-- The key copies every value to the place it has room for. -/
def Setting.Copies (setting : Setting Obj) : Prop :=
  ∀ width, setting.room = some width →
    ∃ p ∈ setting.own, p.width = width ∧ ∀ value, copyTo p value ∈ setting.writes value

theorem numberSetting_copies (d : UInt32) (name : List UInt8) (own : List (Place Obj))
    (writes : UInt32 → List (Write Obj)) : (numberSetting d name own writes).Copies := nofun

section Placed

variable {own : List (Place Obj)} {field : Place Obj} {room : Option Nat} {value : List UInt8}

theorem copyTo_placed (member : field ∈ own) (known : room = some field.width) :
    Placed own room value (copyTo field value) :=
  ⟨by simp [copyTo], Or.inr ⟨field, member, rfl, known⟩⟩

theorem placed_of_length {w : Write Obj} (member : field ∈ own) (obj : w.obj = field.obj)
    (offset : w.offset = field.offset) (length : w.bytes.length = field.width)
    (some_ : field.width ≠ 0) : Placed own room value w := by
  refine ⟨fun none_ => some_ (by rw [← length, none_]; rfl), Or.inl ?_⟩
  rw [Write.place, obj, offset, length]
  exact member

theorem word32_placed (order : ByteOrder) (member : field ∈ own) (x : UInt32)
    (int : field.width = 4) : Placed own room value (word32 order field x) :=
  placed_of_length member rfl rfl ((order.bytesOf_length 4 _).trans int.symm) (by omega)

theorem word16_placed (order : ByteOrder) (member : field ∈ own) (x : UInt16)
    (short : field.width = 2) : Placed own room value (word16 order field x) :=
  placed_of_length member rfl rfl ((order.bytesOf_length 2 _).trans short.symm) (by omega)

end Placed

theorem numberSetting_placed {d : UInt32} (name : List UInt8) {own : List (Place Obj)}
    {writes : UInt32 → List (Write Obj)}
    (placed : ∀ value x, ∀ w ∈ writes x, Placed own none value w) :
    (numberSetting d name own writes).Placed := by
  intro value w member
  simp only [numberSetting] at member
  cases number : isdigit d value with
  | none =>
      rw [number] at member
      cases member
  | some x =>
      rw [number] at member
      exact placed value x w member

/-- The writes for a name and a value. -/
def assigned (settings : List (Setting Obj)) (name value : List UInt8) : List (Write Obj) :=
  settings.flatMap fun setting => if name = setting.name then setting.writes value else []

theorem mem_assigned {settings : List (Setting Obj)} {name value : List UInt8} {w : Write Obj} :
    w ∈ assigned settings name value ↔
      ∃ setting ∈ settings, setting.name = name ∧ w ∈ setting.writes value := by
  rw [assigned, List.mem_flatMap]
  refine exists_congr fun setting => and_congr_right fun _ => ?_
  by_cases same : name = setting.name
  · simp [same]
  · simp [same, Ne.symm same]

/-- The writes for the name of a setting are its own, where no two have the same name. -/
theorem assigned_eq {settings : List (Setting Obj)} (distinct : (settings.map Setting.name).Nodup)
    {setting : Setting Obj} (member : setting ∈ settings) (value : List UInt8) :
    assigned settings setting.name value = setting.writes value := by
  obtain ⟨front, behind, rfl⟩ := List.append_of_mem member
  rw [List.map_append, List.map_cons, List.nodup_append, List.nodup_cons] at distinct
  obtain ⟨_, ⟨later, _⟩, earlier⟩ := distinct
  have others (l : List (Setting Obj)) (other : setting.name ∉ l.map Setting.name) :
      assigned l setting.name value = [] :=
    List.flatMap_eq_nil_iff.mpr fun s inside =>
      if_neg fun same => other (List.mem_map.mpr ⟨s, inside, same.symm⟩)
  have first := others front fun inside => earlier _ inside _ List.mem_cons_self rfl
  have last := others behind later
  unfold assigned at first last ⊢
  rw [List.flatMap_append, List.flatMap_cons, first, last, if_pos rfl, List.nil_append,
    List.append_nil]

section Spared

variable {settings : List (Setting Obj)} {setting : Setting Obj} {field : Place Obj}

/-- A field behind which, or in another object, places begin keeps clear of what is written
there, also of a value too long for `room`. -/
def Spares (own : List (Place Obj)) (room : Option Nat) (field : Place Obj) : Prop :=
  ∀ p ∈ own, p.obj ≠ field.obj ∨ field.offset + field.width ≤ p.offset ∨
    room ≠ some p.width ∧ p.offset + p.width ≤ field.offset

instance [DecidableEq Obj] (own : List (Place Obj)) (room : Option Nat) (field : Place Obj) :
    Decidable (Spares own room field) :=
  inferInstanceAs (Decidable (∀ p ∈ own, _ ∨ _ ∨ _ ∧ _))

theorem Spares.apart (spares : Spares setting.own setting.room field) (placed : setting.Placed)
    (value : List UInt8) : ∀ w ∈ setting.writes value, w.place.Apart field := by
  intro w member
  rcases (placed value w member).2 with own | ⟨p, own, rfl, room⟩
  · exact (spares _ own).imp_right fun clear => clear.symm.imp_left And.right
  · rcases spares p own with other | below | above
    · exact Or.inl other
    · exact Or.inr (Or.inr below)
    · exact absurd room above.1

/-- With a value that fits, the writes stay inside the setting's places. -/
theorem Setting.Placed.apart (placed : setting.Placed) {value : List UInt8}
    (short : ∀ width, setting.room = some width → value.length < width)
    (apart : ∀ p ∈ setting.own, p.Apart field) :
    ∀ w ∈ setting.writes value, w.place.Apart field := by
  intro w member
  rcases (placed value w member).2 with own | ⟨p, own, rfl, room⟩
  · exact apart _ own
  · refine (apart p own).imp_right fun clear => clear.imp_left fun below => ?_
    have fits := short p.width room
    simp only [Write.place, copyTo, List.length_append, List.length_singleton]
    omega

end Spared

variable [DecidableEq Obj] {size : Obj → Nat}

/-- A key does the writes of its setting, whatever the value. -/
def Realises (key : Key (Contents size)) (setting : Setting Obj) : Prop :=
  key.name = setting.name ∧ ∀ value, (0 : UInt8) ∉ value → ∀ c : Contents size,
    key.set value c = run write c (setting.writes value)

theorem numberKey_realises {d : UInt32} (name : List UInt8) (own : List (Place Obj))
    {assign : UInt32 → Contents size → Option (Contents size)}
    {writes : UInt32 → List (Write Obj)} (same : ∀ x c, assign x c = run write c (writes x)) :
    Realises (numberKey d name assign) (numberSetting d name own writes) := by
  refine ⟨rfl, fun value _ c => ?_⟩
  simp only [numberKey, numberSetting]
  cases isdigit d value with
  | none => rfl
  | some x => exact same x c

theorem gettoken_eq {keys : List (Key (Contents size))} {settings : List (Setting Obj)}
    (realised : List.Forall₂ Realises keys settings) (name : List UInt8) {value : List UInt8}
    (text : (0 : UInt8) ∉ value) (c : Contents size) :
    gettoken keys name value c = run write c (assigned settings name value) := by
  unfold gettoken
  induction realised generalizing c with
  | nil => rfl
  | cons first _ ih =>
      obtain ⟨same, sets⟩ := first
      rw [run_cons, assigned, List.flatMap_cons, run_append, same]
      split
      · rw [sets value text]
        exact Option.bind_congr fun next _ => ih next
      · rw [Option.bind_some, run_nil, Option.bind_some]
        exact ih c

/-- The writes of a sequence of assignments. -/
def assignedAll (settings : List (Setting Obj)) (given : List (List UInt8 × List UInt8)) :
    List (Write Obj) :=
  given.flatMap fun entry => assigned settings entry.1 entry.2

/-- A file is read as the writes of its assignments, one after the other. -/
theorem readLines_eq {keys : List (Key (Contents size))} {settings : List (Setting Obj)}
    (realised : List.Forall₂ Realises keys settings) (strSize : Nat) (c : Contents size)
    (content : List UInt8) :
    readLines strSize keys c content =
      (assignments (pieces newline (strSize - 1) [] content)).bind fun given =>
        run write c (assignedAll settings given) := by
  unfold readLines
  induction pieces newline (strSize - 1) [] content generalizing c with
  | nil => rfl
  | cons buf rest ih =>
      rw [run_cons, lineparser, assignments, Option.bind_assoc, Option.bind_assoc]
      apply Option.bind_congr
      intro tokens scanned
      cases tokens with
      | none =>
          simp only [Option.bind_some, ih]
          cases assignments rest <;> rfl
      | some entry =>
          obtain ⟨name, value⟩ := entry
          simp only [gettoken_eq realised name (scanLine_some scanned).1]
          cases later : assignments rest with
          | none =>
              simp only [ih, later, Option.bind_none, Option.map_none]
              cases run write c (assigned settings name value) <;> rfl
          | some given =>
              simp only [Option.map_some, Option.bind_some, Option.toList_some,
                List.singleton_append, assignedAll, List.flatMap_cons, run_append]
              apply Option.bind_congr
              intro next _
              rw [ih, later]
              rfl

end Settings

/-- A scanned line of three words is an assignment. -/
theorem scanLine_three {buf first between value : List UInt8}
    {tokens : Option (List UInt8 × List UInt8)} (scanned : scanLine buf = some tokens)
    (split : words (lineText buf) = [first, between, value]) : tokens.isSome := by
  obtain ⟨token, _, rest⟩ := Option.bind_eq_some_iff.mp scanned
  rw [split] at rest
  obtain ⟨name, _, rest⟩ := Option.bind_eq_some_iff.mp rest
  obtain ⟨last, _, rfl⟩ := Option.map_eq_some_iff.mp rest
  rfl

/-- The assignments to a name that fits its token, by the words of the lines. -/
theorem mem_assignments {bufs : List (List UInt8)} {given : List (List UInt8 × List UInt8)}
    (scanned : assignments bufs = some given) {name value : List UInt8}
    (short : name.length < maxStrLength) :
    (name, value) ∈ given ↔
      ∃ buf ∈ bufs, ∃ between, words (lineText buf) = [name, between, value] := by
  induction bufs generalizing given with
  | nil =>
      cases scanned
      simp
  | cons buf rest ih =>
      obtain ⟨tokens, first, later⟩ := Option.bind_eq_some_iff.mp scanned
      obtain ⟨others, last, rfl⟩ := Option.map_eq_some_iff.mp later
      rw [List.mem_append, Option.mem_toList, ih last, List.exists_mem_cons_iff]
      refine or_congr_left ⟨fun here => ?_, fun ⟨between, split⟩ => ?_⟩
      · rw [Option.mem_def.mp here] at first
        obtain ⟨_, word, between, split, same⟩ := scanLine_some first
        rcases same with rfl | ⟨long, _⟩
        · exact ⟨between, split⟩
        · omega
      · obtain ⟨⟨found, last⟩, rfl⟩ := Option.isSome_iff_exists.mp (scanLine_three first split)
        obtain ⟨_, word, _, split', same⟩ := scanLine_some first
        rw [split] at split'
        cases split'
        rcases same with rfl | ⟨_, long⟩
        · rfl
        · omega

end VnfMonitoring.ConfFile
