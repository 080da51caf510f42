import Mathlib.Data.List.Basic

set_option autoImplicit false

/- How the text of a statement is read: words, symbols, and literals from a quote to the
next one that is not doubled. A text put together from parts is read part by part. -/
namespace VnfMonitoring.Sql

def quote : UInt8 := 39

/-- The bytes of a string literal. -/
def ascii (s : String) : List UInt8 := s.toByteArray.data.toList

inductive Token where
  | word (chars : List UInt8)
  | literal (chars : List UInt8)
  | symbol (c : UInt8)
  deriving DecidableEq, Repr

def isBlank (c : UInt8) : Bool := c = 32 ∨ (9 ≤ c ∧ c ≤ 13)

def isSymbol (c : UInt8) : Bool := c ∈ ascii "(),;="

def isBreak (c : UInt8) : Bool := isBlank c || isSymbol c

def isOrdinary (c : UInt8) : Bool := c ≠ quote && !isBreak c

/-- Where the reader stands; `quoted` is behind a quote that may end the literal. -/
inductive Mode where
  | plain
  | word (chars : List UInt8)
  | literal (chars : List UInt8)
  | quoted (chars : List UInt8)
  deriving DecidableEq, Repr

/-- A character that begins something new, behind the tokens `done`. -/
def enter (done : List Token) (c : UInt8) : Mode × List Token :=
  if c = quote then (.literal [], done)
  else if isBlank c then (.plain, done)
  else if isSymbol c then (.plain, done ++ [.symbol c])
  else (.word [c], done)

def step : Mode → UInt8 → Mode × List Token
  | .plain, c => enter [] c
  | .word chars, c => if isOrdinary c then (.word (chars ++ [c]), []) else enter [.word chars] c
  | .literal chars, c => if c = quote then (.quoted chars, []) else (.literal (chars ++ [c]), [])
  | .quoted chars, c =>
      if c = quote then (.literal (chars ++ [quote]), []) else enter [.literal chars] c

/-- The end of the text; a literal that is still open makes it unreadable. -/
def finish : Mode → Option (List Token)
  | .plain => some []
  | .word chars => some [.word chars]
  | .literal _ => none
  | .quoted chars => some [.literal chars]

def lexFrom (mode : Mode) : List UInt8 → Option (List Token)
  | [] => finish mode
  | c :: rest => (lexFrom (step mode c).1 rest).map ((step mode c).2 ++ ·)

def lex (text : List UInt8) : Option (List Token) := lexFrom .plain text

/-- The tokens completed within a text, and the mode behind it. -/
def scan (mode : Mode) : List UInt8 → Mode × List Token
  | [] => (mode, [])
  | c :: rest =>
      ((scan (step mode c).1 rest).1, (step mode c).2 ++ (scan (step mode c).1 rest).2)

theorem lexFrom_append (mode : Mode) (text rest : List UInt8) :
    lexFrom mode (text ++ rest) =
      (lexFrom (scan mode text).1 rest).map ((scan mode text).2 ++ ·) := by
  induction text generalizing mode with
  | nil => simp [scan]
  | cons c text ih =>
      simp only [List.cons_append, lexFrom, scan, ih, Option.map_map, Function.comp_def,
        List.append_assoc]

theorem enter_append (done : List Token) (c : UInt8) :
    enter done c = ((enter [] c).1, done ++ (enter [] c).2) := by
  unfold enter
  split_ifs <;> simp

section Literal

theorem scan_literal {chars : List UInt8} (plain : quote ∉ chars) (held : List UInt8) :
    scan (.literal held) chars = (.literal (held ++ chars), []) := by
  induction chars generalizing held with
  | nil => simp [scan]
  | cons c chars ih =>
      rw [List.mem_cons, not_or] at plain
      simp only [scan, step, if_neg (Ne.symm plain.1), ih plain.2, List.append_assoc,
        List.singleton_append, List.append_nil]

/-- How a literal says its characters: each quote twice. -/
def doubled (chars : List UInt8) : List UInt8 :=
  chars.flatMap fun c => if c = quote then [quote, quote] else [c]

/-- What a literal that was read to its end consumed. -/
theorem literal_consumed : ∀ {text held : List UInt8} {tokens : List Token},
    lexFrom (.literal held) text = some tokens →
      ∃ chars rest, text = doubled chars ++ quote :: rest ∧
        tokens.head? = some (.literal (held ++ chars))
  | [], _, _, read => by cases read
  | c :: text, held, tokens, read => by
      by_cases ends : c = quote
      · subst ends
        cases text with
        | nil =>
            simp only [lexFrom, step, finish, if_true, Option.map_some, Option.some.injEq] at read
            exact ⟨[], [], rfl, by simp [← read]⟩
        | cons d text =>
            by_cases again : d = quote
            · subst again
              simp only [lexFrom, step, if_true, List.nil_append, Option.map_id'] at read
              obtain ⟨chars, rest, rfl, first⟩ := literal_consumed read
              exact ⟨quote :: chars, rest, by simp [doubled], by simpa using first⟩
            · simp only [lexFrom, step, if_true, if_neg again, enter_append [_], Option.map_map,
                Option.map_eq_some_iff] at read
              obtain ⟨behind, -, rfl⟩ := read
              exact ⟨[], d :: text, by simp [doubled], by simp⟩
      · simp only [lexFrom, step, if_neg ends, List.nil_append, Option.map_id'] at read
        obtain ⟨chars, rest, rfl, first⟩ := literal_consumed read
        exact ⟨c :: chars, rest, by simp [doubled, ends], by simpa using first⟩

/-- Quotes that are ahead of what follows stay ahead when more quotes are doubled. -/
theorem doubled_ahead {chars rest behind : List UInt8} (k : Nat)
    (follows : rest.head? ≠ some quote) :
    chars ++ quote :: rest ≠
      List.replicate (k + 1) quote ++ (doubled chars ++ quote :: behind) := by
  induction chars generalizing k with
  | nil =>
      intro same
      rw [List.nil_append, List.replicate_succ, List.cons_append, List.cons_inj_right] at same
      cases k <;> simp [same, doubled, List.replicate_succ] at follows
  | cons c chars ih =>
      intro same
      rw [List.cons_append, List.replicate_succ, List.cons_append, List.cons.injEq] at same
      obtain ⟨rfl, same⟩ := same
      refine ih (k + 1) (same.trans ?_)
      simp [doubled, List.replicate_succ', List.append_assoc]

theorem not_mem_of_doubled {chars rest behind : List UInt8} (follows : rest.head? ≠ some quote)
    (same : chars ++ quote :: rest = doubled chars ++ quote :: behind) : quote ∉ chars := by
  induction chars with
  | nil => simp
  | cons c chars ih =>
      by_cases here : c = quote
      · subst here
        have tail : chars ++ quote :: rest =
            List.replicate 1 quote ++ (doubled chars ++ quote :: behind) := by
          simpa [doubled] using same
        exact absurd tail (doubled_ahead 0 follows)
      · have tail : chars ++ quote :: rest = doubled chars ++ quote :: behind := by
          simpa [doubled, here] using same
        simp [Ne.symm here, ih tail]

end Literal

/-- A text in front of which a word or a literal ends. -/
def Apart (text : List UInt8) : Prop := ∀ c ∈ text.head?, isBreak c = true

theorem ordinary_of_break {c : UInt8} (break_ : isBreak c = true) : isOrdinary c = false := by
  rw [isOrdinary, break_, Bool.not_true, Bool.and_false]

theorem Apart.head {rest : List UInt8} (apart : Apart rest) : rest.head? ≠ some quote :=
  fun first => absurd (apart quote first) (by decide)

theorem lexFrom_word {rest : List UInt8} (apart : Apart rest) (chars : List UInt8) :
    lexFrom (.word chars) rest = (lexFrom .plain rest).map (.word chars :: ·) := by
  cases rest with
  | nil => rfl
  | cons c rest =>
      simp only [lexFrom, step, ordinary_of_break (apart c rfl), Bool.false_eq_true, if_false,
        enter_append [_], Option.map_map, Function.comp_def, List.nil_append,
        List.cons_append]

theorem lexFrom_quoted {rest : List UInt8} (follows : rest.head? ≠ some quote)
    (chars : List UInt8) :
    lexFrom (.quoted chars) rest = (lexFrom .plain rest).map (.literal chars :: ·) := by
  cases rest with
  | nil => rfl
  | cons c rest =>
      have other : c ≠ quote := fun same => follows (by rw [same]; rfl)
      simp only [lexFrom, step, if_neg other, enter_append [_], Option.map_map,
        Function.comp_def, List.nil_append, List.cons_append]

/-- A text reads as the tokens meant, whatever comes apart behind it, exactly if `good`. -/
def Reads (text : List UInt8) (tokens : List Token) (good : Prop) : Prop :=
  ∀ rest behind, Apart rest →
    (lexFrom .plain (text ++ rest) = some (tokens ++ behind) ↔
      good ∧ lexFrom .plain rest = some behind)

/-- A text between two others, read by itself. -/
structure Separates (text : List UInt8) (tokens : List Token) : Prop where
  apart : ∀ rest, Apart (text ++ rest)
  reads : ∀ rest behind,
    lexFrom .plain (text ++ rest) = some (tokens ++ behind) ↔ lexFrom .plain rest = some behind

theorem map_append_eq_some {α : Type} {tokens behind : List α} {read : Option (List α)} :
    read.map (tokens ++ ·) = some (tokens ++ behind) ↔ read = some behind := by
  cases read <;> simp

theorem separates_of_scan {c : UInt8} {text : List UInt8} {tokens : List Token}
    (break_ : isBreak c = true) (read : scan .plain (c :: text) = (.plain, tokens)) :
    Separates (c :: text) tokens where
  apart rest d first := by
    cases first
    exact break_
  reads rest behind := by rw [lexFrom_append, read, map_append_eq_some]

/-- A word without blanks, symbols and quotes. -/
def IsWord (chars : List UInt8) : Prop := chars ≠ [] ∧ chars.all isOrdinary = true

instance : DecidablePred IsWord := fun _ => inferInstanceAs (Decidable (_ ∧ _))

theorem scan_word {chars : List UInt8} (ordinary : ∀ c ∈ chars, isOrdinary c = true)
    (held : List UInt8) : scan (.word held) chars = (.word (held ++ chars), []) := by
  induction chars generalizing held with
  | nil => simp [scan]
  | cons c chars ih =>
      rw [List.forall_mem_cons] at ordinary
      simp [scan, step, ordinary.1, ih ordinary.2]

theorem enter_ordinary {c : UInt8} (ordinary : isOrdinary c = true) :
    enter [] c = (.word [c], []) := by
  simp only [isOrdinary, isBreak, Bool.and_eq_true, decide_eq_true_eq, Bool.not_eq_true',
    Bool.or_eq_false_iff] at ordinary
  simp [enter, ordinary]

theorem scan_plain {chars : List UInt8} (word : IsWord chars) :
    scan .plain chars = (.word chars, []) := by
  obtain ⟨nonempty, ordinary⟩ := word
  rw [List.all_eq_true] at ordinary
  cases chars with
  | nil => exact absurd rfl nonempty
  | cons c chars =>
      rw [List.forall_mem_cons] at ordinary
      simp [scan, step, enter_ordinary ordinary.1, scan_word ordinary.2]

/-- A word is read as itself. -/
theorem reads_bare {printed meant : List UInt8} (word : IsWord printed) :
    Reads printed [.word meant] (printed = meant) := by
  intro rest behind apart
  rw [lexFrom_append, scan_plain word, lexFrom_word apart, Option.map_map]
  cases lexFrom .plain rest <;> simp

theorem reads_word {chars : List UInt8} (word : IsWord chars) :
    Reads chars [.word chars] True := by
  have read : Reads chars [.word chars] (chars = chars) := reads_bare word
  rwa [eq_self] at read

/-- Characters between quotes are read as themselves exactly if none of them is a quote. -/
theorem reads_text (chars : List UInt8) :
    Reads (quote :: (chars ++ [quote])) [.literal chars] (quote ∉ chars) := by
  intro rest behind apart
  have opened : lexFrom .plain (quote :: (chars ++ [quote]) ++ rest) =
      lexFrom (.literal []) (chars ++ quote :: rest) := by
    simp [lexFrom, step, enter]
  rw [opened]
  by_cases plain : quote ∉ chars
  · have closed : lexFrom (.literal []) (chars ++ quote :: rest) =
        (lexFrom .plain rest).map (.literal chars :: ·) := by
      rw [lexFrom_append, scan_literal plain, lexFrom, step, if_pos rfl, lexFrom_quoted apart.head]
      simp [Function.comp_def]
    rw [closed, and_iff_right plain]
    cases lexFrom .plain rest <;> simp
  · refine iff_of_false (fun read => plain ?_) (fun both => plain both.1)
    obtain ⟨others, behind', same, first⟩ := literal_consumed read
    obtain rfl : chars = others := by simpa using first
    exact not_mem_of_doubled apart.head same

theorem Reads.append {text text' between : List UInt8} {tokens tokens' mark : List Token}
    {good good' : Prop} (first : Reads text tokens good) (sep : Separates between mark)
    (second : Reads text' tokens' good') :
    Reads (text ++ (between ++ text')) (tokens ++ (mark ++ tokens')) (good ∧ good') := by
  intro rest behind apart
  simp only [List.append_assoc]
  rw [first _ _ (sep.apart _), sep.reads, second _ _ apart, and_assoc]

/-- A list printed between separators reads as its items do. -/
theorem Reads.listed {ι : Type} {text : ι → List UInt8} {tokens : ι → List Token}
    {good : ι → Prop} {between : List UInt8} {mark : List Token} {items : List ι}
    (nonempty : items ≠ []) (each : ∀ i ∈ items, Reads (text i) (tokens i) (good i))
    (sep : Separates between mark) :
    Reads (between.intercalate (items.map text)) (mark.intercalate (items.map tokens))
      (∀ i ∈ items, good i) := by
  induction items with
  | nil => exact absurd rfl nonempty
  | cons i items ih =>
      rw [List.forall_mem_cons] at each
      cases items with
      | nil => simpa using each.1
      | cons j items =>
          have both := each.1.append sep (ih (by simp) each.2)
          simp only [List.map_cons, List.intercalate_cons_cons, List.append_assoc] at both ⊢
          rwa [List.forall_mem_cons]

/-- The whole text of a statement. -/
theorem Reads.lex {text : List UInt8} {tokens : List Token} {good : Prop}
    (reads : Reads text tokens good) : lex text = some tokens ↔ good := by
  have whole := reads [] [] (by simp [Apart])
  simpa [Sql.lex, lexFrom, finish] using whole

/-- A statement that a separating text ends. -/
theorem Reads.lex_ended {text ending : List UInt8} {tokens mark : List Token} {good : Prop}
    (reads : Reads text tokens good) (sep : Separates ending mark) :
    Sql.lex (text ++ ending) = some (tokens ++ mark) ↔ good := by
  have last := sep.reads [] []
  rw [List.append_nil, List.append_nil] at last
  rw [Sql.lex, reads ending mark (by simpa using sep.apart []), last]
  simp [lexFrom, finish]

section Statement

/-- A value as a statement names it: a text, or characters that stand for themselves. -/
inductive Value where
  | text (chars : List UInt8)
  | bare (chars : List UInt8)
  deriving DecidableEq, Repr

def Value.token : Value → Token
  | .text chars => .literal chars
  | .bare chars => .word chars

/-- A list with something in it. -/
abbrev Items (α : Type) := { items : List α // items ≠ [] }

inductive Statement where
  | insert (table : List UInt8) (columns : Items (List UInt8)) (values : Items Value)
  | update (table : List UInt8) (assignments conditions : Items (List UInt8 × Value))

def comma : List Token := [.symbol 44]

def keyword (s : String) : Token := .word (ascii s)

def equation (item : List UInt8 × Value) : List Token :=
  [.word item.1, .symbol 61, item.2.token]

def Statement.tokens : Statement → List Token
  | .insert table columns values =>
      [keyword "INSERT", keyword "INTO", .word table, .symbol 40] ++
        (comma.intercalate (columns.1.map fun column => [Token.word column]) ++
          ([.symbol 41, keyword "VALUES", .symbol 40] ++
            (comma.intercalate (values.1.map fun value => [value.token]) ++ [.symbol 41])))
  | .update table assignments conditions =>
      [keyword "UPDATE", .word table, keyword "SET"] ++
        (comma.intercalate (assignments.1.map equation) ++
          ([keyword "WHERE"] ++ [keyword "AND"].intercalate (conditions.1.map equation)))

/-- A list of items of one length is found in front of anything but its separator. -/
theorem intercalate_inj {α : Type} {sep : α} {n : Nat} {items others : List (List α)}
    {rest rest' : List α} (some_ : items ≠ []) (some' : others ≠ [])
    (width : ∀ item ∈ items, item.length = n) (width' : ∀ item ∈ others, item.length = n)
    (ends : rest.head? ≠ some sep) (ends' : rest'.head? ≠ some sep)
    (same : [sep].intercalate items ++ rest = [sep].intercalate others ++ rest') :
    items = others ∧ rest = rest' := by
  induction items generalizing others with
  | nil => exact absurd rfl some_
  | cons item items ih =>
      obtain ⟨other, others, rfl⟩ := List.exists_cons_of_ne_nil some'
      rw [List.forall_mem_cons] at width width'
      have lengths : item.length = other.length := width.1.trans width'.1.symm
      cases items with
      | nil =>
          cases others with
          | nil =>
              simp only [List.intercalate_singleton] at same
              obtain ⟨rfl, rfl⟩ := List.append_inj same lengths
              exact ⟨rfl, rfl⟩
          | cons another others =>
              simp only [List.intercalate_singleton, List.intercalate_cons_cons,
                List.append_assoc] at same
              exact absurd (by rw [(List.append_inj same lengths).2]; rfl) ends
      | cons next items =>
          cases others with
          | nil =>
              simp only [List.intercalate_singleton, List.intercalate_cons_cons,
                List.append_assoc] at same
              exact absurd (by rw [← (List.append_inj same lengths).2]; rfl) ends'
          | cons another others =>
              simp only [List.intercalate_cons_cons, List.append_assoc] at same
              obtain ⟨rfl, tails⟩ := List.append_inj same lengths
              obtain ⟨equal, rests⟩ := ih (by simp) (by simp) width.2 width'.2
                (List.append_cancel_left tails)
              exact ⟨by rw [equal], rests⟩

theorem listed_inj {ι α : Type} {sep : α} {n : Nat} {tokens : ι → List α}
    (injective : Function.Injective tokens) (width : ∀ i, (tokens i).length = n)
    {items others : Items ι} {rest rest' : List α}
    (ends : rest.head? ≠ some sep) (ends' : rest'.head? ≠ some sep)
    (same : [sep].intercalate (items.1.map tokens) ++ rest =
      [sep].intercalate (others.1.map tokens) ++ rest') :
    items = others ∧ rest = rest' := by
  obtain ⟨equal, rests⟩ := intercalate_inj (n := n) (by simpa using items.2)
    (by simpa using others.2) (List.forall_mem_map.mpr fun i _ => width i)
    (List.forall_mem_map.mpr fun i _ => width i) ends ends' same
  exact ⟨Subtype.ext (List.map_injective_iff.mpr injective equal), rests⟩

theorem Value.token_injective : Function.Injective Value.token := by
  intro value other same
  cases value <;> cases other <;> cases same <;> rfl

theorem equation_length (item : List UInt8 × Value) : (equation item).length = 3 := rfl

theorem equation_injective : Function.Injective equation := by
  rintro ⟨column, value⟩ ⟨column', value'⟩ same
  simp only [equation, List.cons.injEq, Token.word.injEq, true_and, and_true] at same
  rw [same.1, Value.token_injective same.2]

/-- The tokens determine the statement. -/
theorem Statement.tokens_injective : Function.Injective Statement.tokens := by
  have column : Function.Injective fun column => [Token.word column] :=
    fun a b same => by simpa using same
  have operand : Function.Injective fun value : Value => [value.token] :=
    fun a b same => Value.token_injective (by simpa using same)
  intro statement other same
  cases statement with
  | insert table columns values =>
      cases other with
      | update table' assignments conditions =>
          simp only [tokens, List.cons_append, List.cons.injEq] at same
          exact absurd same.1 (by decide)
      | insert table' columns' values' =>
          simp only [tokens, List.cons_append, List.nil_append, List.cons.injEq,
            Token.word.injEq, true_and] at same
          obtain ⟨rfl, lists⟩ := same
          obtain ⟨rfl, behind⟩ := listed_inj column (fun _ => rfl) (by simp) (by simp) lists
          simp only [List.cons.injEq, true_and] at behind
          obtain ⟨rfl, -⟩ := listed_inj operand (fun _ => rfl) (by simp) (by simp) behind
          rfl
  | update table assignments conditions =>
      cases other with
      | insert table' columns' values' =>
          simp only [tokens, List.cons_append, List.cons.injEq] at same
          exact absurd same.1 (by decide)
      | update table' assignments' conditions' =>
          simp only [tokens, List.cons_append, List.nil_append, List.cons.injEq,
            Token.word.injEq, true_and] at same
          obtain ⟨rfl, lists⟩ := same
          obtain ⟨rfl, behind⟩ := listed_inj equation_injective equation_length
            (by simp [keyword]) (by simp [keyword]) lists
          simp only [List.cons.injEq, true_and] at behind
          rw [← List.append_nil (List.intercalate _ (conditions.1.map _)),
            ← List.append_nil (List.intercalate _ (conditions'.1.map _))] at behind
          obtain ⟨rfl, -⟩ := listed_inj equation_injective equation_length (by simp) (by simp)
            behind
          rfl

/-- A text that is read as this statement and as no other. -/
def Means (text : List UInt8) (statement : Statement) : Prop :=
  ∀ other : Statement, lex text = some other.tokens ↔ other = statement

theorem means_iff {text : List UInt8} {statement : Statement} :
    Means text statement ↔ lex text = some statement.tokens := by
  refine ⟨fun means => (means statement).mpr rfl, fun read other => ?_⟩
  rw [read]
  exact ⟨fun same => (Statement.tokens_injective (Option.some.inj same)).symm,
    fun same => by rw [same]⟩

end Statement

end VnfMonitoring.Sql
