import Mathlib.Data.List.Basic

set_option autoImplicit false

/- A byte stream between a sender of messages and a reader of frames: the messages put
in whole, the bytes not read yet, and whether the sender gave up inside a message. -/
namespace VnfMonitoring.Pipes

variable {α β : Type}

structure Pipe (α β : Type) where
  sent : List α
  bytes : List β
  closed : Bool

def Pipe.empty : Pipe α β := ⟨[], [], false⟩

/-- The bytes of a message go in. -/
def Pipe.put (p : Pipe α β) (message : α) (bytes : List β) : Pipe α β :=
  { p with sent := p.sent ++ [message], bytes := p.bytes ++ bytes }

/-- The sender gives up behind a part of a message. -/
def Pipe.cut (p : Pipe α β) (part : List β) : Pipe α β :=
  { p with bytes := p.bytes ++ part, closed := true }

def Pipe.read (p : Pipe α β) (count : Nat) : Pipe α β :=
  { p with bytes := p.bytes.drop count }

/-- Frames that say where they end: at most one is first in a stream, and none is empty. -/
structure Delimited (Frame : List β → Prop) : Prop where
  some_ : ∀ frame, Frame frame → frame ≠ []
  unique : ∀ frame other bytes, Frame frame → Frame other → frame <+: bytes →
    other <+: bytes → frame = other

/-- Less than the code of a message. -/
def Incomplete (code : α → List β) (part : List β) : Prop :=
  part = [] ∨ ∃ message, part <+: code message ∧ part ≠ code message

/-- Behind the messages read, the pipe holds the codes of the others, and what a sender
that gave up has left of one more. -/
structure Rest (code : α → List β) (p : Pipe α β) (taken pending : List α) (part : List β) :
    Prop where
  sent : p.sent = taken ++ pending
  bytes : p.bytes = pending.flatMap code ++ part
  whole : p.closed = false → part = []
  short : Incomplete code part

def Holds (code : α → List β) (p : Pipe α β) (taken : List α) : Prop :=
  ∃ pending part, Rest code p taken pending part

section Rules

variable {code : α → List β} {p : Pipe α β} {taken : List α}

theorem holds_empty (code : α → List β) : Holds code (Pipe.empty : Pipe α β) [] :=
  ⟨[], [], rfl, rfl, fun _ => rfl, Or.inl rfl⟩

theorem Holds.put (holds : Holds code p taken) (opened : p.closed = false) (message : α) :
    Holds code (p.put message (code message)) taken := by
  obtain ⟨pending, part, sent, bytes, whole, short⟩ := holds
  have none_left := whole opened
  subst none_left
  refine ⟨pending ++ [message], [], ?_, ?_, fun _ => rfl, Or.inl rfl⟩
  · rw [Pipe.put, sent, List.append_assoc]
  · simp only [Pipe.put, bytes, List.append_nil, List.flatMap_append, List.flatMap_singleton]

theorem Holds.cut (holds : Holds code p taken) (opened : p.closed = false) {part : List β}
    (short : Incomplete code part) : Holds code (p.cut part) taken := by
  obtain ⟨pending, before, sent, bytes, whole, _⟩ := holds
  have none_left := whole opened
  subst none_left
  refine ⟨pending, part, sent, ?_, fun closed => ?_, short⟩
  · rw [Pipe.cut, bytes, List.append_nil]
  · cases closed

/-- A reader that takes a frame takes the code of the next message, and nothing else. -/
theorem Holds.read {Frame : List β → Prop} (holds : Holds code p taken)
    (delimited : Delimited Frame) (framed : ∀ message, Frame (code message)) {frame : List β}
    (is_frame : Frame frame) (front : frame <+: p.bytes) :
    ∃ message, frame = code message ∧ taken ++ [message] <+: p.sent ∧
      Holds code (p.read frame.length) (taken ++ [message]) := by
  obtain ⟨pending, part, sent, bytes, whole, short⟩ := holds
  cases pending with
  | nil =>
      rw [bytes, List.flatMap_nil, List.nil_append] at front
      rcases short with rfl | ⟨message, begun, torn⟩
      · exact absurd (List.prefix_nil.mp front) (delimited.some_ frame is_frame)
      · have same := delimited.unique frame (code message) (code message) is_frame
          (framed message) (front.trans begun) (List.prefix_refl _)
        rw [same] at front
        exact absurd (begun.eq_of_length_le front.length_le) torn
  | cons message pending =>
      rw [List.flatMap_cons, List.append_assoc] at bytes
      have same := delimited.unique frame (code message) p.bytes is_frame (framed message) front
        ⟨_, bytes.symm⟩
      refine ⟨message, same, ⟨pending, by rw [sent, List.append_assoc]; rfl⟩, pending, part, ?_, ?_,
        whole, short⟩
      · rw [Pipe.read, sent, List.append_assoc]
        rfl
      · rw [Pipe.read, bytes, same, List.drop_left]

/-- With nothing left in the pipe, every message sent has been read. -/
theorem Holds.drained {Frame : List β → Prop} (holds : Holds code p taken)
    (delimited : Delimited Frame) (framed : ∀ message, Frame (code message))
    (drained : p.bytes = []) : taken = p.sent := by
  obtain ⟨pending, part, sent, bytes, _, _⟩ := holds
  cases pending with
  | nil => rw [sent, List.append_nil]
  | cons message pending =>
      rw [drained, List.flatMap_cons, List.append_assoc] at bytes
      have none_left := (List.append_eq_nil_iff.mp bytes.symm).1
      exact absurd none_left (delimited.some_ _ (framed message))

end Rules

end VnfMonitoring.Pipes
