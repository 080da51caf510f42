import VnfMonitoring.Lib.Memory

set_option autoImplicit false

/- Stream sockets as a program sees them: what each `recv` or `send` returns is
the next event of a script, and a loop repeats the call until it has all bytes. -/
namespace VnfMonitoring.Socket

open VnfMonitoring.Memory

/-- What a `recv` finds: a segment of the stream, of which it takes no more than it
asked for, a signal or an empty socket, the end of the stream, or another error. -/
inductive RecvEvent where
  | data (first : UInt8) (more : List UInt8)
  | interrupted
  | closed
  | failed
  deriving DecidableEq, Repr

/-- The bytes that arrive before the stream ends. -/
def stream : List RecvEvent → List UInt8
  | [] => []
  | .data first more :: later => first :: more ++ stream later
  | .interrupted :: later => stream later
  | .closed :: _ => []
  | .failed :: _ => []

/-- The bytes of a stream arriving one at a time. -/
def singly (bytes : List UInt8) : List RecvEvent := bytes.map fun byte => .data byte []

@[simp] theorem stream_singly (bytes : List UInt8) : stream (singly bytes) = bytes := by
  induction bytes with
  | nil => rfl
  | cons byte bytes ih => rw [singly, List.map_cons, ← singly, stream, ih]; rfl

/-- A stream in segments of these widths, each a byte at least, and one for the rest. -/
def segments : List Nat → List UInt8 → List RecvEvent
  | _, [] => []
  | [], first :: more => [.data first more]
  | width :: widths, first :: more =>
      .data first (more.take (width - 1)) :: segments widths (more.drop (width - 1))

@[simp] theorem stream_segments (widths : List Nat) (bytes : List UInt8) :
    stream (segments widths bytes) = bytes := by
  induction widths generalizing bytes with
  | nil =>
      cases bytes with
      | nil => rfl
      | cons first more => rw [segments, stream, stream, List.append_nil]
  | cons width widths ih =>
      cases bytes with
      | nil => rfl
      | cons first more => rw [segments, stream, ih, List.cons_append, List.take_append_drop]

/-- The variables of a receive loop: the buffer, the bytes in it, the result of the
last call, and whether a call has returned bytes. -/
structure RecvLoop (n : Nat) where
  buf : Bytes n
  total : Nat
  last : Int
  moved : Bool
  deriving DecidableEq, Repr

/-- Receive up to `target` bytes. There is no value while the loop still waits, nor
when a call would write outside the buffer. -/
def recvLoop {n : Nat} (target : Nat) (loop : RecvLoop n) :
    List RecvEvent → Option (RecvLoop n × List RecvEvent)
  | [] => if loop.total < target then none else some (loop, [])
  | event :: later =>
      if loop.total < target then
        match event with
        | .interrupted => recvLoop target loop later
        | .closed => some ({ loop with last := 0 }, event :: later)
        | .failed => some ({ loop with last := -1 }, later)
        | .data first more =>
            let wanted := target - loop.total
            let taken := (first :: more).take wanted
            match storeBytes loop.buf loop.total taken with
            | none => none
            | some buf =>
                let loop := ⟨buf, loop.total + taken.length, taken.length, true⟩
                match (first :: more).drop wanted with
                | [] => recvLoop target loop later
                | next :: rest => some (loop, .data next rest :: later)
      else some (loop, event :: later)

theorem recvLoop_full {n : Nat} (target : Nat) (loop : RecvLoop n) (events : List RecvEvent)
    (full : ¬ loop.total < target) : recvLoop target loop events = some (loop, events) := by
  cases events with
  | nil => rw [recvLoop, if_neg full]
  | cons event later => cases event <;> rw [recvLoop, if_neg full]

/-- What a receive loop can do, from its variables and the events it meets to those it
leaves. -/
inductive Receives {n : Nat} (target : Nat) :
    RecvLoop n → List RecvEvent → RecvLoop n → List RecvEvent → Prop where
  | full {loop events} (full : ¬ loop.total < target) : Receives target loop events loop events
  | interrupted {loop done later rest} (short : loop.total < target)
      (goesOn : Receives target loop later done rest) :
      Receives target loop (.interrupted :: later) done rest
  | closed {loop later} (short : loop.total < target) :
      Receives target loop (.closed :: later) { loop with last := 0 } (.closed :: later)
  | failed {loop later} (short : loop.total < target) :
      Receives target loop (.failed :: later) { loop with last := -1 } later
  /-- The segment is used up, and the loop goes on behind it. -/
  | used {loop done first more later rest buf} (short : loop.total < target)
      (whole : (first :: more).length ≤ target - loop.total)
      (stored : storeBytes loop.buf loop.total (first :: more) = some buf)
      (goesOn : Receives target
        ⟨buf, loop.total + (first :: more).length, (first :: more).length, true⟩ later done rest) :
      Receives target loop (.data first more :: later) done rest
  /-- The segment is longer than what is wanted, and the loop ends inside it. -/
  | inside {loop first more later buf next others} (short : loop.total < target)
      (stored : storeBytes loop.buf loop.total ((first :: more).take (target - loop.total)) =
        some buf)
      (left : (first :: more).drop (target - loop.total) = next :: others) :
      Receives target loop (.data first more :: later)
        ⟨buf, target, (target - loop.total : Nat), true⟩ (.data next others :: later)

theorem recvLoop_receives {n target : Nat} (events : List RecvEvent) :
    ∀ {loop done : RecvLoop n} {rest : List RecvEvent},
      recvLoop target loop events = some (done, rest) → Receives target loop events done rest := by
  induction events with
  | nil =>
      intro loop done rest ended
      unfold recvLoop at ended
      split at ended
      · cases ended
      · cases ended
        exact .full ‹_›
  | cons event later ih =>
      intro loop done rest ended
      by_cases short : loop.total < target
      · cases event with
        | interrupted =>
            rw [recvLoop, if_pos short] at ended
            exact .interrupted short (ih ended)
        | closed =>
            rw [recvLoop, if_pos short] at ended
            cases ended
            exact .closed short
        | failed =>
            rw [recvLoop, if_pos short] at ended
            cases ended
            exact .failed short
        | data first more =>
            rw [recvLoop, if_pos short] at ended
            simp only at ended
            split at ended
            · cases ended
            · rename_i buf stored
              split at ended
              · rename_i used
                have whole := List.drop_eq_nil_iff.mp used
                rw [List.take_of_length_le whole] at stored ended
                exact .used short whole stored (ih ended)
              · rename_i next others left
                cases ended
                have count : ((first :: more).take (target - loop.total)).length =
                    target - loop.total := by
                  have remaining := congrArg List.length left
                  rw [List.length_drop, List.length_cons (a := next)] at remaining
                  rw [List.length_take]
                  omega
                have reached : loop.total + (target - loop.total) = target := by omega
                rw [count, reached]
                exact .inside short stored left
      · rw [recvLoop_full _ _ _ short] at ended
        cases ended
        exact .full short

/-- The stream comes to its end or to an error. -/
def Ends (events : List RecvEvent) : Prop := .closed ∈ events ∨ .failed ∈ events

instance (events : List RecvEvent) : Decidable (Ends events) :=
  inferInstanceAs (Decidable (_ ∨ _))

theorem Ends.later {event : RecvEvent} {later : List RecvEvent} (ends : Ends (event :: later))
    (unclosed : event ≠ .closed) (sound : event ≠ .failed) : Ends later :=
  ends.imp (List.mem_of_ne_of_mem unclosed.symm) (List.mem_of_ne_of_mem sound.symm)

theorem Ends.behind {event : RecvEvent} {later : List RecvEvent} (ends : Ends later) :
    Ends (event :: later) :=
  ends.imp (List.mem_cons_of_mem _) (List.mem_cons_of_mem _)

/-- A loop over a stream that ends, or that is long enough, does not wait. -/
theorem recvLoop_isSome {n target : Nat} (inside : target ≤ n) (events : List RecvEvent) :
    ∀ loop : RecvLoop n, loop.total ≤ target →
      Ends events ∨ target - loop.total ≤ (stream events).length →
      ∃ done rest, recvLoop target loop events = some (done, rest) := by
  induction events with
  | nil =>
      intro loop begun comes
      have full : ¬ loop.total < target := by
        rcases comes with ends | enough
        · exact absurd ends (by decide)
        · rw [stream, List.length_nil] at enough
          omega
      exact ⟨loop, [], recvLoop_full _ _ _ full⟩
  | cons event later ih =>
      intro loop begun comes
      by_cases short : loop.total < target
      · cases event with
        | interrupted =>
            rw [recvLoop, if_pos short]
            exact ih loop begun (comes.imp_left fun ends => ends.later nofun nofun)
        | closed =>
            rw [recvLoop, if_pos short]
            exact ⟨_, _, rfl⟩
        | failed =>
            rw [recvLoop, if_pos short]
            exact ⟨_, _, rfl⟩
        | data first more =>
            have bounded : loop.total + ((first :: more).take (target - loop.total)).length ≤
                target := by
              rw [List.length_take]
              omega
            obtain ⟨buf, stored⟩ := Option.isSome_iff_exists.mp
              ((storeBytes_isSome loop.buf loop.total _).mpr (Nat.le_trans bounded inside))
            rw [recvLoop, if_pos short]
            simp only [stored]
            split
            · rename_i used
              apply ih _ bounded
              apply comes.imp (fun ends => ends.later nofun nofun)
              intro enough
              rw [stream, List.length_append] at enough
              rw [List.take_of_length_le (List.drop_eq_nil_iff.mp used)]
              simp only
              omega
            · exact ⟨_, _, rfl⟩
      · exact ⟨loop, _, recvLoop_full _ _ _ short⟩

section Received

variable {n target : Nat} {loop done : RecvLoop n} {events rest : List RecvEvent}

theorem Receives.takes (received : Receives target loop events done rest) (inside : target ≤ n)
    (begun : loop.total ≤ target) (enough : target - loop.total ≤ (stream events).length) :
    done.total = target ∧ stream rest = (stream events).drop (target - loop.total) ∧
      storeBytes loop.buf loop.total ((stream events).take (target - loop.total)) =
        some done.buf ∧
      (loop.total < target → 0 < done.last ∧ done.moved = true) := by
  induction received with
  | @full loop events full =>
      have reached : loop.total = target := by omega
      rw [reached, Nat.sub_self, List.drop_zero, List.take_zero]
      exact ⟨rfl, rfl, storeBytes_nil inside, fun short => absurd short (Nat.lt_irrefl _)⟩
  | interrupted short _ ih => exact ih begun enough
  | closed short =>
      rw [stream, List.length_nil] at enough
      omega
  | failed short =>
      rw [stream, List.length_nil] at enough
      omega
  | @used loop done first more later rest buf short whole stored goesOn ih =>
      rw [stream] at enough ⊢
      rw [List.length_append] at enough
      obtain ⟨full, streamRest, filled, moved⟩ := ih (by simp only; omega) (by simp only; omega)
      rw [← Nat.sub_sub] at streamRest filled
      refine ⟨full, ?_, ?_, fun _ => ?_⟩
      · rw [streamRest, List.drop_append, List.drop_eq_nil_of_le whole, List.nil_append]
      · rw [List.take_append, List.take_of_length_le whole, ← storeBytes_append stored, ← filled]
      · by_cases unfinished : loop.total + (first :: more).length < target
        · exact moved unfinished
        · cases goesOn with
          | full _ => exact ⟨by simp, rfl⟩
          | interrupted short _ | closed short | failed short | used short _ _ _
          | inside short _ _ => exact absurd short unfinished
  | @inside loop first more later buf next others short stored left =>
      have longer := congrArg List.length left
      rw [List.length_drop, List.length_cons (a := next)] at longer
      simp only [stream]
      rw [List.drop_append_of_le_length (by omega), left, List.take_append_of_le_length (by omega)]
      exact ⟨trivial, rfl, stored, fun _ => ⟨by omega, trivial⟩⟩

/-- A loop whose stream is long enough takes exactly the bytes it wants, however they
are cut, and stores them behind those it already has. -/
theorem recvLoop_stream (inside : target ≤ n) (events : List RecvEvent) (loop : RecvLoop n)
    (begun : loop.total ≤ target) (enough : target - loop.total ≤ (stream events).length) :
    ∃ done rest, recvLoop target loop events = some (done, rest) ∧ done.total = target ∧
      stream rest = (stream events).drop (target - loop.total) ∧
      storeBytes loop.buf loop.total ((stream events).take (target - loop.total)) =
        some done.buf ∧
      (loop.total < target → 0 < done.last ∧ done.moved = true) := by
  obtain ⟨done, rest, ended⟩ := recvLoop_isSome inside events loop begun (Or.inr enough)
  exact ⟨done, rest, ended, (recvLoop_receives events ended).takes inside begun enough⟩

/-- A loop that ends has all bytes it wants, or its last call returned none. -/
theorem recvLoop_ended (events : List RecvEvent)
    (begun : loop.last ≤ 0 ∨ (loop.total ≤ target ∧ loop.moved = true))
    (ended : recvLoop target loop events = some (done, rest)) :
    done.last ≤ 0 ∨ (done.total = target ∧ done.moved = true) := by
  have received := recvLoop_receives events ended
  clear ended
  induction received with
  | full full => exact begun.imp_right fun moved => ⟨by omega, moved.2⟩
  | interrupted short _ ih => exact ih begun
  | closed short => exact Or.inl (Int.le_refl 0)
  | failed short => exact Or.inl (show (-1 : Int) ≤ 0 by decide)
  | used short whole stored _ ih => exact ih (Or.inr ⟨by simp only; omega, rfl⟩)
  | inside short stored left => exact Or.inr ⟨rfl, rfl⟩

/-- A loop whose stream is too short ends with a call that returned no bytes. -/
theorem recvLoop_short (events : List RecvEvent)
    (short : (stream events).length < target - loop.total)
    (ended : recvLoop target loop events = some (done, rest)) : done.last ≤ 0 := by
  have received := recvLoop_receives events ended
  clear ended
  induction received with
  | full full => omega
  | interrupted _ _ ih => exact ih short
  | closed _ => exact Int.le_refl 0
  | failed _ => exact (show (-1 : Int) ≤ 0 by decide)
  | used _ whole stored _ ih =>
      rw [stream, List.length_append] at short
      exact ih (by simp only; omega)
  | @inside loop first more later buf next others _ stored left =>
      have longer := congrArg List.length left
      rw [List.length_drop, List.length_cons (a := next)] at longer
      rw [stream, List.length_append] at short
      omega

/-- A loop over such a stream does not wait, and leaves the end for the next loop when it
has all bytes it wants. -/
theorem recvLoop_ends (inside : target ≤ n) (events : List RecvEvent) (loop : RecvLoop n)
    (begun : loop.total ≤ target) (ends : Ends events) :
    ∃ done rest, recvLoop target loop events = some (done, rest) ∧
      (done.total = target → Ends rest) := by
  obtain ⟨done, rest, ended⟩ := recvLoop_isSome inside events loop begun (Or.inl ends)
  refine ⟨done, rest, ended, fun reached => ?_⟩
  have received := recvLoop_receives events ended
  clear ended
  induction received with
  | full full => exact ends
  | interrupted short _ ih => exact ih begun (ends.later nofun nofun) reached
  | closed short => exact ends
  | failed short => exact absurd short (by simp only at reached; omega)
  | used short whole stored _ ih =>
      exact ih (by simp only; omega) (ends.later nofun nofun) reached
  | inside short stored left => exact (ends.later nofun nofun).behind

/-- What a loop stores lies between the bytes it had and those it wants. -/
theorem recvLoop_stores (events : List RecvEvent) (inside : loop.total ≤ n)
    (ended : recvLoop target loop events = some (done, rest)) :
    ∃ bytes, storeBytes loop.buf loop.total bytes = some done.buf ∧
      (bytes ≠ [] → loop.total + bytes.length ≤ target) := by
  have received := recvLoop_receives events ended
  clear ended
  induction received with
  | full full => exact ⟨[], storeBytes_nil inside, fun nonempty => absurd rfl nonempty⟩
  | interrupted short _ ih => exact ih inside
  | closed short => exact ⟨[], storeBytes_nil inside, fun nonempty => absurd rfl nonempty⟩
  | failed short => exact ⟨[], storeBytes_nil inside, fun nonempty => absurd rfl nonempty⟩
  | @used loop done first more later rest buf short whole stored _ ih =>
      obtain ⟨bytes, filled, bounded⟩ := ih
        ((storeBytes_isSome _ _ _).mp (by rw [stored]; rfl))
      refine ⟨_ ++ bytes, (storeBytes_append stored bytes).symm.trans filled, fun _ => ?_⟩
      rw [List.length_append]
      by_cases nothing : bytes = []
      · rw [nothing, List.length_nil]
        omega
      · have room := bounded nothing
        simp only at room
        omega
  | inside short stored left =>
      refine ⟨_, stored, fun _ => ?_⟩
      rw [List.length_take]
      omega

end Received

/-- What a `send` does: the kernel accepts at most `more + 1` bytes, a signal or a
full buffer, no byte at all, or another error. -/
inductive SendEvent where
  | accepted (more : Nat)
  | interrupted
  | zero
  | failed
  deriving DecidableEq, Repr

/-- The variables of a send loop: the bytes the kernel has accepted, the result of the
last call, and whether a call has accepted bytes. -/
structure SendLoop where
  sent : List UInt8
  last : Int
  moved : Bool
  deriving DecidableEq, Repr

def SendLoop.start : SendLoop := ⟨[], 0, false⟩

/-- Send all of `frame`; after the last event of its script the kernel accepts
whatever is left. -/
def sendLoop (frame : List UInt8) (loop : SendLoop) : List SendEvent → SendLoop
  | [] =>
      if loop.sent.length < frame.length then
        let rest := frame.drop loop.sent.length
        ⟨loop.sent ++ rest, rest.length, true⟩
      else loop
  | event :: later =>
      if loop.sent.length < frame.length then
        match event with
        | .interrupted => sendLoop frame loop later
        | .zero => { loop with last := 0 }
        | .failed => { loop with last := -1 }
        | .accepted more =>
            let part := (frame.drop loop.sent.length).take (more + 1)
            sendLoop frame ⟨loop.sent ++ part, part.length, true⟩ later
      else loop

theorem sendLoop_full (frame : List UInt8) (loop : SendLoop) (script : List SendEvent)
    (full : ¬ loop.sent.length < frame.length) : sendLoop frame loop script = loop := by
  cases script with
  | nil => rw [sendLoop, if_neg full]
  | cons event later => cases event <;> rw [sendLoop, if_neg full]

/-- A script without an error: every call accepts something or is repeated. -/
def Progress (script : List SendEvent) : Prop :=
  ∀ event ∈ script, event = .interrupted ∨ ∃ more, event = .accepted more

/-- Such a script sends the whole frame, in order. -/
theorem sendLoop_complete (frame : List UInt8) (script : List SendEvent) :
    Progress script → ∀ loop : SendLoop, loop.sent <+: frame →
      (sendLoop frame loop script).sent = frame ∧
        (loop.sent.length < frame.length →
          0 < (sendLoop frame loop script).last ∧ (sendLoop frame loop script).moved = true) := by
  induction script with
  | nil =>
      rintro _ loop ⟨rest, rfl⟩
      unfold sendLoop
      split
      · rename_i short
        rw [List.length_append] at short
        simp only [List.drop_left, true_and, and_true]
        intro _
        omega
      · rename_i full
        rw [List.length_append] at full
        have none_left : rest = [] := List.length_eq_zero_iff.mp (by omega)
        simp [none_left]
  | cons event later ih =>
      rintro progress loop ⟨rest, rfl⟩
      have remaining : Progress later := fun other member =>
        progress other (List.mem_cons_of_mem _ member)
      unfold sendLoop
      split
      · rename_i short
        rcases progress event List.mem_cons_self with rfl | ⟨more, rfl⟩
        · exact ih remaining loop ⟨rest, rfl⟩
        · rw [List.length_append] at short
          have positive : 0 < (rest.take (more + 1)).length := by
            rw [List.length_take]
            omega
          simp only [List.drop_left]
          obtain ⟨sent, moved⟩ := ih remaining
            ⟨loop.sent ++ rest.take (more + 1), (rest.take (more + 1)).length, true⟩
            (by rw [List.prefix_append_right_inj]; exact List.take_prefix _ _)
          refine ⟨sent, fun _ => ?_⟩
          by_cases unfinished :
              (loop.sent ++ rest.take (more + 1)).length < (loop.sent ++ rest).length
          · exact moved unfinished
          · rw [sendLoop_full _ _ _ unfinished]
            exact ⟨by simpa using positive, rfl⟩
      · rename_i full
        rw [List.length_append] at full
        have none_left : rest = [] := List.length_eq_zero_iff.mp (by omega)
        simp [none_left]

/-- Whatever the script, the kernel has accepted the first bytes of the frame, and the
call that accepted the last of them returned their number. -/
theorem sendLoop_prefix (frame : List UInt8) (script : List SendEvent) :
    ∀ loop : SendLoop, loop.sent <+: frame →
      (sendLoop frame loop script).sent <+: frame ∧
        (loop.sent.length < frame.length → (sendLoop frame loop script).sent = frame →
          0 < (sendLoop frame loop script).last ∧ (sendLoop frame loop script).moved = true) := by
  induction script with
  | nil =>
      intro loop begun
      obtain ⟨sent, moved⟩ := sendLoop_complete frame [] (fun _ => nofun) loop begun
      exact ⟨⟨[], by rw [List.append_nil, sent]⟩, fun short _ => moved short⟩
  | cons event later ih =>
      intro loop begun
      by_cases short : loop.sent.length < frame.length
      · have unfinished : loop.sent ≠ frame := by
          intro whole
          rw [whole] at short
          exact absurd short (Nat.lt_irrefl _)
        cases event with
        | interrupted =>
            rw [sendLoop, if_pos short]
            exact ih loop begun
        | zero =>
            rw [sendLoop, if_pos short]
            exact ⟨begun, fun _ whole => absurd whole unfinished⟩
        | failed =>
            rw [sendLoop, if_pos short]
            exact ⟨begun, fun _ whole => absurd whole unfinished⟩
        | accepted more =>
            rw [sendLoop, if_pos short]
            obtain ⟨rest, rfl⟩ := begun
            simp only [List.drop_left]
            obtain ⟨sent, moved⟩ := ih
              ⟨loop.sent ++ rest.take (more + 1), (rest.take (more + 1)).length, true⟩
              (by rw [List.prefix_append_right_inj]; exact List.take_prefix _ _)
            refine ⟨sent, fun _ whole => ?_⟩
            by_cases left : (loop.sent ++ rest.take (more + 1)).length < (loop.sent ++ rest).length
            · exact moved left whole
            · rw [sendLoop_full _ _ _ left]
              rw [List.length_append] at short
              refine ⟨?_, rfl⟩
              simp only [List.length_take]
              omega
      · rw [sendLoop_full _ _ _ short]
        exact ⟨begun, fun long => absurd long short⟩

end VnfMonitoring.Socket
