import VnfMonitoring.HostFifo
import VnfMonitoring.HostSystem

set_option autoImplicit false

/- The host with its queue in memory: `tcp_PutFifo` allocates a block for a message, and
`fifo_getTask` works on the block that `block_FifoGet` returned until it releases it. -/
namespace VnfMonitoring.HostMemory

open VnfMonitoring.Chain VnfMonitoring.Runs VnfMonitoring.Memory VnfMonitoring.Socket
  VnfMonitoring.TcpFrame VnfMonitoring.Bpapp VnfMonitoring.HostSock VnfMonitoring.HostReport
  VnfMonitoring.HostFifo VnfMonitoring.HostSystem

variable {space : Nat}

/-- Where `FifoGet_Event` stands with the block it was given. -/
inductive Phase where
  | got
  | found
  | answered
  | stored (ret : Int) (vmstate : Slot → VmcStateinfo)
  | returned

def Phase.handler (request : Request) : Phase → Handler
  | .got => .got request
  | .found => .found request
  | .answered => .answered request
  | .stored ret vmstate => .stored request ret vmstate
  | .returned => .idle

def Phase.of : Handler → Phase
  | .got _ => .got
  | .found _ => .found
  | .answered _ => .answered
  | .stored _ ret vmstate => .stored ret vmstate
  | .idle => .returned

/-- The host apart from its queue and from the block in hand, then these. `conns` records
the connection on which the block at an address was received. -/
structure MemHost (space : Nat) where
  host : Host
  queue : FifoSystem space
  phase : Phase
  conns : Fin space → Connection

def MemHost.init (listenFd : Int) : MemHost space :=
  ⟨Host.init listenFd, .init, .returned, fun _ => ⟨0, 0⟩⟩

inductive MemEvent (space : Nat) where
  | accept (fd : Int) (port : UInt16) (vm : UInt32)
  | acceptSet
  /-- `malloc` is the block of `block_New`, or absent when an allocation of it fails. -/
  | receive (i : Slot) (events : List RecvEvent) (malloc : Option (Fin space))
  | get
  | wake (ok : Bool)
  | clearNext
  | reset
  | send (env : SendEnv)
  | copy
  | writeBack
  /-- `block_Release`, past `FifoGet_Event`. -/
  | release

/-- A section of `tcp_rcvTask` on a host with nothing queued: a message that it queues
goes into the block allocated for it. -/
def recvTask (order : ByteOrder) (traced : Bool) (c : MemHost space) (event : HostEvent)
    (malloc : Option (Fin space)) : Option (MemHost space) :=
  (HostSystem.step order traced c.host event).bind fun host =>
    match host.fifo, malloc with
    | request :: _, some p =>
        (HostFifo.step c.queue (.put (p, request.block) [])).map fun queue =>
          { c with
            host := { host with fifo := [] }
            queue
            conns := Function.update c.conns p request.conn }
    | _, _ => some { c with host := { host with fifo := [] } }

/-- A step of `fifo_getTask` in the queue. -/
def queueTask (c : MemHost space) (event : FifoEvent space) : Option (MemHost space) :=
  (HostFifo.step c.queue event).map fun queue => { c with queue }

/-- A section of `FifoGet_Event`, on what the block in hand holds. -/
def fifoTask (order : ByteOrder) (traced : Bool) (c : MemHost space) (event : HostEvent) :
    Option (MemHost space) :=
  match c.queue.consumer with
  | .returned b =>
      (c.queue.heap b).bind fun cell =>
      (HostSystem.step order traced
        { c.host with handler := c.phase.handler ⟨cell.item, c.conns b⟩ } event).map fun host =>
          { c with host := { host with handler := .idle }, phase := .of host.handler }
  | _ => none

/-- The states that `SetVmProcessStateInfo` converts in the block in hand. -/
def convert (order : ByteOrder) (c : MemHost space) : Option (MemHost space) :=
  match c.queue.consumer with
  | .returned b =>
      (c.queue.heap b).bind fun cell =>
      (ntohStates order maxVmProcNum 0 cell.item.message).map fun message =>
        { c with
          queue :=
            { c.queue with
              heap := Function.update c.queue.heap b
                (some { cell with item := { cell.item with message } }) } }
  | _ => none

def MemHost.step (order : ByteOrder) (traced : Bool) (c : MemHost space) :
    MemEvent space → Option (MemHost space)
  | .accept fd port vm => recvTask order traced c (.accept fd port vm) none
  | .acceptSet => recvTask order traced c .acceptSet none
  | .receive i events malloc => recvTask order traced c (.receive i events) malloc
  | .get => queueTask c .get
  | .wake ok => queueTask c (.wake ok)
  | .clearNext => (queueTask c .clearNext).map fun c => { c with phase := .got }
  | .reset => fifoTask order traced c .reset
  | .send env => fifoTask order traced c (.send env)
  | .copy => (fifoTask order traced c .copy).bind (convert order)
  | .writeBack => fifoTask order traced c .writeBack
  | .release =>
      match c.phase with
      | .returned => queueTask c .release
      | _ => none

/-- The host with a list as its queue, from which the message of a section may be lost. -/
def losing (order : ByteOrder) (traced : Bool) (s : Host) (event : HostEvent × Bool) :
    Option Host :=
  (HostSystem.step order traced s event.1).map fun next =>
    if event.2 then { next with fifo := s.fifo } else next

section Frames

variable {order : ByteOrder} {traced : Bool} {s next : Host}

/-- A section of `tcp_rcvTask` only adds to the queue, and does not look at what
`fifo_getTask` has. -/
theorem recvTask_frame {event : HostEvent}
    (recv : (∃ fd port vm, event = .accept fd port vm) ∨ event = .acceptSet ∨
      ∃ i events, event = .receive i events)
    (fifo : List Request) (handler : Handler)
    (stepped : HostSystem.step order traced s event = some next) :
    HostSystem.step order traced { s with fifo := fifo ++ s.fifo, handler } event =
      some { next with fifo := fifo ++ next.fifo, handler } := by
  rcases recv with ⟨fd, port, vm, rfl⟩ | rfl | ⟨i, events, rfl⟩
  · simp only [HostSystem.step] at stepped ⊢
    split at stepped
    · rename_i ok
      cases stepped
      refine (if_pos ok).trans ?_
      simp only [acceptStep]
      split <;> rfl
    · cases stepped
  · obtain ⟨i, accepting, rfl⟩ := Option.map_eq_some_iff.mp stepped
    simp only [HostSystem.step, accepting, Option.map_some]
  · simp only [HostSystem.step] at stepped ⊢
    split at stepped
    · rename_i lives
      rw [if_pos lives]
      obtain ⟨⟨tables, result⟩, received, rest⟩ := Option.bind_eq_some_iff.mp stepped
      simp only [receiveStep, received, Option.bind_some]
      simp only at rest
      split at rest
      · rename_i positive
        rw [if_pos positive]
        obtain ⟨tables, registered, rest⟩ := Option.bind_eq_some_iff.mp rest
        obtain ⟨⟨buf, block⟩, queued, rfl⟩ := Option.map_eq_some_iff.mp rest
        simp only [registered, queued, Option.bind_some, Option.map_some, List.append_assoc]
      · rename_i nothing
        rw [if_neg nothing]
        cases rest
        rfl
    · cases stepped

/-- Only a receive adds to the queue, and at most one message. -/
theorem recvTask_adds {event : HostEvent}
    (recv : (∃ fd port vm, event = .accept fd port vm) ∨ event = .acceptSet ∨
      ∃ i events, event = .receive i events)
    (stepped : HostSystem.step order traced s event = some next) :
    next.handler = s.handler ∧ (next.fifo = s.fifo ∨
      (∃ i events, event = .receive i events) ∧ ∃ request, next.fifo = s.fifo ++ [request]) := by
  rcases recv with ⟨fd, port, vm, rfl⟩ | rfl | ⟨i, events, rfl⟩
  · simp only [HostSystem.step] at stepped
    split at stepped
    · cases stepped
      simp only [acceptStep]
      split
      · exact ⟨rfl, Or.inl rfl⟩
      · exact ⟨rfl, Or.inl rfl⟩
    · cases stepped
  · obtain ⟨i, _, rfl⟩ := Option.map_eq_some_iff.mp stepped
    exact ⟨rfl, Or.inl rfl⟩
  · obtain ⟨_, _, result, _, ⟨_, tables, buf, block, _, _, _, rfl⟩ | rfl⟩ := receive_cases stepped
    · exact ⟨rfl, Or.inr ⟨⟨i, events, rfl⟩, _, rfl⟩⟩
    · exact ⟨rfl, Or.inl rfl⟩

/-- A section of `FifoGet_Event` does not look at the queue. -/
theorem fifoTask_frame {event : HostEvent}
    (fifoEvent : event = .reset ∨ (∃ env, event = .send env) ∨ event = .copy ∨ event = .writeBack)
    (fifo : List Request) (stepped : HostSystem.step order traced s event = some next) :
    HostSystem.step order traced { s with fifo } event = some { next with fifo } ∧
      next.fifo = s.fifo := by
  rcases fifoEvent with rfl | ⟨env, rfl⟩ | rfl | rfl
  · simp only [HostSystem.step] at stepped ⊢
    split at stepped
    · rename_i request got
      simp only [got]
      unfold resetStep at stepped ⊢
      split at stepped
      · rename_i report
        obtain ⟨_, first, rest⟩ := Option.bind_eq_some_iff.mp stepped
        obtain ⟨_, debug, same⟩ := Option.map_eq_some_iff.mp rest
        simp only [if_pos report, first, debug, Option.bind_some, Option.map_some]
        split at same
        · subst same
          exact ⟨rfl, rfl⟩
        · subst same
          exact ⟨rfl, rfl⟩
      · rename_i other
        cases stepped
        exact ⟨if_neg other, rfl⟩
    · cases stepped
  · obtain ⟨request, tables, wire, found, sent, rfl⟩ := send_cases stepped
    refine ⟨?_, rfl⟩
    simp only [HostSystem.step, found, sendStep, sent, Option.map_some]
  · obtain ⟨request, ret, vmstate, answered, done, rfl⟩ := copy_cases stepped
    refine ⟨?_, rfl⟩
    simp only [HostSystem.step, answered, done, Option.map_some]
  · obtain ⟨request, ret, vmstate, stored, rfl⟩ := writeBack_cases stepped
    refine ⟨?_, rfl⟩
    simp only [HostSystem.step, stored]

/-- `FifoGet_Event` keeps its block until it returns. -/
theorem fifoTask_handler {event : HostEvent} {phase : Phase} {request : Request}
    (fifoEvent : event = .reset ∨ (∃ env, event = .send env) ∨ event = .copy ∨ event = .writeBack)
    (handler : s.handler = phase.handler request)
    (stepped : HostSystem.step order traced s event = some next) :
    next.handler = (Phase.of next.handler).handler request := by
  rcases fifoEvent with rfl | ⟨env, rfl⟩ | rfl | rfl
  · obtain ⟨received, got, same⟩ := reset_cases stepped
    cases phase with
    | got =>
        cases handler.symm.trans got
        rcases same with rfl | ⟨_, rfl | ⟨i, tables, _, rfl⟩⟩
        · rfl
        · rfl
        · rfl
    | _ => cases handler.symm.trans got
  · obtain ⟨received, tables, wire, found, _, rfl⟩ := send_cases stepped
    cases phase with
    | found =>
        cases handler.symm.trans found
        rfl
    | _ => cases handler.symm.trans found
  · obtain ⟨received, ret, vmstate, answered, _, rfl⟩ := copy_cases stepped
    cases phase with
    | answered =>
        cases handler.symm.trans answered
        rfl
    | _ => cases handler.symm.trans answered
  · obtain ⟨received, ret, vmstate, stored, rfl⟩ := writeBack_cases stepped
    rfl

end Frames

section Queue

variable {q next : FifoSystem space} {linked : List (Fin space × Block)}

/-- A block put at an address that was free is the last of the queue. -/
theorem put_spec (inv : Inv q linked) {p : Fin space} {x : Block}
    (stepped : HostFifo.step q (.put (p, x) []) = some next) :
    Inv next (linked ++ [(p, x)]) ∧ q.heap p = none ∧ next.consumer = q.consumer ∧
      ∀ a, a ∉ addrs (linked ++ [(p, x)]) → next.heap a = q.heap a := by
  unfold HostFifo.step at stepped
  split at stepped
  · rename_i enabled
    obtain ⟨reached, after, performed, kept⟩ := perform_inv inv enabled
    cases performed.symm.trans stepped
    obtain ⟨distinct, fresh⟩ := enabled
    obtain ⟨heap, fifo, total, put, _, frame⟩ := blockFifoPut_queued inv.queued distinct fresh
    simp only [perform, put, Option.map_some, Option.some.injEq] at stepped
    subst stepped
    have whole : after = linked ++ [(p, x)] := by
      have history := kept.history
      simp only [← inv.history, List.append_assoc] at history
      exact List.append_cancel_left history
    subst whole
    exact ⟨kept, Option.isNone_iff_eq_none.mp (fresh p (by simp)), rfl, frame⟩
  · cases stepped

/-- A step that neither puts nor gets leaves the queue as it is. -/
theorem perform_linked (inv : Inv q linked) {event : FifoEvent space} (enabled : Enabled q event)
    (performed : perform q event = some next) (got : next.got = q.got) (put : next.put = q.put) :
    Inv next linked := by
  obtain ⟨reached, after, done, kept⟩ := perform_inv inv enabled
  cases done.symm.trans performed
  have history := kept.history
  rw [got, put, ← inv.history] at history
  rw [List.append_cancel_left history] at kept
  exact kept

/-- A block got is the first of the queue, and stays in memory. -/
theorem take_spec (inv : Inv q linked) (taken : q.take = some next) :
    ∃ b x rest pNext, linked = (b, x) :: rest ∧ Inv next rest ∧ next.consumer = .unlinked b ∧
      next.heap = q.heap ∧ q.heap b = some ⟨pNext, x⟩ := by
  cases linked with
  | nil =>
      have drained : q.fifo.pFirst = none := inv.queued.segment
      simp [FifoSystem.take, takeFirst, drained] at taken
  | cons first rest =>
      obtain ⟨b, x⟩ := first
      obtain ⟨pFirst, pNext, found, _⟩ := inv.queued.segment
      have present : q.fifo.pFirst ≠ none := by
        rw [pFirst]
        exact Option.some_ne_none b
      obtain ⟨reached, remaining, took, kept⟩ := take_inv inv present
      cases took.symm.trans taken
      obtain ⟨fifo, first, _⟩ := takeFirst_queued inv.queued
      simp only [FifoSystem.take, first, Option.map_some, Option.some.injEq] at taken
      subst taken
      have same : remaining = rest := by
        have history := kept.history
        simp only [← inv.history, List.append_assoc, List.cons_append, List.nil_append] at history
        exact List.tail_eq_of_cons_eq (List.append_cancel_left history)
      subst same
      exact ⟨b, x, remaining, pNext, rfl, kept, rfl, rfl, found⟩

end Queue

section Simulation

variable {order : ByteOrder} {traced : Bool}

def requestAt (conns : Fin space → Connection) (cell : Fin space × Block) : Request :=
  ⟨cell.2, conns cell.1⟩

/-- The list host's `handler` for a block in hand. Once its states are converted the
block is no longer the one received. -/
def Handles (phase : Phase) (request : Request) : Handler → Prop
  | .stored received ret vmstate =>
      phase = .stored ret vmstate ∧ received.conn = request.conn
  | handler => handler = phase.handler request

/-- What `fifo_getTask` has in hand is in memory. -/
def InHand (c : MemHost space) (handler : Handler) : Prop :=
  match c.queue.consumer with
  | .unlinked b =>
      ∃ cell, c.queue.heap b = some cell ∧ handler = .got ⟨cell.item, c.conns b⟩
  | .returned b =>
      ∃ cell, c.queue.heap b = some cell ∧ Handles c.phase ⟨cell.item, c.conns b⟩ handler
  | _ => handler = .idle

/-- The list of requests that the linked blocks stand for, and a memory in which there are
these blocks and the one in hand. -/
structure Shows (c : MemHost space) (s : Host) (linked : List (Fin space × Block)) : Prop where
  rest : c.host = { s with fifo := [], handler := .idle }
  inv : Inv c.queue linked
  only : ∀ a, (c.queue.heap a).isSome → a ∈ addrs linked ∨ c.queue.consumer.Holds a
  fifo : s.fifo = linked.map (requestAt c.conns)
  inHand : InHand c s.handler

theorem InHand.congr {c other : MemHost space} {handler : Handler} (inHand : InHand c handler)
    (consumer : other.queue.consumer = c.queue.consumer) (phase : other.phase = c.phase)
    (heap : ∀ b, c.queue.consumer.Holds b → other.queue.heap b = c.queue.heap b)
    (conns : ∀ b, c.queue.consumer.Holds b → other.conns b = c.conns b) :
    InHand other handler := by
  unfold InHand at inHand ⊢
  rw [consumer]
  cases at_ : c.queue.consumer with
  | unlinked b =>
      have holds : c.queue.consumer.Holds b := by rw [at_]; rfl
      rw [at_] at inHand
      simpa only [heap b holds, conns b holds] using inHand
  | returned b =>
      have holds : c.queue.consumer.Holds b := by rw [at_]; rfl
      rw [at_] at inHand
      simpa only [phase, heap b holds, conns b holds] using inHand
  | idle => simpa only [at_] using inHand
  | waiting => simpa only [at_] using inHand

theorem requestAt_update {conns : Fin space → Connection} {p : Fin space} {conn : Connection}
    {linked : List (Fin space × Block)} (outside : p ∉ addrs linked) :
    linked.map (requestAt (Function.update conns p conn)) = linked.map (requestAt conns) := by
  apply List.map_congr_left
  intro cell member
  have other : cell.1 ≠ p := by
    rintro rfl
    exact outside (List.mem_map_of_mem member)
  simp only [requestAt, Function.update_of_ne other]

/-- A section of `tcp_rcvTask` is one of the list host; the message of a receive is lost
when there is no memory for it. -/
theorem recvTask_shows {c next : MemHost space} {s : Host} {linked : List (Fin space × Block)}
    {event : HostEvent} {malloc : Option (Fin space)}
    (recv : (∃ fd port vm, event = .accept fd port vm) ∨ event = .acceptSet ∨
      ∃ i events, event = .receive i events)
    (shows : Shows c s linked) (stepped : recvTask order traced c event malloc = some next) :
    ∃ lost after, losing order traced s (event, lost) = some after ∧
      (∃ linked, Shows next after linked) ∧
      (lost = true → malloc = none ∧ ∃ i events, event = .receive i events) := by
  obtain ⟨host, done, rest⟩ := Option.bind_eq_some_iff.mp stepped
  obtain ⟨idle, added⟩ := recvTask_adds recv done
  have whole := recvTask_frame recv s.fifo s.handler done
  simp only [shows.rest, List.append_nil, List.nil_append] at idle added whole
  rcases added with none_ | ⟨received, request, one⟩
  · simp only [none_] at rest
    cases rest
    refine ⟨false, { host with fifo := s.fifo ++ host.fifo, handler := s.handler },
      by rw [losing, whole]; rfl, ⟨linked, ?_⟩, nofun⟩
    exact
      { rest := by simp only [idle]
        inv := shows.inv
        only := shows.only
        fifo := by simpa only [none_, List.append_nil] using shows.fifo
        inHand := shows.inHand }
  · cases malloc with
    | none =>
        simp only [one] at rest
        cases rest
        refine ⟨true, { host with fifo := s.fifo, handler := s.handler },
          by rw [losing, whole]; rfl, ⟨linked, ?_⟩, fun _ => ⟨rfl, received⟩⟩
        exact
          { rest := by simp only [idle]
            inv := shows.inv
            only := shows.only
            fifo := shows.fifo
            inHand := shows.inHand }
    | some p =>
        simp only [one] at rest
        obtain ⟨queue, put, rfl⟩ := Option.map_eq_some_iff.mp rest
        obtain ⟨inv, fresh, consumer, frame⟩ := put_spec shows.inv put
        have outside : p ∉ addrs linked := fun member =>
          shows.inv.queued.segment.allocated p member fresh
        have apart (b : Fin space) (holds : c.queue.consumer.Holds b) : b ≠ p := by
          rintro rfl
          have allocated := (shows.inv.held b holds).2
          rw [fresh] at allocated
          cases allocated
        refine ⟨false, { host with fifo := s.fifo ++ host.fifo, handler := s.handler },
          by rw [losing, whole]; rfl, ⟨linked ++ [(p, request.block)], ?_⟩, nofun⟩
        exact
          { rest := by simp only [idle]
            inv
            only := by
              intro a allocated
              by_cases member : a ∈ addrs (linked ++ [(p, request.block)])
              · exact Or.inl member
              · rw [frame a member] at allocated
                rw [addrs_append, List.mem_append, not_or] at member
                exact Or.inr (consumer ▸ (shows.only a allocated).resolve_left member.1)
            fifo := by
              simp only [one, shows.fifo, List.map_append,
                requestAt_update outside, List.map_singleton, requestAt, Function.update_self]
            inHand := by
              refine shows.inHand.congr ?_ ?_ ?_ ?_
              · exact consumer
              · rfl
              · intro b holds
                apply frame b
                rw [addrs_append, List.mem_append, not_or]
                exact ⟨(shows.inv.held b holds).1, by simpa using apart b holds⟩
              · intro b holds
                exact Function.update_of_ne (apart b holds) _ _ }

/-- A step of `fifo_getTask` in the queue that finds no block, or past the lock. -/
theorem queueTask_cases {c next : MemHost space} {event : FifoEvent space}
    (stepped : queueTask c event = some next) :
    ∃ queue, HostFifo.Enabled c.queue event ∧ perform c.queue event = some queue ∧
      next = { c with queue } := by
  obtain ⟨queue, done, rfl⟩ := Option.map_eq_some_iff.mp stepped
  unfold HostFifo.step at done
  split at done
  · rename_i enabled
    exact ⟨queue, enabled, done, rfl⟩
  · cases done

/-- The first block is taken as the list host takes its first request. -/
theorem take_shows {c : MemHost space} {s : Host} {linked : List (Fin space × Block)}
    {queue : FifoSystem space} (shows : Shows c s linked) (idle : s.handler = .idle)
    (nothing : ∀ b, ¬ c.queue.consumer.Holds b) (taken : c.queue.take = some queue) :
    ∃ after, losing order traced s (.get, false) = some after ∧
      ∃ linked, Shows { c with queue } after linked := by
  obtain ⟨b, x, rest, pNext, rfl, inv, consumer, heap, found⟩ := take_spec shows.inv taken
  have first : s.fifo = ⟨x, c.conns b⟩ :: rest.map (requestAt c.conns) := by
    simpa only [List.map_cons, requestAt] using shows.fifo
  refine ⟨{ s with fifo := rest.map (requestAt c.conns), handler := .got ⟨x, c.conns b⟩ },
    by simp only [losing, HostSystem.step, idle, first]; rfl, rest, ?_⟩
  exact
    { rest := shows.rest
      inv
      only := by
        intro a allocated
        simp only [heap] at allocated
        simp only [consumer]
        rcases shows.only a allocated with member | holds
        · rcases List.mem_cons.mp member with here | later
          · exact Or.inr here
          · exact Or.inl later
        · exact absurd holds (nothing a)
      fifo := rfl
      inHand := by
        simp only [InHand, consumer, heap, found]
        exact ⟨_, rfl, rfl⟩ }

theorem handles_handler (phase : Phase) (request : Request) :
    Handles phase request (phase.handler request) := by
  cases phase with
  | stored ret vmstate => exact ⟨rfl, rfl⟩
  | _ => rfl

/-- After a section that ran on the block in hand, what is left in hand. -/
theorem Shows.handled {c : MemHost space} {s host : Host} {linked : List (Fin space × Block)}
    (shows : Shows c s linked) {b : Fin space} {cell : Cell (Fin space) Block}
    (consumer : c.queue.consumer = .returned b) (found : c.queue.heap b = some cell)
    (empty : host.fifo = [])
    (handler : host.handler = (Phase.of host.handler).handler ⟨cell.item, c.conns b⟩) :
    Shows { c with host := { host with handler := .idle }, phase := .of host.handler }
      { host with fifo := s.fifo } linked where
  rest := by simp only [empty]
  inv := shows.inv
  only := shows.only
  fifo := shows.fifo
  inHand := by
    simp only [InHand, consumer, found]
    refine ⟨cell, rfl, ?_⟩
    conv => rhs; rw [handler]
    exact handles_handler _ _

/-- A section of `FifoGet_Event` is one of the list host. -/
theorem fifoTask_shows {c next : MemHost space} {s : Host} {linked : List (Fin space × Block)}
    {event : HostEvent}
    (fifoEvent : event = .reset ∨ (∃ env, event = .send env) ∨ event = .copy ∨ event = .writeBack)
    (shows : Shows c s linked) (stepped : fifoTask order traced c event = some next) :
    ∃ after, losing order traced s (event, false) = some after ∧ Shows next after linked ∧
      next.queue = c.queue := by
  simp only [fifoTask] at stepped
  split at stepped
  · rename_i b consumer
    obtain ⟨cell, found, rest⟩ := Option.bind_eq_some_iff.mp stepped
    obtain ⟨host, done, rfl⟩ := Option.map_eq_some_iff.mp rest
    obtain ⟨whole, empty⟩ := fifoTask_frame fifoEvent s.fifo done
    have handler := fifoTask_handler fifoEvent rfl done
    have inHand := shows.inHand
    simp only [InHand, consumer, found, Option.some.injEq, exists_eq_left'] at inHand
    simp only [shows.rest] at whole empty
    refine ⟨{ host with fifo := s.fifo }, ?_, shows.handled consumer found empty handler, rfl⟩
    cases here : s.handler with
    | stored received ret vmstate =>
        -- past the conversion, where only the copied table is left to be written
        rw [here] at inHand
        simp only [inHand.1, Phase.handler] at whole
        rcases fifoEvent with rfl | ⟨env, rfl⟩ | rfl | rfl
        · cases whole
        · cases whole
        · cases whole
        · obtain ⟨request, code, table, stored, same⟩ := writeBack_cases whole
          cases stored
          rw [same]
          simp only [losing, HostSystem.step, here, Option.map_some, Bool.false_eq_true, if_false]
    | _ =>
        have same : s.handler = c.phase.handler ⟨cell.item, c.conns b⟩ := by
          rw [here] at inHand ⊢
          exact inHand
        rw [← same] at whole
        rw [losing, whole]
        rfl
  · cases stepped

/-- The conversion changes only the block in hand, of which only the number of its
connection is still looked at. -/
theorem convert_shows {c next : MemHost space} {s : Host} {linked : List (Fin space × Block)}
    (shows : Shows c s linked) (copied : ∃ ret vmstate, c.phase = .stored ret vmstate)
    (converted : convert order c = some next) : Shows next s linked := by
  simp only [convert] at converted
  split at converted
  · rename_i b consumer
    obtain ⟨cell, found, rest⟩ := Option.bind_eq_some_iff.mp converted
    obtain ⟨message, _, rfl⟩ := Option.map_eq_some_iff.mp rest
    have holds : c.queue.consumer.Holds b := by
      rw [consumer]
      rfl
    obtain ⟨outside, allocated⟩ := shows.inv.held b holds
    have inHand := shows.inHand
    simp only [InHand, consumer, found, Option.some.injEq, exists_eq_left'] at inHand
    obtain ⟨ret, vmstate, stored⟩ := copied
    exact
      { rest := shows.rest
        inv :=
          { queued := shows.inv.update_held holds _
            history := shows.inv.history
            held := by
              intro a held
              refine ⟨(shows.inv.held a held).1, ?_⟩
              simp only [consumer] at held
              cases held
              simp }
        only := by
          intro a there
          by_cases here : a = b
          · subst here
            exact Or.inr holds
          · simp only [Function.update_of_ne here] at there
            exact shows.only a there
        fifo := shows.fifo
        inHand := by
          simp only [InHand, consumer, Function.update_self, Option.some.injEq, exists_eq_left']
          cases here : s.handler with
          | stored received ret vmstate =>
              rw [here] at inHand
              exact inHand
          | _ =>
              simp [here, Handles, stored, Phase.handler] at inHand }
  · cases converted

theorem fifoTask_copied {c next : MemHost space}
    (stepped : fifoTask order traced c .copy = some next) :
    ∃ ret vmstate, next.phase = .stored ret vmstate := by
  simp only [fifoTask] at stepped
  split at stepped
  · obtain ⟨cell, _, rest⟩ := Option.bind_eq_some_iff.mp stepped
    obtain ⟨host, done, rfl⟩ := Option.map_eq_some_iff.mp rest
    obtain ⟨_, ret, vmstate, _, _, rfl⟩ := copy_cases done
    exact ⟨ret, vmstate, rfl⟩
  · cases stepped

/-- The requests of the list host that a step stands for: it loses one only when there was
no memory for it. -/
def StandsFor (event : MemEvent space) (x : HostEvent × Bool) : Prop :=
  x.2 = true → ∃ i events, x.1 = .receive i events ∧ event = .receive i events none

/-- The block that `block_FifoGet` returns is the one that it unlinked. -/
theorem clearNext_shows {c : MemHost space} {s : Host} {linked : List (Fin space × Block)}
    {queue : FifoSystem space} (shows : Shows c s linked) (enabled : Enabled c.queue .clearNext)
    (done : perform c.queue .clearNext = some queue) :
    Shows { c with queue, phase := .got } s linked := by
  obtain ⟨b, unlinked⟩ := id enabled
  have inHand := shows.inHand
  simp only [InHand, unlinked] at inHand
  obtain ⟨cell, found, got⟩ := inHand
  have same := done
  simp only [perform, unlinked, found, Option.map_some, Option.some.injEq] at same
  have inv : Inv queue linked :=
    perform_linked shows.inv enabled done (by rw [← same]) (by rw [← same])
  subst same
  exact
    { rest := shows.rest
      inv
      only := by
        intro a allocated
        by_cases here : a = b
        · exact Or.inr here
        · simp only [Function.update_of_ne here] at allocated
          rcases shows.only a allocated with member | holds
          · exact Or.inl member
          · rw [unlinked] at holds
            exact absurd holds here
      fifo := shows.fifo
      inHand := by
        simp only [InHand, Function.update_self, got]
        exact ⟨_, rfl, rfl⟩ }

/-- The block released is the only one outside the queue. -/
theorem release_shows {c : MemHost space} {s : Host} {linked : List (Fin space × Block)}
    {queue : FifoSystem space} (shows : Shows c s linked) (phase : c.phase = .returned)
    (enabled : Enabled c.queue .release) (done : perform c.queue .release = some queue) :
    Shows { c with queue } s linked := by
  obtain ⟨b, returned⟩ := id enabled
  have inHand := shows.inHand
  simp only [InHand, returned] at inHand
  obtain ⟨cell, found, handles⟩ := inHand
  have same := done
  simp only [perform, returned, found, Option.map_some, Option.some.injEq] at same
  have inv : Inv queue linked :=
    perform_linked shows.inv enabled done (by rw [← same]) (by rw [← same])
  subst same
  exact
    { rest := shows.rest
      inv
      only := by
        intro a allocated
        by_cases here : a = b
        · subst here
          simp at allocated
        · simp only [Function.update_of_ne here] at allocated
          rcases shows.only a allocated with member | holds
          · exact Or.inl member
          · rw [returned] at holds
            exact absurd holds here
      fifo := shows.fifo
      inHand := by
        simp only [InHand]
        cases here : s.handler with
        | idle => rfl
        | _ => simp [here, phase, Handles, Phase.handler] at handles }

/-- A get or the end of a wait takes the first block, or nothing is in hand still. -/
theorem getTask_shows {c : MemHost space} {s : Host} {linked : List (Fin space × Block)}
    {event : FifoEvent space} {queue : FifoSystem space}
    (getEvent : event = .get ∨ ∃ ok, event = .wake ok) (shows : Shows c s linked)
    (enabled : Enabled c.queue event) (done : perform c.queue event = some queue) :
    (∃ after, losing order traced s (.get, false) = some after ∧
      ∃ linked, Shows { c with queue } after linked) ∨ Shows { c with queue } s linked := by
  have outside : c.queue.consumer = .idle ∨ c.queue.consumer = .waiting := by
    rcases getEvent with rfl | ⟨ok, rfl⟩
    · exact Or.inl enabled
    · exact Or.inr enabled.1
  have nothing (b : Fin space) : ¬ c.queue.consumer.Holds b := by
    rcases outside with at_ | at_
    · rw [at_]
      exact id
    · rw [at_]
      exact id
  have idle : s.handler = .idle := by
    have inHand := shows.inHand
    rcases outside with at_ | at_
    · simpa only [InHand, at_] using inHand
    · simpa only [InHand, at_] using inHand
  have quiet (consumer : Consumer space) (free : consumer = .idle ∨ consumer = .waiting) :
      Shows { c with queue := { c.queue with consumer } } s linked :=
    { rest := shows.rest
      inv :=
        { queued := shows.inv.queued
          history := shows.inv.history
          held := by
            intro b holds
            rcases free with rfl | rfl
            · exact holds.elim
            · exact holds.elim }
      only := fun a allocated => Or.inl ((shows.only a allocated).resolve_right (nothing a))
      fifo := shows.fifo
      inHand := by
        rcases free with rfl | rfl
        · exact idle
        · exact idle }
  rcases getEvent with rfl | ⟨ok, rfl⟩
  · simp only [perform] at done
    split at done
    · cases done
      exact Or.inr (quiet .waiting (Or.inr rfl))
    · exact Or.inl (take_shows shows idle nothing done)
  · cases ok with
    | true => exact Or.inl (take_shows shows idle nothing done)
    | false =>
        cases done
        exact Or.inr (quiet .idle (Or.inl rfl))

/-- Every step of the host in memory is a step of the list host, or none. -/
theorem step_simulated {c next : MemHost space} {s : Host} {event : MemEvent space}
    (shows : ∃ linked, Shows c s linked) (stepped : c.step order traced event = some next) :
    ∃ taken after, run (losing order traced) s taken = some after ∧
      (∃ linked, Shows next after linked) ∧ ∀ x ∈ taken, StandsFor event x := by
  obtain ⟨linked, shows⟩ := shows
  have one {x : HostEvent × Bool} {after : Host} (here : losing order traced s x = some after)
      (kept : ∃ linked, Shows next after linked) (stands : StandsFor event x) :
      ∃ taken after, run (losing order traced) s taken = some after ∧
        (∃ linked, Shows next after linked) ∧ ∀ x ∈ taken, StandsFor event x := by
    refine ⟨[x], after, by rw [run_singleton, here], kept, fun y member => ?_⟩
    rw [List.mem_singleton.mp member]
    exact stands
  have none_ (kept : Shows next s linked) :
      ∃ taken after, run (losing order traced) s taken = some after ∧
        (∃ linked, Shows next after linked) ∧ ∀ x ∈ taken, StandsFor event x :=
    ⟨[], s, rfl, ⟨linked, kept⟩, fun _ member => absurd member List.not_mem_nil⟩
  have handled {host : HostEvent}
      (fifoEvent : host = .reset ∨ (∃ env, host = .send env) ∨ host = .copy ∨ host = .writeBack)
      (done : fifoTask order traced c host = some next) :
      ∃ taken after, run (losing order traced) s taken = some after ∧
        (∃ linked, Shows next after linked) ∧ ∀ x ∈ taken, StandsFor event x := by
    obtain ⟨after, here, kept, _⟩ := fifoTask_shows fifoEvent shows done
    exact one here ⟨linked, kept⟩ nofun
  cases event with
  | accept fd port vm =>
      obtain ⟨lost, after, here, kept, memory⟩ :=
        recvTask_shows (Or.inl ⟨fd, port, vm, rfl⟩) shows stepped
      refine one here kept fun missed => ?_
      obtain ⟨_, _, _, other⟩ := memory missed
      cases other
  | acceptSet =>
      obtain ⟨lost, after, here, kept, memory⟩ :=
        recvTask_shows (Or.inr (Or.inl rfl)) shows stepped
      refine one here kept fun missed => ?_
      obtain ⟨_, _, _, other⟩ := memory missed
      cases other
  | receive i events malloc =>
      obtain ⟨lost, after, here, kept, memory⟩ :=
        recvTask_shows (Or.inr (Or.inr ⟨i, events, rfl⟩)) shows stepped
      refine one here kept fun missed => ?_
      exact ⟨i, events, rfl, by rw [(memory missed).1]⟩
  | get =>
      obtain ⟨queue, enabled, done, rfl⟩ := queueTask_cases stepped
      rcases getTask_shows (Or.inl rfl) shows enabled done with ⟨after, here, kept⟩ | kept
      · exact one here kept nofun
      · exact none_ kept
  | wake ok =>
      obtain ⟨queue, enabled, done, rfl⟩ := queueTask_cases stepped
      rcases getTask_shows (Or.inr ⟨ok, rfl⟩) shows enabled done with ⟨after, here, kept⟩ | kept
      · exact one here kept nofun
      · exact none_ kept
  | clearNext =>
      obtain ⟨middle, cleared, rfl⟩ := Option.map_eq_some_iff.mp stepped
      obtain ⟨queue, enabled, done, rfl⟩ := queueTask_cases cleared
      have kept : Shows { c with queue, phase := .got } s linked :=
        clearNext_shows shows enabled done
      exact none_ kept
  | reset => exact handled (Or.inl rfl) stepped
  | send env => exact handled (Or.inr (Or.inl ⟨env, rfl⟩)) stepped
  | copy =>
      obtain ⟨middle, done, converted⟩ := Option.bind_eq_some_iff.mp stepped
      obtain ⟨after, here, kept, _⟩ := fifoTask_shows (Or.inr (Or.inr (Or.inl rfl))) shows done
      exact one here ⟨linked, convert_shows kept (fifoTask_copied done) converted⟩ nofun
  | writeBack => exact handled (Or.inr (Or.inr (Or.inr rfl))) stepped
  | release =>
      simp only [MemHost.step] at stepped
      split at stepped
      · rename_i phase
        obtain ⟨queue, enabled, done, rfl⟩ := queueTask_cases stepped
        exact none_ (release_shows shows phase enabled done)
      · cases stepped

theorem init_shows (listenFd : Int) :
    Shows (MemHost.init listenFd : MemHost space) (Host.init listenFd) [] where
  rest := rfl
  inv := init_inv
  only := nofun
  fifo := rfl
  inHand := rfl

/-- The steps of the list host that the host in memory stands for. -/
theorem run_shows {listenFd : Int} {events : List (MemEvent space)} {final : MemHost space}
    (reached : run (MemHost.step order traced) (MemHost.init listenFd) events = some final) :
    ∃ taken s linked, run (losing order traced) (Host.init listenFd) taken = some s ∧
      Shows final s linked ∧
      ∀ x ∈ taken, x.2 = true →
        ∃ i io, x.1 = .receive i io ∧ .receive i io none ∈ events := by
  obtain ⟨taken, s, shown, ⟨linked, shows⟩, stands⟩ :=
    run_simulated (fun c s => ∃ linked, Shows c s linked) StandsFor
      (fun _ _ _ _ shows stepped => step_simulated shows stepped) ⟨[], init_shows listenFd⟩ reached
  refine ⟨taken, s, linked, shown, shows, fun x member lost => ?_⟩
  obtain ⟨event, among, from_⟩ := stands x member
  obtain ⟨i, io, received, rfl⟩ := from_ lost
  exact ⟨i, io, received, among⟩

/-- Whatever the tasks do and in whatever order, with a timed wait that returns 0 only when
a block is linked: the host in memory does what the host with a list as its queue does,
which loses a message only where there was no memory for it, the blocks linked are its
requests, what `fifo_getTask` works on is in memory as it was received, no step meets a
released block, and no other block stays allocated. -/
theorem run_memory {listenFd : Int} {events : List (MemEvent space)} {final : MemHost space}
    (reached : run (MemHost.step order traced) (MemHost.init listenFd) events = some final) :
    (∃ taken s linked, run (losing order traced) (Host.init listenFd) taken = some s ∧
      Shows final s linked ∧
      (∀ a, (final.queue.heap a).isSome ↔ a ∈ addrs linked ∨ final.queue.consumer.Holds a) ∧
      ∀ x ∈ taken, x.2 = true →
        ∃ i io, x.1 = .receive i io ∧ .receive i io none ∈ events) ∧
    ∀ event, Enabled final.queue event → (HostFifo.step final.queue event).isSome := by
  obtain ⟨taken, s, linked, shown, shows, lost⟩ := run_shows reached
  refine ⟨⟨taken, s, linked, shown, shows, fun a => ⟨shows.only a, fun known => ?_⟩, lost⟩, ?_⟩
  · rcases known with member | holds
    · exact Option.isSome_iff_ne_none.mpr (shows.inv.queued.segment.allocated a member)
    · exact (shows.inv.held a holds).2
  · intro event enabled
    obtain ⟨next, _, performed, _⟩ := perform_inv shows.inv enabled
    rw [HostFifo.step, if_pos enabled, performed]
    rfl

/-- Where nothing is lost the list host takes only steps of its own. -/
theorem run_losing {taken : List (HostEvent × Bool)} (kept : ∀ x ∈ taken, x.2 = false) (s : Host) :
    run (losing order traced) s taken =
      run (HostSystem.step order traced) s (taken.map Prod.fst) := by
  induction taken generalizing s with
  | nil => rfl
  | cons x taken ih =>
      rw [List.forall_mem_cons] at kept
      have same : losing order traced s x = HostSystem.step order traced s x.1 := by
        simp [losing, kept.1]
      rw [List.map_cons, run_cons, run_cons, same]
      exact Option.bind_congr fun next _ => ih kept.2 next

/-- With memory for every message, the host in memory is in a state of the list host. -/
theorem run_memory_kept {listenFd : Int} {events : List (MemEvent space)} {final : MemHost space}
    (reached : run (MemHost.step order traced) (MemHost.init listenFd) events = some final)
    (room : ∀ i io, .receive i io none ∉ events) :
    ∃ taken s linked, run (HostSystem.step order traced) (Host.init listenFd) taken = some s ∧
      Shows final s linked := by
  obtain ⟨taken, s, linked, shown, shows, lost⟩ := run_shows reached
  refine ⟨taken.map Prod.fst, s, linked, ?_, shows⟩
  rw [← run_losing _ (Host.init listenFd)]
  · exact shown
  · intro x member
    by_contra missed
    obtain ⟨i, io, _, among⟩ := lost x member (by simpa using missed)
    exact room i io among

/-- A message that is queued, handled and released, and one for which there is no memory. -/
def sampleRun : List (MemEvent 2) :=
  let frame := singly [4, 0, 12, 0, 0, 0, 0, 1, 0, 9, 0, 0]
  [.accept 5 40000 1, .acceptSet, .get, .receive 0 frame (some 1), .wake true, .clearNext,
    .receive 0 frame none, .reset, .release]

set_option maxRecDepth 4096 in
theorem sampleRun_reached :
    ∃ final, run (MemHost.step .little false) (MemHost.init 3) sampleRun = some final ∧
      (final.queue.heap 1).isNone = true :=
  exists_of_any (by decide +kernel)

theorem run_memory_sample :
    ∃ final, run (MemHost.step .little false) (MemHost.init 3) sampleRun = some final ∧
      (final.queue.heap 1).isNone = true ∧
      ∀ event, Enabled final.queue event → (HostFifo.step final.queue event).isSome := by
  obtain ⟨final, reached, released⟩ := sampleRun_reached
  exact ⟨final, reached, released, (run_memory reached).2⟩

end Simulation

end VnfMonitoring.HostMemory
