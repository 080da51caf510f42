import VnfMonitoring.HostReply
import VnfMonitoring.Network

set_option autoImplicit false

/- The responses of the host to the reports of the agents: `fifo_getTask` takes the queued
blocks one after the other, and answers each at most once. -/
namespace VnfMonitoring.NetworkReplies

open VnfMonitoring.Memory VnfMonitoring.Socket VnfMonitoring.HostSock VnfMonitoring.HostSystem
  VnfMonitoring.HostTable VnfMonitoring.HostConnection VnfMonitoring.HostReply VnfMonitoring.Network
  VnfMonitoring.Runs

section Host

variable {order : ByteOrder} {traced : Bool} {s next : Host}

/-- What is still to be answered, in the order in which it was queued. -/
def pending (s : Host) : List Request := unanswered s.handler ++ s.fifo

/-- A step that is done with some requests, and has answered some of these. -/
structure Answers (s next : Host) (done : List Request) (answered : List Connection) : Prop where
  pending : pending s = done ++ pending next
  replies : next.replies.map Reply.request = s.replies.map Reply.request ++ answered
  once : answered.Sublist (done.map Request.conn)

theorem Answers.quiet (handler : unanswered next.handler = unanswered s.handler)
    (fifo : next.fifo = s.fifo) (replies : next.replies = s.replies) :
    Answers s next [] [] where
  pending := by rw [NetworkReplies.pending, NetworkReplies.pending, handler, fifo, List.nil_append]
  replies := by rw [replies, List.append_nil]
  once := List.Sublist.refl _

/-- Every step but a receive is done with at most the request in hand. -/
theorem step_answers {event : HostEvent} (inv : TableInv s.tables s.accepting)
    (stepped : HostSystem.step order traced s event = some next)
    (other : ∀ i events, event ≠ .receive i events) :
    ∃ done answered, Answers s next done answered := by
  cases event with
  | accept fd port vm =>
      obtain ⟨_, ⟨i, _, rfl⟩ | ⟨_, rfl⟩⟩ := accept_cases inv stepped
      · exact ⟨[], [], .quiet rfl rfl rfl⟩
      · exact ⟨[], [], .quiet rfl rfl rfl⟩
  | acceptSet =>
      obtain ⟨i, _, rfl⟩ := Option.map_eq_some_iff.mp stepped
      exact ⟨[], [], .quiet rfl rfl rfl⟩
  | receive i events => exact absurd rfl (other i events)
  | get =>
      obtain ⟨request, fifo, idle, queued, rfl⟩ := get_cases stepped
      refine ⟨[], [], ?_, (List.append_nil _).symm, .refl _⟩
      rw [pending, pending, idle, queued]
      rfl
  | reset =>
      obtain ⟨request, got, rfl | ⟨_, rfl | ⟨i, tables, _, rfl⟩⟩⟩ := reset_cases stepped
      · refine ⟨[request], [], ?_, (List.append_nil _).symm, List.nil_sublist _⟩
        rw [pending, got]
        rfl
      · refine ⟨[request], [], ?_, (List.append_nil _).symm, List.nil_sublist _⟩
        rw [pending, got]
        rfl
      · refine ⟨[], [], .quiet ?_ rfl rfl⟩
        rw [got]
        rfl
  | send env =>
      obtain ⟨request, tables, wire, found, _, rfl⟩ := send_cases stepped
      have pending : pending s = [request] ++ s.fifo := by
        rw [pending, found]
        rfl
      by_cases silent : wire = []
      · refine ⟨[request], [], pending, ?_, List.nil_sublist _⟩
        rw [if_pos silent, List.append_nil]
      · refine ⟨[request], [request.conn], pending, ?_, .refl _⟩
        rw [if_neg silent, List.map_append]
        rfl
  | copy =>
      obtain ⟨request, ret, vmstate, answered, _, rfl⟩ := copy_cases stepped
      refine ⟨[], [], .quiet ?_ rfl rfl⟩
      rw [answered]
      rfl
  | writeBack =>
      obtain ⟨request, ret, vmstate, stored, rfl⟩ := writeBack_cases stepped
      refine ⟨[], [], .quiet ?_ rfl rfl⟩
      rw [stored]
      rfl

/-- A receive only queues. -/
theorem receive_pending {i : Slot} {events : List RecvEvent}
    (stepped : HostSystem.step order traced s (.receive i events) = some next) :
    next.handler = s.handler ∧ next.replies = s.replies ∧
      next.fifo = s.fifo ++ next.fifo.drop s.fifo.length := by
  obtain ⟨_, _, result, _, ⟨_, tables, buf, block, _, _, _, rfl⟩ | rfl⟩ := receive_cases stepped
  · exact ⟨rfl, rfl, by rw [List.drop_left]⟩
  · exact ⟨rfl, rfl, by rw [List.drop_length, List.append_nil]⟩

end Host

section System

variable {order : ByteOrder} {traced : Bool} {s next : System}

/-- The requests that the host is done with, and the responses among them. -/
structure Handled (s : System) (handled : List Request) : Prop where
  queued : s.queued = handled ++ pending s.host
  replies : (s.host.replies.map Reply.request).Sublist (handled.map Request.conn)

theorem Handled.answers {handled done : List Request} {answered : List Connection} {host : Host}
    (before : Handled s handled) (answers : Answers s.host host done answered) :
    Handled { s with host } (handled ++ done) where
  queued := by rw [before.queued, answers.pending, List.append_assoc]
  replies := by
    rw [answers.replies, List.map_append]
    exact before.replies.append answers.once

/-- The receive keeps what is handled. -/
theorem Handled.receive {handled : List Request} {host : Host}
    (before : Handled s handled) {i : Slot} {events : List RecvEvent}
    (moved : HostSystem.step order traced s.host (.receive i events) = some host)
    (sameHost : next.host = host)
    (queued : next.queued = s.queued ++ host.fifo.drop s.host.fifo.length) :
    Handled next handled := by
  obtain ⟨handler, replies, fifo⟩ := receive_pending moved
  subst sameHost
  constructor
  · rw [queued, before.queued, pending, pending, handler, List.append_assoc, List.append_assoc,
      ← fifo]
  · rw [replies]
    exact before.replies

theorem step_handled {event : NetworkEvent} (wire : WireInv order s) {handled : List Request}
    (before : Handled s handled) (stepped : Network.step order traced s event = some next) :
    ∃ more, Handled next (handled ++ more) := by
  have same {next : System} (queued : next.queued = s.queued)
      (handler : next.host.handler = s.host.handler) (fifo : next.host.fifo = s.host.fifo)
      (replies : next.host.replies = s.host.replies) : ∃ more, Handled next (handled ++ more) := by
    refine ⟨[], ?_, ?_⟩
    · rw [queued, before.queued, pending, pending, handler, fifo, List.append_nil]
    · rw [replies, List.append_nil]
      exact before.replies
  cases event with
  | report c fd call env =>
      simp only [Network.step] at stepped
      split at stepped
      · cases stepped
      · obtain ⟨p, _, rfl⟩ := Option.map_eq_some_iff.mp stepped
        exact same rfl rfl rfl rfl
  | close c =>
      cases stepped
      exact same rfl rfl rfl rfl
  | host event =>
      have quiet (host : Host) (moved : HostSystem.step order traced s.host event = some host)
          (other : ∀ i events, event ≠ .receive i events) :
          ∃ more, Handled { s with host } (handled ++ more) := by
        obtain ⟨done, answered, answers⟩ := step_answers wire.table moved other
        exact ⟨done, before.answers answers⟩
      cases event with
      | receive i events =>
          simp only [Network.step, hostStep] at stepped
          split at stepped
          · obtain ⟨result, _, rest⟩ := Option.bind_eq_some_iff.mp stepped
            obtain ⟨host, moved, rfl⟩ := Option.map_eq_some_iff.mp rest
            refine ⟨[], ?_⟩
            rw [List.append_nil]
            exact before.receive moved rfl rfl
          · cases stepped
      | _ =>
          obtain ⟨host, moved, rfl⟩ := Option.map_eq_some_iff.mp stepped
          refine quiet host moved ?_
          intro i events receives
          cases receives
  | checkVm checkTcpstatusMin vstatus i =>
      simp only [Network.step, Option.map_eq_some_iff] at stepped
      obtain ⟨tables, _, rfl⟩ := stepped
      exact same rfl rfl rfl rfl
  | process call answers accepted =>
      simp only [Network.step, Option.map_eq_some_iff] at stepped
      obtain ⟨table, _, rfl⟩ := stepped
      exact same rfl rfl rfl rfl

/-- The responses to a connection's requests. -/
def responsesTo (s : System) (c : Nat) : List Reply :=
  s.host.replies.filter fun reply => decide (reply.request.id = c)

/-- A report is answered at most once, and in its turn: the requests of the responses are,
in their order, among the blocks that the host is done with, those behind them wait, and a
connection has no more responses than its agent has sent reports. -/
theorem run_responses {listenFd : Int} (listening : 0 < listenFd) {events : List NetworkEvent}
    {final : System}
    (reached : run (Network.step order traced) (System.init listenFd) events = some final) :
    ∃ handled, final.queued = handled ++ pending final.host ∧
      (final.host.replies.map Reply.request).Sublist (handled.map Request.conn) ∧
      ∀ c, (responsesTo final c).length ≤ (final.pipes c).sent.length := by
  obtain ⟨wire, handled, known⟩ : WireInv order final ∧ ∃ handled, Handled final handled := by
    refine run_invariant (fun s => WireInv order s ∧ ∃ handled, Handled s handled) ?_
      ⟨init_wireInv order listening, [], rfl, .refl _⟩ reached
    intro before event after ⟨wire, handled, known⟩ stepped
    obtain ⟨more, kept⟩ := step_handled wire known stepped
    exact ⟨step_wireInv wire stepped, handled ++ more, kept⟩
  refine ⟨handled, known.queued, known.replies, fun c => ?_⟩
  obtain ⟨read, brought, front, _⟩ := wire.carried c
  have all : (final.host.replies.map Reply.request).Sublist (final.queued.map Request.conn) := by
    rw [known.queued, List.map_append]
    exact known.replies.trans (List.sublist_append_left _ _)
  have among : (responsesTo final c).length ≤ (queuedOf final c).length := by
    have fewer := (all.filter fun conn => decide (conn.id = c)).length_le
    rw [List.filter_map, List.filter_map, List.length_map, List.length_map] at fewer
    exact fewer
  calc (responsesTo final c).length ≤ (queuedOf final c).length := among
    _ = read.length := brought.length_eq
    _ ≤ (final.pipes c).sent.length := front.length_le

/-- The report of the first run is answered. -/
def answeredRun : List NetworkEvent :=
  sampleRun ++ [.host .reset, .host (.send ⟨[], []⟩)]

set_option maxRecDepth 4096 in
theorem answeredRun_reached :
    ∃ final, run (Network.step .little false) (System.init 3) answeredRun = some final ∧
      final.host.replies.length = 1 :=
  exists_of_any (by decide +kernel)

theorem run_responses_answered :
    ∃ final, run (Network.step .little false) (System.init 3) answeredRun = some final ∧
      final.host.replies.length = 1 ∧
      ∀ c, (responsesTo final c).length ≤ (final.pipes c).sent.length := by
  obtain ⟨final, reached, answered⟩ := answeredRun_reached
  obtain ⟨_, _, _, fewer⟩ := run_responses (by decide) reached
  exact ⟨final, reached, answered, fewer⟩

end System

end VnfMonitoring.NetworkReplies
