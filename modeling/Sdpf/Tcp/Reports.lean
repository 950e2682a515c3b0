import Sdpf.Tcp.Order

/-!
# Sends in order

A send that finds no room is reported and leaves no trace, one that is accepted is passed on
in turn and reported once, when it has been written or has failed (`sends_in_order`).
-/

namespace Sdpf.Tcp

open Sdpf.Semantics

namespace Connection

variable {s next : Connection}

/-- Nothing is sent, and no callback is called for a buffer that is not accepted. -/
structure Quiet (s next : Connection) : Prop where
  sends : next.sends = s.sends
  accepted : next.accepted = s.accepted
  refused : next.refused = s.refused
  reports : ∀ buf ∉ s.accepted, next.reports buf = s.reports buf

/-- Where nothing happens, nothing is sent. -/
theorem Quiet.refl : s.Quiet s := ⟨rfl, rfl, rfl, fun _ _ => rfl⟩

/-- One quiet step after the other. -/
theorem Quiet.trans {middle : Connection} (first : s.Quiet middle) (second : middle.Quiet next) :
    s.Quiet next where
  sends := second.sends.trans first.sends
  accepted := second.accepted.trans first.accepted
  refused := second.refused.trans first.refused
  reports buf absent := by
    rw [second.reports buf (by rwa [first.accepted]), first.reports buf absent]

/-- A callback that is not for a buffer. -/
theorem quiet_call (set : Bool) (frame : Frame) {what : Callback}
    (other : ∀ status buf, what ≠ .send status buf) : s.Quiet (s.call set frame what) where
  sends := rfl
  accepted := rfl
  refused := rfl
  reports buf _ := by
    cases what with
    | send status other_buf => exact absurd rfl (other status other_buf)
    | connect => cases set <;> simp [reports, call]
    | receive => cases set <;> simp [reports, call]
    | close => cases set <;> simp [reports, call]

/-- `on_close` sends nothing. -/
theorem quiet_onClose : s.Quiet s.onClose := by
  have cleared : s.Quiet { s with
      buffers := []
      gone := s.gone ++ s.buffers
      finished := true } := { (Quiet.refl : s.Quiet s) with }
  exact cleared.trans (quiet_call s.closeCb .closed (by simp))

/-- Nor does `on_stop`. -/
theorem quiet_onStop : s.Quiet s.onStop := by
  unfold onStop
  split_ifs
  · exact .refl
  · have off : s.Quiet { s with connected := false, reading := false } :=
      { (Quiet.refl : s.Quiet s) with }
    exact off.trans quiet_onClose
  · exact { (Quiet.refl : s.Quiet s) with }

/-- Nor does the callback of the connect. -/
theorem quiet_onConnect (status : Int) : s.Quiet (s.onConnect status) := by
  have up : s.Quiet { s with connected := true } := { (Quiet.refl : s.Quiet s) with }
  have reading : s.Quiet { s with connected := true, reading := true } :=
    { (Quiet.refl : s.Quiet s) with }
  unfold onConnect
  simp only
  split_ifs
  · exact up.trans (quiet_call true .failed (by simp))
  · exact up.trans quiet_onStop
  · exact reading.trans (quiet_call s.connCb .connected (by simp))

/-- Nor does a read. -/
theorem quiet_onRead (nread : Int) : s.Quiet (s.onRead nread) := by
  unfold onRead
  split_ifs
  · exact .refl
  · exact quiet_call s.recvCb .received (by simp)
  · exact quiet_onStop

/-- Nor does a write that is reported. -/
theorem quiet_written (status wr : Int) : s.Quiet (s.written status wr) := by
  unfold written
  simp only
  split_ifs
  · exact { (Quiet.refl : s.Quiet s) with }
  · exact { (Quiet.refl : s.Quiet s) with }
  · exact quiet_onStop

/-- The callback of a completed write is for a buffer that was accepted. -/
theorem quiet_onWrite (split : s.accepted = s.gone ++ s.buffers) (status wr : Int) :
    s.Quiet (s.onWrite status wr) := by
  unfold onWrite
  split_ifs
  · exact .refl
  · refine ⟨rfl, rfl, rfl, fun buf absent => ?_⟩
    have away : ∀ front ∈ s.buffers.take 1, front ≠ buf := by
      rintro front member rfl
      rw [split] at absent
      exact absent (List.mem_append_right _ (List.mem_of_mem_take member))
    simp only [reports, List.filterMap_append, List.append_right_eq_self,
      List.filterMap_eq_nil_iff]
    intro entry member
    obtain ⟨front, here, rfl⟩ := List.mem_map.mp member
    exact if_neg (away front here)
  · exact quiet_written status wr

/-- Where nothing is sent, what was reported stays so. -/
theorem Reported.quiet (reported : s.Reported) (quiet : s.Quiet next) : next.Reported where
  increasing := by
    rw [quiet.accepted]
    exact reported.increasing
  counted := by
    rw [quiet.accepted, quiet.sends]
    exact reported.counted
  unknown buf later := by
    rw [quiet.sends] at later
    rw [quiet.reports buf fun member => absurd (reported.counted buf member) (by omega)]
    exact reported.unknown buf later
  refused entry member := by
    rw [quiet.refused] at member
    obtain ⟨early, absent, status, positive, here⟩ := reported.refused entry member
    refine ⟨by rwa [quiet.sends], by rwa [quiet.accepted], status, positive, ?_⟩
    rw [quiet.reports entry.1 absent, here]

/-- A buffer that is taken gets a number above all others. -/
theorem Reported.accept (reported : s.Reported)
    (sends : next.sends = s.sends + 1) (accepted : next.accepted = s.accepted ++ [s.sends])
    (refused : next.refused = s.refused) (log : next.log = s.log) : next.Reported where
  increasing := by
    rw [accepted, List.pairwise_append]
    refine ⟨reported.increasing, List.pairwise_singleton _ _, fun buf member last same => ?_⟩
    rw [List.mem_singleton.mp same]
    exact reported.counted buf member
  counted buf member := by
    rw [accepted, List.mem_append, List.mem_singleton] at member
    rw [sends]
    rcases member with earlier | rfl
    · exact Nat.lt_succ_of_lt (reported.counted buf earlier)
    · exact Nat.lt_succ_self _
  unknown buf later := by
    have reports : next.reports buf = s.reports buf := by rw [Connection.reports, log]; rfl
    rw [reports]
    exact reported.unknown buf (by omega)
  refused entry member := by
    rw [refused] at member
    obtain ⟨early, absent, status, positive, here⟩ := reported.refused entry member
    have reports : next.reports entry.1 = s.reports entry.1 := by
      rw [Connection.reports, log]
      rfl
    refine ⟨by omega, ?_, status, positive, by rw [reports, here]⟩
    rw [accepted, List.mem_append, List.mem_singleton]
    rintro (earlier | same)
    · exact absent earlier
    · omega

/-- A buffer that finds no room is reported if `send_cb_` is set. -/
theorem Reported.refuse (reported : s.Reported) {status : Int} (positive : status > 0)
    (sends : next.sends = s.sends + 1) (accepted : next.accepted = s.accepted)
    (refused : next.refused = s.refused ++ [(s.sends, s.sendCb)])
    (log : next.log = if s.sendCb then s.log ++ [.send status s.sends] else s.log) :
    next.Reported := by
  have earlier : ∀ buf, buf ≠ s.sends → next.reports buf = s.reports buf := by
    intro buf other
    rw [Connection.reports, log]
    split_ifs
    · simp [Connection.reports, other.symm]
    · rfl
  have last : next.reports s.sends = if s.sendCb then [status] else [] := by
    have unknown := reported.unknown s.sends (Nat.le_refl _)
    rw [Connection.reports] at unknown ⊢
    rw [log]
    split_ifs
    · rw [List.filterMap_append, unknown]
      simp
    · exact unknown
  constructor
  case increasing =>
    rw [accepted]
    exact reported.increasing
  case counted =>
    intro buf member
    rw [accepted] at member
    rw [sends]
    exact Nat.lt_succ_of_lt (reported.counted buf member)
  case unknown =>
    intro buf later
    rw [earlier buf (by omega)]
    exact reported.unknown buf (by omega)
  case refused =>
    intro entry member
    rw [refused, List.mem_append, List.mem_singleton] at member
    rcases member with before | rfl
    · obtain ⟨early, absent, known⟩ := reported.refused entry before
      refine ⟨by omega, by rwa [accepted], ?_⟩
      rw [earlier entry.1 (by omega)]
      exact known
    · refine ⟨by simp only; omega, fun member => ?_, status, positive, last⟩
      rw [accepted] at member
      exact absurd (reported.counted _ member) (Nat.lt_irrefl _)

/-- `on_send` passes its buffer on or keeps it. -/
theorem Reported.onSend (reported : s.Reported) (wr : Int) : (s.onSend wr).Reported := by
  unfold Connection.onSend
  simp only
  split_ifs with down full empty
  · refine ⟨reported.increasing, fun buf member => ?_, fun buf later => ?_, fun entry member => ?_⟩
    · exact Nat.lt_succ_of_lt (reported.counted buf member)
    · exact reported.unknown buf (Nat.le_of_succ_le later)
    · obtain ⟨early, known⟩ := reported.refused entry member
      exact ⟨Nat.lt_succ_of_lt early, known⟩
  · have positive : (s.buffers.length : Int) > 0 := by
      have room : maxSendBuf > 0 := by decide
      omega
    exact reported.refuse positive rfl rfl rfl rfl
  · exact reported.accept rfl rfl rfl rfl
  · exact reported.accept rfl rfl rfl rfl

/-- A step reports the buffers in the order they were passed on. -/
theorem Reported.step {action : Action} (reported : s.Reported) (orderly : s.Orderly)
    (taken : s.step action = some next) : next.Reported := by
  have same : s.Quiet s := .refl
  obtain ⟨_, transition⟩ := step_transition taken
  cases transition with
  | ignored => exact reported
  | reused => exact reported.quiet { same with }
  | started => exact reported.quiet { same with }
  | startFailed =>
      have opened : s.Quiet { s with
          connected := true
          finished := false
          handle := s.handle.init } := { same with }
      exact reported.quiet (opened.trans (quiet_onConnect _))
  | accepted =>
      have opened : s.Quiet { s with handle := s.handle.init } := { same with }
      exact reported.quiet (opened.trans (quiet_onConnect _))
  | stop => exact reported.quiet quiet_onStop
  | send => exact reported.onSend _
  | callbacks => exact reported.quiet { same with }
  | connect =>
      have settled : s.Quiet { s with connecting := false } := { same with }
      exact reported.quiet (settled.trans (quiet_onConnect _))
  | read => exact reported.quiet (quiet_onRead _)
  | @write status wr buf rest idle outstanding =>
      have completed : s.Quiet { s with outstanding := rest } := { same with }
      exact reported.quiet
        (completed.trans (quiet_onWrite (s := { s with outstanding := rest }) orderly.split _ _))
  | closed =>
      have delivered : s.Quiet { s with handle := s.handle.deliver } := { same with }
      exact reported.quiet (delivered.trans quiet_onClose)
  | returned => exact reported.quiet { same with }
  | @failed wr rest stack =>
      have popped : s.Quiet { s with stack := rest } := { same with }
      exact reported.quiet (popped.trans quiet_onStop)
  | written =>
      have returned : s.Quiet { s with writing := none } := { same with }
      exact reported.quiet (returned.trans (quiet_written _ _))

/-- Before the start nothing has been sent. -/
theorem Initial.reported (initial : s.Initial) : s.Reported where
  increasing := by simp [initial.accepted]
  counted := by simp [initial.accepted]
  unknown := by simp [reports, initial.log]
  refused := by simp [initial.refused]

/-- The buffers of a connection that is started once are passed to `uv_write` in the order in
which they were accepted, each once, with one write at a time; the queue is bounded; a buffer
that finds no room is reported with a positive status, once, and not passed; and nobody takes
the front of an empty queue. -/
theorem sends_in_order {start : Connection} {actions : List Action} (initial : start.Initial)
    (runs : connectionMachine.Runs start actions s)
    (once : connectionMachine.Along StartsOnce start actions) :
    s.passed <+: s.accepted ∧ s.passed.Nodup ∧ s.outstanding.length ≤ 1 ∧
      s.buffers.length ≤ maxSendBuf ∧
      (∀ buf set, (buf, set) ∈ s.refused → buf ∉ s.passed ∧
        ∃ status > 0, s.reports buf = if set then [status] else []) ∧
      s.fault = false := by
  have holds : (s.Orderly ∧ s.Waiting) ∧ s.Reported := by
    refine runs.guarded (fun s => (s.Orderly ∧ s.Waiting) ∧ s.Reported) ?_
      ⟨⟨initial.orderly, initial.waiting⟩, initial.reported⟩ once
    intro before action after inv once taken
    exact ⟨inv.1.1.step inv.1.2 once taken, inv.2.step inv.1.1 taken⟩
  obtain ⟨⟨orderly, _⟩, reported⟩ := holds
  have distinct : s.accepted.Nodup := reported.increasing.imp Nat.ne_of_lt
  refine ⟨orderly.ordered, distinct.sublist orderly.ordered.sublist, ?_, orderly.bounded, ?_,
    orderly.sound⟩
  · rcases orderly.single with none_out | ⟨one, _⟩
    · simp [none_out]
    · exact Nat.le_of_eq one
  · intro buf set member
    obtain ⟨_, absent, known⟩ := reported.refused _ member
    exact ⟨fun passed => absent (orderly.ordered.subset passed), known⟩

/-- Two buffers are sent, and the first write is completed. -/
theorem sends_in_order_two :
    ∃ s, connectionMachine.Runs fresh
        [.start none, .connect 0, .send 0, .send 0, .write 0 0] s ∧ s.passed = [0, 1] ∧
      (s.passed <+: s.accepted ∧ s.passed.Nodup ∧ s.outstanding.length ≤ 1 ∧
        s.buffers.length ≤ maxSendBuf ∧
        (∀ buf set, (buf, set) ∈ s.refused → buf ∉ s.passed ∧
          ∃ status > 0, s.reports buf = if set then [status] else []) ∧
        s.fault = false) := by
  have executed : (connectionMachine.run fresh
      [.start none, .connect 0, .send 0, .send 0, .write 0 0]).map passed = some [0, 1] := by
    decide +kernel
  obtain ⟨s, runs, passed⟩ := Machine.Runs.of_map executed
  have once : connectionMachine.Along StartsOnce fresh
      [.start none, .connect 0, .send 0, .send 0, .write 0 0] :=
    ⟨.inr rfl, fun _ _ => ⟨trivial, fun _ _ => ⟨trivial, fun _ _ => ⟨trivial, fun _ _ =>
      ⟨trivial, fun _ _ => trivial⟩⟩⟩⟩⟩
  exact ⟨s, runs, passed, sends_in_order fresh_initial runs once⟩

end Connection

end Sdpf.Tcp
