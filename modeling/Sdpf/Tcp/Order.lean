import Sdpf.Tcp.Connection

/-!
# The queue of a connection

A connection that is started once passes the buffers of `send_buf_` to `uv_write` one
after the other, whatever the user does inside `send_cb_`: the front of the queue has been
passed, and the rest has not. The invariant has three parts. `Staged` is about the life of
the connection, `Queued` about the queue and the writes, and `Reported` about the buffers
that found no room.
-/

namespace Sdpf.Tcp

open Sdpf.Semantics

namespace Connection

variable {s next : Connection}

/-- A start takes effect on a connection that has not been started only. -/
def StartsOnce (s : Connection) : Action → Prop
  | .start _ => s.connected = true ∨ s.handle.phase = .fresh
  | _ => True

instance (s : Connection) : (action : Action) → Decidable (s.StartsOnce action)
  | .start _ => inferInstanceAs (Decidable (_ ∨ _))
  | .accept _ | .stop | .send _ | .callbacks .. | .connect _ | .read _ | .write .. | .closed
  | .ret _ => inferInstanceAs (Decidable True)

/-- The statuses with which `send_cb_` was called for a buffer. -/
def reports (s : Connection) (buf : Nat) : List Int :=
  s.log.filterMap fun
    | .send status other => if other = buf then some status else none
    | _ => none

/-- The stages of a connection. -/
structure Staged (s : Connection) : Prop where
  finished : s.finished = true → s.connected = false ∧ s.connecting = false ∧
    s.writing = none ∧ s.buffers = [] ∧ (s.handle.phase = .closing ∨ s.handle.phase = .closed)
  closed : s.handle.phase = .closed → s.finished = true
  connecting : s.connecting = true → s.handle.phase = .opened ∨ s.handle.phase = .closing
  /-- Only a cancelled connect makes a closing connection connected. -/
  cancelled : s.connected = true → s.handle.phase = .closing →
    s.writing = none ∧ s.connecting = false
  started : s.connected = true → s.handle.phase ≠ .fresh

/-- `on_connect` goes on to stop a connection whose connect was cancelled. -/
def Waiting (s : Connection) : Prop :=
  s.connected = true → s.handle.phase = .closing → .failed ∈ s.stack

/-- The queue and the writes. -/
structure Queued (s : Connection) : Prop where
  split : s.accepted = s.gone ++ s.buffers
  front : s.finished = false → s.passed = s.gone ++ s.buffers.take 1
  ordered : s.passed <+: s.accepted
  single : s.outstanding = [] ∨ s.outstanding.length = 1 ∧
    (s.finished = false → s.outstanding = s.buffers.take 1)
  writing : s.writing ≠ none → s.buffers ≠ [] ∧ s.outstanding = []
  bounded : s.buffers.length ≤ maxSendBuf
  sound : s.fault = false

/-- Buffers have numbers of their own, and those that found no room were reported. -/
structure Reported (s : Connection) : Prop where
  increasing : s.accepted.Pairwise (· < ·)
  counted : ∀ buf ∈ s.accepted, buf < s.sends
  unknown : ∀ buf, s.sends ≤ buf → s.reports buf = []
  refused : ∀ entry ∈ s.refused, entry.1 < s.sends ∧ entry.1 ∉ s.accepted ∧
    ∃ status > 0, s.reports entry.1 = if entry.2 then [status] else []

/-- What holds between the functions of a connection. -/
structure Orderly (s : Connection) : Prop extends Staged s, Queued s

/-- A connection at which something is going on has not finished. -/
theorem Staged.unfinished (staged : s.Staged) (busy : s.connected = true ∨ s.connecting = true ∨
    s.writing ≠ none ∨ s.handle.phase = .fresh) : s.finished ≠ true := by
  intro now
  obtain ⟨down, settled, returned, _, phase⟩ := staged.finished now
  rcases busy with up | pending | running | fresh
  · simp [down] at up
  · simp [settled] at pending
  · exact running returned
  · rcases phase with other | other <;> simp [fresh] at other

/-- `on_close` on a connection that is not connected. -/
theorem Queued.onClose (queued : s.Queued) (down : s.connected = false)
    (settled : s.connecting = false) (returned : s.writing = none)
    (phase : s.handle.phase = .closing ∨ s.handle.phase = .closed) : s.onClose.Orderly where
  finished _ := ⟨down, settled, returned, rfl, phase⟩
  closed _ := rfl
  connecting now := by rw [show s.connecting = true from now] at settled; cases settled
  cancelled now := by rw [show s.connected = true from now] at down; cases down
  started now := by rw [show s.connected = true from now] at down; cases down
  split := by simp [Connection.onClose, call, queued.split]
  front now := by cases now
  ordered := queued.ordered
  single := queued.single.imp_right fun one => ⟨one.1, fun now => by cases now⟩
  writing now := absurd returned now
  bounded := Nat.zero_le _
  sound := queued.sound

/-- `on_stop` keeps callbacks in order. -/
theorem Orderly.onStop (orderly : s.Orderly) (usable : s.handle.phase ≠ .reused) :
    s.onStop.Orderly := by
  unfold Connection.onStop
  split_ifs with down closing
  · exact orderly
  · have up : s.connected = true := by simpa using down
    have unfinished := orderly.unfinished (.inl up)
    have phase : s.handle.phase = .closing :=
      (Uv.Handle.isClosing_iff.mp closing).resolve_right fun now => unfinished (orderly.closed now)
    obtain ⟨returned, settled⟩ := orderly.cancelled up phase
    have queued : { s with connected := false, reading := false : Connection }.Queued :=
      { orderly.toQueued with }
    exact queued.onClose rfl settled returned (.inl phase)
  · have up : s.connected = true := by simpa using down
    have unfinished := orderly.unfinished (.inl up)
    have phase : s.handle.close.phase = .closing := by
      refine Uv.Handle.close_opened ?_
      rw [Uv.Handle.isClosing_iff] at closing
      have started := orderly.started up
      cases phase : s.handle.phase <;> simp_all
    exact
      { orderly with
        finished := fun now => absurd now unfinished
        closed := fun now => by rw [phase] at now; cases now
        connecting := fun _ => .inr phase
        cancelled := fun now => by cases now
        started := fun now => by cases now }

/-- The front of the queue is passed on. -/
theorem Orderly.sendBuf (staged : s.Staged) (split : s.accepted = s.gone ++ s.buffers)
    (passed : s.passed = s.gone) (nonempty : s.buffers ≠ []) (free : s.outstanding = [])
    (returned : s.writing = none) (bounded : s.buffers.length ≤ maxSendBuf)
    (sound : s.fault = false) (wr : Int) : (s.sendBuf wr).Orderly where
  toStaged := ⟨staged.finished, staged.closed, staged.connecting, staged.cancelled, staged.started⟩
  split := split
  front _ := by simp [Connection.sendBuf, passed]
  ordered := by
    simp only [Connection.sendBuf, passed, split]
    exact List.prefix_append_right_inj _ |>.mpr (List.take_prefix _ _)
  single := by
    simp only [Connection.sendBuf, free, List.nil_append]
    split_ifs
    · refine .inr ⟨?_, fun _ => rfl⟩
      have := List.length_pos_iff.mpr nonempty
      rw [List.length_take]
      omega
    · exact .inl rfl
  writing now := absurd returned now
  bounded := bounded
  sound := by simp [Connection.sendBuf, sound, nonempty]

/-- So does `on_send`. -/
theorem Orderly.onSend (orderly : s.Orderly) (wr : Int) : (s.onSend wr).Orderly := by
  unfold Connection.onSend
  simp only
  split_ifs with down full empty
  · exact { orderly with }
  · exact { orderly with }
  · have unfinished := orderly.unfinished (.inl (by simpa using down))
    have going := Bool.eq_false_iff.mpr unfinished
    have free : s.outstanding = [] := by
      rcases orderly.single with none_out | ⟨one, front⟩
      · exact none_out
      · rw [front going, empty] at one
        cases one
    have returned : s.writing = none := by
      by_contra now
      exact (orderly.writing now).1 empty
    refine Orderly.sendBuf (s := { s with
      sends := s.sends + 1
      buffers := s.buffers ++ [s.sends]
      accepted := s.accepted ++ [s.sends] }) ?_ ?_ ?_ ?_ free returned ?_ orderly.sound wr
    · exact { orderly.toStaged with finished := fun now => absurd now unfinished }
    · simp [orderly.split]
    · simp [orderly.front going, empty]
    · simp
    · simp [empty, maxSendBuf]
  · have unfinished := orderly.unfinished (.inl (by simpa using down))
    have front : (s.buffers ++ [s.sends]).take 1 = s.buffers.take 1 :=
      List.take_append_of_le_length (List.length_pos_iff.mpr empty)
    exact
      { orderly with
        finished := fun now => absurd now unfinished
        split := by simp [orderly.split]
        front := fun going => by simp only [front, orderly.front going]
        ordered := orderly.ordered.trans (List.prefix_append _ _)
        single := by
          simp only [front]
          exact orderly.single
        writing := fun now => ⟨by simp, (orderly.writing now).2⟩
        bounded := by
          simp only [List.length_append, List.length_singleton]
          omega }

/-- `on_connect` on a handle that is in use. -/
theorem Orderly.onConnect (orderly : s.Orderly) (status : Int) (going : s.finished = false)
    (phase : s.handle.phase = .opened ∨ s.handle.phase = .closing)
    (cancelled : s.handle.phase = .closing → s.writing = none ∧ s.connecting = false) :
    (s.onConnect status).Orderly := by
  have usable : s.handle.phase ≠ .reused := by rcases phase with now | now <;> simp [now]
  have up : { s with connected := true : Connection }.Orderly :=
    { orderly with
      finished := fun now => by rw [show s.finished = true from now] at going; cases going
      cancelled := fun _ => cancelled
      started := fun _ now => by rcases phase with other | other <;> simp [other] at now }
  unfold Connection.onConnect
  simp only
  split_ifs
  · exact { up with }
  · exact up.onStop usable
  · exact { up with }

/-- So does a read. -/
theorem Orderly.onRead (orderly : s.Orderly) (usable : s.handle.phase ≠ .reused) (nread : Int) :
    (s.onRead nread).Orderly := by
  unfold Connection.onRead
  split_ifs
  · exact orderly
  · exact { orderly with }
  · exact orderly.onStop usable

/-- Behind the callback for the front of the queue. -/
theorem Orderly.written (orderly : s.Orderly) (usable : s.handle.phase ≠ .reused)
    (returned : s.writing = none) (going : s.finished = false) (free : s.outstanding = [])
    (nonempty : s.buffers ≠ []) (status wr : Int) : (s.written status wr).Orderly := by
  obtain ⟨first, rest, buffers⟩ := List.exists_cons_of_ne_nil nonempty
  have bounded := orderly.bounded
  have split := orderly.split
  have front := orderly.front going
  have finished : s.finished ≠ true := by simp [going]
  rw [buffers] at bounded split front
  unfold Connection.written
  simp only [buffers, List.tail_cons, List.take_succ_cons, List.take_zero, List.isEmpty_cons,
    Bool.or_false]
  split_ifs with success empty
  · subst empty
    exact
      { orderly with
        finished := fun now => absurd now finished
        split := by simp [split]
        front := fun _ => by simp [front]
        single := .inl free
        writing := fun now => absurd returned now
        bounded := Nat.zero_le _ }
  · refine Orderly.sendBuf (s := { s with
      buffers := rest
      gone := s.gone ++ [first] }) ?_ ?_ ?_ empty free returned ?_ orderly.sound wr
    · exact { orderly.toStaged with finished := fun now => absurd now finished }
    · simp [split]
    · simp [front]
    · simp only [List.length_cons] at bounded
      simp only
      omega
  · exact orderly.onStop usable

/-- Libuv has taken one write at most. -/
theorem Queued.last (queued : s.Queued) {buf : Nat} {rest : List Nat}
    (outstanding : s.outstanding = buf :: rest) : rest = [] := by
  rcases queued.single with none_out | ⟨one, _⟩
  · rw [outstanding] at none_out
    cases none_out
  · rw [outstanding] at one
    exact List.eq_nil_of_length_eq_zero (Nat.succ.inj one)

/-- It is that of the front of the queue. -/
theorem Queued.nonempty (queued : s.Queued) (going : s.finished = false) {buf : Nat}
    {rest : List Nat} (outstanding : s.outstanding = buf :: rest) : s.buffers ≠ [] := by
  intro empty
  rcases queued.single with none_out | ⟨_, front⟩
  · rw [outstanding] at none_out
    cases none_out
  · have front := front going
    rw [outstanding, empty] at front
    cases front

/-- So does the callback of a write. -/
theorem Orderly.onWrite (orderly : s.Orderly) (usable : s.handle.phase ≠ .reused)
    (opened : s.connected = true → s.handle.phase ≠ .closing) (returned : s.writing = none)
    (free : s.outstanding = []) (nonempty : s.connected = true → s.buffers ≠ [])
    (status wr : Int) : (s.onWrite status wr).Orderly := by
  unfold Connection.onWrite
  split_ifs with down
  · exact orderly
  · have up : s.connected = true := by simpa using down
    have unfinished := orderly.unfinished (.inl up)
    exact
      { orderly with
        finished := fun now => absurd now unfinished
        cancelled := fun _ now => absurd now (opened up)
        writing := fun _ => ⟨nonempty up, free⟩
        sound := by simp [orderly.sound, nonempty up] }
  · have up : s.connected = true := by simpa using down
    have going := Bool.eq_false_iff.mpr (orderly.unfinished (.inl up))
    exact orderly.written usable returned going free (nonempty up) status wr

/-- The connection is down, or as it was, with at most more callbacks running. -/
def Keeps (s next : Connection) : Prop :=
  next.connected = false ∨ next.connected = s.connected ∧ next.handle = s.handle ∧
    ∀ frame ∈ s.stack, frame ∈ next.stack

/-- Only these fields matter to the requests under way. -/
theorem Waiting.keeps (waiting : s.Waiting) (keeps : s.Keeps next) : next.Waiting := by
  intro up closing
  rcases keeps with down | ⟨connected, handle, stack⟩
  · rw [down] at up
    cases up
  · exact stack _ (waiting (connected ▸ up) (handle ▸ closing))

/-- `on_send` starts no connect and stops none. -/
theorem keeps_onSend (wr : Int) : s.Keeps (s.onSend wr) := by
  unfold onSend
  simp only
  split_ifs
  · exact .inr ⟨rfl, rfl, fun _ member => member⟩
  · exact .inr ⟨rfl, rfl, fun _ => mem_call (s := { s with
      sends := s.sends + 1
      refused := s.refused ++ [(s.sends, s.sendCb)] })⟩
  · exact .inr ⟨rfl, rfl, fun _ member => member⟩
  · exact .inr ⟨rfl, rfl, fun _ member => member⟩

/-- Nor does a read. -/
theorem keeps_onRead (nread : Int) : s.Keeps (s.onRead nread) := by
  unfold onRead
  split_ifs
  · exact .inr ⟨rfl, rfl, fun _ member => member⟩
  · exact .inr ⟨rfl, rfl, fun _ => mem_call⟩
  · exact .inl onStop_down

/-- Nor does a write that is reported. -/
theorem keeps_written (status wr : Int) : s.Keeps (s.written status wr) := by
  unfold written
  simp only
  split_ifs
  · exact .inr ⟨rfl, rfl, fun _ member => member⟩
  · exact .inr ⟨rfl, rfl, fun _ member => member⟩
  · exact .inl onStop_down

/-- Nor does what the callback of a write does. -/
theorem keeps_onWrite (status wr : Int) : s.Keeps (s.onWrite status wr) := by
  unfold onWrite
  split_ifs
  · exact .inr ⟨rfl, rfl, fun _ member => member⟩
  · exact .inr ⟨rfl, rfl, fun _ member => member⟩
  · exact keeps_written status wr

/-- A failed connect has its callback on the stack, or has been stopped. -/
theorem waiting_onConnect {status : Int} (opened : status = 0 → s.handle.phase ≠ .closing) :
    (s.onConnect status).Waiting := by
  unfold onConnect
  simp only
  split_ifs with failed
  · exact fun _ _ => List.mem_cons_self
  · intro up
    rw [onStop_down] at up
    cases up
  · exact fun _ closing => absurd closing (opened (not_not.mp failed))

/-- The handle of a connection that was never started is initialised. -/
theorem Orderly.init (orderly : s.Orderly) (fresh : s.handle.phase = .fresh)
    (going : s.finished = false) (connected connecting finished : Bool)
    (unfinished : finished = false) :
    { s with
      connected := connected
      finished := finished
      handle := s.handle.init
      connecting := connecting : Connection }.Orderly := by
  have opened : s.handle.init.phase = .opened :=
    Uv.Handle.init_opened (by simp [fresh]) (by simp [fresh])
  exact
    { orderly with
      finished := fun now => by
        rw [show finished = true from now] at unfinished
        cases unfinished
      closed := fun now => by rw [opened] at now; cases now
      connecting := fun _ => .inl opened
      cancelled := fun _ now => by rw [opened] at now; cases now
      started := fun _ now => by rw [opened] at now; cases now
      front := fun _ => orderly.front going
      single := orderly.single.imp_right fun one => ⟨one.1, fun _ => one.2 going⟩ }

/-- A step keeps callbacks in order, unless a connection is started twice. -/
theorem Orderly.step {action : Action} (orderly : s.Orderly) (waiting : s.Waiting)
    (once : s.StartsOnce action) (taken : s.step action = some next) :
    next.Orderly ∧ next.Waiting := by
  obtain ⟨usable, transition⟩ := step_transition taken
  -- between callbacks a connected connection is open
  have steady : s.Idle → s.connected = true → s.handle.phase ≠ .closing :=
    fun idle up closing => by
      have member := waiting up closing
      rw [idle.1] at member
      cases member
  have opens : s.handle.phase = .fresh → s.handle.init.phase = .opened := fun fresh =>
    Uv.Handle.init_opened usable (by simp [fresh])
  have unfinished : s.handle.phase = .fresh → s.finished = false := fun fresh =>
    Bool.eq_false_iff.mpr (orderly.unfinished (.inr (.inr (.inr fresh))))
  cases transition with
  | ignored up => exact ⟨orderly, waiting⟩
  | reused down closing =>
      rcases once with up | fresh
      · simp [down] at up
      · simp [closing] at fresh
  | started down settled =>
      have fresh : s.handle.phase = .fresh := once.resolve_left (by simp [down])
      refine ⟨orderly.init fresh (unfinished fresh) true true false rfl, fun _ closing => ?_⟩
      rw [opens fresh] at closing
      cases closing
  | @startFailed status down settled error =>
      have fresh : s.handle.phase = .fresh := once.resolve_left (by simp [down])
      have opened := orderly.init fresh (unfinished fresh) true s.connecting false rfl
      exact ⟨opened.onConnect status rfl (.inl (opens fresh))
        (fun closing => by rw [opens fresh] at closing; cases closing),
        waiting_onConnect fun success => absurd success error⟩
  | @accepted status fresh idle =>
      have opened := orderly.init fresh (unfinished fresh) s.connected s.connecting s.finished
        (unfinished fresh)
      refine ⟨opened.onConnect status (unfinished fresh) (.inl (opens fresh))
        (fun closing => by rw [opens fresh] at closing; cases closing),
        waiting_onConnect fun _ closing => ?_⟩
      rw [opens fresh] at closing
      cases closing
  | stop => exact ⟨orderly.onStop usable, waiting.keeps (.inl onStop_down)⟩
  | send => exact ⟨orderly.onSend _, waiting.keeps (keeps_onSend _)⟩
  | callbacks => exact ⟨{ orderly with }, waiting⟩
  | @connect status idle connecting cancelled =>
      have phase := orderly.connecting connecting
      have going := Bool.eq_false_iff.mpr (orderly.unfinished (.inr (.inl connecting)))
      have settled : { s with connecting := false : Connection }.Orderly :=
        { orderly with
          finished := fun now => by rw [show s.finished = true from now] at going; cases going
          connecting := fun now => by cases now
          cancelled := fun up closing => ⟨idle.2, rfl⟩ }
      refine ⟨settled.onConnect status going phase fun _ => ⟨idle.2, rfl⟩,
        waiting_onConnect fun success closing => ?_⟩
      exact cancelled (Uv.Handle.isClosing_iff.mpr (.inl closing)) success
  | read idle reading => exact ⟨orderly.onRead usable _, waiting.keeps (keeps_onRead _)⟩
  | @write status wr buf rest idle outstanding =>
      obtain rfl := orderly.last outstanding
      have taken : { s with outstanding := [] : Connection }.Orderly :=
        { orderly with
          single := .inl rfl
          writing := fun now => absurd idle.2 now }
      have going : s.connected = true → s.finished = false := fun up =>
        Bool.eq_false_iff.mpr (orderly.unfinished (.inl up))
      have waiting' : { s with outstanding := [] : Connection }.Waiting := waiting
      exact ⟨taken.onWrite usable (steady idle) idle.2 rfl
        (fun up => orderly.nonempty (going up) outstanding) status wr,
        waiting'.keeps (keeps_onWrite status wr)⟩
  | closed idle closing settled free =>
      have down : s.connected = false := by
        by_contra up
        exact steady idle (by simpa using up) closing
      have queued : { s with handle := s.handle.deliver : Connection }.Queued :=
        { orderly.toQueued with }
      refine ⟨queued.onClose down settled idle.2 (.inr (Uv.Handle.deliver_closing closing)),
        fun up => ?_⟩
      rw [show s.connected = true from up] at down
      cases down
  | returned stack other =>
      refine ⟨{ orderly with }, fun up closing => ?_⟩
      have member := waiting up closing
      rw [stack] at member
      exact (List.mem_cons.mp member).resolve_left other.symm
  | failed stack =>
      have popped : ∀ rest, { s with stack := rest : Connection }.Orderly := fun _ =>
        { orderly with }
      refine ⟨(popped _).onStop usable, fun up => ?_⟩
      rw [onStop_down] at up
      cases up
  | @written wr status stack writing =>
      have running : s.writing ≠ none := by simp [writing]
      obtain ⟨nonempty, free⟩ := orderly.writing running
      have going := Bool.eq_false_iff.mpr (orderly.unfinished (.inr (.inr (.inl running))))
      have returned : { s with writing := none : Connection }.Orderly :=
        { orderly with
          finished := fun now => by rw [show s.finished = true from now] at going; cases going
          cancelled := fun up closing => absurd (orderly.cancelled up closing).1 running
          writing := fun now => absurd rfl now }
      have waiting' : { s with writing := none : Connection }.Waiting := waiting
      exact ⟨returned.written usable rfl going free nonempty status wr,
        waiting'.keeps (keeps_written status wr)⟩

/-- Before the start no callback is running. -/
theorem Initial.orderly (initial : s.Initial) : s.Orderly where
  finished now := by simp [initial.finished] at now
  closed now := by simp [initial.handle, Uv.Handle.fresh] at now
  connecting now := by simp [initial.connecting] at now
  cancelled now := by simp [initial.connected] at now
  started now := by simp [initial.connected] at now
  split := by simp [initial.accepted, initial.gone, initial.buffers]
  front _ := by simp [initial.passed, initial.gone, initial.buffers]
  ordered := by simp [initial.passed, initial.accepted]
  single := .inl initial.outstanding
  writing now := absurd initial.writing now
  bounded := by simp [initial.buffers]
  sound := initial.fault

/-- Before the start no request is under way. -/
theorem Initial.waiting (initial : s.Initial) : s.Waiting := by
  intro up
  simp [initial.connected] at up

end Connection

end Sdpf.Tcp
