import Sdpf.Client.Outstanding

/-!
# Sessions of a client channel

`TcpConnection` accepts sends from `on_start` on, before the result of the connect is
known, while `RpcChannel` has `on_close` called only once a connect has succeeded. A call
accepted in between is left in the table when the connect fails or is cancelled:
`settled_iff` shows that this is the only way.
-/

namespace Sdpf.Client

open Sdpf.Data Sdpf.Channel Sdpf.Semantics

/-- What the `uv_tcp_t` of a connection is going through. -/
inductive Handle where
  /-- Not started, or closed again. -/
  | fresh
  | connecting
  /-- The connect has failed; `on_connect` has yet to call `on_stop`. -/
  | failing
  | opened
  /-- `uv_close` has been called, with or without a connect to be cancelled first. -/
  | closing (connecting : Bool)
  /-- The connect has been cancelled; `on_connect` has yet to call `on_stop`. -/
  | cancelled
deriving DecidableEq, Repr

/-- A client channel and its `TcpConnection`. -/
structure Session where
  world : World
  /-- `close_cb_` has been set to `on_close` of the channel. -/
  closeCb : Bool
  /-- `handle_.data` points to the connection. Nothing initialises it. -/
  data : Bool
  handle : Handle

/-- A step of a call or of the response processing, or an event of the connection. -/
inductive Event where
  | call (action : Action)
  /-- `on_start`; the connect may fail at once. -/
  | start (failed : Bool)
  /-- `on_connect` with the result of the connect. -/
  | connect (ok : Bool)
  /-- `on_stop`, called by the user, after a failed connect or read, or by `on_connect`. -/
  | stop
  /-- `on_connect` with `UV_ECANCELED`. -/
  | cancel
  /-- The callback of `uv_close`. -/
  | closed
deriving DecidableEq, Repr

namespace Session

variable (calls : Nat → Call) (s : Session)

def setConnected (up : Bool) : Session :=
  { s with world := { s.world with ch := { s.world.ch with connected := up } } }

/-- `TcpConnectionImp::on_close`, between two responses. -/
def onClose : Option Session :=
  if s.world.phase ≠ .idle then
    none
  else if s.closeCb then
    (s.world.step calls .close).map fun world => { s with world := world }
  else
    some s

/-- `TcpConnectionImp::on_stop`. -/
def onStop : Option Session :=
  if s.world.ch.connected = false then
    some s
  else
    match s.handle with
    | .fresh => none
    | .connecting => some { s.setConnected false with handle := .closing true }
    | .failing | .opened => some { s.setConnected false with handle := .closing false }
    -- `uv_is_closing`: the callback is run at once.
    | .closing _ => (s.setConnected false).onClose calls
    | .cancelled =>
        ((s.setConnected false).onClose calls).map fun s => { s with handle := .closing false }

/-- Responses are read from an open connection; the connection's own events are not
actions of a call. -/
def Admits : Action → Prop
  | .respond _ _ _ => s.handle = .opened
  | .connection _ | .close => False
  | _ => True

instance (action : Action) : Decidable (s.Admits action) := by
  cases action <;> unfold Admits <;> infer_instance

/-- Take a step, if it is enabled. -/
def step : Event → Option Session
  | .call action =>
      if s.Admits action then
        (s.world.step calls action).map fun world => { s with world := world }
      else
        none
  | .start failed =>
      if s.world.ch.connected then
        some s
      else if s.handle ≠ .fresh then
        none
      else
        some { s.setConnected true with handle := if failed then .failing else .connecting }
  | .connect ok =>
      if s.handle ≠ .connecting then
        none
      else if ok then
        some { s.setConnected true with closeCb := true, data := true, handle := .opened }
      else
        some { s.setConnected true with handle := .failing }
  | .stop => s.onStop calls
  | .cancel =>
      if s.handle ≠ .closing true then
        none
      else
        some { s.setConnected true with handle := .cancelled }
  | .closed =>
      -- The callback finds the connection through `handle_.data`.
      if s.handle ≠ .closing false ∨ s.data = false then
        none
      else
        (s.onClose calls).map fun s => { s with handle := .fresh }

/-- A channel that has not been started. -/
structure Initial : Prop where
  world : s.world.Initial
  connected : s.world.ch.connected = false
  closeCb : s.closeCb = false
  handle : s.handle = .fresh

/-- The step runs `TcpConnectionImp::on_close`. -/
def Closes : Event → Prop
  | .closed => True
  | .stop => s.world.ch.connected = true ∧
      (s.handle = .cancelled ∨ ∃ pending, s.handle = .closing pending)
  | _ => False

/-- No request is left, and every call that returned 0 has had its callback run. -/
def Settled : Prop :=
  s.world.ch.requests = ∅ ∧ ∀ n, s.world.pc n = .returned 0 → s.world.Fired n

/-- No id is registered while it is in use. -/
def Unused : Event → Prop
  | .call action => s.world.Unused action
  | _ => True

end Session

/-- The machine of all sessions of a channel. -/
def sessionMachine (calls : Nat → Call) : Machine Session Event where
  Initial := Session.Initial
  step := Session.step calls

namespace Session

/-- What is known of the channel throughout its sessions. -/
structure Sound (calls : Nat → Call) (s : Session) : Prop where
  client : s.world.ch.serving = false
  done : ∀ n, (s.world.ch.ctrls (calls n).ctrl).done = true
  outstanding : s.world.Outstanding calls

variable {calls : Nat → Call} {s next : Session}

/-- Clearing or setting `connected_` touches no request. -/
theorem Sound.setConnected (sound : s.Sound calls) (up : Bool) :
    (s.setConnected up).Sound calls := by
  have unused : s.world.Unused (.connection up) := trivial
  exact ⟨sound.client, sound.done, sound.outstanding.step sound.client sound.done unused rfl⟩

/-- The world of a session takes a step. -/
theorem Sound.world {action : Action} {world : World} (sound : s.Sound calls)
    (unused : s.world.Unused action) (transition : s.world.step calls action = some world) :
    ({ s with world := world } : Session).Sound calls := by
  refine ⟨World.step_client transition sound.client, fun n => ?_,
    sound.outstanding.step sound.client sound.done unused transition⟩
  exact (World.step_done transition _).trans (sound.done n)

/-- `on_close` completes what is outstanding. -/
theorem Sound.onClose (sound : s.Sound calls) (closed : s.onClose calls = some next) :
    next.Sound calls := by
  unfold Session.onClose at closed
  split_ifs at closed
  · obtain ⟨world, transition, rfl⟩ := Option.map_eq_some_iff.mp closed
    have unused : s.world.Unused .close := trivial
    exact sound.world unused transition
  · cases closed
    exact sound

/-- `on_stop` leaves the requests to `on_close`. -/
theorem Sound.onStop (sound : s.Sound calls) (stopped : s.onStop calls = some next) :
    next.Sound calls := by
  have down := sound.setConnected false
  unfold Session.onStop at stopped
  split_ifs at stopped
  · cases stopped
    exact sound
  · split at stopped
    · cases stopped
    · cases stopped
      exact ⟨down.client, down.done, down.outstanding⟩
    · cases stopped
      exact ⟨down.client, down.done, down.outstanding⟩
    · cases stopped
      exact ⟨down.client, down.done, down.outstanding⟩
    · exact down.onClose stopped
    · obtain ⟨closed, ran, rfl⟩ := Option.map_eq_some_iff.mp stopped
      have after := down.onClose ran
      exact ⟨after.client, after.done, after.outstanding⟩

/-- A step keeps the sessions of a channel in order. -/
theorem Sound.step {event : Event} (sound : s.Sound calls) (unused : s.Unused event)
    (transition : s.step calls event = some next) : next.Sound calls := by
  cases event with
  | call action =>
      simp only [Session.step] at transition
      split_ifs at transition
      obtain ⟨world, moved, rfl⟩ := Option.map_eq_some_iff.mp transition
      exact sound.world unused moved
  | start failed =>
      simp only [Session.step] at transition
      split_ifs at transition <;> cases transition
      · exact sound
      · have up := sound.setConnected true
        exact ⟨up.client, up.done, up.outstanding⟩
      · have up := sound.setConnected true
        exact ⟨up.client, up.done, up.outstanding⟩
  | connect ok =>
      have up := sound.setConnected true
      simp only [Session.step] at transition
      split_ifs at transition <;> cases transition <;>
        exact ⟨up.client, up.done, up.outstanding⟩
  | stop => exact sound.onStop transition
  | cancel =>
      have up := sound.setConnected true
      simp only [Session.step] at transition
      split_ifs at transition
      cases transition
      exact ⟨up.client, up.done, up.outstanding⟩
  | closed =>
      simp only [Session.step] at transition
      split_ifs at transition
      obtain ⟨closed, ran, rfl⟩ := Option.map_eq_some_iff.mp transition
      have after := sound.onClose ran
      exact ⟨after.client, after.done, after.outstanding⟩

/-- `on_close` of the connection settles everything if the channel gets to know of it or
has nothing outstanding. -/
theorem Sound.settled_onClose (sound : s.Sound calls) (closed : s.onClose calls = some next) :
    next.Settled ↔ s.closeCb = true ∨ s.world.ch.requests = ∅ := by
  unfold Session.onClose at closed
  split_ifs at closed with busy installed
  · obtain ⟨world, transition, rfl⟩ := Option.map_eq_some_iff.mp closed
    refine iff_of_true ?_ (.inl installed)
    cases World.step_transition transition with
    | closed was =>
        refine ⟨rfl, fun n returned => ?_⟩
        exact sound.outstanding.closed sound.client sound.done was (.inr returned)
  · cases closed
    constructor
    · exact fun settled => .inr settled.1
    · rintro (set | empty)
      · exact absurd set installed
      · refine ⟨empty, fun n returned => ?_⟩
        rcases sound.outstanding.kept n (.inr returned) with (fired | completing) |
          ⟨id, stored, _⟩
        · exact fired
        · simp [World.Completing, not_not.mp busy] at completing
        · rw [empty] at stored
          exact absurd stored (AList.notMem_empty id)

/-- When `on_close` of the connection has run, nothing is left behind exactly if the
close callback was installed or the table was empty. -/
theorem settled_iff {start : Session} {events : List Event} {event : Event}
    (initial : start.Initial)
    (callbacks : ∀ n, (start.world.ch.ctrls (calls n).ctrl).done = true)
    (runs : (sessionMachine calls).Runs start events s)
    (unused : (sessionMachine calls).Along Unused start events)
    (transition : s.step calls event = some next) (closes : s.Closes event) :
    next.Settled ↔ s.closeCb = true ∨ s.world.ch.requests = ∅ := by
  have sound : s.Sound calls := runs.guarded (Sound calls) (fun sound => sound.step)
    ⟨initial.world.client, callbacks, .of_initial initial.world⟩ unused
  cases event with
  | closed =>
      simp only [step] at transition
      split_ifs at transition
      obtain ⟨closed, ran, rfl⟩ := Option.map_eq_some_iff.mp transition
      have settled := sound.settled_onClose ran
      exact settled
  | stop =>
      obtain ⟨connected, closing⟩ := closes
      have down := sound.setConnected false
      simp only [step, onStop, connected, Bool.true_eq_false, if_false] at transition
      rcases closing with now | ⟨pending, now⟩ <;> rw [now] at transition
      · obtain ⟨closed, ran, rfl⟩ := Option.map_eq_some_iff.mp transition
        have settled := down.settled_onClose ran
        exact settled
      · exact down.settled_onClose transition
  | _ => exact closes.elim

/-- No session yet; the first connect will set `handle_.data`. -/
def fresh : Session := ⟨.fresh false, false, false, .fresh⟩

/-- A channel that has not been started is an initial session. -/
theorem fresh_initial : fresh.Initial := ⟨World.fresh_initial false, rfl, rfl, rfl⟩

/-- A call made while connecting, in a session that is established and ends. -/
theorem settled_iff_established :
    ∃ s next, (sessionMachine plainCalls).Runs fresh
        [.start false, .call (.check 0), .call (.mark 0), .call (.register 0),
          .call (.send 0 0), .connect true, .stop] s ∧
      s.step plainCalls .closed = some next ∧
      (next.Settled ↔ s.closeCb = true ∨ s.world.ch.requests = ∅) := by
  have runs : (sessionMachine plainCalls).Runs fresh
      [.start false, .call (.check 0), .call (.mark 0), .call (.register 0),
        .call (.send 0 0), .connect true, .stop] _ := .of_run rfl
  have closes : ∀ s : Session, s.Closes .closed := fun _ => trivial
  refine ⟨_, _, runs, rfl, settled_iff fresh_initial (fun _ => rfl) runs ?_ rfl (closes _)⟩
  refine .cons trivial rfl (.cons trivial rfl (.cons trivial rfl (.cons ?_ rfl ?_)))
  · rintro id ⟨rfl⟩
    refine ⟨AList.notMem_empty 1, fun m other inFlight => ?_⟩
    have waiting :
        Function.update (Function.update (fun _ : Nat => Pc.idle) 0 .checked) 0 .marked m = .idle := by
      simp [other]
    rcases inFlight with now | now | now <;> cases waiting.symm.trans now
  · exact .cons trivial rfl (.cons trivial rfl (.cons trivial rfl trivial))

/-- A call made while connecting is left behind when the user stops the channel before
the connect has succeeded. -/
theorem not_settled :
    ¬ ∀ (calls : Nat → Call) (start s next : Session) (events : List Event) (event : Event),
      start.Initial → (∀ n, (start.world.ch.ctrls (calls n).ctrl).done = true) →
      (sessionMachine calls).Runs start events s → s.step calls event = some next →
      s.Closes event → next.Settled := by
  intro settled
  have left := (settled plainCalls fresh _ _
    [.start false, .call (.check 0), .call (.mark 0), .call (.register 0), .call (.send 0 0),
      .stop, .cancel] .stop fresh_initial (fun _ => rfl) (.of_run rfl) rfl ⟨rfl, .inl rfl⟩).1
  exact absurd (congrArg AList.entries left) (by decide)

end Session

end Sdpf.Client
