import Sdpf.Server.Notify.Registries

/-!
# Notifications

What a step does to the table of a channel is one of three things (`TableStep`): the first
registration for a service enters it, `on_close` empties it, and everything else leaves it
alone. A notification therefore goes once to each channel that has registered for its
service and is open, under the id of its first registration (`notified_once`).
-/

namespace Sdpf.Server

open Sdpf.Data Sdpf.Buffer Sdpf.Msgpack Sdpf.Channel Sdpf.Semantics

namespace RpcServer

variable {codec : Codec} {s next : RpcServer}

/-- What a step does to the table of a channel: the first registration for a service enters it,
under an id that is not in the table; `on_close` empties the table; ordinary requests,
repeated registrations and all other steps leave it alone. -/
inductive TableStep (s : RpcServer) (c : Nat) (after : AList fun _ : UInt32 => Nat) :
    ServerAction → Prop where
  | kept {action : ServerAction} (stays : action ≠ .close c)
      (repeated : ∀ r index, action = .request c r →
        ((s.chn c).withServices s.services).ch.Registers r index →
        ∃ id, (s.chn c).table.lookup id = some index)
      (same : after = (s.chn c).table) : TableStep s c after action
  | registered {r : Request} {index : Nat}
      (registers : ((s.chn c).withServices s.services).ch.Registers r index)
      (first : ∀ id, (s.chn c).table.lookup id ≠ some index) (fresh : r.id ∉ (s.chn c).table)
      (entered : after = (s.chn c).table.insert r.id index) :
      TableStep s c after (.request c r)
  | closed (empty : after = ∅) : TableStep s c after (.close c)

/-- How a step changes one channel. -/
inductive ChannelStep (codec : Codec) (s : RpcServer) (c : Nat) (after : ServedChannel) :
    ServerAction → Prop where
  | quiet {action : ServerAction} (stays : action ≠ .close c)
      (silent : ∀ r, action ≠ .request c r) (table : after.table = (s.chn c).table)
      (requests : after.session.requests = (s.chn c).session.requests) :
      ChannelStep codec s c after action
  | request {r : Request} (taken : (s.chn c).request codec s.services r = some after) :
      ChannelStep codec s c after (.request c r)
  | close (is : after = (s.chn c).onClose) : ChannelStep codec s c after (.close c)

/-- Publishing touches no session. -/
theorem notifyAll_session (s : RpcServer) (service : Nat) (msg : Option AnyMessage) (c : Nat) :
    ((s.notifyAll codec service msg).chn c).session = (s.chn c).session := by
  unfold notifyAll
  generalize s.channels = channels
  induction channels generalizing s with
  | nil => rfl
  | cons first rest ih =>
      rw [List.foldl_cons, ih, put_chn]
      split_ifs with same
      · rw [same]
        exact (ServedChannel.notify_cases ..).2.2.1
      · rfl

/-- What a step of the server does to one of its channels. -/
theorem step_chn {action : ServerAction} (transition : s.step codec action = some next) (c : Nat) :
    ChannelStep codec s c (next.chn c) action := by
  cases action with
  | registerService svc =>
      cases transition
      exact .quiet (by simp) (by simp) rfl rfl
  | alloc =>
      cases transition
      exact .quiet (by simp) (by simp) rfl rfl
  | accept other ok =>
      simp only [RpcServer.step, Option.ite_none_right_eq_some] at transition
      obtain ⟨_, transition⟩ := transition
      split_ifs at transition <;> cases transition
      · rw [put_chn]
        split_ifs with same
        · subst same
          exact .quiet (by simp) (by simp) rfl rfl
        · exact .quiet (by simp) (by simp) rfl rfl
      · exact .quiet (by simp) (by simp) rfl rfl
  | request other r =>
      simp only [RpcServer.step, Option.ite_none_right_eq_some] at transition
      obtain ⟨_, transition⟩ := transition
      obtain ⟨chn, taken, rfl⟩ := Option.map_eq_some_iff.mp transition
      rw [put_chn]
      split_ifs with same
      · subst same
        exact .request taken
      · exact .quiet (by simp) (by simp [Ne.symm same]) rfl rfl
  | done other number response failed =>
      simp only [RpcServer.step] at transition
      obtain ⟨chn, taken, rfl⟩ := Option.map_eq_some_iff.mp transition
      obtain ⟨_, _, requests, table, _⟩ := ServedChannel.done_cases taken
      rw [put_chn]
      split_ifs with same
      · subst same
        exact .quiet (by simp) (by simp) table requests
      · exact .quiet (by simp) (by simp) rfl rfl
  | stop other =>
      simp only [RpcServer.step, Option.ite_none_right_eq_some, Option.some.injEq] at transition
      obtain ⟨_, rfl⟩ := transition
      rw [put_chn]
      split_ifs with same
      · subst same
        exact .quiet (by simp) (by simp) rfl rfl
      · exact .quiet (by simp) (by simp) rfl rfl
  | close other =>
      simp only [RpcServer.step, Option.ite_none_right_eq_some, Option.some.injEq] at transition
      obtain ⟨_, rfl⟩ := transition
      rw [put_chn]
      split_ifs with same
      · subst same
        exact .close rfl
      · exact .quiet (by simp [Ne.symm same]) (by simp) rfl rfl
  | notifyAll service msg =>
      cases transition
      have session := @notifyAll_session codec s service msg c
      exact .quiet (by simp) (by simp) (by rw [ServedChannel.table, session]) (by rw [session])

/-- The ids that came in were different before a step if they are after it. -/
theorem step_distinct {action : ServerAction} (transition : s.step codec action = some next)
    {c : Nat} (distinct : (next.chn c).Distinct) : (s.chn c).Distinct := by
  unfold ServedChannel.Distinct at distinct ⊢
  cases step_chn transition c with
  | quiet stays silent table requests => rwa [requests] at distinct
  | request taken =>
      obtain ⟨_, _, requests, _⟩ := ServedChannel.request_cases taken
      rw [requests, List.map_append] at distinct
      exact (List.nodup_append.mp distinct).1
  | close is =>
      rw [is] at distinct
      exact distinct

/-- The requests a channel has received are those sent to it. -/
theorem requests_of_runs {start : RpcServer} {actions : List ServerAction}
    (initial : start.Initial) (runs : (serverMachine codec).Runs start actions s) (c : Nat) :
    (s.chn c).session.requests = actions.filterMap (ServerAction.requestTo c) := by
  induction runs with
  | refl =>
      rw [initial.chn]
      rfl
  | @step actions state action next prior transition ih =>
      rw [List.filterMap_append, ← ih]
      cases step_chn transition c with
      | quiet stays silent table requests =>
          rw [requests]
          cases action with
          | request other r =>
              have elsewhere : other ≠ c := fun same => silent r (by rw [same])
              simp [ServerAction.requestTo, elsewhere]
          | _ => simp [ServerAction.requestTo]
      | request taken =>
          obtain ⟨_, _, requests, _⟩ := ServedChannel.request_cases taken
          rw [requests]
          simp [ServerAction.requestTo]
      | close is =>
          rw [is]
          simp [ServerAction.requestTo, ServedChannel.onClose]

/-- All registries are kept in every state a server can be in. -/
theorem registries_of_reachable (reachable : (serverMachine codec).Reachable s)
    (distinct : ∀ c, (s.chn c).Distinct) : s.Registries := by
  refine reachable.invariant
    (fun s => (∀ c, (s.chn c).Distinct) → s.Registries) ?_ ?_ distinct
  · exact fun start initial _ => .of_initial initial
  · exact fun known transition later =>
      (known fun c => step_distinct transition (later c)).step later transition

/-- A step changes the table of a channel by a new registration, or empties it. -/
theorem Registries.tableStep {action : ServerAction} (registries : s.Registries)
    (transition : s.step codec action = some next) {c : Nat} (distinct : (next.chn c).Distinct) :
    TableStep s c (next.chn c).table action := by
  cases step_chn transition c with
  | quiet stays silent table =>
      exact .kept stays (fun r _ is => absurd is (silent r)) table
  | @request r taken =>
      obtain ⟨_, _, requests, shape⟩ := ServedChannel.request_cases taken
      rcases shape with ⟨ordinary, table, _⟩ | ⟨index, registers, _, table⟩
      · refine .kept (by simp) (fun other index is registers => ?_) table
        cases is
        exact absurd registers (ordinary index)
      rcases ServedChannel.registerNotify_cases ((s.chn c).withServices s.services).ch r.id index
        with ⟨repeated, same⟩ | ⟨first, entered⟩
      · refine .kept (by simp) (fun other otherIndex is also => ?_) (table.trans same)
        cases is
        obtain ⟨_, svc, found, _⟩ := registers
        obtain ⟨_, otherSvc, again, _⟩ := also
        rw [found] at again
        cases again
        exact repeated
      · refine .registered registers first (fun member => ?_) (table.trans entered)
        obtain ⟨service, stored⟩ := Option.isSome_iff_exists.mp (AList.lookup_isSome.mpr member)
        have received := (registries.registry c).received stored
        unfold ServedChannel.Distinct at distinct
        rw [requests, List.map_append, List.nodup_append] at distinct
        exact distinct.2.2 _ received _ (by simp) rfl
  | close is => exact .closed (by rw [is]; rfl)

/-- Every channel has each service at most once in its table; only a first registration
adds to a table, and only `on_close` takes from it; and `notify_all` hands one packet to each
channel that is subscribed, with the id of its first registration, and none to the others. -/
theorem notified_once (law : codec.Lawful) (reachable : (serverMachine codec).Reachable s)
    (distinct : ∀ c, (s.chn c).Distinct) :
    (∀ c first second service, (s.chn c).table.lookup first = some service →
      (s.chn c).table.lookup second = some service → first = second) ∧
    (∀ action next c, (serverMachine codec).step s action = some next → (next.chn c).Distinct →
      TableStep s c (next.chn c).table action) ∧
    ∀ service msg c,
      (∀ id, (s.chn c).Subscribed service id →
        Serializes codec (responseMeta id 0) (some msg) →
        ∃ pb, buildAny codec (responseMeta id 0) (some msg) = .ok pb ∧
          ResponseFrame codec id 0 pb.readable ∧
          ((s.notifyAll codec service (some msg)).chn c).notified = (s.chn c).notified ++ [pb]) ∧
      ((∀ id, ¬ (s.chn c).Subscribed service id) →
        ((s.notifyAll codec service (some msg)).chn c).notified = (s.chn c).notified) := by
  have registries := registries_of_reachable reachable distinct
  refine ⟨fun c first second service one two => ?_, fun action next c transition later => ?_,
    fun service msg c => ⟨fun id subscribed serializes => ?_, fun unsubscribed => ?_⟩⟩
  · have same := (registries.registry c).sound first service one
    rw [(registries.registry c).sound second service two] at same
    exact (Option.some.inj same).symm
  · exact registries.tableStep transition later
  · have serving := registries.serving c subscribed.1
    rw [registries.notifyAll_chn, if_pos (registries.present c serving)]
    exact (registries.registry c).notify_subscribed law serving subscribed serializes
  · rw [registries.notifyAll_chn]
    split_ifs
    · exact (registries.registry c).notify_other unsubscribed (some msg)
    · rfl

/-- A server without services and channels. -/
def idle : RpcServer := ⟨[], [], 0, fun _ => .blank⟩

/-- A message of one byte. -/
private def news : AnyMessage := (RpcMessage.byte 7).any

/-- A request to be notified by the service "a". -/
private def subscription (id : UInt32) : Request :=
  ⟨true, id, CStr.ofBlock [0x61], methodNotify, []⟩

/-- Two channels register for the service, one of them twice; the other is closed. -/
private def oneCloses : List ServerAction :=
  [.registerService ⟨CStr.ofBlock [0x61], fun _ => 0, fun _ => none, fun _ => none⟩,
    .alloc, .accept 0 true, .alloc, .accept 1 true, .request 0 (subscription 5),
    .request 1 (subscription 5), .request 0 (subscription 6), .stop 1, .close 1]

/-- The channel that is left is handed one packet, with the id of its first registration, and
the one that has been closed none. -/
theorem notified_once_closed :
    ∃ s, (serverMachine Wire.codec).Runs idle oneCloses s ∧ (s.chn 1).table.entries.length = 0 ∧
      (∃ pb, ResponseFrame Wire.codec 5 0 pb.readable ∧
        ((s.notifyAll Wire.codec 0 (some news)).chn 0).notified = (s.chn 0).notified ++ [pb]) ∧
      ((s.notifyAll Wire.codec 0 (some news)).chn 1).notified = (s.chn 1).notified := by
  have executed : ((serverMachine Wire.codec).run idle oneCloses).map
      (fun s => ((s.chn 0).connected, firstOf (s.chn 0).registrations 0, (s.chn 1).connected,
        (s.chn 1).table.entries.length)) = some (true, some 5, false, 0) := by decide +kernel
  obtain ⟨s, runs, seen⟩ := Machine.Runs.of_map executed
  simp only [Prod.mk.injEq] at seen
  obtain ⟨connected, first, down, emptied⟩ := seen
  have initial : idle.Initial := ⟨rfl, rfl, fun _ => rfl⟩
  have distinct : ∀ c, (s.chn c).Distinct := by
    intro c
    rw [ServedChannel.Distinct, requests_of_runs initial runs]
    rcases c with _ | _ | c
    · decide +kernel
    · decide +kernel
    · exact List.nodup_nil
  have publishes := (notified_once Wire.codec_lawful ⟨_, _, initial, runs⟩ distinct).2.2 0 news
  refine ⟨s, runs, emptied, ?_, ?_⟩
  · obtain ⟨pb, _, frame, handed⟩ := (publishes 0).1 5 ⟨connected, first⟩ fun msg is => by
      cases is
      decide +kernel
    exact ⟨pb, frame, handed⟩
  · exact (publishes 1).2 fun id subscribed => by
      rw [subscribed.1] at down
      cases down

end RpcServer

end Sdpf.Server
