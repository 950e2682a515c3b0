import Sdpf.Network.Fate

/-!
# What is published is heard

Each response or notification that comes back for a call runs its callback on the client, so
that what is published for a service is heard by the call it is registered under, in order
and once (`published_heard`).
-/

namespace Sdpf.Network

open Sdpf.Data Sdpf.Msgpack Sdpf.Channel Sdpf.Semantics Sdpf.Client
open Sdpf.Server (Invocation Completion Handling)

namespace Feed

variable {codec : Codec} {calls : Nat → Call} {w next : Feed} {n : Nat} {id : UInt32}

/-- A drawn id does not wrap. -/
def Unwrapped (w : Feed) : FeedMove → Prop
  | .exchange move => w.exchange.Unwrapped move
  | .notify _ _ _ => True

/-- A move keeps what was published, what is on its way and what was heard in step. -/
theorem Fed.step {move : FeedMove} (fed : w.Fed codec calls)
    (apart : Function.Injective fun n => (calls n).ctrl) (unwrapped : w.Unwrapped move)
    (transition : w.step codec calls move = some next) : next.Fed codec calls := by
  cases step_transition transition with
  | @client action client here moved =>
      have unclosed : action ≠ .close := by
        rintro rfl
        cases here
      have silent : ∀ id, responses id [action] = [] := by
        intro id
        cases action with
        | respond => cases here
        | _ => rfl
      refine fed.client apart unclosed moved ?_ (fun _ _ _ _ member => .inl member) ?_
      · refine fed.wired.client apart unwrapped unclosed ?_ ?_ moved
        · rintro id code body rfl
          cases here
        · rintro n ret rfl
          cases here
      · intro id
        rw [silent, List.nil_append]
  | @send n id conn client drew moved =>
      refine fed.client apart (by simp) moved (fed.wired.send apart drew moved) ?_ fun _ => rfl
      intro m other accepted drawn member
      rw [List.map_append, List.mem_append] at member
      refine member.imp (fun before => before) fun added => ?_
      obtain ⟨packet, sent, same⟩ := List.mem_map.mp added
      obtain ⟨-, rfl⟩ := mem_transmit sent
      obtain ⟨was, kept⟩ := World.step_send moved
      rw [kept] at drawn
      obtain rfl : id = other := same
      obtain rfl := fed.wired.attributed.distinct m n id drawn drew
      exact was
  | refused queue => exact fed.refuse queue
  | registered queue notify found => exact fed.register queue notify found
  | invoked queue same => exact fed.invoke queue same
  | answered found => exact fed.complete found
  | @delivered id code text body rest client queue moved =>
      have sent : ∃ n, w.exchange.Sent n id := by
        obtain ⟨n, _, _, _, _, same, before⟩ :=
          fed.wired.responses _ (queue ▸ List.mem_cons_self)
        cases same
        exact ⟨n, before⟩
      have unwrapped : w.exchange.client.Unwrapped (.respond id code body) := trivial
      refine fed.client apart (by simp) moved ?_ (fun _ _ _ _ member => .inl member) ?_
      · have wired := fed.wired.client apart unwrapped (by simp)
          (by rintro _ _ _ ⟨rfl, rfl, rfl⟩; exact sent) (by simp) moved
        refine { wired with responses := ?_ }
        exact fun packet member => wired.responses packet (queue ▸ List.mem_cons_of_mem _ member)
      · intro other
        simp only [Exchange.inFlight, queue, responses, List.filterMap_cons, List.filterMap_nil]
        by_cases same : id = other <;> simp [same]
  | silent => exact fed
  | published stored => exact fed.publish stored

/-- A move draws one id at most. -/
theorem step_id {move : FeedMove} (transition : w.step codec calls move = some next) :
    next.exchange.client.ch.id.toNat ≤
      w.exchange.client.ch.id.toNat + if move.draws then 1 else 0 := by
  cases move with
  | exchange move =>
      obtain ⟨exchange, moved, rfl⟩ := Option.map_eq_some_iff.mp transition
      exact Exchange.step_id moved
  | notify service msg conn =>
      simp only [Feed.step] at transition
      split at transition <;> cases transition <;> exact Nat.le_add_right _ _

/-- The counter has moved on by the draws of the run at most. -/
theorem runs_id {start : Feed} {moves : List FeedMove} (initial : start.Initial)
    (runs : (feedMachine codec calls).Runs start moves w) :
    w.exchange.client.ch.id.toNat ≤ moves.countP FeedMove.draws := by
  induction runs with
  | refl => simp [initial.exchange.client.id]
  | @step moves state move next prior transition ih =>
      have moved := step_id transition
      rw [List.countP_append, List.countP_singleton]
      omega

/-- Without a wrap every run keeps them in step. -/
theorem runs_fed {start : Feed} {moves : List FeedMove}
    (apart : Function.Injective fun n => (calls n).ctrl) (initial : start.Initial)
    (runs : (feedMachine codec calls).Runs start moves w)
    (few : moves.countP FeedMove.draws < 2 ^ 32) : w.Fed codec calls := by
  refine runs.guarded (Fed codec calls) (fun fed unwrapped => fed.step apart unwrapped)
    (.of_initial initial) (runs.along_of fun {before state move after} prior same => ?_)
  have drawn := runs_id initial prior
  cases move with
  | exchange move =>
      cases move with
      | call action =>
          cases action with
          | mark n =>
              rw [same, List.countP_append, List.countP_cons_of_pos rfl] at few
              simp only [Unwrapped, Exchange.Unwrapped, World.Unwrapped]
              omega
          | _ => trivial
      | _ => trivial
  | notify => trivial

/-- The callback of the call that registered a service is run once for each notification
published for it, in that order and with its body, apart from those still on their way. A
service nobody has registered publishes nothing, and of the notification calls that the
server has not registered none has its callback run twice. -/
theorem published_heard {start finish : Feed} {moves : List FeedMove}
    (apart : Function.Injective fun n => (calls n).ctrl) (initial : start.Initial)
    (runs : (feedMachine codec calls).Runs start moves finish)
    (few : moves.countP FeedMove.draws < 2 ^ 32) :
    (∀ id service, finish.exchange.server.requests.lookup id = some service →
      ∃ n svc, (calls n).IsNotify ∧ finish.exchange.Sent n id ∧
        finish.exchange.server.findSvc (nameField (calls n).service).text = some (svc, service) ∧
        finish.exchange.client.firings n ++ finish.exchange.client.imminent calls n ++
            (finish.exchange.inFlight id).map (completion calls n) =
          (finish.publishedBy service).map fun body => completion calls n (0, body)) ∧
    (∀ service, (∀ id, finish.exchange.server.requests.lookup id ≠ some service) →
      finish.publishedBy service = []) ∧
    ∀ n id, (calls n).IsNotify → finish.exchange.Sent n id →
      finish.exchange.server.requests.lookup id = none →
        (finish.exchange.client.firings n).length ≤ 1 := by
  have fed := runs_fed apart initial runs few
  refine ⟨?_, fed.unpublished, ?_⟩
  · intro id service stored
    obtain ⟨n, svc, notify, sent, found⟩ := fed.wired.subscribed id service stored
    obtain ⟨arrived, tracks, fate⟩ := fed.heard n id notify (.inr sent.1) sent.2
    refine ⟨n, svc, notify, sent, found, ?_⟩
    rw [tracks.notified notify, ← List.map_append, fate.registered service stored, List.map_map]
    rfl
  · intro n id notify sent absent
    obtain ⟨arrived, tracks, fate⟩ := fed.heard n id notify (.inr sent.1) sent.2
    have heard := congrArg List.length (tracks.notified notify)
    have few := fate.alone absent
    simp only [List.length_append, List.length_map] at heard few
    omega

/-- Two channels before the first call, and a service "a" that has published nothing. -/
def fresh : Feed := ⟨.fresh, []⟩

/-- Two channels without calls are an initial feed. -/
theorem fresh_initial : fresh.Initial := ⟨Exchange.fresh_initial, rfl, rfl⟩

/-- A call that registers for "a", and calls that send their number. -/
def listeningCalls (n : Nat) : Call :=
  ⟨CStr.ofBlock [0x61], if n = 0 then methodNotify else CStr.ofBlock [0x62],
    if n = 0 then none else some (.byte (UInt8.ofNat n)), some (.byte 0), n⟩

/-- Three notifications, with the answer to a call between them. The first has been heard,
the second is at hand and the third on its way. -/
def publishing : List FeedMove :=
  [.notify 0 (.byte 6) 0, .exchange (.call (.check 0)), .exchange (.call (.mark 0)),
    .exchange (.call (.register 0)), .exchange (.send 0 0), .exchange (.call (.check 1)),
    .exchange (.call (.mark 1)), .exchange (.call (.register 1)), .exchange (.send 1 0),
    .exchange (.serve true 0), .notify 0 (.byte 7) 0, .exchange (.serve true 0),
    .exchange (.answer 0 (.byte 5) false 0), .notify 0 (.byte 8) 0, .notify 0 (.byte 9) 0,
    .exchange .deliver, .exchange (.call .inspect), .exchange (.call .complete),
    .exchange (.call .remark), .exchange .deliver, .exchange (.call .inspect),
    .exchange (.call .complete), .exchange (.call .remark), .exchange .deliver]

/-- A call is completed between two notifications of the service. -/
theorem published_heard_between :
    ∃ finish, (feedMachine Wire.codec listeningCalls).Runs fresh publishing finish ∧
      finish.exchange.client.fired = [⟨0, 0, 0, [7]⟩, ⟨1, 1, 0, [5]⟩] ∧
      finish.publishedBy 0 = [[7], [8], [9]] ∧
      ∃ n, finish.exchange.client.firings n ++ finish.exchange.client.imminent listeningCalls n ++
          (finish.exchange.inFlight 1).map (completion listeningCalls n) =
        [[7], [8], [9]].map fun body => completion listeningCalls n (0, body) := by
  have ran : ((feedMachine Wire.codec listeningCalls).run fresh publishing).map
      (fun finish => (finish.exchange.client.fired, finish.publishedBy 0,
        finish.exchange.server.requests.lookup 1)) =
      some ([⟨0, 0, 0, [7]⟩, ⟨1, 1, 0, [5]⟩], [[7], [8], [9]], some 0) := by
    decide +kernel
  obtain ⟨finish, runs, seen⟩ := Machine.Runs.of_map ran
  simp only [Prod.mk.injEq] at seen
  obtain ⟨fired, published, stored⟩ := seen
  obtain ⟨heard, -⟩ := published_heard (fun _ _ same => same) fresh_initial runs (by decide)
  obtain ⟨n, _, _, _, _, delivered⟩ := heard 1 0 stored
  exact ⟨finish, runs, fired, published, n, published ▸ delivered⟩

end Feed

end Sdpf.Network
