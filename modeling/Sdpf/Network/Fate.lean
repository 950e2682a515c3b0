import Sdpf.Network.Feed

/-!
# What comes back for a registration

Of a notification call that has been sent, `Fate` says what has come back for it so far or
is on its way: nothing before the server has seen its request; what has been published for
the service, if the server has registered the service under its id; at most one response
otherwise.
-/

namespace Sdpf.Network

open Sdpf.Data Sdpf.Msgpack Sdpf.Channel Sdpf.Semantics Sdpf.Client
open Sdpf.Server (Invocation Completion Handling)

namespace Feed

/-- The server has not seen the request of the call. -/
def Unserved (w : Feed) (n : Nat) (id : UInt32) : Prop :=
  w.exchange.client.pc n = .registered ∨ id ∈ w.exchange.toServer.map packetId

/-- The responses to a call, arrived or on their way. -/
structure Fate (w : Feed) (n : Nat) (id : UInt32) (log : List (Int32 × List UInt8)) : Prop where
  early : w.Unserved n id → log = []
  registered : ∀ service, w.exchange.server.requests.lookup id = some service →
    log = (w.publishedBy service).map (Prod.mk 0)
  alone : w.exchange.server.requests.lookup id = none →
    (w.exchange.pending.map Invocation.id).count id + log.length ≤ 1

/-- A call against its responses. -/
def Heard (calls : Nat → Call) (w : Feed) (n : Nat) (id : UInt32) : Prop :=
  ∃ arrived, w.exchange.client.Tracks calls n id arrived ∧
    w.Fate n id (arrived ++ w.exchange.inFlight id)

/-- Whatever has been published has been, or will be, heard by whoever has registered. -/
structure Fed (codec : Codec) (calls : Nat → Call) (w : Feed) : Prop where
  wired : w.exchange.Wired codec calls
  one : ∀ first second service, w.exchange.server.requests.lookup first = some service →
    w.exchange.server.requests.lookup second = some service → first = second
  unpublished : ∀ service, (∀ id, w.exchange.server.requests.lookup id ≠ some service) →
    w.publishedBy service = []
  heard : ∀ n id, (calls n).IsNotify → w.exchange.client.Accepted n →
    w.exchange.client.drawn n = some id → w.Heard calls n id

variable {codec : Codec} {calls : Nat → Call} {w next : Feed} {n : Nat} {id : UInt32}
  {log : List (Int32 × List UInt8)}

/-- Before the first call nothing has been published. -/
theorem Fed.of_initial (initial : w.Initial) : w.Fed codec calls where
  wired := .of_initial initial.exchange initial.requests
  one first second service stored := by simp [initial.requests] at stored
  unpublished service _ := by simp [publishedBy, initial.published]
  heard n id _ accepted := by
    simp [World.Accepted, initial.exchange.client.pc] at accepted

/-- Nothing concerning the call has changed. -/
theorem Fate.frame (fate : w.Fate n id log) (unserved : next.Unserved n id → w.Unserved n id)
    (table : next.exchange.server.requests.lookup id = w.exchange.server.requests.lookup id)
    (published : ∀ service, w.exchange.server.requests.lookup id = some service →
      next.publishedBy service = w.publishedBy service)
    (pending : (next.exchange.pending.map Invocation.id).count id =
      (w.exchange.pending.map Invocation.id).count id) :
    next.Fate n id log where
  early now := fate.early (unserved now)
  registered service stored := by
    rw [table] at stored
    rw [published service stored]
    exact fate.registered service stored
  alone absent := by
    rw [table] at absent
    rw [pending]
    exact fate.alone absent

/-- What is on its way after some packets have been added. -/
theorem inFlight_append (exchange : Exchange) (packets : List Packet) (id : UInt32) :
    Exchange.inFlight { exchange with toClient := exchange.toClient ++ packets } id =
      exchange.inFlight id ++ Exchange.inFlight { exchange with toClient := packets } id :=
  List.filterMap_append

/-- A response that is sent is one more on its way to the call with its id. -/
theorem inFlight_transmit (exchange : Exchange) (conn : Int) (other : UInt32) (code : Int32)
    (msg : Option RpcMessage) :
    Exchange.inFlight { exchange with
        toClient := exchange.toClient ++ (transmit codec conn (.response other code msg)).2 } id =
      exchange.inFlight id ++ if other = id then
        (transmit codec conn (.response other code msg)).2.map
          fun _ => (code, (Outgoing.response other code msg).body codec)
      else [] := by
  rw [inFlight_append]
  congr 1
  unfold transmit
  simp only
  by_cases sent : sendPacket codec (fun _ => conn) (Outgoing.response other code msg).metaRpc
      (Outgoing.response other code msg).msg = 0
  · rw [if_pos sent]
    by_cases same : other = id <;> simp [Exchange.inFlight, Outgoing.packet, same]
  · rw [if_neg sent]
    simp [Exchange.inFlight]

/-- One packet is sent at most. -/
theorem length_transmit (codec : Codec) (conn : Int) (out : Outgoing) :
    (transmit codec conn out).2.length ≤ 1 := by
  unfold transmit
  simp only
  split_ifs <;> simp

/-- The client takes a step, and no response is lost on the way to it. -/
theorem Fed.client {action : Action} {client : World} {toServer toClient : List Packet}
    (fed : w.Fed codec calls) (apart : Function.Injective fun n => (calls n).ctrl)
    (unclosed : action ≠ .close)
    (moved : w.exchange.client.step calls action = some client)
    (wired : ({ w.exchange with client := client, toServer := toServer, toClient := toClient } :
      Exchange).Wired codec calls)
    (queue : ∀ n id, client.Accepted n → client.drawn n = some id →
      id ∈ toServer.map packetId →
      id ∈ w.exchange.toServer.map packetId ∨ w.exchange.client.pc n = .registered)
    (inFlight : ∀ id, responses id [action] ++
      Exchange.inFlight { w.exchange with toClient := toClient } id = w.exchange.inFlight id) :
    ({ w with
      exchange := { w.exchange with
        client := client, toServer := toServer, toClient := toClient } } : Feed).Fed codec calls
      where
  wired := wired
  one := fed.one
  unpublished := fed.unpublished
  heard n id notify accepted drew := by
    rcases World.accepted_of_step moved accepted with before | ⟨rfl, was⟩
    · have kept := World.step_drawn moved before.registered
      have drawn : w.exchange.client.drawn n = some id := kept ▸ drew
      obtain ⟨arrived, tracks, fate⟩ := fed.heard n id notify before drawn
      have done := fed.wired.heard n notify (.inr before.registered)
      refine ⟨_, tracks.keep fed.wired.attributed apart done unclosed accepted moved, ?_⟩
      rw [List.append_assoc]
      change Fate _ n id (arrived ++ (responses id [action] ++
        Exchange.inFlight { w.exchange with toClient := toClient } id))
      rw [inFlight]
      refine fate.frame ?_ rfl (fun _ _ => rfl) rfl
      rintro (registered | member)
      · refine .inl (before.resolve_right fun returned => ?_)
        have still := World.step_returned returned moved
        exact absurd (still.symm.trans registered) (by simp)
      · exact (queue n id accepted drew member).elim .inr .inl
    · have drawn : w.exchange.client.drawn n = some id := by
        cases World.step_transition moved with
        | registerRefused was marked => exact drew
        | registerAccepted was drew' => exact drew
      obtain ⟨unused, silent⟩ := fed.wired.unused drawn (by simp [was])
      have none : Exchange.inFlight { w.exchange with toClient := toClient } id = [] := by
        have whole := inFlight id
        rw [show w.exchange.inFlight id = [] from ?_] at whole
        · exact (List.append_eq_nil_iff.mp whole).2
        · refine List.filterMap_eq_nil_iff.mpr fun packet member => ?_
          obtain ⟨_, other, code, text, body, rfl, -⟩ := fed.wired.responses packet member
          refine if_neg ?_
          rintro rfl
          exact silent code text body member
      simp only [Exchange.requested, List.mem_append, not_or] at unused
      refine ⟨[], .begin fed.wired.attributed fed.wired.separate drew moved accepted, ?_⟩
      change Fate _ n id (Exchange.inFlight { w.exchange with toClient := toClient } id)
      rw [none]
      refine ⟨fun _ => rfl, ?_, ?_⟩
      · intro service stored
        exact absurd (AList.lookup_isSome.mp (Option.isSome_iff_exists.mpr ⟨service, stored⟩))
          unused.2
      · intro _
        rw [List.count_eq_zero.mpr unused.1.2]
        simp

/-- The server takes a request, and decides what is to come of it. -/
theorem Fed.serve {other : UInt32} {service method : CharArray 64} {body : List UInt8}
    {rest : List Packet} {server : Server.RpcChannel} {toClient : List Packet}
    {pending invoked : List Invocation} (fed : w.Fed codec calls)
    (queue : w.exchange.toServer = .request other service method body :: rest)
    (wired : ({ w.exchange with
      server := server, toServer := rest, toClient := toClient, pending := pending,
      invoked := invoked } : Exchange).Wired codec calls)
    (one : ∀ first second service, server.requests.lookup first = some service →
      server.requests.lookup second = some service → first = second)
    (table : ∀ id service, server.requests.lookup id = some service →
      w.exchange.server.requests.lookup id = some service ∨
        id = other ∧ w.publishedBy service = [])
    (kept : ∀ id service, w.exchange.server.requests.lookup id = some service →
      server.requests.lookup id = some service)
    (inFlight : ∀ id, id ≠ other →
      Exchange.inFlight { w.exchange with toClient := toClient } id = w.exchange.inFlight id)
    (others : ∀ id, id ≠ other → (pending.map Invocation.id).count id =
      (w.exchange.pending.map Invocation.id).count id)
    (own : w.exchange.inFlight other = [] → other ∉ w.exchange.pending.map Invocation.id →
      (server.requests.lookup other ≠ none →
        Exchange.inFlight { w.exchange with toClient := toClient } other = []) ∧
      (pending.map Invocation.id).count other +
        (Exchange.inFlight { w.exchange with toClient := toClient } other).length ≤ 1) :
    ({ w with
      exchange := { w.exchange with
        server := server, toServer := rest, toClient := toClient, pending := pending,
        invoked := invoked } } : Feed).Fed codec calls where
  wired := wired
  one := one
  unpublished service absent :=
    fed.unpublished service fun id stored => absent id (kept id service stored)
  heard n id notify accepted drew := by
    obtain ⟨arrived, tracks, fate⟩ := fed.heard n id notify accepted drew
    refine ⟨arrived, tracks, ?_⟩
    obtain ⟨-, gone, m, sent, -⟩ := fed.wired.take queue
    change Fate _ n id
      (arrived ++ Exchange.inFlight { w.exchange with toClient := toClient } id)
    by_cases same : id = other
    · subst same
      have unserved : w.Unserved n id := .inr (by simp [queue, packetId])
      obtain ⟨rfl, quiet⟩ := List.append_eq_nil_iff.mp (fate.early unserved)
      simp only [Exchange.requested, List.mem_append, not_or] at gone
      obtain ⟨entered, few⟩ := own quiet gone.1.2
      refine ⟨?_, ?_, fun _ => by simpa using few⟩
      · rintro (registered | member)
        · obtain rfl := fed.wired.attributed.distinct m n id sent.2 drew
          simp [sent.1] at registered
        · exact absurd member gone.1.1
      · intro service stored
        rw [List.nil_append, entered (by simp [stored])]
        rcases table id service stored with before | ⟨_, none⟩
        · exact absurd (AList.lookup_isSome.mp (Option.isSome_iff_exists.mpr ⟨service, before⟩))
            gone.2
        · change [] = (w.publishedBy service).map _
          rw [none]
          rfl
    · rw [inFlight id same]
      refine fate.frame ?_ ?_ (fun _ _ => rfl) (others id same)
      · rintro (registered | member)
        · exact .inl registered
        · exact .inr (by simp [queue, member])
      · cases before : w.exchange.server.requests.lookup id with
        | some service => exact kept id service before
        | none =>
            cases now : server.requests.lookup id with
            | none => rfl
            | some service =>
                rcases table id service now with stored | ⟨is, -⟩
                · rw [before] at stored
                  cases stored
                · exact absurd is same

/-- The server refuses a request. -/
theorem Fed.refuse {other : UInt32} {service method : CharArray 64} {body : List UInt8}
    {rest : List Packet} {ec : Int32} {conn : Int} (fed : w.Fed codec calls)
    (queue : w.exchange.toServer = .request other service method body :: rest) :
    ({ w with
      exchange := { w.exchange with
        toServer := rest
        toClient := w.exchange.toClient ++
          (transmit codec conn (.response other ec none)).2 } } : Feed).Fed codec calls := by
  obtain ⟨taken, gone, n, sent, -⟩ := fed.wired.take queue
  simp only [Exchange.requested, List.mem_append, not_or] at gone
  refine fed.serve queue (taken.respond sent) fed.one (fun _ _ stored => .inl stored)
    (fun _ _ stored => stored) ?_ (fun _ _ => rfl) ?_
  · intro id same
    rw [inFlight_transmit, if_neg (Ne.symm same), List.append_nil]
  · intro quiet idle
    refine ⟨fun stored => absurd ?_ stored, ?_⟩
    · exact AList.lookup_eq_none.mpr gone.2
    · rw [inFlight_transmit, quiet, if_pos rfl, List.count_eq_zero.mpr idle]
      simpa using length_transmit codec conn (.response other ec none)

/-- The server invokes a method. -/
theorem Fed.invoke {other : UInt32} {service method : CharArray 64} {body : List UInt8}
    {rest : List Packet} {invocation : Invocation} (fed : w.Fed codec calls)
    (queue : w.exchange.toServer = .request other service method body :: rest)
    (carries : invocation.id = other) :
    ({ w with
      exchange := { w.exchange with
        toServer := rest
        pending := w.exchange.pending ++ [invocation]
        invoked := w.exchange.invoked ++ [invocation] } } : Feed).Fed codec calls := by
  refine fed.serve queue (fed.wired.invoke queue carries) fed.one (fun _ _ stored => .inl stored)
    (fun _ _ stored => stored) (fun _ _ => rfl) ?_ ?_
  · intro id same
    simp [carries, Ne.symm same]
  · intro quiet idle
    refine ⟨fun _ => quiet, ?_⟩
    change List.count other (List.map Invocation.id (w.exchange.pending ++ [invocation])) +
      (w.exchange.inFlight other).length ≤ 1
    rw [quiet, List.map_append, List.count_append, List.count_eq_zero.mpr idle]
    simp [carries]

/-- The server registers a service, unless somebody has. -/
theorem Fed.register {other : UInt32} {service method : CharArray 64} {body : List UInt8}
    {rest : List Packet} {svc : Server.RpcService} {index : Nat} (fed : w.Fed codec calls)
    (queue : w.exchange.toServer = .request other service method body :: rest)
    (notify : strcmp method.text.bytes methodNotify.bytes = 0)
    (found : w.exchange.server.findSvc service.text = some (svc, index)) :
    ({ w with
      exchange := { w.exchange with
        server := w.exchange.server.registerNotify other index
        toServer := rest } } : Feed).Fed codec calls := by
  obtain ⟨-, gone, -⟩ := fed.wired.take queue
  simp only [Exchange.requested, List.mem_append, not_or] at gone
  have fresh : w.exchange.server.requests.lookup other = none := AList.lookup_eq_none.mpr gone.2
  have table : ∀ id service,
      (w.exchange.server.registerNotify other index).requests.lookup id = some service →
        w.exchange.server.requests.lookup id = some service ∨ id = other ∧ service = index ∧
          ∀ first, w.exchange.server.requests.lookup first ≠ some index := by
    intro id service stored
    rcases Server.ServedChannel.registerNotify_cases w.exchange.server other index with
      ⟨-, same⟩ | ⟨absent, inserted⟩
    · exact .inl (same ▸ stored)
    · rw [inserted, lookup_insert] at stored
      split_ifs at stored with own
      · cases stored
        exact .inr ⟨own, rfl, absent⟩
      · exact .inl stored
  refine fed.serve queue (fed.wired.register queue notify found) ?_ ?_ ?_ (fun _ _ => rfl)
    (fun _ _ => rfl) ?_
  · intro first second service one two
    rcases table first service one with before | ⟨is, rfl, absent⟩ <;>
      rcases table second service two with before' | ⟨is', same, absent'⟩
    · exact fed.one first second service before before'
    · exact absurd (same ▸ before) (absent' first)
    · exact absurd before' (absent second)
    · rw [is, is']
  · intro id service stored
    rcases table id service stored with before | ⟨is, rfl, absent⟩
    · exact .inl before
    · exact .inr ⟨is, fed.unpublished _ absent⟩
  · intro id service stored
    rcases Server.ServedChannel.registerNotify_cases w.exchange.server other index with
      ⟨-, same⟩ | ⟨-, inserted⟩
    · rwa [same]
    · rw [inserted, lookup_insert, if_neg]
      · exact stored
      · rintro rfl
        rw [fresh] at stored
        cases stored
  · intro quiet idle
    refine ⟨fun _ => quiet, ?_⟩
    change List.count other (List.map Invocation.id w.exchange.pending) +
      (w.exchange.inFlight other).length ≤ 1
    rw [quiet, List.count_eq_zero.mpr idle]
    simp

/-- A method is done. -/
theorem Fed.complete {k : Nat} {completion : Completion} {conn : Int} (fed : w.Fed codec calls)
    (found : w.exchange.pending[k]? = some completion.invocation) :
    ({ w with
      exchange := { w.exchange with
        pending := w.exchange.pending.eraseIdx k
        answered := w.exchange.answered ++ [completion]
        toClient := w.exchange.toClient ++ (transmit codec conn completion.outgoing).2 } } :
      Feed).Fed codec calls := by
  obtain ⟨wired, m, sent⟩ := fed.wired.complete found
  refine ⟨wired.respond sent, fed.one, fed.unpublished, ?_⟩
  intro n id notify accepted drew
  obtain ⟨arrived, tracks, fate⟩ := fed.heard n id notify accepted drew
  refine ⟨arrived, tracks, ?_⟩
  have member : completion.invocation.id ∈ w.exchange.pending.map Invocation.id :=
    List.mem_map_of_mem (List.mem_of_getElem? found)
  obtain ⟨inside, here⟩ := List.getElem?_eq_some_iff.mp found
  have counts : ∀ id, (w.exchange.pending.map Invocation.id).count id =
      ((w.exchange.pending.eraseIdx k).map Invocation.id).count id +
        if completion.invocation.id = id then 1 else 0 := by
    intro id
    have places := (List.getElem_cons_eraseIdx_perm inside).map Invocation.id
    rw [here, List.map_cons] at places
    rw [← places.count_eq id, List.count_cons]
    simp
  have distinct := fed.wired.distinct
  change Fate _ n id (arrived ++ Exchange.inFlight { w.exchange with
    toClient := w.exchange.toClient ++ (transmit codec conn (.response completion.invocation.id
      (if completion.failed then Server.emethodcall else 0) completion.response)).2 } id)
  rw [inFlight_transmit, ← List.append_assoc]
  by_cases same : completion.invocation.id = id
  · rw [if_pos same]
    rw [Exchange.requested, List.append_assoc, List.nodup_append] at distinct
    obtain ⟨-, hands, apart⟩ := distinct
    rw [List.nodup_append] at hands
    refine ⟨?_, ?_, ?_⟩
    · rintro (registered | queued)
      · obtain rfl := fed.wired.attributed.distinct m n id (same ▸ sent.2) drew
        exact absurd (sent.1.symm.trans registered) (by simp)
      · exact absurd rfl (apart _ queued _ (List.mem_append_left _ (same ▸ member)))
    · intro service stored
      exact absurd rfl (hands.2.2 _ (same ▸ member) _
        (AList.lookup_isSome.mp (Option.isSome_iff_exists.mpr ⟨service, stored⟩)))
    · intro absent
      have few := fate.alone absent
      have one := length_transmit codec conn (.response completion.invocation.id
        (if completion.failed then Server.emethodcall else 0) completion.response)
      rw [counts, if_pos same] at few
      simp only [List.length_append, List.length_map] at few ⊢
      change List.count id (List.map Invocation.id (w.exchange.pending.eraseIdx k)) + _ ≤ 1
      omega
  · rw [if_neg same, List.append_nil]
    refine fate.frame (fun now => now) rfl (fun _ _ => rfl) ?_
    rw [counts, if_neg same]
    rfl

/-- A notification is handed to the connection. -/
theorem Fed.publish {other : UInt32} {index : Nat} {msg : RpcMessage} {conn : Int}
    (fed : w.Fed codec calls)
    (stored : w.exchange.server.requests.lookup other = some index) :
    ({
      exchange := { w.exchange with
        toClient := w.exchange.toClient ++
          (transmit codec conn (.response other 0 (some msg))).2 }
      published := w.published ++ (transmit codec conn (.response other 0 (some msg))).2.map
        fun _ => (index, (Outgoing.response other 0 (some msg)).body codec) } : Feed).Fed
          codec calls := by
  have keyed : other ∈ w.exchange.server.requests.keys :=
    AList.lookup_isSome.mp (Option.isSome_iff_exists.mpr ⟨index, stored⟩)
  obtain ⟨m, _, _, sent, _⟩ := fed.wired.subscribed other index stored
  have apart : other ∉ w.exchange.toServer.map packetId := by
    have distinct := fed.wired.distinct
    rw [Exchange.requested, List.append_assoc, List.nodup_append] at distinct
    exact fun queued => distinct.2.2 _ queued _ (List.mem_append_right _ keyed) rfl
  have grown : ∀ service, publishedBy {
      exchange := w.exchange
      published := w.published ++ (transmit codec conn (.response other 0 (some msg))).2.map
        fun _ => (index, (Outgoing.response other 0 (some msg)).body codec) } service =
          w.publishedBy service ++ if index = service then
            (transmit codec conn (.response other 0 (some msg))).2.map
              fun _ => (Outgoing.response other 0 (some msg)).body codec
          else [] := by
    intro service
    simp only [publishedBy, List.filter_append, List.map_append, List.filter_map]
    congr 1
    by_cases same : index = service <;> simp [same, Function.comp_def]
  refine ⟨fed.wired.respond sent, fed.one, ?_, ?_⟩
  · intro service absent
    refine (grown service).trans ?_
    rw [fed.unpublished service absent, if_neg, List.append_nil]
    rintro rfl
    exact absent other stored
  · intro n id notify accepted drew
    obtain ⟨arrived, tracks, fate⟩ := fed.heard n id notify accepted drew
    refine ⟨arrived, tracks, ?_⟩
    change Fate _ n id (arrived ++ Exchange.inFlight { w.exchange with
      toClient := w.exchange.toClient ++
        (transmit codec conn (.response other 0 (some msg))).2 } id)
    rw [inFlight_transmit, ← List.append_assoc]
    by_cases same : other = id
    · subst same
      rw [if_pos rfl]
      refine ⟨?_, ?_, ?_⟩
      · rintro (registered | queued)
        · obtain rfl := fed.wired.attributed.distinct m n other sent.2 drew
          exact absurd (sent.1.symm.trans registered) (by simp)
        · exact absurd queued apart
      · intro service there
        obtain rfl : index = service := Option.some.inj (stored.symm.trans there)
        rw [fate.registered index stored]
        refine Eq.trans ?_ (congrArg _ (grown index).symm)
        simp
      · intro absent
        exact absurd (stored.symm.trans absent) (by simp)
    · rw [if_neg same, List.append_nil]
      refine fate.frame (fun now => now) rfl ?_ rfl
      intro service there
      refine (grown service).trans ?_
      rw [if_neg, List.append_nil]
      rintro rfl
      exact same (fed.one other id index stored there)

end Feed

end Sdpf.Network
