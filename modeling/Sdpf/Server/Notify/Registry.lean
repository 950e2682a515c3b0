import Sdpf.Server.Notify.Channels

/-!
# The registry of a channel

A channel maps to each service the id it was first registered with, and nothing else is in
its table: `Registry` says so, and what is handed over for each step. Requests, answers,
notifications and the close of the connection keep it.
-/

namespace Sdpf.Server

open Sdpf.Data Sdpf.Buffer Sdpf.Msgpack Sdpf.Channel Sdpf.Semantics

section FirstOf

variable {registrations : List (UInt32 × Nat)} {id : UInt32} {service : Nat}

/-- A later registration counts where there was none. -/
theorem firstOf_append (other : Nat) :
    firstOf (registrations ++ [(id, service)]) other =
      (firstOf registrations other).or (if service = other then some id else none) := by
  unfold firstOf
  rw [List.find?_append, Option.map_or]
  by_cases same : service = other <;> simp [same]

/-- The first registration of a service is one of the registrations. -/
theorem mem_of_firstOf (first : firstOf registrations service = some id) :
    (id, service) ∈ registrations := by
  obtain ⟨⟨_, named⟩, found, rfl⟩ := Option.map_eq_some_iff.mp first
  have same : named = service := by simpa using List.find?_some found
  exact same ▸ List.mem_of_find?_eq_some found

end FirstOf

/-- A table has an entry for the service exactly when some id is mapped to it. -/
theorem exists_entry_iff {table : AList fun _ : UInt32 => Nat} {service : Nat} :
    (∃ entry ∈ table.entries, entry.2 = service) ↔ ∃ id, table.lookup id = some service := by
  constructor
  · rintro ⟨⟨id, _⟩, member, rfl⟩
    exact ⟨id, AList.mem_lookup_iff.mpr member⟩
  · rintro ⟨id, stored⟩
    exact ⟨⟨id, service⟩, AList.mem_lookup_iff.mp stored, rfl⟩

namespace RpcChannel

/-- A request leaves the table alone, unless it is a notification for a service that there
is. -/
theorem request_cases (ch : RpcChannel) (r : Request) :
    ((∀ index, ¬ ch.Registers r index) ∧ ch.registration r = [] ∧
        (ch.processRequest r.allocated r.id r.service r.method r.body).2 = ch) ∨
      ∃ index, ch.Registers r index ∧ ch.registration r = [(r.id, index)] ∧
        (ch.processRequest r.allocated r.id r.service r.method r.body).2 =
          ch.registerNotify r.id index := by
  cases found : ch.findSvc r.service with
  | none =>
      refine .inl ⟨?_, by simp [registration, processRequest, found]⟩
      rintro index ⟨_, svc, other, _⟩
      rw [found] at other
      cases other
  | some service =>
      obtain ⟨svc, index⟩ := service
      unfold registration processRequest
      simp only [found]
      split_ifs with unknown notify bad
      · refine .inl ⟨?_, rfl, rfl⟩
        rintro _ ⟨_, _, other, known⟩
        rw [found] at other
        cases other
        exact absurd unknown (Int.not_lt.mpr known)
      · exact .inr ⟨index, ⟨notify, svc, found, Int.not_lt.mp unknown⟩, rfl, rfl⟩
      all_goals exact .inl ⟨fun _ registers => notify registers.1, rfl, rfl⟩

end RpcChannel

namespace Serving

variable {codec : Codec} {s next : Serving}

/-- What a request does to the table. -/
theorem step_request {r : Request} (transition : s.step codec (.request r) = some next) :
    next.ch = (s.ch.processRequest r.allocated r.id r.service r.method r.body).2 ∧
      next.requests = s.requests ++ [r] := by
  simp only [step] at transition
  split at transition <;> cases transition <;> exact ⟨rfl, rfl⟩

/-- A method that answers does not touch the table. -/
theorem step_done {number : Nat} {response : Option AnyMessage} {failed : Bool}
    (transition : s.step codec (.done number response failed) = some next) :
    next.ch = s.ch ∧ next.requests = s.requests := by
  simp only [step] at transition
  split at transition <;> cases transition
  exact ⟨rfl, rfl⟩

end Serving

namespace ServedChannel

variable {codec : Codec} {chn next : ServedChannel}

/-- The table holds the first registration of each service, and nothing else. -/
structure Registry (chn : ServedChannel) : Prop where
  named : ∀ entry ∈ chn.registrations, entry.1 ∈ chn.session.requests.map Request.id
  sound : ∀ id service, chn.table.lookup id = some service →
    firstOf chn.registrations service = some id
  complete : chn.serving = true → ∀ id service, firstOf chn.registrations service = some id →
    chn.table.lookup id = some service

/-- A channel without a connection has no registrations. -/
theorem Registry.blank : Registry .blank where
  named entry member := by cases member
  sound id service stored := by simp [ServedChannel.blank, table] at stored
  complete serving := by cases serving

/-- What a request does to a channel. -/
theorem request_cases {services : List RpcService} {r : Request}
    (transition : chn.request codec services r = some next) :
    next.connected = chn.connected ∧ next.serving = chn.serving ∧
      next.session.requests = chn.session.requests ++ [r] ∧
      (((∀ index, ¬ (chn.withServices services).ch.Registers r index) ∧
          next.table = chn.table ∧ next.registrations = chn.registrations) ∨
        ∃ index, (chn.withServices services).ch.Registers r index ∧
          next.registrations = chn.registrations ++ [(r.id, index)] ∧
          next.table = ((chn.withServices services).ch.registerNotify r.id index).requests) := by
  obtain ⟨session, stepped, rfl⟩ := Option.map_eq_some_iff.mp transition
  obtain ⟨ch, requests⟩ := Serving.step_request stepped
  refine ⟨rfl, rfl, requests, ?_⟩
  rcases RpcChannel.request_cases (chn.withServices services).ch r with
    ⟨other, silent, same⟩ | ⟨index, registers, log, registered⟩
  · refine .inl ⟨other, ?_, by simp [silent]⟩
    simp only [table, ch, same]
    rfl
  · exact .inr ⟨index, registers, by simp [log], by simp [table, ch, registered]⟩

/-- A registration is repeated, and changes nothing, or is entered into the table. -/
theorem registerNotify_cases (ch : RpcChannel) (id : UInt32) (service : Nat) :
    ((∃ first, ch.requests.lookup first = some service) ∧
        (ch.registerNotify id service).requests = ch.requests) ∨
      ((∀ first, ch.requests.lookup first ≠ some service) ∧
        (ch.registerNotify id service).requests = ch.requests.insert id service) := by
  unfold RpcChannel.registerNotify
  split_ifs with repeated
  · exact .inl ⟨exists_entry_iff.mp repeated, rfl⟩
  · exact .inr ⟨fun first stored => repeated (exists_entry_iff.mpr ⟨first, stored⟩), rfl⟩

/-- An id that is in the table has come in before. -/
theorem Registry.received (registry : chn.Registry) {id : UInt32} {service : Nat}
    (stored : chn.table.lookup id = some service) :
    id ∈ chn.session.requests.map Request.id :=
  registry.named _ (mem_of_firstOf (registry.sound id service stored))

/-- A registration that is repeated comes after the one that is in the table. -/
theorem Registry.repeated (registry : chn.Registry) {id first : UInt32} {index : Nat}
    (serving : chn.serving = true) (stored : chn.table.lookup first = some index)
    (named : ∀ entry ∈ next.registrations, entry.1 ∈ next.session.requests.map Request.id)
    (log : next.registrations = chn.registrations ++ [(id, index)])
    (same : next.table = chn.table) : next.Registry := by
  have later : ∀ service, firstOf next.registrations service =
      firstOf chn.registrations service := by
    intro service
    rw [log, firstOf_append]
    split_ifs with is
    · rw [← is, registry.sound first index stored]
      rfl
    · simp
  refine ⟨named, ?_, ?_⟩
  · intro other service there
    rw [later]
    rw [same] at there
    exact registry.sound other service there
  · intro _ other service there
    rw [later] at there
    rw [same]
    exact registry.complete serving other service there

/-- The first registration of a service is entered, under an id that is not in the table. -/
theorem Registry.entered (registry : chn.Registry) {id : UInt32} {index : Nat}
    (serving : chn.serving = true) (fresh : id ∉ chn.session.requests.map Request.id)
    (absent : ∀ first, chn.table.lookup first ≠ some index)
    (named : ∀ entry ∈ next.registrations, entry.1 ∈ next.session.requests.map Request.id)
    (log : next.registrations = chn.registrations ++ [(id, index)])
    (inserted : next.table = chn.table.insert id index) : next.Registry := by
  have unregistered : firstOf chn.registrations index = none := by
    by_contra some_id
    obtain ⟨first, there⟩ := Option.ne_none_iff_exists'.mp some_id
    exact absent first (registry.complete serving first index there)
  refine ⟨named, ?_, ?_⟩
  · intro other service there
    rw [inserted, lookup_insert] at there
    rw [log, firstOf_append]
    split_ifs at there with is
    · cases there
      rw [unregistered, is]
      simp
    · rw [registry.sound other service there]
      rfl
  · intro _ other service there
    rw [log, firstOf_append] at there
    rw [inserted, lookup_insert]
    cases before : firstOf chn.registrations service with
    | none =>
        rw [before, Option.none_or] at there
        split_ifs at there with is
        cases there
        rw [is]
        simp
    | some first =>
        rw [before] at there
        cases there
        have stored := registry.complete serving other service before
        have ne : other ≠ id := fun same => fresh (same ▸ registry.received stored)
        rwa [if_neg ne]

/-- A request keeps the table in line with the registrations. -/
theorem Registry.request {services : List RpcService} {r : Request} (registry : chn.Registry)
    (serving : chn.serving = true) (distinct : next.Distinct)
    (transition : chn.request codec services r = some next) : next.Registry := by
  obtain ⟨-, -, requests, shape⟩ := request_cases transition
  have fresh : r.id ∉ chn.session.requests.map Request.id := by
    unfold Distinct at distinct
    rw [requests, List.map_append, List.nodup_append] at distinct
    exact fun member => distinct.2.2 _ member _ (by simp) rfl
  have kept : ∀ entry ∈ chn.registrations, entry.1 ∈ next.session.requests.map Request.id := by
    intro entry member
    rw [requests, List.map_append]
    exact List.mem_append_left _ (registry.named entry member)
  rcases shape with ⟨-, table, log⟩ | ⟨index, -, log, table⟩
  · refine ⟨by rwa [log], ?_, ?_⟩
    · rw [table, log]
      exact registry.sound
    · rw [table, log]
      exact fun _ => registry.complete serving
  · have named : ∀ entry ∈ next.registrations,
        entry.1 ∈ next.session.requests.map Request.id := by
      intro entry member
      rw [log] at member
      rcases List.mem_append.mp member with before | now
      · exact kept entry before
      · rw [List.mem_singleton.mp now, requests]
        simp
    rcases registerNotify_cases (chn.withServices services).ch r.id index with
      ⟨⟨first, stored⟩, same⟩ | ⟨absent, inserted⟩
    · exact registry.repeated serving stored named log (table.trans same)
    · exact registry.entered serving fresh absent named log (table.trans inserted)

/-- So does `on_close`. -/
theorem Registry.onClose (registry : chn.Registry) : chn.onClose.Registry where
  named := registry.named
  sound id service stored := by simp [table, ServedChannel.onClose] at stored
  complete serving := by cases serving

/-- A method that answers does not touch the registry. -/
theorem done_cases {number : Nat} {response : Option AnyMessage} {failed : Bool}
    (transition : chn.done codec number response failed = some next) :
    next.connected = chn.connected ∧ next.serving = chn.serving ∧
      next.session.requests = chn.session.requests ∧ next.table = chn.table ∧
      next.registrations = chn.registrations := by
  obtain ⟨session, stepped, rfl⟩ := Option.map_eq_some_iff.mp transition
  obtain ⟨ch, requests⟩ := Serving.step_done stepped
  exact ⟨rfl, rfl, requests, by simp only [table, ch], rfl⟩

/-- Only these fields matter to the registry. -/
theorem Registry.frame (registry : chn.Registry) (table : next.table = chn.table)
    (registrations : next.registrations = chn.registrations)
    (requests : next.session.requests = chn.session.requests)
    (serving : next.serving = true → chn.serving = true ∨ next.registrations = []) :
    next.Registry := by
  refine ⟨by rw [registrations, requests]; exact registry.named, ?_, ?_⟩
  · rw [table, registrations]
    exact registry.sound
  · intro now id service first
    rcases serving now with before | none
    · rw [registrations] at first
      rw [table]
      exact registry.complete before id service first
    · rw [none] at first
      cases first

/-- What `notify` does: it hands over one packet, where the service is in the table. -/
theorem notify_cases (chn : ServedChannel) (service : Nat) (msg : Option AnyMessage) :
    (chn.notify codec service msg).connected = chn.connected ∧
      (chn.notify codec service msg).serving = chn.serving ∧
      (chn.notify codec service msg).session = chn.session ∧
      (chn.notify codec service msg).registrations = chn.registrations := by
  unfold notify
  split_ifs
  · exact ⟨rfl, rfl, rfl, rfl⟩
  · split <;> exact ⟨rfl, rfl, rfl, rfl⟩

/-- A channel that is not subscribed is handed nothing. -/
theorem Registry.notify_other (registry : chn.Registry) {service : Nat}
    (unsubscribed : ∀ id, ¬ chn.Subscribed service id) (msg : Option AnyMessage) :
    (chn.notify codec service msg).notified = chn.notified := by
  unfold notify
  split_ifs with refused
  · rfl
  · simp only [not_or, Bool.not_eq_false] at refused
    obtain ⟨_, connected, serving⟩ := refused
    split
    · rfl
    · next entry found =>
        have stored : chn.table.lookup entry.1 = some service := by
          have named : entry.2 = service := by simpa using List.find?_some found
          exact named ▸ AList.mem_lookup_iff.mpr (List.mem_of_find?_eq_some found)
        exact absurd ⟨connected, registry.sound _ _ stored⟩ (unsubscribed entry.1)

/-- A subscribed channel is handed one packet, with the id of its first registration. -/
theorem Registry.notify_subscribed (registry : chn.Registry) (law : codec.Lawful) {service : Nat}
    {id : UInt32} (serving : chn.serving = true) (subscribed : chn.Subscribed service id)
    {msg : AnyMessage} (serializes : Serializes codec (responseMeta id 0) (some msg)) :
    ∃ pb, buildAny codec (responseMeta id 0) (some msg) = .ok pb ∧
      ResponseFrame codec id 0 pb.readable ∧
      (chn.notify codec service (some msg)).notified = chn.notified ++ [pb] := by
  obtain ⟨pb, built, frame⟩ :
      ∃ pb, buildAny codec (responseMeta id 0) (some msg) = .ok pb ∧
        ResponseFrame codec id 0 pb.readable :=
    (buildAny_response_iff law).mpr ⟨.inl serializes, rfl, rfl⟩
  refine ⟨pb, built, frame, ?_⟩
  have stored := registry.complete serving id service subscribed.2
  unfold notify
  rw [if_neg (by simp [subscribed.1, serving])]
  cases found : chn.table.entries.find? fun entry => entry.2 = service with
  | none =>
      have absent := List.find?_eq_none.mp found _ (AList.mem_lookup_iff.mp stored)
      simp at absent
  | some entry =>
      have named : entry.2 = service := by simpa using List.find?_some found
      have again : chn.table.lookup entry.1 = some service :=
        named ▸ AList.mem_lookup_iff.mpr (List.mem_of_find?_eq_some found)
      have same : entry.1 = id := by
        simpa [subscribed.2] using (registry.sound _ _ again).symm
      simp [same, Answer.packets, built]

end ServedChannel

end Sdpf.Server
