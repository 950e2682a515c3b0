import Sdpf.Server.Notify.Registry

/-!
# The registries of a server

The channels in `channels_` are those that have been made and not closed; each of them has
its own registry, and no step of the server on one channel touches that of another.
-/

namespace Sdpf.Server

open Sdpf.Data Sdpf.Buffer Sdpf.Msgpack Sdpf.Channel Sdpf.Semantics

namespace RpcServer

variable {codec : Codec} {s next : RpcServer}

/-- What is known of a server. -/
structure Registries (s : RpcServer) : Prop where
  nodup : s.channels.Nodup
  made : ∀ c ∈ s.channels, c < s.count
  unmade : ∀ c, s.count ≤ c → s.chn c = .blank
  present : ∀ c, (s.chn c).serving = true → c ∈ s.channels
  serving : ∀ c, (s.chn c).connected = true → (s.chn c).serving = true
  untouched : ∀ c ∈ s.channels, (s.chn c).serving = false → (s.chn c).registrations = []
  registry : ∀ c, (s.chn c).Registry

/-- Before the first channel there is nothing to register for. -/
theorem Registries.of_initial (initial : s.Initial) : s.Registries where
  nodup := by simp [initial.channels]
  made c member := by simp [initial.channels] at member
  unmade c _ := initial.chn c
  present c serving := by simp [initial.chn, ServedChannel.blank] at serving
  serving c connected := by simp [initial.chn, ServedChannel.blank] at connected
  untouched c member := by simp [initial.channels] at member
  registry c := initial.chn c ▸ .blank

/-- One channel is changed. -/
theorem put_chn (s : RpcServer) (c other : Nat) (chn : ServedChannel) :
    (s.put c chn).chn other = if other = c then chn else s.chn other :=
  Function.update_apply ..

/-- Publishing reaches every channel once. -/
theorem foldl_put (change : ServedChannel → ServedChannel) {channels : List Nat}
    (nodup : channels.Nodup) (s : RpcServer) :
    let after := channels.foldl (fun s c => s.put c (change (s.chn c))) s
    after.channels = s.channels ∧ after.count = s.count ∧
      ∀ c, after.chn c = if c ∈ channels then change (s.chn c) else s.chn c := by
  induction channels generalizing s with
  | nil => exact ⟨rfl, rfl, fun c => by simp⟩
  | cons first rest ih =>
      obtain ⟨absent, nodup⟩ := List.nodup_cons.mp nodup
      obtain ⟨channels, count, chn⟩ := ih nodup (s.put first (change (s.chn first)))
      refine ⟨channels, count, fun c => (chn c).trans ?_⟩
      by_cases same : c = first
      · subst same
        simp [absent, put_chn]
      · simp [same, put_chn]

/-- `notify_all` is `notify` on every channel of the set. -/
theorem Registries.notifyAll_chn (registries : s.Registries) (service : Nat)
    (msg : Option AnyMessage) (c : Nat) :
    (s.notifyAll codec service msg).chn c =
      if c ∈ s.channels then (s.chn c).notify codec service msg else s.chn c :=
  (foldl_put (fun chn => chn.notify codec service msg) registries.nodup s).2.2 c

/-- A step of one channel that is there. -/
theorem Registries.put (registries : s.Registries) {c : Nat} {chn : ServedChannel}
    (made : c < s.count) (present : chn.serving = true → c ∈ s.channels)
    (serving : chn.connected = true → chn.serving = true)
    (untouched : c ∈ s.channels → chn.serving = false → chn.registrations = [])
    (registry : chn.Registry) : (s.put c chn).Registries := by
  refine ⟨registries.nodup, registries.made, ?_, ?_, ?_, ?_, ?_⟩ <;> intro other
  · intro above
    rw [put_chn, if_neg (by rintro rfl; exact absurd made (Nat.not_lt.mpr above))]
    exact registries.unmade other above
  · rw [put_chn]
    split_ifs with same
    · exact fun now => same ▸ present now
    · exact registries.present other
  · rw [put_chn]
    split_ifs
    · exact serving
    · exact registries.serving other
  · rw [put_chn]
    split_ifs with same
    · exact fun member => untouched (same ▸ member)
    · exact registries.untouched other
  · rw [put_chn]
    split_ifs
    · exact registry
    · exact registries.registry other

/-- A channel that serves has been made. -/
theorem Registries.lt_count (registries : s.Registries) {c : Nat}
    (serving : (s.chn c).serving = true) : c < s.count :=
  registries.made c (registries.present c serving)

/-- `on_alloc`. -/
theorem Registries.alloc (registries : s.Registries) :
    { s with channels := s.count :: s.channels, count := s.count + 1 : RpcServer }.Registries where
  nodup := by
    have new : s.count ∉ s.channels := fun member => Nat.lt_irrefl _ (registries.made _ member)
    exact List.nodup_cons.mpr ⟨new, registries.nodup⟩
  made c member := by
    rcases List.mem_cons.mp member with rfl | before
    · exact Nat.lt_succ_self _
    · exact Nat.lt_succ_of_lt (registries.made c before)
  unmade c above := registries.unmade c (Nat.le_of_succ_le above)
  present c serving := List.mem_cons_of_mem _ (registries.present c serving)
  serving := registries.serving
  untouched c member := by
    rcases List.mem_cons.mp member with rfl | before
    · rw [registries.unmade _ (Nat.le_refl _)]
      exact fun _ => rfl
    · exact registries.untouched c before
  registry := registries.registry

/-- A channel that does not serve leaves the set. -/
theorem Registries.erase (registries : s.Registries) {c : Nat}
    (idle : (s.chn c).serving = false) :
    { s with channels := s.channels.erase c : RpcServer }.Registries where
  nodup := registries.nodup.erase c
  made other member := registries.made other (List.mem_of_mem_erase member)
  unmade := registries.unmade
  present other serving := by
    have ne : other ≠ c := by
      rintro rfl
      exact absurd (idle.symm.trans serving) (by simp)
    exact (List.mem_erase_of_ne ne).mpr (registries.present other serving)
  serving := registries.serving
  untouched other member := registries.untouched other (List.mem_of_mem_erase member)
  registry := registries.registry

/-- `on_close` of a channel, and of the server. -/
theorem Registries.close (registries : s.Registries) {c : Nat}
    (down : (s.chn c).connected = false) (serving : (s.chn c).serving = true) :
    ({ s with channels := s.channels.erase c }.put c (s.chn c).onClose).Registries := by
  have kept : ∀ other, other ∈ s.channels.erase c → other ≠ c ∧ other ∈ s.channels :=
    fun _ => registries.nodup.mem_erase_iff.mp
  refine ⟨registries.nodup.erase c, ?_, ?_, ?_, ?_, ?_, ?_⟩ <;> intro other
  · exact fun member => registries.made other (kept other member).2
  · intro above
    have ne : other ≠ c := by
      rintro rfl
      exact absurd (registries.lt_count serving) (Nat.not_lt.mpr above)
    rw [put_chn, if_neg ne]
    exact registries.unmade other above
  · rw [put_chn]
    split_ifs with same
    · exact fun now => (by cases now)
    · exact fun now => (List.mem_erase_of_ne same).mpr (registries.present other now)
  · rw [put_chn]
    split_ifs with same
    · exact fun up => absurd (down.symm.trans up) (by simp)
    · exact registries.serving other
  · intro member
    rw [put_chn, if_neg (kept other member).1]
    exact registries.untouched other (kept other member).2
  · rw [put_chn]
    split_ifs
    · exact (registries.registry c).onClose
    · exact registries.registry other

/-- `notify_all` changes no registry. -/
theorem Registries.notifyAll (registries : s.Registries) (service : Nat)
    (msg : Option AnyMessage) : (s.notifyAll codec service msg).Registries := by
  obtain ⟨channels, count, -⟩ :=
    foldl_put (fun chn => chn.notify codec service msg) registries.nodup s
  have kept : ∀ c, ((s.notifyAll codec service msg).chn c).connected = (s.chn c).connected ∧
      ((s.notifyAll codec service msg).chn c).serving = (s.chn c).serving ∧
      ((s.notifyAll codec service msg).chn c).session = (s.chn c).session ∧
      ((s.notifyAll codec service msg).chn c).registrations = (s.chn c).registrations := by
    intro c
    rw [registries.notifyAll_chn]
    split
    · exact ServedChannel.notify_cases ..
    · exact ⟨rfl, rfl, rfl, rfl⟩
  refine ⟨channels ▸ registries.nodup, ?_, ?_, ?_, ?_, ?_, ?_⟩ <;> intro c
  · exact fun member => count ▸ registries.made c (channels ▸ member)
  · intro above
    have outside : c ∉ s.channels := fun member =>
      absurd (registries.made c member) (Nat.not_lt.mpr (count ▸ above))
    rw [registries.notifyAll_chn, if_neg outside]
    exact registries.unmade c (count ▸ above)
  · exact fun now => channels ▸ registries.present c ((kept c).2.1 ▸ now)
  · rw [(kept c).1, (kept c).2.1]
    exact registries.serving c
  · rw [(kept c).2.1, (kept c).2.2.2]
    exact fun member => registries.untouched c (channels ▸ member)
  · obtain ⟨_, serving, session, registrations⟩ := kept c
    exact (registries.registry c).frame (by simp only [ServedChannel.table, session])
      registrations (by rw [session]) fun now => .inl (serving ▸ now)

/-- A step keeps all registries. -/
theorem Registries.step {action : ServerAction} (registries : s.Registries)
    (distinct : ∀ c, (next.chn c).Distinct) (transition : s.step codec action = some next) :
    next.Registries := by
  cases action with
  | registerService svc =>
      cases transition
      exact ⟨registries.nodup, registries.made, registries.unmade, registries.present,
        registries.serving, registries.untouched, registries.registry⟩
  | alloc =>
      cases transition
      exact registries.alloc
  | accept c ok =>
      simp only [RpcServer.step, Option.ite_none_right_eq_some] at transition
      obtain ⟨⟨member, idle⟩, transition⟩ := transition
      split_ifs at transition <;> cases transition
      · refine registries.put (registries.made c member) (fun _ => member) (fun _ => rfl) ?_ ?_
        · exact fun _ not => (by cases not)
        · exact (registries.registry c).frame rfl rfl rfl
            fun _ => .inr (registries.untouched c member idle)
      · exact registries.erase idle
  | request c r =>
      simp only [RpcServer.step, Option.ite_none_right_eq_some] at transition
      obtain ⟨⟨connected, serving⟩, transition⟩ := transition
      obtain ⟨chn, taken, rfl⟩ := Option.map_eq_some_iff.mp transition
      obtain ⟨sameConnected, sameServing, _⟩ := ServedChannel.request_cases taken
      have now : chn.serving = true := sameServing.trans serving
      refine registries.put (registries.lt_count serving) (fun _ => registries.present c serving)
        (fun _ => now) (fun _ not => absurd (now.symm.trans not) (by simp)) ?_
      refine (registries.registry c).request serving ?_ taken
      simpa [put_chn] using distinct c
  | done c number response failed =>
      simp only [RpcServer.step] at transition
      obtain ⟨chn, taken, rfl⟩ := Option.map_eq_some_iff.mp transition
      obtain ⟨connected, serving, requests, table, registrations⟩ := ServedChannel.done_cases taken
      have made : c < s.count := by
        by_contra above
        rw [registries.unmade c (Nat.not_lt.mp above)] at taken
        cases taken
      refine registries.put made ?_ ?_ ?_
        ((registries.registry c).frame table registrations requests fun now => .inl (serving ▸ now))
      · exact fun now => registries.present c (serving ▸ now)
      · rw [connected, serving]
        exact registries.serving c
      · rw [serving, registrations]
        exact registries.untouched c
  | stop c =>
      simp only [RpcServer.step, Option.ite_none_right_eq_some, Option.some.injEq] at transition
      obtain ⟨connected, rfl⟩ := transition
      have serving := registries.serving c connected
      exact registries.put (registries.lt_count serving) (fun _ => registries.present c serving)
        (fun not => (by cases not)) (registries.untouched c)
        ((registries.registry c).frame rfl rfl rfl .inl)
  | close c =>
      simp only [RpcServer.step, Option.ite_none_right_eq_some, Option.some.injEq] at transition
      obtain ⟨⟨down, serving⟩, rfl⟩ := transition
      exact registries.close down serving
  | notifyAll service msg =>
      cases transition
      exact registries.notifyAll service msg

end RpcServer

end Sdpf.Server
