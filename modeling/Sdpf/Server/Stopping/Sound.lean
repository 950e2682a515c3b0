import Sdpf.Server.Stopping.Steps

/-!
# Channels while a server is stopped

Whatever the user, the loop and libuv do in turn, `channels_` has exactly the channels that
are connected, being closed or being accepted, and each of these but the last has its
callbacks.
-/

namespace Sdpf.Server

open Sdpf.Semantics

namespace ListeningServer

variable {s next : ListeningServer}

/-- What is known of the channels and of the listener. -/
structure Sound (s : ListeningServer) : Prop where
  nodup : s.channels.Nodup
  made : ∀ c ∈ s.channels, c < s.count
  unmade : ∀ c, s.count ≤ c → s.conn c = ⟨false, .fresh, false⟩
  allocated : ∀ c, s.accepting = .allocated c →
    c ∈ s.channels ∧ s.conn c = ⟨false, .fresh, false⟩
  accepted : ∀ c ok, s.accepting = .connected c ok →
    c ∈ s.channels ∧ (s.conn c).connected = ok ∧ c < s.count
  busy : s.accepting ≠ .idle → s.listener.phase = .opened
  up : ∀ c, (s.conn c).connected = true → c ∈ s.channels ∧ (s.conn c).handle.phase = .opened
  there : ∀ c ∈ s.channels, (s.conn c).connected = true ∨ (s.conn c).handle.phase = .closing ∨
    s.accepting = .allocated c
  installed : ∀ c ∈ s.channels, s.accepting.about ≠ some c → (s.conn c).installed = true
  started : s.started = true → s.listener.phase = .opened
  posted : s.listener.phase ≠ .opened ∨ .listener ∈ s.tasks → s.user = .returned
  closed : s.closed = true → s.listener.phase = .closed

/-- A server that has not been started is sound. -/
theorem Initial.sound (initial : s.Initial) : s.Sound := by
  obtain ⟨user, started, listener, accepting, channels, count, conn, tasks, closed⟩ := initial
  constructor <;> simp [*]

/-- The connection of a channel changes, when no accept is about to connect it. -/
theorem Sound.put (sound : s.Sound) {c : Nat} {conn : ChannelConnection} (below : c < s.count)
    (unallocated : s.accepting ≠ .allocated c)
    (accepted : ∀ ok, s.accepting = .connected c ok → conn.connected = ok)
    (up : conn.connected = true → c ∈ s.channels ∧ conn.handle.phase = .opened)
    (there : c ∈ s.channels → conn.connected = true ∨ conn.handle.phase = .closing)
    (installed : c ∈ s.channels → s.accepting.about ≠ some c → conn.installed = true) :
    (s.put c conn).Sound :=
  { sound with
    unmade := by
      intro other above
      have ne : other ≠ c := by
        rintro rfl
        exact absurd below (Nat.not_lt.mpr above)
      simpa [ne] using sound.unmade other above
    allocated := by
      intro other now
      have ne : other ≠ c := by
        rintro rfl
        exact unallocated now
      simpa [ne] using sound.allocated other now
    accepted := by
      intro other ok now
      by_cases is : other = c
      · subst is
        simpa using ⟨(sound.accepted other ok now).1, accepted ok now, below⟩
      · simpa [is] using sound.accepted other ok now
    up := by
      intro other
      by_cases is : other = c
      · subst is
        simpa using up
      · simpa [is] using sound.up other
    there := by
      intro other member
      by_cases is : other = c
      · subst is
        simpa using (there member).imp_right .inl
      · simpa [is] using sound.there other member
    installed := by
      intro other member about
      by_cases is : other = c
      · subst is
        simpa using installed member about
      · simpa [is] using sound.installed other member about }

/-- A connection whose handle has been touched has been made. -/
theorem Sound.below (sound : s.Sound) {c : Nat} (touched : (s.conn c).handle.phase ≠ .fresh) :
    c < s.count := by
  by_contra above
  simp [sound.unmade c (Nat.not_lt.mp above), Uv.Handle.fresh] at touched

/-- A connection is stopped. -/
theorem Sound.onStop_eq (sound : s.Sound) {c : Nat} (up : (s.conn c).connected = true) :
    s.onStop c =
      s.put c { s.conn c with connected := false, handle := (s.conn c).handle.close } := by
  have opened := (sound.up c up).2
  have open' : (s.conn c).handle.isClosing = false := by simp [Uv.Handle.isClosing, opened]
  simp [onStop, up, open']

/-- The stop of a connection leaves its channel to the close callback. -/
theorem Sound.onStop (sound : s.Sound) (idle : s.accepting = .idle) (c : Nat) :
    (s.onStop c).Sound := by
  cases up : (s.conn c).connected with
  | false => simpa [ListeningServer.onStop, up] using sound
  | true =>
      obtain ⟨member, opened⟩ := sound.up c up
      have below := sound.below (c := c) (by simp [opened])
      rw [sound.onStop_eq up]
      refine sound.put below (by simp [idle]) (by simp [idle]) (by simp) (fun _ => .inr ?_) ?_
      · exact Uv.Handle.close_opened opened
      · exact fun _ about => sound.installed c member about

/-- The loop thread executes a task that stops a channel. -/
theorem Sound.dequeue (sound : s.Sound) {task : StopTask} {rest : List StopTask}
    (tasks : s.tasks = task :: rest) : { s with tasks := rest }.Sound :=
  { sound with
    posted := fun posted => sound.posted (posted.imp_right fun member =>
      tasks ▸ List.mem_cons_of_mem _ member) }

/-- `on_alloc` of the server. -/
theorem Sound.alloc (sound : s.Sound) (idle : s.accepting = .idle)
    (listening : s.listener.phase = .opened) :
    { s with
      accepting := .allocated s.count
      channels := s.count :: s.channels
      count := s.count + 1 }.Sound := by
  have new : s.count ∉ s.channels := fun member => Nat.lt_irrefl _ (sound.made _ member)
  exact { sound with
    nodup := List.nodup_cons.mpr ⟨new, sound.nodup⟩
    made := by
      intro c member
      rcases List.mem_cons.mp member with rfl | before
      · exact Nat.lt_succ_self _
      · exact Nat.lt_succ_of_lt (sound.made c before)
    unmade := fun c above => sound.unmade c (Nat.le_of_succ_le above)
    allocated := by
      intro c now
      cases now
      exact ⟨List.mem_cons_self, sound.unmade _ (Nat.le_refl _)⟩
    accepted := by
      intro c ok now
      cases now
    busy := fun _ => listening
    up := fun c connected =>
      ⟨List.mem_cons_of_mem _ (sound.up c connected).1, (sound.up c connected).2⟩
    there := by
      intro c member
      rcases List.mem_cons.mp member with rfl | before
      · exact .inr (.inr rfl)
      · have known : (s.conn c).connected = true ∨ (s.conn c).handle.phase = .closing := by
          simpa [idle] using sound.there c before
        exact known.imp_right .inl
    installed := by
      intro c member about
      rcases List.mem_cons.mp member with rfl | before
      · exact absurd rfl about
      · exact sound.installed c before (by simp [idle, Accepting.about]) }

/-- A connection that was just made is connected, or has failed and is closing. -/
theorem accept_eq {c : Nat} (blank : s.conn c = ⟨false, .fresh, false⟩) (ok : Bool) :
    ∃ handle : Uv.Handle, handle.phase = (if ok then .opened else .closing) ∧
      s.accept c ok =
        { s.put c ⟨ok, handle, false⟩ with accepting := .connected c ok } := by
  cases ok with
  | true => exact ⟨Uv.Handle.fresh.init, rfl, by simp [ListeningServer.accept, blank]⟩
  | false =>
      refine ⟨Uv.Handle.fresh.init.close, rfl, ?_⟩
      have open' : Uv.Handle.fresh.init.isClosing = false := rfl
      simp [ListeningServer.accept, ListeningServer.onStop, blank, put, open']

/-- `accept_connect`. -/
theorem Sound.accept (sound : s.Sound) {c : Nat} (allocated : s.accepting = .allocated c)
    (ok : Bool) : (s.accept c ok).Sound := by
  obtain ⟨member, blank⟩ := sound.allocated c allocated
  obtain ⟨handle, phase, same⟩ := accept_eq blank ok
  rw [same]
  exact { sound with
    unmade := by
      intro other above
      have ne : other ≠ c := by
        rintro rfl
        exact absurd (sound.made other member) (Nat.not_lt.mpr above)
      simpa [ne] using sound.unmade other above
    allocated := fun _ now => (by cases now)
    accepted := by
      intro _ _ now
      cases now
      exact ⟨member, by simp, sound.made c member⟩
    busy := fun _ => sound.busy (by simp [allocated])
    up := by
      intro other
      by_cases is : other = c
      · subst is
        simp only [put_conn, if_true, put_channels]
        exact fun connected => ⟨member, by rw [phase, connected]; rfl⟩
      · simpa [is] using sound.up other
    there := by
      intro other listed
      by_cases is : other = c
      · subst is
        cases ok <;> simp [phase]
      · simpa [is, allocated, Ne.symm is] using sound.there other listed
    installed := by
      intro other listed about
      have ne : other ≠ c := fun is => about (by simp [is, Accepting.about])
      simpa [ne] using
        sound.installed other listed (by simp [allocated, Accepting.about, Ne.symm ne]) }

/-- A channel that is not connected leaves the set, and no accept is about it any more. -/
theorem Sound.drop (sound : s.Sound) {c : Nat} (down : (s.conn c).connected = false)
    (about : ∀ other, other ≠ c → s.accepting.about ≠ some other) :
    { s with channels := s.channels.erase c, accepting := .idle }.Sound := by
  have kept : ∀ other, other ∈ s.channels.erase c → other ≠ c ∧ other ∈ s.channels :=
    fun _ => sound.nodup.mem_erase_iff.mp
  exact { sound with
    nodup := sound.nodup.erase c
    made := fun other listed => sound.made other (kept other listed).2
    allocated := fun _ now => (by cases now)
    accepted := fun _ _ now => (by cases now)
    busy := fun busy => absurd rfl busy
    up := by
      intro other connected
      have ne : other ≠ c := by
        rintro rfl
        exact absurd (down.symm.trans connected) (by simp)
      obtain ⟨listed, opened⟩ := sound.up other connected
      exact ⟨(List.mem_erase_of_ne ne).mpr listed, opened⟩
    there := by
      intro other listed
      obtain ⟨ne, before⟩ := kept other listed
      have unallocated : s.accepting ≠ .allocated other := fun now =>
        about other ne (by rw [now]; rfl)
      simpa [unallocated] using sound.there other before
    installed := by
      intro other listed _
      obtain ⟨ne, before⟩ := kept other listed
      exact sound.installed other before (about other ne) }

/-- `on_accept` of the server, after a successful accept. -/
theorem Sound.install (sound : s.Sound) {c : Nat} (accepting : s.accepting = .connected c true) :
    { s.put c { s.conn c with installed := true } with accepting := .idle }.Sound := by
  obtain ⟨member, connected, below⟩ := sound.accepted c true accepting
  have installed : (s.put c { s.conn c with installed := true }).Sound := by
    refine sound.put below (by simp [accepting]) (by simp [accepting, connected]) ?_ ?_ ?_
    · exact sound.up c
    · exact fun _ => .inl connected
    · exact fun _ _ => rfl
  exact { installed with
    allocated := fun _ now => (by cases now)
    accepted := fun _ _ now => (by cases now)
    busy := fun now => absurd rfl now
    there := by
      intro other listed
      simpa [accepting] using installed.there other listed
    installed := by
      intro other listed _
      by_cases is : other = c
      · simp [is]
      · exact installed.installed other listed (by simp [accepting, Accepting.about, Ne.symm is]) }

/-- Between two accepts, the close callback of a connection removes its channel if it is still
there. -/
theorem Sound.onClose_eq (sound : s.Sound) (idle : s.accepting = .idle) (c : Nat)
    (handle : Uv.Handle) :
    (s.put c { s.conn c with handle := handle }).onClose c =
      { s.put c { s.conn c with handle := handle } with channels := s.channels.erase c } := by
  simp only [onClose, put_conn, if_true, put_channels]
  split
  · rfl
  · next uninstalled =>
      have gone : c ∉ s.channels := fun member =>
        uninstalled (sound.installed c member (by simp [idle, Accepting.about]))
      rw [List.erase_of_not_mem gone]
      rfl

/-- The close callback of a connection. -/
theorem Sound.deliver (sound : s.Sound) (idle : s.accepting = .idle) {c : Nat}
    (closing : (s.conn c).handle.phase = .closing) :
    ((s.put c { s.conn c with handle := (s.conn c).handle.deliver }).onClose c).Sound := by
  rw [sound.onClose_eq idle]
  have down : (s.conn c).connected = false := by
    by_contra up
    have opened := (sound.up c (by simpa using up)).2
    exact absurd (closing.symm.trans opened) (by decide)
  have below := sound.below (c := c) (by simp [closing])
  have gone : c ∉ s.channels.erase c := sound.nodup.not_mem_erase
  have dropped : { s with channels := s.channels.erase c }.Sound := by
    have dropped := sound.drop down (by simp [idle, Accepting.about])
    rwa [← idle] at dropped
  exact dropped.put below (by simp [idle]) (by simp [idle]) (by simp [down])
    (fun member => absurd member gone) (fun member => absurd member gone)

/-- `on_stop` of the listener. -/
theorem Sound.onStopListener (sound : s.Sound) (idle : s.accepting = .idle)
    (returned : s.user = .returned) : s.onStopListener.Sound := by
  unfold ListeningServer.onStopListener
  split
  · exact sound
  · next started =>
      have opened := sound.started (by simpa using started)
      have open' : s.listener.isClosing = false := by simp [Uv.Handle.isClosing, opened]
      simp only [open', Bool.false_eq_true, if_false]
      exact { sound with
        busy := fun busy => absurd idle busy
        started := fun now => absurd now (by simp)
        posted := fun _ => returned
        closed := fun closed => absurd (opened.symm.trans (sound.closed closed)) (by decide) }

/-- A step keeps the server sound. -/
theorem Sound.step (sound : s.Sound) {action : StopAction} (taken : s.step action = some next) :
    next.Sound := by
  cases step_transition taken with
  | sweep running =>
      exact { sound with
        posted := by
          intro posted
          have before : s.user = .returned :=
            sound.posted (posted.imp_right (by simp [ListeningServer.sweep]))
          exact absurd (running.symm.trans before) (by decide) }
  | post => exact { sound with posted := fun _ => rfl }
  | asked => exact { sound with posted := fun posted => sound.posted (posted.imp_right (by simp)) }
  | refused => exact sound
  | alloc idle listening => exact sound.alloc idle listening
  | accept allocated => exact sound.accept allocated _
  | install accepted => exact sound.install accepted
  | @drop c failed =>
      refine sound.drop (sound.accepted c false failed).2.1 fun other ne => ?_
      simpa [failed, Accepting.about] using Ne.symm ne
  | hangup idle => exact sound.onStop idle _
  | stop idle tasks => exact (sound.dequeue tasks).onStop idle _
  | stopListener idle tasks =>
      have returned : s.user = .returned := sound.posted (.inr (tasks ▸ List.mem_cons_self))
      exact (sound.dequeue tasks).onStopListener idle returned
  | closed idle closing => exact sound.deliver idle closing
  | listenerClosed idle closing =>
      have returned : s.user = .returned := sound.posted (.inl (by simp [closing]))
      exact { sound with
        busy := fun busy => absurd idle busy
        started := fun started => absurd (closing.symm.trans (sound.started started)) (by decide)
        posted := fun _ => returned
        closed := fun _ => Uv.Handle.deliver_closing closing }

end ListeningServer

end Sdpf.Server
