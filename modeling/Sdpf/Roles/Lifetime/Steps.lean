import Sdpf.Roles.Lifetime.Keeping

/-!
# Steps of connections and channels

Every operation keeps a world sound: it is put together from changes of pointers and fields,
and what it calls by a bare `this` has got hold of itself before.
-/

namespace Sdpf.Roles

open Sdpf.Data Sdpf.Semantics

namespace World

variable {s next start middle finish : World} {old : Ref → Prop} {n c : Nat} {r other : Ref}

namespace Sound

/-- A connection that is connected keeps itself. -/
theorem shares_of_connected (sound : s.Sound old) (up : (s.connections n).conn.connected = true) :
    (s.connections n).pif = true := by
  by_contra down
  rw [(sound.unstarted n (by simpa using down)).connected] at up
  cases up

/-- `on_connect` of a channel. -/
theorem onConnect (sound : s.Sound old) (shares : (s.channels c).pif = true) (status : Int) :
    (s.onConnect c status).Sound old := by
  unfold World.onConnect
  split_ifs
  · have established := @setConnection s old (s.channels c).conn (fun object =>
      { object with
        conn := { object.conn with recvCb := true, sendCb := true, closeCb := true }
        bound := some c }) sound id (fun here => sound.of_rooted (.inl here))
      (fun down => ?_) fun d called => ?_
    · exact setChannel established rfl id fun _ => sound.of_rooted (.inl shares)
    · exact (sound.unstarted _ down).callbacks _ _ _ _
    · rcases called with hooked | bound
      · exact sound.calls _ d (.inl hooked)
      · cases bound
        exact shares
  · exact sound

/-- `on_close` of a channel. -/
theorem onClose (sound : s.Sound old) (shares : (s.channels c).pif = true) :
    (s.onClose c).Sound old := by
  have closed : (s.setChannel c fun object => { object with services := false }).Sound old :=
    sound.setChannel rfl id fun _ => sound.of_rooted (.inl shares)
  unfold World.onClose
  simp only
  split_ifs
  · exact closed.erase c
  · exact closed

/-- A callback finds its channel alive. -/
theorem react (sound : s.Sound old) (n : Nat) (called : Option Tcp.Callback) :
    (s.react n called).Sound old := by
  have alive : ∀ c, (s.connections n).hooked = some c ∨ (s.connections n).bound = some c →
      (s.channels c).pif = true ∧ s.touch (.channel c) = s := fun c calls =>
    have shares := sound.calls n c calls
    ⟨shares, sound.touch (sound.of_rooted (.inl shares))⟩
  have bound : ((s.connections n).bound.elim s fun c => s.touch (.channel c)).Sound old := by
    cases bound : (s.connections n).bound with
    | none => exact sound
    | some c =>
        rw [Option.elim_some, (alive c (.inr bound)).2]
        exact sound
  cases called with
  | none => exact sound
  | some callback =>
      cases callback with
      | connect status =>
          simp only [World.react]
          cases hooked : (s.connections n).hooked with
          | none => exact sound
          | some c =>
              obtain ⟨shares, same⟩ := alive c (.inl hooked)
              rw [Option.elim_some, same]
              exact sound.onConnect shares status
      | close =>
          simp only [World.react]
          cases bound : (s.connections n).bound with
          | none => exact sound
          | some c =>
              obtain ⟨shares, same⟩ := alive c (.inr bound)
              rw [Option.elim_some, same]
              exact sound.onClose shares
      | receive _ => exact bound
      | send _ _ => exact bound

/-- What a connection does that keeps itself, or has not been started and is not by this. -/
theorem perform {action : Tcp.Action} (sound : s.Sound old) (live : .connection n ∈ s.live)
    (settled : ∀ conn, (s.connections n).conn.step action = some conn →
      (s.connections n).pif = false → conn.Unstarted)
    (performed : s.perform n action = some next) : next.Sound old := by
  obtain ⟨conn, stepped, rfl⟩ := Option.map_eq_some_iff.mp performed
  have moved : ((s.touch (.connection n)).setConnection n fun object =>
      { object with conn := conn }).Sound old := by
    rw [sound.touch live]
    exact sound.setConnection id (fun _ => live) (settled conn stepped) (sound.calls n)
  simp only
  split
  · exact (moved.react n _).react n _
  · exact moved.react n _

/-- `start` of a connection shares it before it posts the task. -/
theorem startConnection (sound : s.Sound old) (live : .connection n ∈ s.live) (taken : Bool) :
    (s.startConnection n taken).Sound old := by
  have kept := sound.share live
  unfold World.startConnection
  rw [sound.touch live]
  simp only
  split_ifs
  · refine kept.append ?_ .start
    simp [World.share, setConnection_apply]
  · exact kept

/-- `start` of a channel shares it and starts its connection. -/
theorem startChannel (sound : s.Sound old) (live : .channel c ∈ s.live) (addressed taken : Bool) :
    (s.startChannel c addressed taken).Sound old := by
  have kept := sound.share live
  have shares : ((s.share (.channel c)).channels c).pif = true := by
    simp [World.share, setChannel_apply]
  have connection : Ref.connection (s.channels c).conn ∈ s.live :=
    (sound.live _).mpr (.inr ⟨c, rfl, kept_channel.mp ((sound.live _).mp live)⟩)
  unfold World.startChannel
  rw [sound.touch live]
  simp only
  split_ifs
  · exact kept
  · refine Sound.startConnection ?_ ?_ taken
    · refine kept.setConnection id (fun _ => connection) (fun down => ?_) fun d called => ?_
      · exact (kept.unstarted _ down).callbacks _ _ _ _
      · rcases called with hooked | bound
        · cases hooked
          exact shares
        · exact kept.calls _ d (.inr bound)
    · exact connection

/-- Posting a task for what is shared. -/
theorem post (sound : s.Sound old) (has : s.Has r) (task : Task) (taken : Bool) :
    (s.post r task taken).Sound old := by
  have live := sound.of_has has
  have target : Ref.connection (s.target r) ∈ s.live := by
    cases r with
    | connection n => exact live
    | channel c => exact (sound.live _).mpr (.inr ⟨c, rfl, .inr has⟩)
  unfold World.post
  rw [sound.touch live, sound.touch target]
  simp only
  split_ifs with posts
  · exact sound.append (sound.shares_of_connected posts.2) task
  · exact sound

/-- A connection is accepted. If it is new, it calls nobody. -/
theorem accept {ret : Int} (sound : s.Sound old) (live : .connection n ∈ s.live)
    (accepted : s.accept n ret = some next) : next.Sound old := by
  unfold World.accept at accepted
  rw [sound.touch live] at accepted
  refine (sound.share live).perform live (fun conn _ down => ?_) accepted
  simp [World.share, setConnection_apply] at down

/-- The connection that is returned is new, and its channel is in `channels_`. -/
theorem onAlloc (sound : s.Sound old) : s.onAlloc.Sound old ∧
    s.onAlloc.connections s.connectionCount = { newborn with data := some s.channelCount } ∧
    s.channelCount ∈ s.onAlloc.accepted ∧ s.onAlloc.Has (.connection s.connectionCount) := by
  have made := sound.newChannel
  have channel := made.of_has newChannel_has
  have connection : Ref.connection s.connectionCount ∈ s.newChannel.live := by
    refine (made.live _).mpr (.inr ⟨s.channelCount, ?_, .inr newChannel_has⟩)
    rw [newChannel_conn]
  have given := made.give connection
  have new : (s.newChannel.give (.connection s.connectionCount)).connections s.connectionCount =
      newborn := newChannel_newborn
  have named : ((s.newChannel.give (.connection s.connectionCount)).setConnection
      s.connectionCount fun object => { object with data := some s.channelCount }).Sound old := by
    refine given.setConnection id (fun _ => connection) (fun _ => ?_) (given.calls _)
    rw [new]
    exact .of_fresh
  refine ⟨(named.insert channel).drop _, ?_, Finset.mem_insert_self _ _, ?_⟩
  · simp [World.onAlloc, World.drop, settle, World.give, World.setConnection, newChannel_newborn]
  · refine (has_drop_of_ne (by simp)).mpr ?_
    refine (has_give.mpr (.inr rfl)).imp_right ?_
    rintro ⟨_, -, same⟩
    cases same

/-- The channel is found. -/
theorem onAccept (sound : s.Sound old) (data : (s.connections n).data = some c)
    (member : c ∈ s.accepted) (status : Int) : (s.onAccept n status).Sound old := by
  have live : Ref.channel c ∈ s.live := sound.of_has (.inr ⟨c, member, rfl⟩)
  have found : (s.connections n).data.filter (· ∈ s.accepted) = some c := by simp [data, member]
  unfold World.onAccept
  simp only [found, Option.elim_some]
  split_ifs
  · have served : (s.setChannel c fun object => { object with served := true }).Sound old :=
      sound.setChannel rfl id fun _ => live
    refine (served.share live).onConnect ?_ 0
    simp [World.share, setChannel_apply]
  · exact sound.erase c

/-- Running the task at the front. -/
theorem serve {ret : Int} (sound : s.Sound old) (served : s.serve ret = some next) :
    next.Sound old := by
  obtain ⟨allocated, new, member, has⟩ := sound.onAlloc
  unfold World.serve at served
  obtain ⟨after, accepted, rfl⟩ := Option.map_eq_some_iff.mp served
  have live := allocated.of_has has
  have sound := allocated.accept live accepted
  obtain ⟨data, same⟩ := accept_new (by rw [new]; exact ⟨rfl, rfl⟩) accepted
  rw [new] at data
  rw [← same] at member
  exact (sound.onAccept data member ret).drop _

/-- No operation touches a destroyed object. -/
theorem step {operation : Operation} (sound : s.Sound old)
    (taken : s.step operation = some next) : next.Sound old := by
  unfold World.step at taken
  rw [if_neg (by simp [sound.fault])] at taken
  cases operation with
  | makeConnection =>
      cases taken
      exact sound.newConnection
  | makeChannel =>
      cases taken
      exact sound.newChannel
  | copy r =>
      simp only at taken
      split_ifs at taken with has
      cases taken
      exact sound.give (sound.of_has has)
  | drop r =>
      simp only at taken
      split_ifs at taken with points
      cases taken
      exact sound.drop r
  | connection c =>
      simp only at taken
      split_ifs at taken with has
      cases taken
      rw [sound.touch (sound.of_has has)]
      exact sound.give ((sound.live _).mpr (.inr ⟨c, rfl, .inr has⟩))
  | keep r =>
      simp only at taken
      split_ifs at taken with passes
      cases taken
      exact sound.give (sound.of_rooted (.inl passes.1))
  | callbacks n connCb recvCb sendCb closeCb =>
      simp only at taken
      split_ifs at taken with free
      refine sound.perform (sound.of_has free.1) (fun conn stepped down => ?_) taken
      obtain ⟨-, transition⟩ := Tcp.Connection.step_transition stepped
      cases transition
      exact (sound.unstarted n down).callbacks _ _ _ _
  | startConnection n taken =>
      simp only at taken
      split_ifs at taken with has
      cases taken
      exact sound.startConnection (sound.of_has has) _
  | startChannel c addressed taken =>
      simp only at taken
      split_ifs at taken with has
      cases taken
      exact sound.startChannel (sound.of_has has) _ _
  | stop r taken =>
      simp only at taken
      split_ifs at taken with has
      cases taken
      exact sound.post has .stop _
  | send r taken =>
      simp only at taken
      split_ifs at taken with has
      cases taken
      exact sound.post has .send _
  | run n action =>
      cases runs : Task.of action with
      | none => simp [runs] at taken
      | some task =>
          simp only [runs] at taken
          split_ifs at taken with waits
          have shares := sound.posted n task waits
          refine (sound.remove (n, task)).perform (sound.of_rooted (.inl shares)) ?_ taken
          intro conn _ down
          exact absurd (shares.symm.trans down) (by simp)
  | event n action =>
      simp only at taken
      split_ifs at taken with calls
      obtain ⟨conn, stepped, _⟩ := Option.map_eq_some_iff.mp taken
      have shares : (s.connections n).pif = true := by
        by_contra down
        have unstarted := sound.unstarted n (by simpa using down)
        rw [unstarted.unreached stepped] at calls
        cases calls
      refine sound.perform (sound.of_rooted (.inl shares)) (fun _ _ down => ?_) taken
      rw [shares] at down
      cases down
  | accept n ret =>
      simp only at taken
      split_ifs at taken with has
      exact sound.accept (sound.of_has has) taken
  | serve ret => exact sound.serve taken

end Sound

end World

end Sdpf.Roles
