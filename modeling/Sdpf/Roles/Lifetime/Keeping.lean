import Sdpf.Roles.Lifetime.Holding

/-!
# Pointers and fields

Copying and dropping pointers, changing a field, making an object and posting a task keep
what a world has to be.
-/

namespace Sdpf.Roles

open Sdpf.Data Sdpf.Semantics

namespace World

variable {s next start middle finish : World} {old : Ref → Prop} {n c : Nat} {r other : Ref}

namespace Sound

/-- What is rooted is alive. -/
theorem of_rooted (sound : s.Sound old) (rooted : s.Rooted r) : r ∈ s.live :=
  (sound.live r).mpr (.inl rooted)

/-- What somebody has a pointer to is alive. -/
theorem of_has (sound : s.Sound old) (has : s.Has r) : r ∈ s.live := sound.of_rooted (.inr has)

/-- A live object may be touched. -/
theorem touch (_ : s.Sound old) (live : r ∈ s.live) : s.touch r = s := by
  simp [World.touch, live]

/-- A further pointer to what is alive keeps it so. -/
theorem give (sound : s.Sound old) (live : r ∈ s.live) : (s.give r).Sound old where
  fault := sound.fault
  old := sound.old
  live := by
    refine live_iff_of_rooted sound.live rfl (fun _ => rfl) (fun other rooted => ?_) fun other => ?_
    · exact rooted.imp_right fun has => has_give.mpr (.inl has)
    · rintro (shares | has)
      · exact sound.of_rooted (.inl shares)
      · rcases has_give.mp has with has | rfl
        · exact sound.of_has has
        · exact live
  made := sound.made
  posted := sound.posted
  unstarted := sound.unstarted
  calls := sound.calls

/-- Where less is rooted, the rest is destroyed. -/
theorem settled (sound : s.Sound old) (fault : next.fault = false) (live : next.live = s.live)
    (connections : next.connections = s.connections) (channels : next.channels = s.channels)
    (made : ∀ r, s.Made r → next.Made r) (posted : next.posted = s.posted)
    (has : ∀ r, next.Has r → s.Has r) : next.settle.Sound old where
  fault := fault
  old := by
    intro r here
    have shares := sound.old r here
    cases r <;> simpa [pif, settle, connections, channels] using shares
  live := by
    have rooted : ∀ r, next.Rooted r → s.Rooted r := fun r => by
      rintro (shares | holds)
      · refine .inl ?_
        cases r <;> simpa [pif, connections, channels] using shares
      · exact .inr (has r holds)
    refine settle_live fun r kept => ?_
    rw [live, sound.live]
    rcases kept with root | ⟨c, rfl, root⟩
    · exact .inl (rooted r root)
    · exact .inr ⟨c, by rw [channels], rooted _ root⟩
  made r member := by
    refine made r (sound.made r ?_)
    rw [← live]
    exact Shared.collect_supported.1 member
  posted := by
    change ∀ n task, (n, task) ∈ next.posted → (next.connections n).pif = true
    rw [posted, connections]
    exact sound.posted
  unstarted := by
    change ∀ n, (next.connections n).pif = false → (next.connections n).conn.Unstarted
    rw [connections]
    exact sound.unstarted
  calls := by
    change ∀ n c, (next.connections n).hooked = some c ∨ (next.connections n).bound = some c →
      (next.channels c).pif = true
    rw [connections, channels]
    exact sound.calls

/-- Letting go of a pointer collects what it kept. -/
theorem drop (sound : s.Sound old) (r : Ref) : (s.drop r).Sound old := by
  refine sound.settled sound.fault rfl rfl rfl (fun _ => id) rfl fun other has => ?_
  refine has.imp_left fun some none => some ?_
  by_cases same : other = r
  · subst same
    simp [none]
  · simpa [same] using none

/-- A change of a connection that keeps its `pif_` keeps everything. -/
theorem setConnection {change : TcpObject → TcpObject} (sound : s.Sound old)
    (keeps : (s.connections n).pif = true → (change (s.connections n)).pif = true)
    (lives : (change (s.connections n)).pif = true → .connection n ∈ s.live)
    (unstarted : (change (s.connections n)).pif = false →
      (change (s.connections n)).conn.Unstarted)
    (calls : ∀ c, (change (s.connections n)).hooked = some c ∨
      (change (s.connections n)).bound = some c → (s.channels c).pif = true) :
    (s.setConnection n change).Sound old := by
  have still : ∀ m, (s.connections m).pif = true →
      ((s.setConnection n change).connections m).pif = true := fun m here => by
    rw [setConnection_apply]
    split_ifs with same
    · exact keeps (same ▸ here)
    · exact here
  refine ⟨sound.fault, ?_, ?_, sound.made, ?_, ?_, ?_⟩
  · intro r here
    cases r with
    | connection m => exact still m (sound.old _ here)
    | channel c => exact sound.old (.channel c) here
  · refine live_iff_of_rooted sound.live rfl (fun _ => rfl) (fun other rooted => ?_) fun other => ?_
    · refine rooted.imp_left fun here => ?_
      cases other with
      | connection m => exact still m here
      | channel c => exact here
    · rintro (here | has)
      · cases other with
        | connection m =>
            simp only [pif, setConnection_apply] at here
            split_ifs at here with same
            · subst same
              exact lives here
            · exact sound.of_rooted (.inl here)
        | channel c => exact sound.of_rooted (.inl here)
      · exact sound.of_has has
  · exact fun m task member => still m (sound.posted m task member)
  · intro m down
    rw [setConnection_apply] at down ⊢
    split_ifs at down ⊢ with same
    · exact unstarted down
    · exact sound.unstarted m down
  · intro m c called
    simp only [Calls, setConnection_apply] at called
    split_ifs at called with same
    · exact calls c called
    · exact sound.calls m c called

/-- A change of a channel that keeps its `pif_` and its connection keeps everything. -/
theorem setChannel {change : RpcObject → RpcObject} (sound : s.Sound old)
    (conn : (change (s.channels c)).conn = (s.channels c).conn)
    (keeps : (s.channels c).pif = true → (change (s.channels c)).pif = true)
    (lives : (change (s.channels c)).pif = true → .channel c ∈ s.live) :
    (s.setChannel c change).Sound old := by
  have still : ∀ d, (s.channels d).pif = true →
      ((s.setChannel c change).channels d).pif = true := fun d here => by
    rw [setChannel_apply]
    split_ifs with same
    · exact keeps (same ▸ here)
    · exact here
  refine ⟨sound.fault, ?_, ?_, sound.made, sound.posted, sound.unstarted, ?_⟩
  · intro r here
    cases r with
    | connection m => exact sound.old (.connection m) here
    | channel d => exact still d (sound.old _ here)
  · refine live_iff_of_rooted sound.live rfl (fun d => ?_) (fun other rooted => ?_) fun other => ?_
    · rw [setChannel_apply]
      split_ifs with same
      · rw [conn, same]
      · rfl
    · refine rooted.imp_left fun here => ?_
      cases other with
      | connection m => exact here
      | channel d => exact still d here
    · rintro (here | has)
      · cases other with
        | connection m => exact sound.of_rooted (.inl here)
        | channel d =>
            simp only [pif, setChannel_apply] at here
            split_ifs at here with same
            · subst same
              exact lives here
            · exact sound.of_rooted (.inl here)
      · exact sound.of_has has
  · exact fun m d called => still d (sound.calls m d called)

/-- A live object gets hold of itself. -/
theorem share (sound : s.Sound old) (live : r ∈ s.live) : (s.share r).Sound old := by
  cases r with
  | connection n =>
      simp only [World.share]
      refine sound.setConnection (fun _ => rfl) (fun _ => live) (fun down => ?_) (sound.calls n)
      simp only at down
      cases down
  | channel c =>
      simp only [World.share]
      exact sound.setChannel rfl (fun _ => rfl) fun _ => live

/-- Where an object is made that a pointer refers to, nothing else changes. -/
theorem live_iff_of_made (sound : s.Sound old) (live : next.live = insert r s.live)
    (pif : ∀ x, next.pif x = s.pif x) (has : ∀ x, next.Has x ↔ s.Has x ∨ x = r)
    (conn : ∀ c, s.Rooted (.channel c) → (next.channels c).conn = (s.channels c).conn)
    (wrapped : ∀ c, r = .channel c → .connection (next.channels c).conn ∈ s.live) (x : Ref) :
    x ∈ next.live ↔ next.Kept x := by
  have rooted : ∀ x, next.Rooted x ↔ s.Rooted x ∨ x = r := fun x => by
    unfold Rooted
    rw [pif, has, or_assoc]
  rw [live, Finset.mem_insert]
  constructor
  · rintro (rfl | older)
    · exact .inl ((rooted _).mpr (.inr rfl))
    · rcases (sound.live x).mp older with root | ⟨c, rfl, root⟩
      · exact .inl ((rooted _).mpr (.inl root))
      · exact .inr ⟨c, by rw [conn c root], (rooted _).mpr (.inl root)⟩
  · rintro (root | ⟨c, rfl, root⟩)
    · rcases (rooted _).mp root with root | rfl
      · exact .inr (sound.of_rooted root)
      · exact .inl rfl
    · rcases (rooted _).mp root with root | rfl
      · rw [conn c root]
        exact .inr ((sound.live _).mpr (.inr ⟨c, rfl, root⟩))
      · exact .inr (wrapped c rfl)

/-- What is not alive does not keep itself. -/
theorem unshared (sound : s.Sound old) (absent : r ∉ s.live) : s.pif r = false := by
  by_contra shares
  exact absent (sound.of_rooted (.inl (by simpa using shares)))

/-- Construct a connection. -/
theorem newConnection (sound : s.Sound old) : s.newConnection.Sound old := by
  have absent : Ref.connection s.connectionCount ∉ s.live := fun live =>
    Nat.lt_irrefl _ (sound.made _ live)
  have found : ∀ m, s.newConnection.connections m =
      if m = s.connectionCount then newborn else s.connections m := fun m =>
    Function.update_apply _ _ _ _
  have shares : ∀ r, s.newConnection.pif r = s.pif r := by
    intro r
    cases r with
    | connection m =>
        simp only [pif, found]
        split_ifs with same
        · rw [same]
          exact (sound.unshared absent).symm
        · rfl
    | channel c => rfl
  refine ⟨sound.fault, fun r here => (shares r).trans (sound.old r here), ?_,
    fun r member => ?_, fun m task member => ?_, fun m down => ?_, fun m c called => ?_⟩
  · exact sound.live_iff_of_made rfl shares (fun _ => has_give) (fun _ _ => rfl)
      fun _ same => by cases same
  · rcases Finset.mem_insert.mp member with rfl | older
    · exact Nat.lt_succ_self _
    · have made := sound.made r older
      cases r with
      | connection m => exact Nat.lt_succ_of_lt made
      | channel c => exact made
  · exact (shares (.connection m)).trans (sound.posted m task member)
  · rw [found] at down ⊢
    split_ifs at down ⊢ with same
    · exact .of_fresh
    · exact sound.unstarted m down
  · simp only [Calls, found] at called
    split_ifs at called with same
    · rcases called with hooked | bound
      · cases hooked
      · cases bound
    · exact sound.calls m c called

/-- Construct a channel. -/
theorem wrap (sound : s.Sound old) (live : .connection n ∈ s.live) : (s.wrap n).Sound old := by
  have absent : Ref.channel s.channelCount ∉ s.live := fun live =>
    Nat.lt_irrefl _ (sound.made _ live)
  have found : ∀ d, (s.wrap n).channels d =
      if d = s.channelCount then ⟨n, false, false, false⟩ else s.channels d := fun d =>
    Function.update_apply _ _ _ _
  have shares : ∀ r, (s.wrap n).pif r = s.pif r := by
    intro r
    cases r with
    | connection m => rfl
    | channel d =>
        simp only [pif, found]
        split_ifs with same
        · rw [same]
          exact (sound.unshared absent).symm
        · rfl
  refine ⟨sound.fault, fun r here => (shares r).trans (sound.old r here), ?_,
    fun r member => ?_, sound.posted, sound.unstarted, fun m d called => ?_⟩
  · refine sound.live_iff_of_made rfl shares (fun _ => has_give) (fun d root => ?_) fun d same => ?_
    · rw [found, if_neg]
      rintro rfl
      exact absent (sound.of_rooted root)
    · cases same
      rw [found, if_pos rfl]
      exact live
  · rcases Finset.mem_insert.mp member with rfl | older
    · exact Nat.lt_succ_self _
    · have made := sound.made r older
      cases r with
      | connection m => exact made
      | channel d => exact Nat.lt_succ_of_lt made
  · exact (shares (.channel d)).trans (sound.calls m d called)

/-- Making a channel makes its connection too. -/
theorem newChannel (sound : s.Sound old) : s.newChannel.Sound old :=
  (sound.newConnection.wrap (Finset.mem_insert_self _ _)).drop _

/-- Erase a channel from `channels_`. -/
theorem erase (sound : s.Sound old) (c : Nat) :
    ({ s with accepted := s.accepted.erase c } : World).settle.Sound old := by
  refine sound.settled sound.fault rfl rfl rfl (fun _ => id) rfl fun other has => ?_
  refine has.imp_right fun stays => ?_
  obtain ⟨d, member, same⟩ := stays
  exact ⟨d, Finset.mem_of_mem_erase member, same⟩

/-- Insert a channel into `channels_`. -/
theorem insert (sound : s.Sound old) (live : .channel c ∈ s.live) :
    ({ s with accepted := insert c s.accepted } : World).Sound old where
  fault := sound.fault
  old := sound.old
  live := by
    refine live_iff_of_rooted sound.live rfl (fun _ => rfl) (fun other rooted => ?_) fun other => ?_
    · refine rooted.imp_right fun has => has.imp_right fun stays => ?_
      obtain ⟨d, member, same⟩ := stays
      exact ⟨d, Finset.mem_insert_of_mem member, same⟩
    · rintro (shares | points | ⟨d, member, rfl⟩)
      · exact sound.of_rooted (.inl shares)
      · exact sound.of_has (.inl points)
      · rcases Finset.mem_insert.mp member with rfl | older
        · exact live
        · exact sound.of_has (.inr ⟨d, older, rfl⟩)
  made := sound.made
  posted := sound.posted
  unstarted := sound.unstarted
  calls := sound.calls

/-- Post a task for a connection that keeps itself. -/
theorem append (sound : s.Sound old) (shares : (s.connections n).pif = true) (task : Task) :
    ({ s with posted := s.posted ++ [(n, task)] } : World).Sound old where
  fault := sound.fault
  old := sound.old
  live := sound.live
  made := sound.made
  posted m other member := by
    rcases List.mem_append.mp member with earlier | last
    · exact sound.posted m other earlier
    · cases List.mem_singleton.mp last
      exact shares
  unstarted := sound.unstarted
  calls := sound.calls

/-- Take a task out of the queue. -/
theorem remove (sound : s.Sound old) (entry : Nat × Task) :
    ({ s with posted := s.posted.erase entry } : World).Sound old where
  fault := sound.fault
  old := sound.old
  live := sound.live
  made := sound.made
  posted m task member := sound.posted m task (List.mem_of_mem_erase member)
  unstarted := sound.unstarted
  calls := sound.calls

end Sound

end World

end Sdpf.Roles
