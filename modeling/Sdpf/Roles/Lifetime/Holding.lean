import Sdpf.Roles.Lifetime.Operations

/-!
# What keeps an object alive

An object is rooted while a pointer in hand, or its own `pif_`, refers to it. Those that are
rooted, and the connections of rooted channels, are what is left when the rest is destroyed.
`Sound` says that they are the live ones, and that every bare `this` is to one of them.
-/

namespace Sdpf.Roles

open Sdpf.Data Sdpf.Semantics

namespace World

variable (s : World)

/-- A pointer of the user, of the server or of the object itself refers to it. -/
def Rooted (r : Ref) : Prop := s.pif r = true ∨ s.Has r

/-- It is rooted, or the connection of a channel that is. -/
def Kept (r : Ref) : Prop :=
  s.Rooted r ∨ ∃ c, r = .connection (s.channels c).conn ∧ s.Rooted (.channel c)

/-- The connection calls functions of the channel. -/
def Calls (n c : Nat) : Prop :=
  (s.connections n).hooked = some c ∨ (s.connections n).bound = some c

/-- The object has been made. -/
def Made : Ref → Prop
  | .connection n => n < s.connectionCount
  | .channel c => c < s.channelCount

/-- Exactly the objects that are kept are alive, and what is referred to by a bare `this` keeps
itself, as do the objects of `old`. -/
structure Sound (s : World) (old : Ref → Prop) : Prop where
  fault : s.fault = false
  old : ∀ r, old r → s.pif r = true
  live : ∀ r, r ∈ s.live ↔ s.Kept r
  made : ∀ r ∈ s.live, s.Made r
  posted : ∀ n task, (n, task) ∈ s.posted → (s.connections n).pif = true
  unstarted : ∀ n, (s.connections n).pif = false → (s.connections n).conn.Unstarted
  calls : ∀ n c, s.Calls n c → (s.channels c).pif = true

end World

namespace World

variable {s next : World} {old : Ref → Prop} {n c : Nat} {r other : Ref}

/-- The count from outside is that of the pointers in hand. -/
theorem outside_ne_zero : s.shared.outside r ≠ 0 ↔ s.Has r := by
  simp only [shared, Has]
  split_ifs with accepted
  · simp [accepted]
  · simp [accepted]

/-- A channel is kept by its roots alone. -/
theorem kept_channel : s.Kept (.channel c) ↔ s.Rooted (.channel c) := by
  refine ⟨fun kept => ?_, .inl⟩
  rcases kept with rooted | ⟨_, same, _⟩
  · exact rooted
  · cases same

/-- A channel survives only if it is rooted. -/
theorem rooted_of_mem_collect (member : Ref.channel c ∈ s.shared.collect.live) :
    s.Rooted (.channel c) := by
  rcases Shared.collect_supported.2 _ member with outside | ⟨holder, -, field⟩
  · exact .inr (outside_ne_zero.mp outside)
  · cases holder with
    | connection m =>
        simp only [shared] at field
        split_ifs at field <;> simp at field
    | channel d =>
        simp only [shared] at field
        split_ifs at field with shares
        · obtain rfl : c = d := by simpa using field
          exact .inl shares
        · simp at field

/-- What is destroyed is what is not kept. -/
theorem settle_live (covered : ∀ r, s.Kept r → r ∈ s.live) (r : Ref) :
    r ∈ s.settle.live ↔ s.Kept r := by
  have rooted : ∀ r, s.Rooted r → r ∈ s.shared.collect.live := fun r rooted => by
    refine Shared.mem_collect_of_root (covered r (.inl rooted)) ?_
    rcases rooted with shares | has
    · refine .inr ?_
      cases r with
      | connection n => simp_all [shared, pif]
      | channel c => simp_all [shared, pif]
    · exact .inl (outside_ne_zero.mpr has)
  constructor
  · intro member
    rcases Shared.collect_supported.2 r member with outside | ⟨holder, survives, field⟩
    · exact .inl (.inr (outside_ne_zero.mp outside))
    · cases holder with
      | connection n =>
          simp only [shared] at field
          split_ifs at field with shares
          · obtain rfl := List.mem_singleton.mp field
            exact .inl (.inl shares)
          · simp at field
      | channel c =>
          have channel := rooted_of_mem_collect survives
          simp only [shared] at field
          split_ifs at field with shares
          · rcases List.mem_cons.mp field with rfl | field
            · exact .inl channel
            · obtain rfl := List.mem_singleton.mp field
              exact .inr ⟨c, rfl, channel⟩
          · obtain rfl := List.mem_singleton.mp field
            exact .inr ⟨c, rfl, channel⟩
  · rintro (root | ⟨c, rfl, root⟩)
    · exact rooted r root
    · refine Shared.mem_collect_of_field (covered _ (.inr ⟨c, rfl, root⟩)) (rooted _ root) ?_
      simp [shared]

/-- Where what is alive gets rooted, nothing else changes. -/
theorem live_iff_of_rooted (live : ∀ r, r ∈ s.live ↔ s.Kept r) (same : next.live = s.live)
    (conn : ∀ c, (next.channels c).conn = (s.channels c).conn)
    (more : ∀ r, s.Rooted r → next.Rooted r) (within : ∀ r, next.Rooted r → r ∈ s.live) (r : Ref) :
    r ∈ next.live ↔ next.Kept r := by
  rw [same, live]
  constructor
  · rintro (rooted | ⟨c, rfl, rooted⟩)
    · exact .inl (more r rooted)
    · exact .inr ⟨c, by rw [conn], more _ rooted⟩
  · rintro (rooted | ⟨c, rfl, rooted⟩)
    · exact (live r).mp (within r rooted)
    · rw [conn]
      exact .inr ⟨c, rfl, kept_channel.mp ((live _).mp (within _ rooted))⟩

/-- One connection is changed. -/
theorem setConnection_apply {change : TcpObject → TcpObject} (m : Nat) :
    (s.setConnection n change).connections m =
      if m = n then change (s.connections n) else s.connections m :=
  Function.update_apply _ _ _ _

/-- One channel is changed. -/
theorem setChannel_apply {change : RpcObject → RpcObject} (d : Nat) :
    (s.setChannel c change).channels d = if d = c then change (s.channels c) else s.channels d :=
  Function.update_apply _ _ _ _

/-- A pointer that is given is had. -/
theorem has_give : (s.give r).Has other ↔ s.Has other ∨ other = r := by
  by_cases same : other = r
  · subst same
    simp [Has, give]
  · simp [Has, give, same]

/-- Dropping a pointer to one object leaves those to the others. -/
theorem has_drop_of_ne (different : other ≠ r) : (s.drop r).Has other ↔ s.Has other := by
  simp [Has, drop, settle, different]

/-- Whoever makes a channel has a pointer to it. -/
theorem newChannel_has : s.newChannel.Has (.channel s.channelCount) := by
  unfold newChannel
  rw [has_drop_of_ne (by simp), wrap]
  exact has_give.mpr (.inr rfl)

/-- The channel holds the connection made for it. -/
theorem newChannel_conn : (s.newChannel.channels s.channelCount).conn = s.connectionCount := by
  simp [newChannel, wrap, drop, settle, give, newConnection]

/-- That connection is new. -/
theorem newChannel_newborn : s.newChannel.connections s.connectionCount = newborn := by
  simp [newChannel, wrap, drop, settle, give, newConnection]

/-- A connection without callbacks of a channel calls none. -/
theorem react_unbound (hooked : (s.connections n).hooked = none)
    (bound : (s.connections n).bound = none) (called : Option Tcp.Callback) :
    s.react n called = s := by
  unfold react
  split <;> simp [hooked, bound]

/-- Accepting a connection nobody has set callbacks on calls nobody. -/
theorem accept_new {ret : Int}
    (new : (s.connections n).hooked = none ∧ (s.connections n).bound = none)
    (accepted : s.accept n ret = some next) :
    (next.connections n).data = (s.connections n).data ∧ next.accepted = s.accepted := by
  obtain ⟨conn, -, rfl⟩ := Option.map_eq_some_iff.mp accepted
  obtain ⟨hooked, bound⟩ := new
  simp only
  rw [react_unbound (by simp [share, touch, setConnection, hooked])
    (by simp [share, touch, setConnection, bound])]
  simp [share, touch, setConnection]

end World

end Sdpf.Roles
