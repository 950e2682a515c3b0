import Sdpf.Roles.Lifetime.Steps

/-!
# How long connections and channels live

What keeps a bare `this` from dangling is `pif_`, which `start` and `accept_connect` let an
object hold to itself and which nothing lets go: as long as libuv's callbacks reach the
object they belong to, no destroyed one is touched in any run (`objects_live`).
-/

namespace Sdpf.Roles

open Sdpf.Data Sdpf.Semantics

namespace World

variable {s next start middle finish : World} {old : Ref → Prop} {n c : Nat} {r other : Ref}

namespace Sound

/-- Every run keeps a world sound. -/
theorem run {operations : List Operation} (sound : s.Sound old)
    (runs : worldMachine.Runs s operations finish) : finish.Sound old :=
  runs.invariant (fun s => s.Sound old) (fun sound taken => sound.step taken) sound

/-- Before the first operation nothing is alive. -/
theorem of_initial (initial : s.Initial) : s.Sound fun _ => False := by
  have rooted : ∀ r, ¬ s.Rooted r := by
    rintro r (shares | points | ⟨c, member, -⟩)
    · cases r with
      | connection n => simp [pif, (initial.connections n).1] at shares
      | channel c => simp [pif, initial.channels c] at shares
    · exact points (initial.pointers r)
    · simp [initial.accepted] at member
  refine ⟨initial.fault, fun _ => False.elim, fun r => ?_, ?_, ?_,
    fun n _ => (initial.connections n).2.1, fun n c called => ?_⟩
  · rw [initial.live]
    refine iff_of_false (Finset.notMem_empty r) ?_
    rintro (root | ⟨c, -, root⟩)
    · exact rooted _ root
    · exact rooted _ root
  · simp [initial.live]
  · simp [initial.posted]
  · obtain ⟨-, -, hooked, bound⟩ := initial.connections n
    rcases called with here | here
    · rw [hooked] at here
      cases here
    · rw [bound] at here
      cases here

end Sound

/-- In every run no destroyed object is touched, and every `this` that a task, libuv or a
callback has refers to a live object. The live objects are those that are rooted and the
connections of such channels; one that has got hold of itself is never destroyed. -/
theorem objects_live {before after : List Operation} (initial : start.Initial)
    (first : worldMachine.Runs start before middle)
    (second : worldMachine.Runs middle after finish) :
    finish.fault = false ∧
      (∀ n task, (n, task) ∈ finish.posted → .connection n ∈ finish.live) ∧
      (∀ n, (finish.connections n).conn.InLoop → .connection n ∈ finish.live) ∧
      (∀ n c, finish.Calls n c → .channel c ∈ finish.live) ∧
      (∀ r, r ∈ finish.live ↔ finish.Kept r) ∧
      ∀ r, middle.pif r = true → r ∈ finish.live := by
  have reached := (Sound.of_initial initial).run first
  have kept : middle.Sound fun r => middle.pif r = true :=
    { reached with old := fun _ => id }
  have sound := kept.run second
  refine ⟨sound.fault, fun n task member => ?_, fun n working => ?_, fun n c calls => ?_,
    sound.live, fun r shares => sound.of_rooted (.inl (sound.old r shares))⟩
  · exact sound.of_rooted (.inl (sound.posted n task member))
  · refine sound.of_rooted (.inl ?_)
    by_contra down
    exact (sound.unstarted n (by simpa [pif] using down)).not_inLoop working
  · exact sound.of_rooted (.inl (sound.calls n c calls))

/-- Nothing has been made, and nothing is referred to. -/
def empty : World where
  connections _ := newborn
  channels _ := ⟨0, false, false, false⟩
  connectionCount := 0
  channelCount := 0
  live := ∅
  pointers _ := 0
  accepted := ∅
  posted := []
  fault := false

/-- The empty world is an initial one. -/
theorem empty_initial : empty.Initial where
  connections _ := ⟨rfl, .of_fresh, rfl, rfl⟩
  channels _ := rfl
  live := rfl
  pointers _ := rfl
  accepted := rfl
  posted := rfl
  fault := rfl

/-- A channel is started and let go; then it is connected, and closed by the other side. -/
theorem objects_live_started :
    ∃ middle finish,
      worldMachine.Runs empty
        [.makeChannel, .startChannel 0 true true, .drop (.channel 0)] middle ∧
      worldMachine.Runs middle
        [.run 0 (.start none), .event 0 (.connect 0), .event 0 (.ret 0), .event 0 (.read (-4095)),
          .event 0 .closed] finish ∧
      middle.pif (.channel 0) = true ∧ Ref.channel 0 ∈ finish.live := by
  obtain ⟨middle, first, seen⟩ := @Machine.Runs.of_map _ _ worldMachine _
    (fun s => (s.pif (.channel 0), (worldMachine.run s
      [.run 0 (.start none), .event 0 (.connect 0), .event 0 (.ret 0), .event 0 (.read (-4095)),
        .event 0 .closed]).isSome))
    empty [.makeChannel, .startChannel 0 true true, .drop (.channel 0)] (true, true)
    (by decide +kernel)
  obtain ⟨shares, goes⟩ := Prod.mk.inj seen
  obtain ⟨finish, executed⟩ := Option.isSome_iff_exists.mp goes
  have second := Machine.Runs.of_run executed
  exact ⟨middle, finish, first, second, shares,
    (objects_live empty_initial first second).2.2.2.2.2 _ shares⟩

end World

end Sdpf.Roles
