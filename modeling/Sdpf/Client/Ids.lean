import Sdpf.Client.Counting

/-!
# The relation ids of calls

The registration of a notification stays in the table as long as the connection. After 2^32
draws the counter comes back to the id of an entry that is still there; `ids_fresh_iff`
says which runs are spared.
-/

namespace Sdpf.Client

open Sdpf.Data Sdpf.Channel Sdpf.Semantics

namespace Counting

variable {calls : Nat → Call} {s next : Counting}

/-- Outstanding requests are in the table, and their calls have been entered. -/
structure Outstanding (calls : Nat → Call) (s : Counting) : Prop where
  standing : s.Standing calls
  entered : ∀ n ∈ s.live, ¬ (s.world.pc n).Unregistered

/-- Before the first call nothing is outstanding. -/
theorem Outstanding.of_initial (initial : s.Initial) : s.Outstanding calls where
  standing n member := by simp [initial.live] at member
  entered n member := by simp [initial.live] at member

/-- A step that keeps the entries of the calls that are still outstanding. -/
theorem Outstanding.frame (outstanding : s.Outstanding calls)
    (live : ∀ n ∈ next.live, n ∈ s.live)
    (onward : ∀ n, ¬ (s.world.pc n).Unregistered → ¬ (next.world.pc n).Unregistered)
    (drawn : ∀ n ∈ s.live, next.world.drawn n = s.world.drawn n)
    (owner : next.world.owner = s.world.owner)
    (entry : ∀ id, s.world.owner id ∈ next.live → id ∈ s.world.ch.requests →
      next.world.ch.requests.lookup id = s.world.ch.requests.lookup id) :
    next.Outstanding calls where
  standing n member := by
    obtain ⟨id, drew, owned, stored⟩ := outstanding.standing n (live n member)
    refine ⟨id, (drawn n (live n member)).trans drew, by rw [owner, owned], ?_⟩
    rw [entry id (by rwa [owned]) (mem_of_lookup stored), stored]
  entered n member := onward n (outstanding.entered n (live n member))

/-- Settling adds no call to those outstanding. -/
theorem settle_live {id : UInt32} {world : World} {n : Nat} (member : n ∈ s.settle id world) :
    n ∈ s.live := by
  unfold settle at member
  split_ifs at member
  · exact (List.mem_filter.mp member).1
  · exact member

/-- A request that is settled is taken out of the table, and others stay. -/
theorem settle_entry {id other : UInt32} {world : World}
    (taken : world.ch.requests = (s.world.ch.removeRequest id).2.requests)
    (member : s.world.owner other ∈ s.settle id world) (stored : other ∈ s.world.ch.requests) :
    world.ch.requests.lookup other = s.world.ch.requests.lookup other := by
  by_cases same : other = id
  · subst same
    unfold settle at member
    split_ifs at member with gone
    · simp at member
    · have still : other ∈ world.ch.requests := not_not.mp fun absent => gone ⟨stored, absent⟩
      obtain ⟨ctrl, found⟩ := lookup_of_mem still
      rw [found]
      rw [taken] at found
      exact (RpcChannel.removeRequest_subset _ found).symm
  · rw [taken, RpcChannel.removeRequest_other _ same]

/-- A call that is entered has been given an id and was not refused. -/
theorem register_inserts {n : Nat} {id : UInt32} {world : World}
    (moved : s.world.step calls (.register n) = some world) (drew : s.world.drawn n = some id)
    (entered : world.pc n = .registered) :
    s.world.drawn n = some id ∧ ∃ registered, s.world.ch.register (calls n) id = some registered := by
  refine ⟨drew, ?_⟩
  simp only [World.step, drew] at moved
  split_ifs at moved
  cases accepted : s.world.ch.register (calls n) id with
  | some registered => exact ⟨registered, rfl⟩
  | none =>
      rw [accepted] at moved
      cases moved
      simp [World.setPc] at entered

/-- As long as ids are fresh, an outstanding request stays in the table. -/
theorem Outstanding.step {turn : Turn} (outstanding : s.Outstanding calls)
    (fresh : s.Fresh calls turn) (transition : s.step calls turn = some next) :
    next.Outstanding calls := by
  cases turn with
  | leave n =>
      obtain ⟨_, rfl⟩ := step_leave transition
      exact outstanding.frame (fun _ member => member)
        (fun _ => World.setPc_registered (by simp [Pc.Unregistered])) (fun _ _ => rfl) rfl
        fun _ _ _ => rfl
  | act action =>
      obtain ⟨world, moved, rfl⟩ := step_act transition
      have onward : ∀ m, ¬ (s.world.pc m).Unregistered →
          ¬ ((s.note world action).world.pc m).Unregistered := fun m => by
        rw [note_world]
        exact World.step_registered moved
      have drawn : ∀ m ∈ s.live, (s.note world action).world.drawn m = s.world.drawn m :=
        fun m member => by
          rw [note_world]
          exact World.step_drawn moved (outstanding.entered m member)
      have owner : ∀ world : World, world.owner = s.world.owner →
          (s.note world action).world.owner = s.world.owner := fun world same => by
        rw [note_world, same]
      cases World.step_transition moved with
      | @markAccepted n change was doneKept marks resp =>
          refine outstanding.frame (fun m member => ?_) onward drawn (owner _ rfl) fun id _ _ => ?_
          · simpa [note, World.setPc] using member
          · rw [note_world, RpcChannel.modify_requests]
      | @registerAccepted n id was drew =>
          have absent := fresh n id ⟨rfl, register_inserts moved drew (by simp [World.setPc])⟩
          have others : ∀ m ∈ s.live, m ≠ n := fun m member same =>
            outstanding.entered m member (same ▸ .inr (.inr (.inl was)))
          simp only [note, World.setPc, Function.update_self, if_true]
          constructor
          · intro m member
            rcases List.mem_cons.mp member with rfl | before
            · exact ⟨id, drew, Function.update_self .., AList.lookup_insert _⟩
            · obtain ⟨key, drewKey, owned, stored⟩ := outstanding.standing m before
              have distinct : key ≠ id := fun same => absent (same ▸ mem_of_lookup stored)
              exact ⟨key, drewKey, (Function.update_of_ne distinct _ _).trans owned,
                (AList.lookup_insert_ne distinct).trans stored⟩
          · intro m member
            rcases List.mem_cons.mp member with rfl | before
            · simp [Pc.Unregistered]
            · simp only [Function.update_of_ne (others m before)]
              exact outstanding.entered m before
      | @removed n id was drew =>
          refine outstanding.frame (fun m member => ?_) onward drawn (owner _ rfl)
            fun other member stored => ?_
          · simp only [note, drew] at member
            exact settle_live member
          · simp only [note, drew] at member ⊢
            exact settle_entry rfl member stored
      | @found id code body ctrl was stored =>
          exact outstanding.frame (fun m member => settle_live member) onward drawn (owner _ rfl)
            fun other member stored => settle_entry rfl member stored
      | @unknown id code body was absent =>
          refine outstanding.frame (fun m member => settle_live member) onward drawn (owner _ rfl)
            fun other _ _ => ?_
          rw [note_world]
      | closed was =>
          constructor
          · intro m member
            cases member
          · intro m member
            cases member
      | @remarked answer bnotify was =>
          refine outstanding.frame (fun m member => member) onward drawn (owner _ rfl)
            fun id _ _ => ?_
          rw [note_world]
          cases bnotify <;> rfl
      | _ =>
          refine outstanding.frame (fun m member => ?_) onward drawn (owner _ rfl) fun id _ _ => ?_
          · simpa [note, World.setPc] using member
          · exact congrArg (fun world => world.ch.requests.lookup id) (note_world _ _)

/-- The ids that calls draw are not in the table when they are inserted, in exactly those
runs that insert none a multiple of 2^32 draws behind an entry; and in these no outstanding
request is overwritten. -/
theorem ids_fresh_iff {start : Counting} {turns : List Turn} (initial : start.Initial)
    (runs : (countingMachine calls).Runs start turns s) :
    ((countingMachine calls).Along (Fresh calls) start turns ↔
        (countingMachine calls).Along (Spaced calls) start turns) ∧
      ((countingMachine calls).Along (Spaced calls) start turns → s.Standing calls) := by
  have numbered : ∀ {turns s}, (countingMachine calls).Runs start turns s → s.Numbered :=
    fun runs => runs.invariant Numbered (fun numbered transition => numbered.step transition)
      (.of_initial initial)
  have exact : (countingMachine calls).Along (Fresh calls) start turns ↔
      (countingMachine calls).Along (Spaced calls) start turns := by
    induction runs with
    | refl => exact Iff.rfl
    | step prior transition ih =>
        rw [Machine.Along.snoc prior, Machine.Along.snoc prior, ih, (numbered prior).fresh_iff]
  refine ⟨exact, fun spaced => ?_⟩
  exact (runs.guarded (Outstanding calls)
    (fun outstanding fresh transition => outstanding.step fresh transition)
    (.of_initial initial) (exact.mpr spaced)).standing

/-- A call that is not refused enters the table. -/
theorem step_enters {n : Nat} {id : UInt32} {registered : RpcChannel}
    (was : s.world.pc n = .marked) (drew : s.world.drawn n = some id)
    (accepted : s.world.ch.register (calls n) id = some registered) :
    ∃ next, (countingMachine calls).step s (.act (.register n)) = some next := by
  simp [countingMachine, Counting.step, World.step, was, drew, accepted]

/-- Calls that register for notifications of one service, and after 2^32 of them a call of
a method. -/
private def manyCalls (n : Nat) : Call :=
  ⟨CStr.ofBlock [0x61], if n < 2 ^ 32 then methodNotify else CStr.ofBlock [0x62], none, none, n⟩

/-- The early calls are registrations. -/
private theorem manyCalls_notify {n : Nat} (early : n < 2 ^ 32) : (manyCalls n).IsNotify := by
  have method : (manyCalls n).method = methodNotify := if_pos early
  rw [Call.IsNotify, method]
  decide

private def counting : Counting := ⟨World.fresh true, 0, fun _ => 0, []⟩

/-- The count starts at zero. -/
private theorem counting_initial : counting.Initial := ⟨World.fresh_initial true, rfl, rfl⟩

/-- The connection is open, every controller has a callback, and `n` calls have drawn. -/
private structure Ready (n : Nat) (w : World) : Prop where
  connected : w.ch.connected = true
  client : w.ch.serving = false
  id : w.ch.id = UInt32.ofNat n
  done : ∀ m, (w.ch.ctrls m).done = true
  idle : ∀ m, n ≤ m → w.pc m = .idle

/-- The world after a call has marked its controller and drawn its id. -/
private def drew (n : Nat) (change : RpcController → RpcController) (w : World) : World :=
  { w with
    pc := Function.update (Function.update w.pc n .checked) n .marked
    ch := { w.ch with id := w.ch.id + 1 }.modify n fun controller =>
      { change controller with resp := none }
    drawn := Function.update w.drawn n (some (w.ch.id + 1)) }

/-- A call that is idle passes its check and draws the next id. -/
private theorem drew_runs {n : Nat} {s : Counting} {change : RpcController → RpcController}
    (ready : Ready n s.world)
    (accepted : s.world.ch.mark (manyCalls n) = some (s.world.ch.modify n change)) :
    ∃ s', (countingMachine manyCalls).Runs s [.act (.check n), .act (.mark n)] s' ∧
      s'.world = drew n change s.world := by
  have checks : (countingMachine manyCalls).step s (.act (.check n)) =
      some { s with world := s.world.setPc n .checked } := by
    simp [countingMachine, Counting.step, World.step, note, ready.idle n (Nat.le_refl n),
      ready.connected, ready.client]
  have marks : (s.world.setPc n .checked).step manyCalls (.mark n) =
      some (drew n change s.world) := by
    simp only [World.step, World.setPc, Function.update_self, ne_eq, not_true_eq_false, if_false,
      accepted]
    simp [RpcChannel.draw, RpcChannel.modify, drew, manyCalls]
  have counts : (countingMachine manyCalls).step { s with world := s.world.setPc n .checked }
      (.act (.mark n)) = some (Counting.note { s with world := s.world.setPc n .checked }
        (drew n change s.world) (.mark n)) := by
    simp [countingMachine, Counting.step, marks]
  exact ⟨_, .cons checks (.cons counts .refl), note_world _ _⟩

/-- The world after a notification has drawn its id. -/
private def polled (n : Nat) (w : World) : World :=
  drew n (fun controller =>
    { controller with ec := enotifyMark, text := CStr.ofBlock [0x61] }) w

/-- A registration that is idle draws the next id. -/
private theorem polled_runs {n : Nat} {s : Counting} (ready : Ready n s.world)
    (early : n < 2 ^ 32) :
    ∃ s', (countingMachine manyCalls).Runs s [.act (.check n), .act (.mark n)] s' ∧
      s'.world = polled n s.world := by
  refine drew_runs ready ?_
  rw [RpcChannel.mark, if_pos (manyCalls_notify early), if_neg (by simp [manyCalls, ready.done n])]
  exact congrArg some (RpcChannel.modify_modify ..)

/-- The draw leaves the next call ready. -/
private theorem Ready.polled {n : Nat} {w : World} (ready : Ready n w) :
    (polled n w).ch.connected = true ∧ (polled n w).ch.serving = false ∧
      (polled n w).ch.id = UInt32.ofNat (n + 1) ∧
      (∀ m, ((polled n w).ch.ctrls m).done = true) ∧
      (∀ m, n + 1 ≤ m → (polled n w).pc m = .idle) := by
  refine ⟨ready.connected, ready.client, ?_, fun m => ?_, fun m later => ?_⟩
  · simp [Counting.polled, drew, ready.id, UInt32.ofNat_add]
  · simp only [Counting.polled, drew]
    rw [RpcChannel.modify_keeps _ _ RpcController.done (by exact fun _ => rfl)]
    exact ready.done m
  · have other : m ≠ n := by omega
    simp only [Counting.polled, drew, Function.update_of_ne other]
    exact ready.idle m (by omega)

/-- One notification is registered, under the id 1. -/
private structure Polling (n : Nat) (w : World) : Prop where
  ready : Ready n w
  requests : w.ch.requests = AList.insert 1 0 ∅
  marked : (w.ch.ctrls 0).ec = enotifyMark ∧ (w.ch.ctrls 0).text = CStr.ofBlock [0x61]

/-- The first registration is entered under the id 1. -/
private theorem polling_one : ∃ turns s, (countingMachine manyCalls).Runs counting turns s ∧
    Polling 1 s.world := by
  have ready : Ready 0 counting.world :=
    ⟨rfl, rfl, rfl, fun _ => rfl, fun _ _ => rfl⟩
  obtain ⟨s, runs, world⟩ := polled_runs ready (by decide)
  obtain ⟨connected, client, id, done, idle⟩ := ready.polled
  rw [← world] at connected client id done idle
  have enters : (countingMachine manyCalls).step s (.act (.register 0)) = some (s.note
      { s.world.setPc 0 .registered with
        ch := { s.world.ch with requests := AList.insert 1 0 ∅ }
        owner := Function.update s.world.owner 1 0 } (.register 0)) := by
    have moved : s.world.step manyCalls (.register 0) = some
        { s.world.setPc 0 .registered with
          ch := { s.world.ch with requests := AList.insert 1 0 ∅ }
          owner := Function.update s.world.owner 1 0 } := by
      rw [world]
      rfl
    simp [countingMachine, Counting.step, moved]
  refine ⟨_, _, runs.trans (.cons enters .refl), ?_⟩
  rw [note_world]
  refine ⟨⟨connected, client, id, done, fun m later => ?_⟩, rfl, ?_⟩
  · have other : m ≠ 0 := by omega
    simpa [World.setPc, other] using idle m later
  · simp [world, Counting.polled, drew]

/-- Every further registration is refused as a repetition. -/
private theorem polling_succ {n : Nat} {s : Counting} (polling : Polling n s.world)
    (later : 1 ≤ n) (early : n < 2 ^ 32) :
    ∃ turns s', (countingMachine manyCalls).Runs s turns s' ∧ Polling (n + 1) s'.world := by
  obtain ⟨s', runs, world⟩ := polled_runs polling.ready early
  obtain ⟨connected, client, id, done, idle⟩ := polling.ready.polled
  have apart : (0 : Nat) ≠ n := by omega
  have ec : ((polled n s.world).ch.ctrls n).ec ≠ 0 := by
    simp [Counting.polled, drew, enotifyMark]
  have requests : (polled n s.world).ch.requests = AList.insert 1 0 ∅ := polling.requests
  have first : (polled n s.world).ch.ctrls 0 = s.world.ch.ctrls 0 := by
    simp only [Counting.polled, drew]
    exact RpcChannel.modify_other _ _ apart
  have repeated : (polled n s.world).ch.Repeated (manyCalls n) := by
    refine ⟨⟨1, 0⟩, by rw [requests]; exact List.mem_singleton.mpr rfl, ?_, ?_⟩
    · rw [first, polling.marked.1]
      decide
    · rw [first, polling.marked.2]
      exact (strcmp_eq_zero _ _).mpr rfl
  have refuses : (polled n s.world).step manyCalls (.register n) =
      some ((polled n s.world).setPc n (.returned (-3))) := by
    have drawn : (polled n s.world).drawn n = some (s.world.ch.id + 1) := by
      simp [Counting.polled, drew]
    have at_mark : (polled n s.world).pc n = .marked := by simp [Counting.polled, drew]
    have refused : (polled n s.world).ch.register (manyCalls n) (s.world.ch.id + 1) = none :=
      if_pos ⟨ec, repeated⟩
    simp only [World.step, at_mark, drawn, refused, ne_eq, not_true_eq_false, if_false]
  have turn : (countingMachine manyCalls).step s' (.act (.register n)) =
      some (s'.note ((polled n s.world).setPc n (.returned (-3))) (.register n)) := by
    simp [countingMachine, Counting.step, world, refuses]
  refine ⟨_, _, runs.trans (.cons turn .refl), ?_⟩
  rw [note_world]
  refine ⟨⟨connected, client, id, done, fun m after => ?_⟩, requests, ?_⟩
  · have other : m ≠ n := by omega
    simpa [World.setPc, other] using idle m after
  · simp only [World.setPc, first]
    exact polling.marked

/-- The counter can be made to come round. -/
private theorem polling_reached (n : Nat) (early : n + 1 ≤ 2 ^ 32) :
    ∃ turns s, (countingMachine manyCalls).Runs counting turns s ∧ Polling (n + 1) s.world := by
  induction n with
  | zero => exact polling_one
  | succ n ih =>
      obtain ⟨turns, s, runs, polling⟩ := ih (by omega)
      obtain ⟨more, s', runs', polling'⟩ := polling_succ polling (by omega) (by omega)
      exact ⟨_, s', runs.trans runs', polling'⟩

/-- A notification is registered, and then a call is entered. -/
private def registrationAndCall : List Turn :=
  [.act (.check 0), .act (.mark 0), .act (.register 0), .act (.check (2 ^ 32)),
    .act (.mark (2 ^ 32)), .act (.register (2 ^ 32))]

/-- A call that is entered while a registration is outstanding gets an id of its own. -/
theorem ids_fresh_outstanding :
    ∃ s, (countingMachine manyCalls).Runs counting registrationAndCall s ∧
      s.live = [2 ^ 32, 0] ∧ s.world.drawn 0 = some 1 ∧ s.world.drawn (2 ^ 32) = some 2 ∧
      (((countingMachine manyCalls).Along (Fresh manyCalls) counting registrationAndCall ↔
        (countingMachine manyCalls).Along (Spaced manyCalls) counting registrationAndCall) ∧
      ((countingMachine manyCalls).Along (Spaced manyCalls) counting registrationAndCall →
        s.Standing manyCalls)) := by
  have executed : ((countingMachine manyCalls).run counting registrationAndCall).map
      (fun s => (s.live, s.world.drawn 0, s.world.drawn (2 ^ 32))) =
        some ([2 ^ 32, 0], some 1, some 2) := by
    decide +kernel
  obtain ⟨s, runs, seen⟩ := Machine.Runs.of_map executed
  simp only [Prod.mk.injEq] at seen
  obtain ⟨live, first, second⟩ := seen
  exact ⟨s, runs, live, first, second, ids_fresh_iff counting_initial runs⟩

/-- After 2^32 draws a call is given the id of a registration that is still there. -/
theorem ids_collide :
    ¬ ∀ (calls : Nat → Call) (start s : Counting) (turns : List Turn), start.Initial →
      (countingMachine calls).Runs start turns s →
      (countingMachine calls).Along (Fresh calls) start turns := by
  intro always
  obtain ⟨turns, s, runs, polling⟩ := polling_reached (2 ^ 32 - 1) (by decide)
  rw [show 2 ^ 32 - 1 + 1 = 2 ^ 32 from rfl] at polling
  have accepted : s.world.ch.mark (manyCalls (2 ^ 32)) = some (s.world.ch.setEc (2 ^ 32) 0) :=
    if_neg (by decide)
  obtain ⟨s', runs', world⟩ := drew_runs polling.ready accepted
  have at_mark : s'.world.pc (2 ^ 32) = .marked := by simp [world, drew]
  have drawn : s'.world.drawn (2 ^ 32) = some 1 := by
    simp only [world, drew, Function.update_self, polling.ready.id]
    rfl
  have requests : s'.world.ch.requests = AList.insert 1 0 ∅ := by
    rw [world]
    exact polling.requests
  have registers : s'.world.ch.register (manyCalls (2 ^ 32)) 1 = some _ :=
    RpcChannel.register_ordinary (by simp [world, drew, manyCalls])
  obtain ⟨next, enters⟩ := step_enters at_mark drawn registers
  have before := runs.trans runs'
  have along := always manyCalls counting next _ counting_initial
    (.step before enters)
  have fresh := ((Machine.Along.snoc before).mp along).2 (2 ^ 32) 1 ⟨rfl, drawn, _, registers⟩
  rw [requests] at fresh
  exact fresh ((AList.mem_insert _).mpr (.inl rfl))

end Counting

end Sdpf.Client
