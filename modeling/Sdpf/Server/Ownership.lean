import Sdpf.Server.Owning

/-!
# Who owns the objects

The live objects are those of the calls that still have them. No object is used or deleted
after its deletion exactly if each method keeps to what is its own (`objects_safe_iff`).
-/

namespace Sdpf.Server

open Sdpf.Data Sdpf.Msgpack Sdpf.Channel Sdpf.Semantics

section Prepare

variable {heap : Heap} {svc : RpcService} {methodId : Int} {allocated : Bool} {body : List UInt8}

/-- What is not handed to a method is deleted again, and what is, is new. -/
theorem prepare_extends : heap.Extends (prepare heap svc methodId allocated body).1
    ((prepare heap svc methodId allocated body).2.elim [] Objects.all) := by
  have request : heap.Extends _ _ := .newIf (svc.newRequest methodId).isSome
  have both := request.trans (.newIf (svc.newResponse methodId).isSome)
  unfold prepare
  simp only
  split_ifs
  · exact request.delete
  · rw [← Heap.deleteAll_append]
    exact both.delete
  · have all := both.trans .new
    rw [List.append_assoc] at all
    exact all

end Prepare

namespace Owning

variable {codec : Codec} {s next start finish : Owning} {number : Nat} {objects : Objects}
  {address : Nat}

/-- A request makes its objects and no others. -/
theorem allocate_extends (s : Owning) (r : Request) :
    s.heap.Extends (s.allocate r).1 ((s.allocate r).2.elim [] Objects.all) := by
  unfold allocate
  split
  · exact .refl
  · simp only
    split_ifs
    · exact .refl
    · exact .refl
    · exact prepare_extends

/-- Objects are handed over exactly if the method is called. -/
theorem allocate_isSome (s : Owning) (r : Request) :
    (s.allocate r).2.isSome ↔ ∃ invocation,
      (s.serving.ch.processRequest r.allocated r.id r.service r.method r.body).1 =
        .invoked invocation := by
  unfold allocate RpcChannel.processRequest
  cases found : s.serving.ch.findSvc r.service with
  | none => simp
  | some service =>
      simp only [prepare]
      split_ifs <;> simp

/-- What `process_request` does to the table of methods that have not run `done`. -/
theorem request_pending {serving : Serving} (r : Request)
    (taken : s.serving.step codec (.request r) = some serving) :
    serving.requests = s.serving.requests ++ [r] ∧
      ∀ n, n ∈ serving.pending ↔
        n ∈ s.serving.pending ∨ (s.allocate r).2.isSome ∧ n = s.serving.requests.length := by
  have called := allocate_isSome s r
  simp only [Serving.step] at taken
  cases handled : (s.serving.ch.processRequest r.allocated r.id r.service r.method r.body).1 with
  | refused ec =>
      simp only [handled, Option.some.injEq, reduceCtorEq, exists_false, iff_false] at taken called
      subst taken
      exact ⟨rfl, fun n => by simp [Serving.sendResp, called]⟩
  | registered =>
      simp only [handled, Option.some.injEq, reduceCtorEq, exists_false, iff_false] at taken called
      subst taken
      exact ⟨rfl, fun n => by simp [called]⟩
  | invoked invocation =>
      simp only [handled, Option.some.injEq] at taken called
      subst taken
      refine ⟨rfl, fun n => ?_⟩
      rw [and_iff_right (called.mpr ⟨invocation, rfl⟩), AList.mem_insert, or_comm]

/-- Who holds an object of a request. -/
theorem mem_held : address ∈ s.held number objects ↔
    s.running = some number ∧ address ∈ objects.request.toList ∨
      number ∈ s.serving.pending ∧ address ∈ objects.answer := by
  unfold held
  rw [List.mem_append]
  split_ifs <;> simp [*]

/-- What is held are objects of the request. -/
theorem held_subset : s.held number objects ⊆ objects.all := by
  intro address member
  rcases mem_held.mp member with ⟨_, request⟩ | ⟨_, answer⟩
  · exact List.mem_append_left _ request
  · exact List.mem_append_right _ answer

namespace Accounted

/-- Before the first request there are no objects. -/
theorem of_initial (initial : s.Initial) : s.Accounted where
  sound := by rw [initial.heap]; rfl
  live address := by simp [initial.heap, initial.objects, Heap.empty]
  known number objects found := by simp [initial.objects] at found
  apart first second objects others found := by simp [initial.objects] at found
  numbered number _ := initial.objects number
  called number running := by simp [initial.running] at running

/-- An object of a method call is live as long as the call has it. -/
theorem mem_live (accounted : s.Accounted) (found : s.objects number = some objects)
    (member : address ∈ objects.all) :
    address ∈ s.heap.live ↔ address ∈ s.held number objects := by
  rw [accounted.live]
  constructor
  · rintro ⟨other, others, also, held⟩
    obtain rfl := accounted.apart number other objects others found also address member
      (held_subset held)
    cases Option.some.inj (found.symm.trans also)
    exact held
  · exact fun held => ⟨number, objects, found, held⟩

/-- The request is live until `call_method` returns. -/
theorem request_live (accounted : s.Accounted) (found : s.objects number = some objects)
    (member : address ∈ objects.request.toList) :
    address ∈ s.heap.live ↔ s.running = some number := by
  have distinct := (List.nodup_append.mp (accounted.known number objects found).1).2.2
  rw [accounted.mem_live found (List.mem_append_left _ member), mem_held,
    and_iff_left member, or_iff_left]
  exact fun answer => distinct address member address answer.2 rfl

/-- The response and the controller are live until `done` has run. -/
theorem answer_live (accounted : s.Accounted) (found : s.objects number = some objects)
    (member : address ∈ objects.answer) :
    address ∈ s.heap.live ↔ number ∈ s.serving.pending := by
  have distinct := (List.nodup_append.mp (accounted.known number objects found).1).2.2
  rw [accounted.mem_live found (List.mem_append_right _ member), mem_held,
    and_iff_left member, or_iff_right]
  exact fun request => distinct address request.2 address member rfl

/-- Some objects of one method call have been deleted. -/
theorem drop (accounted : s.Accounted) {gone : List Nat} (sound : next.heap.fault = false)
    (found : s.objects number = some objects) (part : gone ⊆ objects.all)
    (same : next.objects = s.objects) (bound : next.heap.next = s.heap.next)
    (requests : next.serving.requests = s.serving.requests)
    (running : ∀ other, next.running = some other → s.running = some other)
    (live : ∀ address, address ∈ next.heap.live ↔ address ∈ s.heap.live ∧ address ∉ gone)
    (here : ∀ address, address ∈ next.held number objects ↔
      address ∈ s.held number objects ∧ address ∉ gone)
    (there : ∀ other others, other ≠ number → next.held other others = s.held other others) :
    next.Accounted := by
  refine ⟨sound, fun address => ?_, ?_, ?_, ?_, ?_⟩
  · rw [live, accounted.live, same]
    constructor
    · rintro ⟨⟨other, others, also, held⟩, kept⟩
      refine ⟨other, others, also, ?_⟩
      by_cases equal : other = number
      · subst equal
        cases Option.some.inj (found.symm.trans also)
        exact (here address).mpr ⟨held, kept⟩
      · rwa [there other others equal]
    · rintro ⟨other, others, also, held⟩
      by_cases equal : other = number
      · subst equal
        cases Option.some.inj (found.symm.trans also)
        obtain ⟨before, kept⟩ := (here address).mp held
        exact ⟨⟨other, objects, found, before⟩, kept⟩
      · rw [there other others equal] at held
        refine ⟨⟨other, others, also, held⟩, fun deleted => equal ?_⟩
        exact accounted.apart other number others objects also found address
          (held_subset held) (part deleted)
  · rw [same, bound]
    exact accounted.known
  · rw [same]
    exact accounted.apart
  · rw [same, requests]
    exact accounted.numbered
  · rw [same]
    exact fun other now => accounted.called other (running other now)

/-- New objects have been handed over to the method call with a new number, or none. -/
theorem grow (accounted : s.Accounted) {added : Option Objects}
    (fresh : s.objects number = none)
    (grown : s.heap.Extends next.heap (added.elim [] Objects.all))
    (objects : ∀ n, next.objects n = if n = number then added else s.objects n)
    (here : ∀ others, added = some others → others.all ⊆ next.held number others)
    (there : ∀ other others, other ≠ number → next.held other others = s.held other others)
    (numbered : ∀ n, next.serving.requests.length ≤ n →
      s.serving.requests.length ≤ n ∧ n ≠ number)
    (called : ∀ n, next.running = some n → n = number ∧ added.isSome) : next.Accounted := by
  have older : ∀ {n others}, s.objects n = some others → n ≠ number := by
    rintro n others found rfl
    rw [fresh] at found
    cases found
  have cases : ∀ {n others}, next.objects n = some others →
      n = number ∧ added = some others ∨ n ≠ number ∧ s.objects n = some others := by
    intro n others found
    rw [objects] at found
    split_ifs at found with new
    · exact .inl ⟨new, found⟩
    · exact .inr ⟨new, found⟩
  refine ⟨grown.fault.trans accounted.sound, fun address => ?_, fun n others found => ?_, ?_,
    fun n beyond => ?_, fun n now => ?_⟩
  · rw [grown.live]
    constructor
    · rintro (old | new)
      · obtain ⟨n, others, found, held⟩ := (accounted.live address).mp old
        refine ⟨n, others, (objects n).trans ((if_neg (older found)).trans found), ?_⟩
        rwa [there n others (older found)]
      · cases added with
        | none => cases new
        | some others => exact ⟨number, others, (objects number).trans (if_pos rfl),
            here others rfl new⟩
    · rintro ⟨n, others, found, held⟩
      rcases cases found with ⟨rfl, rfl⟩ | ⟨old, found⟩
      · exact .inr (held_subset held)
      · rw [there n others old] at held
        exact .inl ((accounted.live address).mpr ⟨n, others, found, held⟩)
  · rcases cases found with ⟨_, rfl⟩ | ⟨_, found⟩
    · exact ⟨grown.distinct, fun address member => (grown.fresh address member).2⟩
    · obtain ⟨distinct, below⟩ := accounted.known n others found
      exact ⟨distinct, fun address member => Nat.lt_of_lt_of_le (below address member) grown.next⟩
  · intro first second left right foundLeft foundRight address inLeft inRight
    rcases cases foundLeft with ⟨newLeft, isLeft⟩ | ⟨_, oldLeft⟩ <;>
      rcases cases foundRight with ⟨newRight, isRight⟩ | ⟨_, oldRight⟩
    · rw [newLeft, newRight]
    · subst isLeft
      have fresh := (grown.fresh address inLeft).1
      have below := (accounted.known second right oldRight).2 address inRight
      omega
    · subst isRight
      have fresh := (grown.fresh address inRight).1
      have below := (accounted.known first left oldLeft).2 address inLeft
      omega
    · exact accounted.apart first second left right oldLeft oldRight address inLeft inRight
  · obtain ⟨older, apart⟩ := numbered n beyond
    rw [objects, if_neg apart]
    exact accounted.numbered n older
  · obtain ⟨rfl, some_added⟩ := called n now
    rwa [objects, if_pos rfl]

/-- A request comes in: its objects are new. -/
theorem request (accounted : s.Accounted) {r : Request}
    (taken : s.step codec (.event (.request r)) = some next) :
    next.Accounted ∧ s.serving.step codec (.request r) = some next.serving := by
  simp only [Owning.step, accounted.sound, Bool.false_eq_true, if_false] at taken
  split_ifs at taken with idle
  obtain ⟨serving, moved, rfl⟩ := Option.map_eq_some_iff.mp taken
  refine ⟨?_, moved⟩
  obtain ⟨requests, pending⟩ := request_pending r moved
  refine accounted.grow (accounted.numbered s.serving.requests.length (Nat.le_refl _))
    (s.allocate_extends r) (fun _ => rfl) ?_ ?_ ?_ ?_
  · intro others allocated address member
    have waiting := (pending s.serving.requests.length).mpr (.inr ⟨by simp [allocated], rfl⟩)
    refine mem_held.mpr ((List.mem_append.mp member).imp ?_ ?_)
    · exact fun request => ⟨by simp [allocated], request⟩
    · exact fun answer => ⟨waiting, answer⟩
  · intro other others old
    have same : other ∈ serving.pending ↔ other ∈ s.serving.pending := by
      rw [pending]
      exact or_iff_left fun new => old new.2
    have elsewhere : ¬ ((s.allocate r).2.map fun _ => s.serving.requests.length) = some other :=
      fun now => by
        obtain ⟨_, _, new⟩ := Option.map_eq_some_iff.mp now
        exact old new.symm
    simp only [held, same, elsewhere, idle, reduceCtorEq, if_false]
  · intro n beyond
    simp only [requests, List.length_append, List.length_singleton] at beyond
    omega
  · intro n now
    obtain ⟨_, allocated, new⟩ := Option.map_eq_some_iff.mp now
    exact ⟨new.symm, by rw [allocated]; rfl⟩

/-- `done` is run: it is in order if it has not been before. -/
theorem done (accounted : s.Accounted) {response : Option AnyMessage} {failed : Bool}
    (taken : s.step codec (.event (.done number response failed)) = some next) :
    (next.heap.fault = false ↔ number ∈ s.serving.pending) ∧
      (next.heap.fault = false → next.Accounted ∧
        s.serving.step codec (.done number response failed) = some next.serving) := by
  simp only [Owning.step, accounted.sound, Bool.false_eq_true, if_false] at taken
  obtain ⟨objects, found, rfl⟩ := Option.map_eq_some_iff.mp taken
  obtain ⟨distinct, _⟩ := accounted.known number objects found
  have parts := List.nodup_append.mp distinct
  have iff : ((s.heap.useAll objects.answer).deleteAll objects.answer).fault = false ↔
      number ∈ s.serving.pending := by
    rw [Heap.deleteAll_fault parts.2.1, Heap.useAll_fault, Heap.useAll_live, and_assoc, and_self,
      and_iff_right accounted.sound]
    constructor
    · intro all
      have ctrl : objects.ctrl ∈ objects.answer := by simp [Objects.answer]
      exact (accounted.answer_live found ctrl).mp (all _ ctrl)
    · exact fun waiting address member => (accounted.answer_live found member).mpr waiting
  refine ⟨iff, fun sound => ?_⟩
  have waiting := iff.mp sound
  obtain ⟨invocation, stored⟩ := Option.isSome_iff_exists.mp (AList.lookup_isSome.mpr waiting)
  obtain ⟨serving, moved, requests, pending⟩ : ∃ serving,
      s.serving.step codec (.done number response failed) = some serving ∧
        serving.requests = s.serving.requests ∧
        serving.pending = s.serving.pending.erase number := by
    simp only [Serving.step, stored]
    exact ⟨_, rfl, rfl, rfl⟩
  refine ⟨?_, by rw [moved]; rfl⟩
  have part : objects.answer ⊆ objects.all := List.subset_append_right _ _
  refine accounted.drop sound found part rfl (by simp) (by rw [moved]; exact requests)
    (fun _ same => same) ?_ ?_ ?_
  · intro address
    rw [Heap.mem_deleteAll, Heap.useAll_live]
  · intro address
    rw [mem_held, mem_held]
    simp only [moved, Option.getD_some, pending, AList.mem_erase, ne_eq, not_true_eq_false,
      false_and, or_false]
    constructor
    · exact fun request => ⟨.inl request, fun also =>
        parts.2.2 address request.2 address also rfl⟩
    · exact fun both => both.1.resolve_right fun answer => both.2 answer.2
  · intro other others apart
    simp only [held, moved, Option.getD_some, pending, AList.mem_erase, ne_eq, apart,
      not_false_eq_true, true_and]

/-- An object is used: that is in order if its call still has it. -/
theorem use (accounted : s.Accounted) {object : Object}
    (taken : s.step codec (.use number object) = some next) :
    (next.heap.fault = false ↔ s.Careful (.use number object)) ∧
      (next.heap.fault = false → next.Accounted ∧ next.serving = s.serving) := by
  simp only [Owning.step, accounted.sound, Bool.false_eq_true, if_false] at taken
  obtain ⟨address, got, rfl⟩ := Option.map_eq_some_iff.mp taken
  obtain ⟨objects, found, got⟩ := Option.bind_eq_some_iff.mp got
  have iff : (s.heap.use address).fault = false ↔ address ∈ s.heap.live := by
    simp [Heap.use, accounted.sound]
  refine ⟨?_, fun sound => ⟨{ accounted with sound := sound }, rfl⟩⟩
  rw [iff]
  cases object with
  | request => exact accounted.request_live found (Option.mem_toList.mpr got)
  | response =>
      exact accounted.answer_live found (List.mem_append_left _ (Option.mem_toList.mpr got))
  | ctrl =>
      cases got
      exact accounted.answer_live found (by simp [Objects.answer])

/-- `call_method` returns: its request is live, and deleted. -/
theorem returned (accounted : s.Accounted) (taken : s.step codec .returned = some next) :
    next.Accounted ∧ next.serving = s.serving := by
  simp only [Owning.step, accounted.sound, Bool.false_eq_true, if_false] at taken
  obtain ⟨number, running, rfl⟩ := Option.map_eq_some_iff.mp taken
  obtain ⟨objects, found⟩ := Option.isSome_iff_exists.mp (accounted.called number running)
  obtain ⟨distinct, _⟩ := accounted.known number objects found
  have parts := List.nodup_append.mp distinct
  have part : objects.request.toList ⊆ objects.all := List.subset_append_left _ _
  simp only [found, Option.elim_some]
  refine ⟨accounted.drop ?_ found part rfl (by simp) rfl (fun _ none => nomatch none) ?_ ?_ ?_,
    trivial⟩
  · rw [Heap.deleteAll_fault parts.1]
    exact ⟨accounted.sound, fun address member =>
      (accounted.request_live found member).mpr running⟩
  · exact fun address => Heap.mem_deleteAll
  · intro address
    rw [mem_held, mem_held]
    simp only [reduceCtorEq, false_and, false_or]
    constructor
    · exact fun answer => ⟨.inr answer, fun also => parts.2.2 address also address answer.2 rfl⟩
    · exact fun both => both.1.resolve_left fun request => both.2 request.2
  · intro other others apart
    have elsewhere : ¬ s.running = some other := by
      rw [running]
      exact fun same => apart (Option.some.inj same).symm
    simp only [held, elsewhere, reduceCtorEq, if_false]

/-- Which steps touch a dead object, and what the others keep. -/
theorem step (accounted : s.Accounted) {usage : Usage} (taken : s.step codec usage = some next) :
    (next.heap.fault = false ↔ s.Careful usage) ∧
      (next.heap.fault = false → next.Accounted ∧
        (servingMachine codec).Runs s.serving usage.visible.toList next.serving) := by
  cases usage with
  | event event =>
      cases event with
      | request r =>
          obtain ⟨kept, moved⟩ := accounted.request taken
          exact ⟨iff_of_true kept.sound trivial, fun _ => ⟨kept, .cons moved .refl⟩⟩
      | done number response failed =>
          obtain ⟨iff, kept⟩ := accounted.done taken
          exact ⟨iff, fun sound => (kept sound).imp id fun moved => .cons moved .refl⟩
  | use number object =>
      obtain ⟨iff, kept⟩ := accounted.use taken
      refine ⟨iff, fun sound => (kept sound).imp id fun same => ?_⟩
      rw [same]
      exact .refl
  | returned =>
      obtain ⟨kept, same⟩ := accounted.returned taken
      refine ⟨iff_of_true kept.sound trivial, fun _ => ⟨kept, ?_⟩⟩
      rw [same]
      exact .refl

end Accounted

/-- Nothing happens after a dead object was touched. -/
theorem step_sound {usage : Usage} (taken : s.step codec usage = some next) :
    s.heap.fault = false := by
  unfold step at taken
  by_cases fault : s.heap.fault = true
  · rw [if_pos fault] at taken
    cases taken
  · exact Bool.eq_false_iff.mpr fault

/-- Whatever requests come in, and whenever and in whatever thread methods use their objects
and run `done`: no object is used or deleted after it was deleted exactly if each method uses
its request until it returns only, the others until it runs `done`, and runs that once. Then
the live objects are those that a method call still has, so none is left when all are through,
and the channel has done nothing but what it does to requests and completions. -/
theorem objects_safe_iff {usages : List Usage} (initial : start.Initial)
    (runs : (owningMachine codec).Runs start usages finish) :
    (finish.heap.fault = false ↔ (owningMachine codec).Along Careful start usages) ∧
      (finish.heap.fault = false →
        (∀ address, address ∈ finish.heap.live ↔ ∃ number objects,
          finish.objects number = some objects ∧ address ∈ finish.held number objects) ∧
        (finish.serving.pending = ∅ → finish.running = none → finish.heap.live = ∅) ∧
        (servingMachine codec).Runs start.serving (usages.filterMap Usage.visible)
          finish.serving) := by
  have accounted : start.Accounted := .of_initial initial
  obtain ⟨iff, kept⟩ := runs.clear_iff_of_invariant (fun s => ¬ s.heap.fault = false)
    Accounted (fun taken => not_not.mpr (step_sound taken))
    (fun accounted taken => by
      obtain ⟨here, kept⟩ := accounted.step taken
      rw [not_not]
      exact ⟨here, fun sound => (kept sound).1⟩) accounted (not_not.mpr accounted.sound)
  rw [not_not] at iff kept
  refine ⟨iff, fun sound => ⟨(kept sound).live, fun through returned => ?_, ?_⟩⟩
  · refine Finset.eq_empty_of_forall_notMem fun address member => ?_
    obtain ⟨number, objects, _, held⟩ := ((kept sound).live address).mp member
    rw [mem_held, through, returned] at held
    simp at held
  · refine (runs.guarded_history (fun usages s => s.Accounted ∧
      (servingMachine codec).Runs start.serving (usages.filterMap Usage.visible) s.serving)
      (fun {usages s usage next} earlier careful taken => ?_) ⟨accounted, .refl⟩
      (iff.mp sound)).2
    obtain ⟨here, kept⟩ := earlier.1.step taken
    obtain ⟨later, moved⟩ := kept (here.mpr careful)
    refine ⟨later, ?_⟩
    rw [List.filterMap_append]
    refine earlier.2.trans ?_
    cases seen : usage.visible <;> simpa [seen] using moved

/-- A server whose only service, named "a", has messages of one byte. -/
private def owner : Owning where
  serving :=
    { ch :=
        ⟨[⟨CStr.ofBlock [0x61], fun _ => 0, fun _ => some (.byte 0), fun _ => some (.byte 0)⟩], ∅⟩
      requests := []
      pending := ∅
      given := ∅
      handed := [] }
  heap := .empty
  objects _ := none
  running := none

/-- A method that finishes at once, and one that finishes after it has returned. -/
private def careful : List Usage :=
  [.event (.request ⟨true, 1, CStr.ofBlock [0x61], CStr.ofBlock [0x6d], []⟩), .use 0 .request,
    .use 0 .response, .event (.done 0 none false), .returned,
    .event (.request ⟨true, 2, CStr.ofBlock [0x61], CStr.ofBlock [0x6d], []⟩), .use 1 .request,
    .returned, .use 1 .ctrl, .event (.done 1 none false)]

/-- Used like this the objects are safe, and gone in the end; a method that looks at its
request after it has returned uses a deleted object. -/
theorem objects_safe_iff_deferred :
    (∃ s, (owningMachine Wire.codec).Runs owner careful s ∧ s.heap.fault = false ∧
      s.heap.live = ∅) ∧
    ∃ s, (owningMachine Wire.codec).Runs owner (careful.take 8 ++ [.use 1 .request]) s ∧
      ¬ s.heap.fault = false := by
  have initial : owner.Initial := ⟨⟨rfl, rfl, rfl, rfl⟩, rfl, fun _ => rfl, rfl⟩
  constructor
  · have ran : ((owningMachine Wire.codec).run owner careful).map
        (fun s => (s.serving.pending.keys, s.running)) = some ([], none) := by decide +kernel
    obtain ⟨s, runs, seen⟩ := Machine.Runs.of_map ran
    simp only [Prod.mk.injEq] at seen
    obtain ⟨iff, kept⟩ := objects_safe_iff initial runs
    have sound := iff.mpr (by decide +kernel)
    exact ⟨s, runs, sound, (kept sound).2.1 (AList.ext (List.map_eq_nil_iff.mp seen.1)) seen.2⟩
  · have ran : ((owningMachine Wire.codec).run owner
        (careful.take 8 ++ [.use 1 .request])).isSome := by
      decide +kernel
    obtain ⟨s, executed⟩ := Option.isSome_iff_exists.mp ran
    have runs := Machine.Runs.of_run executed
    refine ⟨s, runs, fun sound => ?_⟩
    exact absurd ((objects_safe_iff initial runs).1.mp sound) (by decide +kernel)

end Owning

end Sdpf.Server
