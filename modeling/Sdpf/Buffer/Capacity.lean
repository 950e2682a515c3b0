import Sdpf.Buffer.Fifo

/-!
# Requests of any size

`poolMachine` asks of every request that it does not wrap when the readable bytes are
added to it. Here buffers are used with any request a `size_t` can hold. `Wraps` names
the requests whose wrapped size `make_space` mistakes for a small one; every other one
is treated as `Promise` says, and no run without such a request leaves the valid states.
-/

namespace Sdpf.Buffer

open Sdpf.Data Sdpf.Semantics

namespace IOBuf

/-- With the readable bytes added, the size is past the range of sizes, and what is left of
it is below the cap. -/
def Wraps (b : IOBuf) (n : Nat) : Prop :=
  sizeRange ≤ n + b.readableBytes ∧ n + b.readableBytes - sizeRange ≤ maxSize

instance (b : IOBuf) (n : Nat) : Decidable (b.Wraps n) := by
  unfold Wraps
  infer_instance

/-- What `ensure_writable` owes for a request of `n` bytes. -/
structure Promise (b : IOBuf) (n : Nat) : Prop where
  granted : (b.ensureWritable n).1 = 0 ↔ n + b.readableBytes ≤ max b.capacity maxSize
  room : (b.ensureWritable n).1 = 0 → n ≤ (b.ensureWritable n).2.writableBytes
  kept : (b.ensureWritable n).1 = 0 → (b.ensureWritable n).2.readable = b.readable
  indices : (b.ensureWritable n).1 = 0 →
    (b.ensureWritable n).2.readIndex ≤ (b.ensureWritable n).2.writeIndex ∧
      (b.ensureWritable n).2.writeIndex ≤ (b.ensureWritable n).2.capacity
  grown : (b.ensureWritable n).1 = 0 → b.capacity ≤ (b.ensureWritable n).2.capacity
  refused : (b.ensureWritable n).1 ≠ 0 → (b.ensureWritable n).2 = b

/-- A request that is refused, as it should be, changes nothing. -/
theorem Promise.of_refused {b : IOBuf} {n : Nat} (refused : b.ensureWritable n = (-1, b))
    (denied : ¬ n + b.readableBytes ≤ max b.capacity maxSize) : b.Promise n := by
  have failed : (b.ensureWritable n).1 ≠ 0 := by simp [refused]
  exact {
    granted := iff_of_false failed denied
    room := fun ok => absurd ok failed
    kept := fun ok => absurd ok failed
    indices := fun ok => absurd ok failed
    grown := fun ok => absurd ok failed
    refused := fun _ => by rw [refused] }

namespace Valid

variable {b : IOBuf} {n : Nat}

/-- The size that `make_space` computes once the sum is past the range. -/
theorem wrapped_size (valid : b.Valid) (size : n < sizeRange)
    (past : sizeRange ≤ n + b.readable.length) :
    (n + b.readable.length) % sizeRange = n + b.readable.length - sizeRange := by
  have allocated := valid.allocated
  have within := valid.readable_le_capacity
  unfold capacity at within
  unfold sizeRange at *
  omega

/-- A wrapped size that stays above the cap is refused, as it should be. -/
theorem ensureWritable_wrapped (valid : b.Valid) (size : n < sizeRange)
    (past : sizeRange ≤ n + b.readableBytes) (noWrap : ¬ b.Wraps n) :
    b.ensureWritable n = (-1, b) := by
  have allocated := valid.allocated
  have above : ¬ n + b.readableBytes - sizeRange ≤ maxSize := fun low => noWrap ⟨past, low⟩
  rw [valid.readableBytes_length] at past above
  have rest := valid.wrapped_size size past
  refine valid.ensureWritable_beyond ?_ (by omega)
  unfold capacity at *
  unfold sizeRange at *
  omega

/-- A size that has wrapped to below the cap is granted. -/
theorem ensureWritable_wraps (valid : b.Valid) (size : n < sizeRange) (wraps : b.Wraps n) :
    (b.ensureWritable n).1 = 0 := by
  obtain ⟨past, low⟩ := wraps
  have allocated := valid.allocated
  have within := valid.readable_le_capacity
  rw [valid.readableBytes_length] at past low
  have rest := valid.wrapped_size size past
  have excess : n > b.capacity - b.readable.length := by
    unfold capacity at *
    unfold sizeRange at *
    omega
  have accepted : ¬ n + b.readable.length - sizeRange > maxSize := Nat.not_lt.mpr low
  unfold IOBuf.ensureWritable
  rw [valid.writable_add_readIndex, if_pos excess]
  unfold makeSpace
  rw [valid.newSize_mod, rest]
  simp only [accepted, if_false]

/-- On a valid buffer the promise is kept for every size but those that wrap. -/
theorem promise_iff (valid : b.Valid) (size : n < sizeRange) : b.Promise n ↔ ¬ b.Wraps n := by
  have length := valid.readableBytes_length
  constructor
  · intro promise wraps
    have allocated := valid.allocated
    have fits := promise.granted.mp (valid.ensureWritable_wraps size wraps)
    have past := wraps.1
    unfold capacity maxSize initialSize at fits
    unfold sizeRange at past
    omega
  · intro noWrap
    by_cases past : sizeRange ≤ n + b.readableBytes
    · have refused := valid.ensureWritable_wrapped size past noWrap
      have allocated := valid.allocated
      have denied : ¬ n + b.readableBytes ≤ max b.capacity maxSize := by
        unfold capacity maxSize initialSize
        unfold sizeRange at past
        omega
      exact .of_refused refused denied
    · have small : n + b.readable.length < sizeRange := by omega
      by_cases fits : n + b.readable.length ≤ max b.capacity maxSize
      · obtain ⟨ok, valid', kept, room, grown, _⟩ := valid.ensureWritable small fits
        exact {
          granted := by rw [length]; exact valid.ensureWritable_iff small
          room := fun _ => room
          kept := fun _ => kept
          indices := fun _ => ⟨valid'.ordered, valid'.bounded⟩
          grown := fun _ => grown
          refused := fun failed => absurd ok failed }
      · exact .of_refused (valid.ensureWritable_refused small (by omega)) (by rwa [length])

end Valid

end IOBuf

namespace Op

/-- The arguments are sizes, and the data objects, of a 64-bit machine. -/
def Sized : Op → Prop
  | write data | produce data => data.length < 9223372036854775808
  | read n | hasReaded n | ensureWritable n => n < sizeRange
  | hasReadall | shrink => True

instance : DecidablePred Sized
  | write _ | produce _ | read _ | hasReaded _ | ensureWritable _ => Nat.decLt _ _
  | hasReadall | shrink => .isTrue trivial

/-- No request wraps to below the cap. -/
def Unwrapped (b : IOBuf) : Op → Prop
  | ensureWritable n => ¬ b.Wraps n
  | _ => True

instance (b : IOBuf) : DecidablePred (Unwrapped b)
  | ensureWritable n => inferInstanceAs (Decidable (¬ b.Wraps n))
  | write _ | produce _ | read _ | hasReaded _ | hasReadall | shrink => .isTrue trivial

/-- What is not admissible is a request that has wrapped. -/
theorem admissible_or_request {b : IOBuf} (valid : b.Valid) {op : Op} (sized : op.Sized) :
    op.Admissible b ∨ ∃ n, op = ensureWritable n ∧ n < sizeRange ∧
      sizeRange ≤ n + b.readableBytes := by
  cases op with
  | write data =>
      have allocated := valid.allocated
      have within := valid.readable_le_capacity
      have length := valid.readableBytes_length
      refine .inl ?_
      simp only [Admissible, Sized, IOBuf.capacity] at *
      unfold sizeRange
      omega
  | ensureWritable n =>
      by_cases past : sizeRange ≤ n + b.readableBytes
      · exact .inr ⟨n, rfl, sized, past⟩
      · exact .inl (Nat.lt_of_not_le past)
  | read _ | hasReaded _ | hasReadall | produce _ | shrink => exact .inl trivial

/-- An operation that does not wrap leaves a valid buffer. -/
theorem perform_valid {b : IOBuf} (valid : b.Valid) {op : Op} (sized : op.Sized)
    (unwrapped : op.Unwrapped b) : (op.perform b).buf.Valid := by
  rcases op.admissible_or_request valid sized with admissible | ⟨n, rfl, size, past⟩
  · exact (op.perform_spec valid admissible).valid
  · have refused := valid.ensureWritable_wrapped size past unwrapped
    simp only [perform, refused]
    exact valid

end Op

/-- Any number of buffers of any size, used and swapped in any way. -/
def usageMachine : Machine (Nat → IOBuf) PoolAction where
  Initial pool := ∀ name, ∃ initial, initial < 9223372036854775808 ∧ pool name = .create initial
  step pool
    | .perform name op =>
        if op.Sized then
          some (Function.update pool name (op.perform (pool name)).buf)
        else
          none
    | .swap left right =>
        some (Function.update (Function.update pool left (pool right)) right (pool left))

/-- No request in this step wraps to below the cap. -/
def PoolAction.Unwrapped (pool : Nat → IOBuf) : PoolAction → Prop
  | .perform name op => op.Unwrapped (pool name)
  | .swap _ _ => True

instance (pool : Nat → IOBuf) : DecidablePred (PoolAction.Unwrapped pool)
  | .perform name op => inferInstanceAs (Decidable (op.Unwrapped (pool name)))
  | .swap _ _ => .isTrue trivial

/-- One step without a wrapping request keeps every buffer valid. -/
theorem usage_step_valid {pool next : Nat → IOBuf} {action : PoolAction}
    (valid : ∀ name, (pool name).Valid) (unwrapped : action.Unwrapped pool)
    (transition : usageMachine.step pool action = some next) : ∀ name, (next name).Valid := by
  cases action with
  | perform target op =>
      simp only [usageMachine] at transition
      split_ifs at transition with sized
      cases transition
      exact (Function.forall_update_iff pool fun _ => IOBuf.Valid).mpr
        ⟨op.perform_valid (valid target) sized unwrapped, fun name _ => valid name⟩
  | swap left right =>
      cases transition
      have moved : ∀ name, (Function.update pool left (pool right) name).Valid :=
        (Function.forall_update_iff pool fun _ => IOBuf.Valid).mpr
          ⟨valid right, fun name _ => valid name⟩
      exact (Function.forall_update_iff _ fun _ => IOBuf.Valid).mpr
        ⟨valid left, fun name _ => moved name⟩

/-- Buffers start out as `IOBuf()` makes them. -/
theorem usageMachine_initial_valid {start : Nat → IOBuf} (initial : usageMachine.Initial start)
    (name : Nat) : (start name).Valid := by
  obtain ⟨size, allocated, created⟩ := initial name
  rw [created]
  exact IOBuf.create_valid allocated

section Runs

variable {start pool : Nat → IOBuf} {actions : List PoolAction}

/-- Every buffer is valid after every run without a wrapping request. -/
theorem usage_valid (initial : usageMachine.Initial start)
    (runs : usageMachine.Runs start actions pool)
    (unwrapped : usageMachine.Along PoolAction.Unwrapped start actions) (name : Nat) :
    (pool name).Valid :=
  runs.guarded (fun pool => ∀ name, (pool name).Valid) usage_step_valid
    (usageMachine_initial_valid initial) unwrapped name

/-- In every state reached without a wrapping request, `ensure_writable` keeps its promise
for a size exactly if that size does not wrap. -/
theorem ensureWritable_promise_iff (initial : usageMachine.Initial start)
    (runs : usageMachine.Runs start actions pool)
    (unwrapped : usageMachine.Along PoolAction.Unwrapped start actions) (name : Nat) {n : Nat}
    (size : n < sizeRange) : (pool name).Promise n ↔ ¬ (pool name).Wraps n :=
  (usage_valid initial runs unwrapped name).promise_iff size

end Runs

/-- Buffers as `IOBuf()` creates them. -/
def newPool : Nat → IOBuf := fun _ => .create IOBuf.initialSize

/-- The buffers of the pool are new ones. -/
theorem newPool_initial : usageMachine.Initial newPool := fun _ => ⟨_, by decide, rfl⟩

/-- A buffer from which a byte has been consumed, with the largest request below the cap and
one above it. -/
theorem ensureWritable_promise_iff_consumed : ∃ pool, ∃ actions,
    usageMachine.Runs newPool actions pool ∧ (pool 0).readIndex = 1 ∧
      ((pool 0).Promise 4094 ↔ ¬ (pool 0).Wraps 4094) ∧
      ((pool 0).Promise 18446744073709551615 ↔ ¬ (pool 0).Wraps 18446744073709551615) := by
  obtain ⟨pool, runs, consumed⟩ := @Machine.Runs.of_map _ _ usageMachine _
    (fun pool => (pool 0).readIndex) newPool
    [.perform 0 (.write [1, 2, 3]), .perform 0 (.read 1), .swap 1 2] 1 (by decide +kernel)
  have unwrapped : usageMachine.Along PoolAction.Unwrapped newPool
      [.perform 0 (.write [1, 2, 3]), .perform 0 (.read 1), .swap 1 2] := by decide +kernel
  exact ⟨pool, _, runs, consumed,
    ensureWritable_promise_iff newPool_initial runs unwrapped 0 (by decide),
    ensureWritable_promise_iff newPool_initial runs unwrapped 0 (by decide)⟩

/-- With one byte to be read, a request for the largest size wraps to zero and is granted. -/
theorem ensureWritable_wrapped_granted :
    ¬ ∀ (start pool : Nat → IOBuf) (actions : List PoolAction), usageMachine.Initial start →
      usageMachine.Runs start actions pool →
        ∀ name n, n < sizeRange → (pool name).Promise n := by
  intro promised
  obtain ⟨pool, runs, status⟩ := @Machine.Runs.of_map _ _ usageMachine _
    (fun pool => (((pool 0).ensureWritable 18446744073709551615).1, (pool 0).capacity))
    newPool [.perform 0 (.write [7])] (0, 1024) (by decide +kernel)
  have granted := (promised _ _ _ newPool_initial runs 0 18446744073709551615 (by decide)).granted
  have fits := granted.mp (congrArg Prod.fst status)
  have size : (pool 0).capacity = 1024 := congrArg Prod.snd status
  rw [size] at fits
  exact absurd (Nat.le_trans (Nat.le_add_right _ _) fits) (by decide)

end Sdpf.Buffer
