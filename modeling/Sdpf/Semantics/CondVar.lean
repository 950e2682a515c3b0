import Mathlib.Data.List.Basic

/-!
# Condition variables

The threads inside the wait of one condition variable: those asleep, those a
notification has released and that have yet to run, and those that woke without one.
A notification of one thread releases any of the sleepers, and is lost only where
there is none.

Nothing here refers to a particular program.
-/

namespace Sdpf.Semantics

structure CondVar (Thread : Type) where
  /-- Blocked, and not notified. -/
  sleeping : List Thread
  /-- Notified, and not resumed. -/
  woken : List Thread
  /-- Awake without a notification, and not resumed. -/
  stirred : List Thread
deriving DecidableEq, Repr

namespace CondVar

variable {Thread : Type}

/-- Nobody waits. -/
def idle : CondVar Thread := ⟨[], [], []⟩

/-- The threads that have begun to wait and not resumed. -/
def inside (cond : CondVar Thread) : List Thread := cond.sleeping ++ (cond.woken ++ cond.stirred)

/-- A thread goes to sleep. -/
def wait (cond : CondVar Thread) (thread : Thread) : CondVar Thread :=
  { cond with sleeping := thread :: cond.sleeping }

/-- All sleepers are released. -/
def notifyAll (cond : CondVar Thread) : CondVar Thread :=
  { cond with sleeping := [], woken := cond.sleeping ++ cond.woken }

section Decide

variable [DecidableEq Thread]

/-- The sleeper that was selected is released; none is selected only if none sleeps. -/
def notifyOne (cond : CondVar Thread) : Option Thread → Option (CondVar Thread)
  | none => if cond.sleeping = [] then some cond else none
  | some thread =>
      if thread ∈ cond.sleeping then
        some { cond with
          sleeping := cond.sleeping.erase thread
          woken := thread :: cond.woken }
      else none

/-- A sleeper wakes without a notification. -/
def stir (cond : CondVar Thread) (thread : Thread) : Option (CondVar Thread) :=
  if thread ∈ cond.sleeping then
    some { cond with
      sleeping := cond.sleeping.erase thread
      stirred := thread :: cond.stirred }
  else none

/-- A thread that is awake leaves the wait. -/
def resume (cond : CondVar Thread) (thread : Thread) : Option (CondVar Thread) :=
  if thread ∈ cond.woken then some { cond with woken := cond.woken.erase thread }
  else if thread ∈ cond.stirred then some { cond with stirred := cond.stirred.erase thread }
  else none

/-- A notification finds no sleeper, or releases exactly one. -/
theorem notifyOne_cases {cond next : CondVar Thread} {wakes : Option Thread}
    (notified : cond.notifyOne wakes = some next) :
    (wakes = none ∧ cond.sleeping = [] ∧ next = cond) ∨
      ∃ thread, wakes = some thread ∧ thread ∈ cond.sleeping ∧ next = { cond with
        sleeping := cond.sleeping.erase thread
        woken := thread :: cond.woken } := by
  cases wakes with
  | none =>
      by_cases empty : cond.sleeping = []
      · rw [notifyOne, if_pos empty] at notified
        cases notified
        exact .inl ⟨rfl, empty, rfl⟩
      · rw [notifyOne, if_neg empty] at notified
        cases notified
  | some thread =>
      by_cases sleeps : thread ∈ cond.sleeping
      · rw [notifyOne, if_pos sleeps] at notified
        cases notified
        exact .inr ⟨thread, rfl, sleeps, rfl⟩
      · rw [notifyOne, if_neg sleeps] at notified
        cases notified

/-- A thread that stirs has been asleep. -/
theorem stir_cases {cond next : CondVar Thread} {thread : Thread}
    (stirs : cond.stir thread = some next) :
    thread ∈ cond.sleeping ∧ next = { cond with
      sleeping := cond.sleeping.erase thread
      stirred := thread :: cond.stirred } := by
  by_cases sleeps : thread ∈ cond.sleeping
  · rw [stir, if_pos sleeps] at stirs
    cases stirs
    exact ⟨sleeps, rfl⟩
  · rw [stir, if_neg sleeps] at stirs
    cases stirs

/-- A thread resumes on a notification, or without one. -/
theorem resume_cases {cond next : CondVar Thread} {thread : Thread}
    (resumes : cond.resume thread = some next) :
    (thread ∈ cond.woken ∧ next = { cond with woken := cond.woken.erase thread }) ∨
      (thread ∈ cond.stirred ∧ next = { cond with stirred := cond.stirred.erase thread }) := by
  by_cases woken : thread ∈ cond.woken
  · rw [resume, if_pos woken] at resumes
    cases resumes
    exact .inl ⟨woken, rfl⟩
  · by_cases stirred : thread ∈ cond.stirred
    · rw [resume, if_neg woken, if_pos stirred] at resumes
      cases resumes
      exact .inr ⟨stirred, rfl⟩
    · rw [resume, if_neg woken, if_neg stirred] at resumes
      cases resumes

/-- A notification of one thread moves it, and nobody leaves. -/
theorem notifyOne_perm {cond next : CondVar Thread} {wakes : Option Thread}
    (notified : cond.notifyOne wakes = some next) : next.inside.Perm cond.inside := by
  obtain ⟨-, -, rfl⟩ | ⟨thread, -, sleeps, rfl⟩ := notifyOne_cases notified
  · exact .refl _
  · exact List.perm_middle.trans ((List.perm_cons_erase sleeps).symm.append_right _)

omit [DecidableEq Thread] in
/-- Notifying changes nobody but from asleep to woken. -/
theorem notifyAll_perm (cond : CondVar Thread) : cond.notifyAll.inside.Perm cond.inside := by
  rw [inside, inside, notifyAll, List.nil_append, List.append_assoc]

/-- Nor does stirring. -/
theorem stir_perm {cond next : CondVar Thread} {thread : Thread}
    (stirs : cond.stir thread = some next) : next.inside.Perm cond.inside := by
  obtain ⟨sleeps, rfl⟩ := stir_cases stirs
  have moved : (cond.woken ++ thread :: cond.stirred).Perm
      (thread :: (cond.woken ++ cond.stirred)) := List.perm_middle
  exact (moved.append_left _).trans
    (List.perm_middle.trans ((List.perm_cons_erase sleeps).symm.append_right _))

/-- Resuming is leaving. -/
theorem resume_perm {cond next : CondVar Thread} {thread : Thread}
    (resumes : cond.resume thread = some next) : cond.inside.Perm (thread :: next.inside) := by
  obtain ⟨woken, rfl⟩ | ⟨stirred, rfl⟩ := resume_cases resumes
  · have left := (List.perm_cons_erase woken).append_right cond.stirred
    exact (left.append_left cond.sleeping).trans List.perm_middle
  · have left := (List.perm_cons_erase stirred).append_left cond.woken
    have front := left.trans List.perm_middle
    exact (front.append_left cond.sleeping).trans List.perm_middle

/-- Every thread that waits and is awake can resume. -/
theorem resume_of_mem {cond : CondVar Thread} {thread : Thread} (inside : thread ∈ cond.inside)
    (nobody : cond.sleeping = []) : ∃ next, cond.resume thread = some next := by
  rw [CondVar.inside, nobody, List.nil_append, List.mem_append] at inside
  by_cases woken : thread ∈ cond.woken
  · exact ⟨_, if_pos woken⟩
  · exact ⟨_, (if_neg woken).trans (if_pos (inside.resolve_left woken))⟩

end Decide

end CondVar

end Sdpf.Semantics
