import Wsnet.Lib.Lock
import Wsnet.Lib.Run
import Wsnet.Lib.Bytes

/-!
# Pausing and resuming the reader

`pause_reading` of the transport only creates a task; the task clears `read_resume`, takes `read_lock` and
keeps it until `read_resume` is set. `resume_reading` sets the event at once. The reader holds the lock while
it waits for a message and goes through the lock again for the next. A task that first runs behind the last
resume clears the event for good (`resumed_iff`).
-/

namespace Wsnet.Pyodide.WSNETConnection

/-- Where the task of a `pause_reading` call is. -/
inductive PauseTask
  | created
  | locking
  /-- it holds the lock and waits for `read_resume`; `woken` when the event has been set since -/
  | waiting (woken : Bool)
  | done
  deriving DecidableEq, Repr

/-- The event is set: a task that waits for it is woken. -/
def PauseTask.tell : PauseTask → PauseTask
  | .waiting _ => .waiting true
  | pc => pc

/-- Where `connection_handler_in` is. -/
inductive ReaderPc
  | created
  | locking
  /-- it holds the lock and waits for a message -/
  | receiving
  | ended
  deriving DecidableEq, Repr

/-- Who goes through `read_lock`. -/
inductive Client
  | reader
  | task (i : Nat)
  deriving DecidableEq, Repr

structure InSide where
  read_resume : Bool := true
  read_lock : Lock Client := {}
  tasks : List PauseTask := []
  reader : ReaderPc := .created
  deriving DecidableEq, Repr

inductive InEvent
  | pause_reading
  | resume_reading
  /-- the task of a `pause_reading` call runs for the first time -/
  | start (i : Nat)
  /-- the waiter that a release of the lock has woken runs -/
  | grant
  /-- a task that the event has woken runs -/
  | wake (i : Nat)
  | readerStart
  /-- the reader gets a message with these data; the calls its protocol makes meanwhile stand right behind -/
  | message (data : Bytes)
  /-- the protocol raises when the reader hands it the data of a message, which ends the reader -/
  | messageRaises (data : Bytes)
  /-- the reader gets a message that ends it -/
  | readerEnd
  deriving DecidableEq, Repr

namespace InSide

/-- `self.read_resume.set()` -/
def set_resume (s : InSide) : InSide :=
  { s with
    read_resume := true
    tasks := if s.read_resume then s.tasks else s.tasks.map PauseTask.tell }

/-- A task that has the lock: `await self.read_resume.wait()`, and the release when that returns at once. -/
def locked (s : InSide) (i : Nat) : InSide :=
  if s.read_resume then { s with tasks := s.tasks.set i .done, read_lock := s.read_lock.release }
  else { s with tasks := s.tasks.set i (.waiting false) }

/-- The reader goes through the lock for a message. -/
def readerLock (s : InSide) : InSide :=
  if s.read_lock.Free then { s with read_lock := s.read_lock.take .reader, reader := .receiving }
  else { s with read_lock := s.read_lock.wait .reader, reader := .locking }

def step (s : InSide) : InEvent → Option (InSide × List Bytes)
  | .pause_reading => some ({ s with tasks := s.tasks ++ [.created] }, [])
  | .resume_reading => some (s.set_resume, [])
  | .start i =>
    if s.tasks[i]? = some .created then
      -- `self.read_resume.clear()`, and then the lock
      let s := { s with read_resume := false }
      if s.read_lock.Free then some ({ s with read_lock := s.read_lock.take (.task i) }.locked i, [])
      else some ({ s with read_lock := s.read_lock.wait (.task i), tasks := s.tasks.set i .locking }, [])
    else none
  | .grant =>
    match s.read_lock.grant with
    | some (.reader, l) => some ({ s with read_lock := l, reader := .receiving }, [])
    | some (.task i, l) => some ({ s with read_lock := l }.locked i, [])
    | none => none
  | .wake i =>
    if s.tasks[i]? = some (.waiting true) then
      some ({ s with tasks := s.tasks.set i .done, read_lock := s.read_lock.release }, [])
    else none
  | .readerStart => if s.reader = .created then some (s.readerLock, []) else none
  | .message data =>
    if s.reader = .receiving then some ({ s with read_lock := s.read_lock.release }.readerLock, [data]) else none
  | .messageRaises data =>
    if s.reader = .receiving then some ({ s with read_lock := s.read_lock.release, reader := .ended }, [data]) else none
  | .readerEnd =>
    if s.reader = .receiving then some ({ s with read_lock := s.read_lock.release, reader := .ended }, []) else none

variable {s s' : InSide} {e : InEvent} {o : List Bytes} {i : Nat}

@[simp] theorem locked_read_resume (s : InSide) (i : Nat) : (s.locked i).read_resume = s.read_resume := by
  unfold locked
  split <;> rfl

@[simp] theorem readerLock_read_resume (s : InSide) : s.readerLock.read_resume = s.read_resume := by
  unfold readerLock
  split <;> rfl

@[simp] theorem readerLock_tasks (s : InSide) : s.readerLock.tasks = s.tasks := by
  unfold readerLock
  split <;> rfl

/-- Only `resume_reading` sets the event, and only a task that starts clears it. -/
theorem read_resume_of_step (h : s.step e = some (s', o)) : s'.read_resume =
    match e with
    | .resume_reading => true
    | .start _ => false
    | _ => s.read_resume := by
  cases e with
  | pause_reading => cases h; rfl
  | resume_reading => cases h; rfl
  | start i =>
    simp only [step] at h
    split_ifs at h <;> cases h
    · exact locked_read_resume _ i
    · rfl
  | grant =>
    simp only [step] at h
    split at h <;> cases h
    · rfl
    · exact locked_read_resume _ _
  | wake i =>
    simp only [step] at h
    split_ifs at h
    cases h
    rfl
  | readerStart =>
    simp only [step] at h
    split_ifs at h
    cases h
    exact readerLock_read_resume s
  | message data =>
    simp only [step] at h
    split_ifs at h
    cases h
    exact readerLock_read_resume _
  | messageRaises data =>
    simp only [step] at h
    split_ifs at h
    cases h
    rfl
  | readerEnd =>
    simp only [step] at h
    split_ifs at h
    cases h
    rfl

/-- The event is set as long as nobody who waits for it has not been told; the lock is in the hands of a task
that waits for the event or of the reader that waits for a message. -/
structure Inv (s : InSide) : Prop where
  fair : s.read_lock.Fair
  told : s.read_resume = true → ∀ w, .waiting w ∈ s.tasks → w = true
  task : ∀ i, s.read_lock.holder = some (.task i) → ∃ w, s.tasks[i]? = some (.waiting w)
  reader : s.read_lock.holder = some .reader → s.reader = .receiving
  queued : s.reader = .locking → .reader ∈ s.read_lock.waiters
  inRange : ∀ i, .task i ∈ s.read_lock.waiters → i < s.tasks.length

theorem mem_of_mem_set {l : List PauseTask} {i : Nat} {pc : PauseTask} {w : Bool} (h : .waiting w ∈ l.set i pc)
    (hpc : pc ≠ .waiting w) : .waiting w ∈ l := by
  rcases List.mem_or_eq_of_mem_set h with h | h
  · exact h
  · exact absurd h.symm hpc

/-- A task that has just got the lock. -/
theorem inv_locked (hfair : s.read_lock.Fair) (htold : s.read_resume = true → ∀ w, .waiting w ∈ s.tasks → w = true)
    (hheld : s.read_lock.holder = some (.task i)) (hi : i < s.tasks.length)
    (hqueued : s.reader = .locking → .reader ∈ s.read_lock.waiters)
    (hrange : ∀ j, .task j ∈ s.read_lock.waiters → j < s.tasks.length) : (s.locked i).Inv := by
  unfold locked
  split
  · rename_i hr
    exact {
      fair := Lock.fair_release _
      told := fun _ w hw => htold hr w (mem_of_mem_set hw (by simp))
      task := fun j hj => by cases hj
      reader := fun hj => by cases hj
      queued := hqueued
      inRange := fun j hj => by simpa using hrange j hj }
  · rename_i hr
    refine ⟨hfair, fun hr' => absurd hr' hr, fun j hj => ?_, fun hj => ?_,
      hqueued, fun j hj => by simpa using hrange j hj⟩
    · dsimp only at hj
      rw [hheld] at hj
      cases hj
      exact ⟨false, by simp [hi]⟩
    · dsimp only at hj
      rw [hheld] at hj
      cases hj

/-- The reader goes through a lock that it does not hold. -/
theorem inv_readerLock (hfair : s.read_lock.Fair) (htold : s.read_resume = true → ∀ w, .waiting w ∈ s.tasks → w = true)
    (htask : ∀ i, s.read_lock.holder = some (.task i) → ∃ w, s.tasks[i]? = some (.waiting w))
    (hreader : s.read_lock.holder ≠ some .reader) (hrange : ∀ j, .task j ∈ s.read_lock.waiters → j < s.tasks.length) :
    s.readerLock.Inv := by
  unfold readerLock
  split
  · rename_i hfree
    exact {
      fair := hfair.take hfree _
      told := htold
      task := fun j hj => by cases hj
      reader := fun _ => rfl
      queued := fun hq => by cases hq
      inRange := hrange }
  · rename_i hfree
    exact {
      fair := hfair.wait hfree _
      told := htold
      task := htask
      reader := fun hj => absurd hj hreader
      queued := fun _ => List.mem_append_right _ (List.mem_singleton.2 rfl)
      inRange := fun j hj => by simpa [Lock.wait] using hrange j (by simpa [Lock.wait] using hj) }

theorem lt_of_getElem? {pc : PauseTask} (h : s.tasks[i]? = some pc) : i < s.tasks.length :=
  (List.getElem?_eq_some_iff.1 h).1

theorem Inv.start (h : s.Inv) (hs : s.step (.start i) = some (s', o)) : s'.Inv := by
  simp only [step] at hs
  split_ifs at hs with hi hfree
  · cases hs
    exact inv_locked (h.fair.take hfree _) (fun hr => by cases hr) rfl (lt_of_getElem? hi) h.queued h.inRange
  · cases hs
    refine ⟨h.fair.wait hfree _, fun hr => (by cases hr), fun j hj => ?_, h.reader, fun hq => ?_, fun j hj => ?_⟩
    · obtain ⟨w, hw⟩ := h.task j hj
      have hne : i ≠ j := by
        rintro rfl
        rw [hi] at hw
        cases hw
      exact ⟨w, by simp [List.getElem?_set_ne hne, hw]⟩
    · exact List.mem_append_left _ (h.queued hq)
    · rw [List.length_set]
      rcases List.mem_append.1 hj with hj | hj
      · exact h.inRange j hj
      · cases List.mem_singleton.1 hj
        exact lt_of_getElem? hi

theorem Inv.grant (h : s.Inv) (hs : s.step .grant = some (s', o)) : s'.Inv := by
  simp only [step] at hs
  split at hs
  · rename_i l hl
    cases hs
    obtain ⟨-, rest, hwaiters, hl'⟩ := Lock.grant_eq_some hl
    refine ⟨Lock.fair_of_grant hl, h.told, fun j hj => ?_, fun _ => rfl, fun hq => (by cases hq), fun j hj => ?_⟩
    · dsimp only at hj
      rw [hl'] at hj
      cases hj
    · refine h.inRange j ?_
      dsimp only at hj
      rw [hl'] at hj
      rw [hwaiters]
      exact List.mem_cons_of_mem _ hj
  · rename_i j l hl
    cases hs
    obtain ⟨-, rest, hwaiters, hl'⟩ := Lock.grant_eq_some hl
    refine inv_locked (Lock.fair_of_grant hl) h.told (by rw [hl']) ?_ (fun hq => ?_) (fun k hk => ?_)
    · exact h.inRange j (by rw [hwaiters]; exact List.mem_cons_self)
    · have hmem := h.queued hq
      rw [hwaiters] at hmem
      rw [hl']
      simpa using hmem
    · refine h.inRange k ?_
      rw [hl'] at hk
      rw [hwaiters]
      exact List.mem_cons_of_mem _ hk
  · cases hs

/-- The reader ends, and so gives the lock back. -/
theorem Inv.ended (h : s.Inv) : Inv { s with read_lock := s.read_lock.release, reader := .ended } where
  fair := Lock.fair_release _
  told := h.told
  task := fun j hj => by cases hj
  reader := fun hj => by cases hj
  queued := fun hq => by cases hq
  inRange := h.inRange

theorem Inv.step (h : s.Inv) (hs : s.step e = some (s', o)) : s'.Inv := by
  cases e with
  | start i => exact h.start hs
  | grant => exact h.grant hs
  | pause_reading =>
    cases hs
    refine ⟨h.fair, fun hr w hw => ?_, fun j hj => ?_, h.reader, h.queued, fun j hj => ?_⟩
    · exact h.told hr w (by simpa using hw)
    · obtain ⟨w, hw⟩ := h.task j hj
      exact ⟨w, by rw [List.getElem?_append_left (lt_of_getElem? hw), hw]⟩
    · have := h.inRange j hj
      simp only [List.length_append]
      omega
  | resume_reading =>
    cases hs
    unfold set_resume
    by_cases hr : s.read_resume = true
    · simp only [hr, if_true]
      exact ⟨h.fair, fun _ => h.told hr, h.task, h.reader, h.queued, h.inRange⟩
    · simp only [hr]
      refine ⟨h.fair, fun _ w hw => ?_, fun j hj => ?_, h.reader, h.queued, fun j hj => ?_⟩
      · obtain ⟨pc, -, hpc⟩ := List.mem_map.1 hw
        cases pc <;> cases hpc
        rfl
      · obtain ⟨w, hw⟩ := h.task j hj
        exact ⟨true, by simp [hw, PauseTask.tell]⟩
      · simpa using h.inRange j hj
  | wake i =>
    simp only [InSide.step] at hs
    split_ifs at hs
    cases hs
    exact {
      fair := Lock.fair_release _
      told := fun hr w hw => h.told hr w (mem_of_mem_set hw (by simp))
      task := fun j hj => by cases hj
      reader := fun hj => by cases hj
      queued := h.queued
      inRange := fun j hj => by simpa using h.inRange j hj }
  | readerStart =>
    simp only [InSide.step] at hs
    split_ifs at hs with hr
    cases hs
    refine inv_readerLock h.fair h.told h.task (fun hheld => ?_) h.inRange
    have := h.reader hheld
    rw [hr] at this
    cases this
  | message data =>
    simp only [InSide.step] at hs
    split_ifs at hs
    cases hs
    exact inv_readerLock (Lock.fair_release _) h.told (fun j hj => by cases hj) (fun hj => by cases hj) h.inRange
  | messageRaises data =>
    simp only [InSide.step] at hs
    split_ifs at hs
    cases hs
    exact h.ended
  | readerEnd =>
    simp only [InSide.step] at hs
    split_ifs at hs
    cases hs
    exact h.ended

theorem inv_init : Inv {} where
  fair := Lock.fair_new
  told := fun _ _ hw => by simp at hw
  task := fun _ hj => by cases hj
  reader := fun hj => by cases hj
  queued := fun hq => by cases hq
  inRange := fun _ hj => by simp at hj

theorem inv_of_run {es : List InEvent} {os : List Bytes} (h : Run InSide.step {} es s os) : s.Inv :=
  h.state_invariant (fun hp hs => hp.step hs) inv_init

/-- Every task, and the reader, has run up to its next wait. -/
structure Quiet (s : InSide) : Prop where
  started : .created ∉ s.tasks
  unwoken : .waiting true ∉ s.tasks
  lock : s.read_lock.woken = false
  reader : s.reader ≠ .created

/-- The event is set, no task keeps the lock while it waits for it, and the reader waits for nothing but its
next message, if it has not ended. -/
structure Delivers (s : InSide) : Prop where
  resumed : s.read_resume = true
  unlocked : ∀ w, .waiting w ∉ s.tasks
  reader : s.reader = .receiving ∨ s.reader = .ended

theorem delivers_iff (h : s.Inv) (hq : s.Quiet) : s.Delivers ↔ s.read_resume = true := by
  constructor
  · exact Delivers.resumed
  · intro hr
    have hunlocked : ∀ w, .waiting w ∉ s.tasks := by
      intro w hw
      obtain rfl := h.told hr w hw
      exact hq.unwoken hw
    refine ⟨hr, hunlocked, ?_⟩
    cases hreader : s.reader with
    | receiving => exact .inl rfl
    | ended => exact .inr rfl
    | created => exact absurd hreader hq.reader
    | locking =>
      -- somebody has the lock that the reader waits for: a task, which would wait for the event
      have hmem := h.queued hreader
      cases hheld : s.read_lock.holder with
      | none =>
        rw [h.fair.idle hheld hq.lock] at hmem
        simp at hmem
      | some c =>
        cases c with
        | reader =>
          have := h.reader hheld
          rw [hreader] at this
          cases this
        | task i =>
          obtain ⟨w, hw⟩ := h.task i hheld
          exact absurd (List.mem_of_getElem? hw) (hunlocked w)

/-- After the last resume the event stays set until a task starts, and cleared from then on. -/
theorem read_resume_of_run {es : List InEvent} {os : List Bytes} (h : Run InSide.step s es s' os)
    (hes : .resume_reading ∉ es) : s'.read_resume = true ↔ s.read_resume = true ∧ ∀ i, .start i ∉ es := by
  induction h with
  | nil => simp
  | @cons s s₁ s' e es o os hs _ ih =>
    rw [ih fun hmem => hes (List.mem_cons_of_mem e hmem), read_resume_of_step hs]
    cases e with
    | resume_reading => exact absurd List.mem_cons_self hes
    | start i =>
      refine iff_of_false (fun h => by cases h.1) fun h => ?_
      exact h.2 i List.mem_cons_self
    | _ => simp

end InSide

/-- When all is quiet after the last call, a resume, the connection delivers exactly when no task of an earlier
pause has run for the first time behind that call. -/
theorem resumed_iff {es₁ es₂ : List InEvent} {s : InSide} {os : List Bytes}
    (h : Run InSide.step {} (es₁ ++ .resume_reading :: es₂) s os)
    (hlast : .pause_reading ∉ es₂ ∧ .resume_reading ∉ es₂) (hq : s.Quiet) : s.Delivers ↔ ∀ i, .start i ∉ es₂ := by
  rw [InSide.delivers_iff (InSide.inv_of_run h) hq]
  obtain ⟨s₁, os₁, os₂, -, h₂, -⟩ := h.split
  cases h₂ with
  | cons hs hrun =>
    have hset := InSide.read_resume_of_step hs
    rw [InSide.read_resume_of_run hrun hlast.2, and_iff_right hset]

theorem resumed_iff_inOrder : ∃ s os, Run InSide.step {}
      ([.readerStart, .pause_reading, .start 0] ++ .resume_reading :: [.message [1], .grant, .grant]) s os ∧
    (s.Delivers ↔ ∀ i, .start i ∉ [InEvent.message [1], .grant, .grant]) :=
  have h : Run InSide.step {}
      ([.readerStart, .pause_reading, .start 0] ++ .resume_reading :: [.message [1], .grant, .grant]) _ _ :=
      .of_exec rfl
  ⟨_, _, h, resumed_iff h (by decide) ⟨by decide, by decide, rfl, by decide⟩⟩

/-- Pause and resume in one turn of the event loop: the task of the pause runs behind both. -/
theorem not_delivers_sameTurn : ∃ s os, Run InSide.step {}
      [.readerStart, .pause_reading, .resume_reading, .start 0, .message [1], .grant] s os ∧ s.Quiet ∧
    s.tasks = [.waiting false] ∧ s.reader = .locking ∧ ¬ s.Delivers := by
  refine ⟨_, _, .of_exec rfl, ⟨by decide, by decide, rfl, by decide⟩, rfl, rfl, fun h => ?_⟩
  cases h.resumed

end Wsnet.Pyodide.WSNETConnection
