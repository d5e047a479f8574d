import Wsnet.Pyodide.Pausing

/-!
# What a pause keeps back

The reader holds `read_lock` while it waits for a message, and the task of a `pause_reading` call only queues
up behind it, so the message that the reader waits for goes through. A call keeps everything back only where an
earlier one still does: the event is cleared, and a task stands ahead of the reader at the lock (`Blocked`).
-/

namespace Wsnet.Pyodide.WSNETConnection

namespace InSide
variable {s s' : InSide} {e : InEvent} {o : List Bytes} {i : Nat}

/-- Who waits for the event or for a message has the lock, and the reader queues for it when it is locking. -/
structure Owned (s : InSide) : Prop where
  waiting : ∀ i w, s.tasks[i]? = some (.waiting w) → s.read_lock.holder = some (.task i)
  receiving : s.reader = .receiving → s.read_lock.holder = some .reader
  queued : s.read_lock.waiters.count .reader = if s.reader = .locking then 1 else 0

theorem Owned.not_waiting (h : s.Owned) (hn : ∀ i, s.read_lock.holder ≠ some (.task i)) {w : Bool} :
    s.tasks[i]? ≠ some (.waiting w) := fun hw => hn i (h.waiting i w hw)

theorem Owned.not_receiving (h : s.Owned) (hn : s.read_lock.holder ≠ some .reader) : s.reader ≠ .receiving :=
  fun hr => hn (h.receiving hr)

theorem getElem?_set_waiting {l : List PauseTask} {pc : PauseTask} {j : Nat} {w : Bool}
    (h : (l.set i pc)[j]? = some (.waiting w))
    (hpc : pc ≠ .waiting w) : i ≠ j ∧ l[j]? = some (.waiting w) := by
  rcases eq_or_ne i j with rfl | hne
  · rw [List.getElem?_set_self'] at h
    cases hl : l[i]? <;> simp_all
  · exact ⟨hne, by rwa [List.getElem?_set_ne hne] at h⟩

/-- A task that has just got a lock that nobody had. -/
theorem owned_locked (hheld : s.read_lock.holder = some (.task i))
    (hwaiting : ∀ (j : Nat) w, s.tasks[j]? ≠ some (.waiting w))
    (hreader : s.reader ≠ .receiving)
    (hqueued : s.read_lock.waiters.count .reader = if s.reader = .locking then 1 else 0) :
    (s.locked i).Owned := by
  unfold locked
  split
  · refine ⟨fun j w hj => ?_, fun hr => absurd hr hreader, hqueued⟩
    exact absurd (getElem?_set_waiting hj (by simp)).2 (hwaiting j w)
  · refine ⟨fun j w hj => ?_, fun hr => absurd hr hreader, hqueued⟩
    rcases eq_or_ne i j with rfl | hne
    · exact hheld
    · dsimp only at hj
      rw [List.getElem?_set_ne hne] at hj
      exact absurd hj (hwaiting j w)

/-- The reader goes through the lock while no task has it. -/
theorem owned_readerLock (h : ∀ (j : Nat) w, s.tasks[j]? = some (.waiting w) → s.read_lock.holder = some (.task j))
    (hqueued : s.read_lock.waiters.count .reader = 0) : s.readerLock.Owned := by
  unfold readerLock
  split
  · rename_i hfree
    refine ⟨fun j w hj => ?_, fun _ => rfl, hqueued⟩
    have := h j w hj
    rw [hfree.1] at this
    cases this
  · exact ⟨h, fun hr => (by cases hr), by simp [Lock.wait, hqueued]⟩

/-- The reader ends while it has the lock. -/
theorem Owned.ended (h : s.Owned) (hr : s.reader = .receiving) :
    Owned { s with read_lock := s.read_lock.release, reader := .ended } where
  waiting j w hj := by
    have hj := h.waiting j w hj
    rw [h.receiving hr] at hj
    cases hj
  receiving hr' := by cases hr'
  queued := by simpa [hr] using h.queued

theorem Owned.step (h : s.Owned) (hinv : s.Inv) (hs : s.step e = some (s', o)) : s'.Owned := by
  cases e with
  | pause_reading =>
    cases hs
    refine ⟨fun j w hj => h.waiting j w ?_, h.receiving, h.queued⟩
    simp only [List.getElem?_append] at hj
    split at hj
    · exact hj
    · simp [List.getElem?_singleton] at hj
  | resume_reading =>
    cases hs
    unfold set_resume
    refine ⟨fun j w hj => ?_, h.receiving, h.queued⟩
    dsimp only at hj
    split at hj
    · exact h.waiting j w hj
    · rw [List.getElem?_map] at hj
      cases hpc : s.tasks[j]? with
      | none => simp [hpc] at hj
      | some pc =>
        cases pc with
        | waiting w' => exact h.waiting j w' hpc
        | _ => simp [hpc, PauseTask.tell] at hj
  | start i =>
    simp only [InSide.step] at hs
    split_ifs at hs with hi hfree
    · cases hs
      have hnone : ∀ c, s.read_lock.holder ≠ some c := fun c hc => by
        rw [hfree.1] at hc
        cases hc
      exact owned_locked rfl (fun j w => h.not_waiting fun j => hnone _) (h.not_receiving (hnone _)) h.queued
    · cases hs
      exact ⟨fun j w hj => h.waiting j w (getElem?_set_waiting hj (by simp)).2,
        h.receiving, by simp [Lock.wait, h.queued]⟩
  | grant =>
    simp only [InSide.step] at hs
    have hnone {c : Client} {l : Lock Client} (hl : s.read_lock.grant = some (c, l)) :
        ∀ c, s.read_lock.holder ≠ some c := by
      intro c hc
      rw [(hinv.fair.woken (Lock.grant_eq_some hl).1).1] at hc
      cases hc
    split at hs
    · rename_i l hl
      cases hs
      obtain ⟨-, rest, hq, rfl⟩ := Lock.grant_eq_some hl
      have hcount := h.queued
      rw [hq, List.count_cons_self] at hcount
      refine ⟨fun j w hj => absurd hj (h.not_waiting fun j => hnone hl _), fun _ => rfl, ?_⟩
      split_ifs at hcount
      simpa using hcount
    · rename_i j l hl
      cases hs
      obtain ⟨-, rest, hq, rfl⟩ := Lock.grant_eq_some hl
      have hcount := h.queued
      rw [hq, List.count_cons_of_ne (by simp)] at hcount
      exact owned_locked rfl (fun j w => h.not_waiting fun j => hnone hl _) (h.not_receiving (hnone hl _)) hcount
    · cases hs
  | wake i =>
    simp only [InSide.step] at hs
    split_ifs at hs with hi
    cases hs
    have hheld := h.waiting i true hi
    refine ⟨fun j w hj => ?_, fun hr => ?_, h.queued⟩
    · obtain ⟨hne, hj⟩ := getElem?_set_waiting hj (by simp)
      have := h.waiting j w hj
      rw [hheld] at this
      cases this
      exact absurd rfl hne
    · have := h.receiving hr
      rw [hheld] at this
      cases this
  | readerStart =>
    simp only [InSide.step] at hs
    split_ifs at hs with hr
    cases hs
    exact owned_readerLock h.waiting (by simpa [hr] using h.queued)
  | message data =>
    simp only [InSide.step] at hs
    split_ifs at hs with hr
    cases hs
    exact owned_readerLock (h.ended hr).waiting (by simpa [hr] using h.queued)
  | messageRaises data =>
    simp only [InSide.step] at hs
    split_ifs at hs with hr
    cases hs
    exact h.ended hr
  | readerEnd =>
    simp only [InSide.step] at hs
    split_ifs at hs with hr
    cases hs
    exact h.ended hr

theorem owned_init : Owned {} := ⟨fun i w hi => (by simp at hi), fun hr => (by cases hr), rfl⟩

theorem owned_of_run {es : List InEvent} {os : List Bytes} (h : Run InSide.step {} es s os) : s.Inv ∧ s.Owned :=
  h.state_invariant (P := fun s => s.Inv ∧ s.Owned) (fun hp hs => ⟨hp.1.step hs, hp.2.step hp.1 hs⟩)
    ⟨inv_init, owned_init⟩

/-- The event is cleared, and a task that will wait for it has the lock, or is the next to have it. -/
structure Blocked (s : InSide) : Prop where
  cleared : s.read_resume = false
  ahead : (∃ i, s.read_lock.holder = some (.task i) ∧ s.tasks[i]? = some (.waiting false)) ∨
    s.read_lock.holder ≠ some .reader ∧ ∃ j rest, s.read_lock.waiters = .task j :: rest

theorem Blocked.not_reader (h : s.Blocked) : s.read_lock.holder ≠ some .reader := by
  intro hheld
  rcases h.ahead with ⟨i, hi, -⟩ | ⟨hn, -⟩
  · rw [hheld] at hi
    cases hi
  · exact hn hheld

theorem Blocked.not_free (h : s.Blocked) : ¬ s.read_lock.Free := by
  rintro ⟨hnone, hempty⟩
  rcases h.ahead with ⟨i, hi, -⟩ | ⟨-, j, rest, hq⟩
  · rw [hnone] at hi
    cases hi
  · rw [hempty] at hq
    cases hq

/-- Somebody else waits at the end of the queue. -/
theorem Blocked.wait (h : s.Blocked) (c : Client) (r : ReaderPc) :
    Blocked { s with read_lock := s.read_lock.wait c, reader := r } where
  cleared := h.cleared
  ahead := by
    refine h.ahead.imp_right ?_
    rintro ⟨hn, j, rest, hq⟩
    exact ⟨hn, j, rest ++ [c], by simp [Lock.wait, hq]⟩

/-- No step but a resume lets the reader have a message. -/
theorem Blocked.step (h : s.Blocked) (hinv : s.Inv) (howned : s.Owned) (hs : s.step e = some (s', o))
    (he : e ≠ .resume_reading) : s'.Blocked ∧ o = [] := by
  have hreader := howned.not_receiving h.not_reader
  cases e with
  | resume_reading => exact absurd rfl he
  | pause_reading =>
    cases hs
    refine ⟨⟨h.cleared, h.ahead.imp_left ?_⟩, rfl⟩
    rintro ⟨i, hi, hw⟩
    exact ⟨i, hi, by rw [List.getElem?_append_left (lt_of_getElem? hw), hw]⟩
  | start i =>
    simp only [InSide.step, h.not_free, if_false] at hs
    split_ifs at hs with hi
    cases hs
    refine ⟨⟨rfl, (h.wait (.task i) s.reader).ahead.imp_left ?_⟩, rfl⟩
    rintro ⟨j, hj, hw⟩
    have hne : i ≠ j := by
      rintro rfl
      rw [hi] at hw
      cases hw
    exact ⟨j, hj, by rw [List.getElem?_set_ne hne, hw]⟩
  | grant =>
    simp only [InSide.step] at hs
    cases hl : s.read_lock.grant with
    | none => simp [hl] at hs
    | some r =>
      obtain ⟨c, l⟩ := r
      obtain ⟨hwoken, rest, hq, rfl⟩ := Lock.grant_eq_some hl
      rcases h.ahead with ⟨i, hi, -⟩ | ⟨-, j, rest', hq'⟩
      · rw [(hinv.fair.woken hwoken).1] at hi
        cases hi
      · rw [hq] at hq'
        cases hq'
        -- the task that has the lock now waits for the event
        have hj : j < s.tasks.length := hinv.inRange j (by rw [hq]; exact List.mem_cons_self)
        simp only [hl, locked, h.cleared, Bool.false_eq_true, if_false] at hs
        cases hs
        exact ⟨⟨rfl, .inl ⟨j, rfl, by simp [hj]⟩⟩, rfl⟩
  | wake i =>
    simp only [InSide.step] at hs
    split_ifs at hs with hi
    cases hs
    refine ⟨⟨h.cleared, .inr ⟨by simp [Lock.release], ?_⟩⟩, rfl⟩
    rcases h.ahead with ⟨j, hj, hw⟩ | ⟨-, hq⟩
    · -- only one task waits for the event
      rw [howned.waiting i true hi] at hj
      cases hj
      rw [hi] at hw
      cases hw
    · exact hq
  | readerStart =>
    simp only [InSide.step, readerLock, h.not_free, if_false] at hs
    split_ifs at hs
    cases hs
    exact ⟨h.wait .reader .locking, rfl⟩
  | message data => simp [InSide.step, hreader] at hs
  | messageRaises data => simp [InSide.step, hreader] at hs
  | readerEnd => simp [InSide.step, hreader] at hs

/-- A reader that has ended takes no message any more. -/
theorem ended_of_step (h : s.reader = .ended) (howned : s.Owned) (hs : s.step e = some (s', o)) :
    s'.reader = .ended ∧ o = [] := by
  cases e with
  | pause_reading => cases hs; exact ⟨h, rfl⟩
  | resume_reading => cases hs; exact ⟨h, rfl⟩
  | start i =>
    simp only [InSide.step, locked] at hs
    split_ifs at hs <;> cases hs <;> exact ⟨h, rfl⟩
  | grant =>
    simp only [InSide.step] at hs
    cases hl : s.read_lock.grant with
    | none => simp [hl] at hs
    | some r =>
      obtain ⟨c, l⟩ := r
      obtain ⟨-, rest, hq, rfl⟩ := Lock.grant_eq_some hl
      cases c with
      | reader =>
        have hcount := howned.queued
        simp [hq, h] at hcount
      | task j =>
        simp only [hl, locked] at hs
        split_ifs at hs <;> cases hs <;> exact ⟨h, rfl⟩
  | wake i =>
    simp only [InSide.step] at hs
    split_ifs at hs
    cases hs
    exact ⟨h, rfl⟩
  | _ => simp [InSide.step, h] at hs

/-- Some order of the tasks, without a resume, lets the reader wait for a message. -/
def Reaches (s : InSide) : Prop :=
  ∃ es s', Run InSide.step s es s' [] ∧ .resume_reading ∉ es ∧ s'.reader = .receiving

theorem Reaches.of_step {s₁ : InSide} (h : s₁.Reaches) (hs : s.step e = some (s₁, []))
    (he : e ≠ .resume_reading) : s.Reaches := by
  obtain ⟨es, s', hrun, hes, hr⟩ := h
  refine ⟨e :: es, s', .cons hs hrun, fun hmem => ?_, hr⟩
  rcases List.mem_cons.1 hmem with rfl | hmem
  · exact he rfl
  · exact hes hmem

/-- Nobody has the lock that the reader queues for: the tasks ahead of it pass through. -/
theorem reaches_of_unheld (hinv : s.Inv) (howned : s.Owned) (hr : s.reader = .locking)
    (hheld : s.read_lock.holder = none)
    (hb : ¬ s.Blocked) : s.Reaches := by
  have hmem := hinv.queued hr
  generalize hn : s.read_lock.waiters.length = n
  induction n generalizing s with
  | zero =>
    rw [List.length_eq_zero_iff.1 hn] at hmem
    cases hmem
  | succ n ih =>
    have hwoken : s.read_lock.woken = true := by
      by_contra hw
      rw [hinv.fair.idle hheld (by simpa using hw)] at hmem
      cases hmem
    cases hq : s.read_lock.waiters with
    | nil =>
      rw [hq] at hmem
      cases hmem
    | cons c rest =>
      have hl : s.read_lock.grant = some (c, { holder := some c, waiters := rest, woken := false }) := by
        simp [Lock.grant, hwoken, hq]
      cases c with
      | reader =>
        have hs : s.step .grant =
            some ({ s with read_lock := ⟨some .reader, rest, false⟩, reader := .receiving }, []) := by
          simp [InSide.step, hl]
        exact ⟨[.grant], _, .single hs, by simp, rfl⟩
      | task j =>
        have hresume : s.read_resume = true := by
          by_contra hclear
          refine hb ⟨by simpa using hclear, .inr ⟨by simp [hheld], j, rest, hq⟩⟩
        have hs : s.step .grant =
            some ({ s with tasks := s.tasks.set j .done, read_lock := Lock.release ⟨some (.task j), rest, false⟩ }, []) := by
          simp [InSide.step, hl, locked, hresume]
        refine Reaches.of_step (ih (hinv.step hs) (howned.step hinv hs) hr rfl (fun h => ?_) ?_ ?_) hs (by simp)
        · have := h.cleared
          rw [hresume] at this
          cases this
        · rw [hq] at hmem
          simpa using hmem
        · rw [hq] at hn
          simpa using hn

theorem reaches_of_locking (hinv : s.Inv) (howned : s.Owned) (hr : s.reader = .locking) (hb : ¬ s.Blocked) :
    s.Reaches := by
  cases hheld : s.read_lock.holder with
  | none => exact reaches_of_unheld hinv howned hr hheld hb
  | some c =>
    cases c with
    | reader =>
      have := hinv.reader hheld
      rw [hr] at this
      cases this
    | task i =>
      -- the task has been woken, and gives the lock back
      obtain ⟨w, hw⟩ := hinv.task i hheld
      have hwoken : w = true := by
        by_contra hfalse
        obtain rfl : w = false := by simpa using hfalse
        refine hb ⟨?_, .inl ⟨i, hheld, hw⟩⟩
        by_contra hset
        have := hinv.told (by simpa using hset) false (List.mem_of_getElem? hw)
        cases this
      subst hwoken
      have hs : s.step (.wake i) =
          some ({ s with tasks := s.tasks.set i .done, read_lock := s.read_lock.release }, []) := by
        simp [InSide.step, hw]
      refine Reaches.of_step (reaches_of_unheld (hinv.step hs) (howned.step hinv hs) hr rfl fun h => ?_) hs (by simp)
      refine hb ⟨h.cleared, .inr ⟨by simp [hheld], ?_⟩⟩
      rcases h.ahead with ⟨j, hj, -⟩ | ⟨-, hq⟩
      · cases hj
      · exact hq

theorem reaches_of_not_blocked (hinv : s.Inv) (howned : s.Owned) (hend : s.reader ≠ .ended)
    (hb : ¬ s.Blocked) : s.Reaches := by
  cases hr : s.reader with
  | ended => exact absurd hr hend
  | receiving => exact ⟨[], s, .nil s, by simp, hr⟩
  | locking => exact reaches_of_locking hinv howned hr hb
  | created =>
    have hs : s.step .readerStart = some (s.readerLock, []) := by simp [InSide.step, hr]
    refine Reaches.of_step ?_ hs (by simp)
    by_cases hfree : s.read_lock.Free
    · exact ⟨[], _, .nil _, by simp, by simp [readerLock, hfree]⟩
    · refine reaches_of_locking (hinv.step hs) (howned.step hinv hs) (by simp [readerLock, hfree]) fun h => ?_
      simp only [readerLock, hfree, if_false] at h
      refine hb ⟨h.cleared, h.ahead.imp_right ?_⟩
      rintro ⟨hn, j, rest, hq⟩
      refine ⟨hn, ?_⟩
      cases hw : s.read_lock.waiters with
      | nil => simp [Lock.wait, hw] at hq
      | cons c rest' =>
        simp only [Lock.wait, hw, List.cons_append, List.cons.injEq] at hq
        exact ⟨j, rest', by rw [hq.1]⟩

end InSide

/-- After a call of `pause_reading` no data come under any order of the tasks, whatever arrives and as long as
nobody resumes, exactly when an earlier call already keeps the reader from the lock, or the reader has ended. -/
theorem paused_iff {es : List InEvent} {s : InSide} {os : List Bytes} (h : Run InSide.step {} es s os) :
    (∀ es' s' os', Run InSide.step s (.pause_reading :: es') s' os' → .resume_reading ∉ es' → os' = []) ↔
      s.reader = .ended ∨ s.Blocked := by
  obtain ⟨hinv, howned⟩ := InSide.owned_of_run h
  constructor
  · intro hsilent
    by_contra hn
    obtain ⟨hend, hb⟩ := not_or.1 hn
    -- the task of the call need not run before the reader has had a message
    have hs : s.step .pause_reading = some ({ s with tasks := s.tasks ++ [.created] }, []) := rfl
    obtain ⟨es', s', hrun, hes, hr⟩ : InSide.Reaches { s with tasks := s.tasks ++ [.created] } := by
      refine InSide.reaches_of_not_blocked (hinv.step hs) (howned.step hinv hs) hend fun h =>
        hb ⟨h.cleared, h.ahead.imp_left ?_⟩
      rintro ⟨i, hi, hw⟩
      obtain ⟨w, hwait⟩ := hinv.task i hi
      rw [List.getElem?_append_left (InSide.lt_of_getElem? hwait)] at hw
      exact ⟨i, hi, hw⟩
    have hmsg : InSide.step s' (.message []) =
        some (InSide.readerLock { s' with read_lock := s'.read_lock.release }, [[]]) := by
      simp [InSide.step, hr]
    have hdata := hsilent _ _ _ (.cons hs (hrun.append (.single hmsg))) (by simp [hes])
    simp at hdata
  · intro hcond es' s' os' hrun hes
    have hpre : s.Inv ∧ s.Owned ∧ (s.reader = .ended ∨ s.Blocked) ∧ ([] : List Bytes) = [] := ⟨hinv, howned, hcond, rfl⟩
    refine (hrun.invariant_of (A := fun e => e ≠ .resume_reading)
      (P := fun s os => s.Inv ∧ s.Owned ∧ (s.reader = .ended ∨ s.Blocked) ∧ os = []) ?_ ?_ hpre).2.2.2
    · rintro s s' e o os he ⟨hinv, howned, hcond, rfl⟩ hs
      refine ⟨hinv.step hs, howned.step hinv hs, ?_⟩
      rcases hcond with hend | hb
      · obtain ⟨hend', rfl⟩ := InSide.ended_of_step hend howned hs
        exact ⟨.inl hend', rfl⟩
      · obtain ⟨hb', rfl⟩ := hb.step hinv howned hs he
        exact ⟨.inr hb', rfl⟩
    · intro e he
      rcases List.mem_cons.1 he with rfl | he
      · simp
      · exact fun heq => hes (heq ▸ he)

theorem paused_iff_second : ∃ s os, Run InSide.step {} [.pause_reading, .start 0, .readerStart] s os ∧ s.Blocked ∧
    ∀ es' s' os', Run InSide.step s (.pause_reading :: es') s' os' → .resume_reading ∉ es' → os' = [] :=
  have h : Run InSide.step {} [.pause_reading, .start 0, .readerStart] _ _ := .of_exec rfl
  have hb : InSide.Blocked ⟨false, ⟨some (.task 0), [.reader], false⟩, [.waiting false], .locking⟩ :=
    ⟨rfl, .inl ⟨0, rfl, rfl⟩⟩
  ⟨_, _, h, hb, (paused_iff h).2 (.inr hb)⟩

/-- The reader waits for a message; a pause whose task has run does not keep it back. -/
theorem data_afterPause : ∃ s,
    Run InSide.step {} [.readerStart, .pause_reading, .start 0, .message [1]] s [[1]] ∧ s.read_resume = false :=
  ⟨_, .of_exec rfl, rfl⟩

end Wsnet.Pyodide.WSNETConnection
