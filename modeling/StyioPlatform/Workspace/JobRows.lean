import StyioPlatform.Workspace.Calls

/-! What a statement makes of the rows of jobs. -/
namespace StyioPlatform.Workspace

/-- The row that a move starts from, and the one that it leads to. -/
inductive Fires : Target → Option JobRow → JobRow → Prop
  | submitted {new} (hstatus : new.status = .queued) (hworker : new.workerId = none) :
      Fires .queued none new
  | claimed {row time workerId} (hqueued : row.status = .queued) :
      Fires (.running workerId) (some row) (row.claimed time workerId)
  | cancelled {row time} (hlive : row.cancellable = true) :
      Fires .cancelled (some row) (row.cancelled time)
  | completed {row time workerId status result} (hruns : row.runsFor workerId = true) :
      Fires (.completed workerId status) (some row) (row.completed time status result)

/-- The row is past the move to the target. -/
def Target.Reached : Target → Option JobRow → Prop
  | queued, old => old.isSome
  | running workerId, old => ∃ row, old = some row ∧ row.status ≠ .queued ∧
      row.workerId = some workerId
  | cancelled, old => ∃ row, old = some row ∧ row.status = .cancelled
  | completed workerId status, old => ∃ row, old = some row ∧ row.status = status.status ∧
      row.workerId = some workerId

/-- The target ends the life of a job. -/
def Target.ends : Target → Bool
  | cancelled => true
  | completed _ _ => true
  | _ => false

/-- A heartbeat only touches the row. -/
def Beaten (statement : Statement) (old : Option JobRow) (jobId : String) (new : JobRow) : Prop :=
  ∃ workerId row time, statement = .heartbeatJob jobId workerId ∧ old = some row ∧
    row.runsFor workerId = true ∧ new = { row with updatedAt := time }

section answers

variable {settings : Settings} {start now : Moment} {locked : Key → Bool} {q q' : Sequences}
  {t : Tables} {st : Statement} {r : Reply} {ws : List Write} {old : Option JobRow} {new : JobRow}
  {target target' : Target}

theorem Fires.status (h : Fires target old new) : new.status = target.status := by
  cases h with
  | submitted hstatus => exact hstatus
  | _ => rfl

theorem Fires.reached (h : Fires target old new) : target.Reached (some new) := by
  cases h with
  | submitted => rfl
  | claimed => exact ⟨_, rfl, by simp [JobRow.claimed], rfl⟩
  | cancelled => exact ⟨_, rfl, rfl⟩
  | completed hruns =>
    simp only [JobRow.runsFor, decide_eq_true_eq] at hruns
    exact ⟨_, rfl, rfl, hruns.1⟩

/-- What a row is past, it stays past. -/
theorem Fires.mono (h : Fires target old new) (hreached : target'.Reached old) :
    target'.Reached (some new) := by
  cases h with
  | submitted => cases target' <;> simp [Target.Reached] at hreached
  | claimed hqueued =>
    cases target' with
    | queued => rfl
    | running => obtain ⟨row, ⟨⟩, hrow, -⟩ := hreached; exact absurd hqueued hrow
    | cancelled => obtain ⟨row, ⟨⟩, hrow⟩ := hreached; simp [hqueued] at hrow
    | completed w status =>
      obtain ⟨row, ⟨⟩, hrow, -⟩ := hreached
      cases status <;> simp [hqueued, Completion.status] at hrow
  | cancelled hlive =>
    simp only [JobRow.cancellable, decide_eq_true_eq] at hlive
    cases target' with
    | queued => rfl
    | running w => obtain ⟨row, ⟨⟩, -, hworker⟩ := hreached; exact ⟨_, rfl, by simp [JobRow.cancelled], hworker⟩
    | cancelled => exact ⟨_, rfl, rfl⟩
    | completed w status =>
      obtain ⟨row, ⟨⟩, hrow, -⟩ := hreached
      cases status <;> simp [hrow, Completion.status] at hlive
  | completed hruns =>
    simp only [JobRow.runsFor, decide_eq_true_eq] at hruns
    cases target' with
    | queued => rfl
    | running w =>
      obtain ⟨row, ⟨⟩, -, hworker⟩ := hreached
      rename_i status _
      exact ⟨_, rfl, by cases status <;> simp [JobRow.completed, Completion.status], hworker⟩
    | cancelled => obtain ⟨row, ⟨⟩, hrow⟩ := hreached; simp [hruns.2] at hrow
    | completed w status =>
      obtain ⟨row, ⟨⟩, hrow, -⟩ := hreached
      cases status <;> simp [hruns.2, Completion.status] at hrow

/-- A job is claimed from a state that no claim leads to. -/
theorem Fires.not_reached_running {w w' : String} (h : Fires (.running w) old new) :
    ¬ (Target.running w').Reached old := by
  cases h with
  | claimed hqueued =>
    rintro ⟨row, ⟨⟩, hrow, -⟩
    exact hrow hqueued

/-- A job is ended from a state that no end leads to. -/
theorem Fires.not_reached_of_ends (h : Fires target old new) (hends : target.ends = true)
    (hends' : target'.ends = true) : ¬ target'.Reached old := by
  have hlive : ∀ row, old = some row → row.status.terminal = false := by
    intro row hrow
    cases h with
    | submitted | claimed => cases hends
    | cancelled hlive =>
      cases hrow
      simp only [JobRow.cancellable, decide_eq_true_eq] at hlive
      rcases hlive with h | h <;> simp [h, JobStatus.terminal]
    | completed hruns =>
      cases hrow
      simp only [JobRow.runsFor, decide_eq_true_eq] at hruns
      simp [hruns.2, JobStatus.terminal]
  intro hreached
  cases target' with
  | queued | running => cases hends'
  | cancelled =>
    obtain ⟨row, hrow, hstatus⟩ := hreached
    have := hlive row hrow
    simp [hstatus, JobStatus.terminal] at this
  | completed w status =>
    obtain ⟨row, hrow, hstatus, -⟩ := hreached
    have := hlive row hrow
    rw [hstatus, status.terminal_status] at this
    cases this

theorem Target.Reached.touched {row : JobRow} {time : ℕ} (h : target.Reached (some row)) :
    target.Reached (some { row with updatedAt := time }) := by
  cases target with
  | queued => rfl
  | running => obtain ⟨row, ⟨⟩, h⟩ := h; exact ⟨_, rfl, h⟩
  | cancelled => obtain ⟨row, ⟨⟩, h⟩ := h; exact ⟨_, rfl, h⟩
  | completed => obtain ⟨row, ⟨⟩, h⟩ := h; exact ⟨_, rfl, h⟩

/-- A statement moves one job, or touches one with a heartbeat, or leaves all jobs as they are. -/
theorem answer_jobs (h : t.answer settings start now locked q st = (.ok (r, ws), q'))
    (hsubmit : ∀ record, st = .upsertJob record →
      record.status = .queued ∧ t.jobs.get record.jobId = none) :
    (moveOf st r = none ∧ ∀ jobId new, .job jobId new ∉ ws) ∨
    (moveOf st r = none ∧
      ∃ jobId new, ws = [.job jobId new] ∧ Beaten st (t.jobs.get jobId) jobId new) ∨
    ∃ jobId target new, ws = [.job jobId new] ∧ moveOf st r = some (jobId, target) ∧
      Fires target (t.jobs.get jobId) new := by
  cases st with
  | upsertJob record =>
    right
    right
    obtain ⟨hqueued, hnone⟩ := hsubmit record rfl
    simp only [Tables.answer] at h
    split at h
    · cases h
    · split at h
      · cases h
      · simp only [Prod.mk.injEq, Except.ok.injEq] at h
        obtain ⟨⟨rfl, rfl⟩, -⟩ := h
        refine ⟨_, _, _, rfl, rfl, ?_⟩
        rw [hnone]
        apply Fires.submitted <;> simp [Tables.upsertedJob, hnone, hqueued]
  | cancelJob jobId =>
    simp only [Tables.answer, Prod.mk.injEq, Except.ok.injEq] at h
    rcases hfind : Tables.find t.jobs jobId (·.cancellable) with _ | row
    · left
      simp only [hfind, Option.map_none, updateJob, Prod.mk.injEq] at h
      obtain ⟨⟨rfl, rfl⟩, -⟩ := h
      simp [moveOf, Reply.jobRows]
    · right
      right
      simp only [hfind, Option.map_some, updateJob, Prod.mk.injEq] at h
      obtain ⟨⟨rfl, rfl⟩, -⟩ := h
      rw [Tables.find_eq_some] at hfind
      refine ⟨_, _, _, rfl, rfl, ?_⟩
      rw [hfind.1]
      exact .cancelled hfind.2
  | claimJob region pool workerId =>
    simp only [Tables.answer, Prod.mk.injEq, Except.ok.injEq] at h
    rcases hfind : t.candidate now locked (·.waitsFor region pool) with _ | x
    · left
      simp only [hfind, claimRow, Prod.mk.injEq] at h
      obtain ⟨⟨rfl, rfl⟩, -⟩ := h
      simp [moveOf, Reply.jobRows]
    · right
      right
      simp only [hfind, claimRow, updateJob, Prod.mk.injEq] at h
      obtain ⟨⟨rfl, rfl⟩, -⟩ := h
      obtain ⟨hget, hwaits, -⟩ := Tables.candidate_spec hfind
      simp only [JobRow.waitsFor, decide_eq_true_eq] at hwaits
      refine ⟨_, _, _, rfl, rfl, ?_⟩
      rw [hget]
      exact .claimed hwaits.1
  | claimJobFor region pool workerId tenantId userId =>
    simp only [Tables.answer, Prod.mk.injEq, Except.ok.injEq] at h
    rcases hfind : t.candidate now locked (·.waitsForUser region pool tenantId userId) with _ | x
    · left
      simp only [hfind, claimRow, Prod.mk.injEq] at h
      obtain ⟨⟨rfl, rfl⟩, -⟩ := h
      simp [moveOf, Reply.jobRows]
    · right
      right
      simp only [hfind, claimRow, updateJob, Prod.mk.injEq] at h
      obtain ⟨⟨rfl, rfl⟩, -⟩ := h
      obtain ⟨hget, hwaits, -⟩ := Tables.candidate_spec hfind
      simp only [JobRow.waitsForUser, JobRow.waitsFor, decide_eq_true_eq] at hwaits
      refine ⟨_, _, _, rfl, rfl, ?_⟩
      rw [hget]
      exact .claimed hwaits.1.1
  | completeJob jobId status result workerId =>
    simp only [Tables.answer] at h
    split at h
    · cases h
    · simp only [Prod.mk.injEq, Except.ok.injEq] at h
      rcases hfind : Tables.find t.jobs jobId (·.runsFor workerId) with _ | row
      · left
        simp only [hfind, Option.map_none, updateJob, Prod.mk.injEq] at h
        obtain ⟨⟨rfl, rfl⟩, -⟩ := h
        simp [moveOf, Reply.jobRows]
      · right
        right
        simp only [hfind, Option.map_some, updateJob, Prod.mk.injEq] at h
        obtain ⟨⟨rfl, rfl⟩, -⟩ := h
        rw [Tables.find_eq_some] at hfind
        refine ⟨_, _, _, rfl, rfl, ?_⟩
        rw [hfind.1]
        exact .completed hfind.2
  | heartbeatJob jobId workerId =>
    simp only [Tables.answer, Prod.mk.injEq, Except.ok.injEq] at h
    rcases hfind : Tables.find t.jobs jobId (·.runsFor workerId) with _ | row
    · left
      simp only [hfind, Option.map_none, updateJob, Prod.mk.injEq] at h
      obtain ⟨⟨rfl, rfl⟩, -⟩ := h
      simp [moveOf]
    · right
      left
      simp only [hfind, Option.map_some, updateJob, Prod.mk.injEq] at h
      obtain ⟨⟨rfl, rfl⟩, -⟩ := h
      rw [Tables.find_eq_some] at hfind
      exact ⟨rfl, _, _, rfl, workerId, row, start.time, rfl, hfind.1, hfind.2, rfl⟩
  | _ =>
    left
    simp only [Tables.answer, updateContainer, selectForUpdate] at h
    repeat' split at h
    all_goals first
      | (simp only [Prod.mk.injEq, reduceCtorEq, false_and] at h; done)
      | (simp only [Prod.mk.injEq, Except.ok.injEq] at h
         obtain ⟨⟨-, rfl⟩, -⟩ := h
         simp [moveOf])

end answers

end StyioPlatform.Workspace
