import Mathlib.Algebra.GroupWithZero.Nat
import Mathlib.Tactic.FinCases
import StyioPlatform.Workspace.Concurrency

/-! The life cycle of jobs in PostgreSQL, for every interleaving of concurrent calls. -/
namespace StyioPlatform.Workspace

variable {ι : Type} [DecidableEq ι] [Fintype ι]

namespace JobServer

/-- One session for each call, over a store. -/
def start (settings : Settings) (calls : ι → Call) (store : Store Tables Sequences) :
    JobServer ι :=
  ⟨store, fun i => { script := (calls i).script settings }⟩

/-- The server after some turns of the calls. -/
def after (settings : Settings) (calls : ι → Call) (store : Store Tables Sequences)
    (turns : List (Turn Moment PostgresStoreError ι)) : JobServer ι :=
  Server.run (dialect settings) (start settings calls store) turns

/-- The call of session `i` has returned the job. -/
def Returned (s : JobServer ι) (i : ι) (job : PlatformJobRecord) : Prop :=
  (s.sessions i).script = .done (.ok (some job))

/-- Session `i` has committed the move of the job. -/
def Committed (s : JobServer ι) (i : ι) (jobId : String) (target : Target) : Prop :=
  ∃ entry ∈ (s.sessions i).ledger.kept, Moves entry jobId target

end JobServer

open JobServer

variable {settings : Settings} {calls : ι → Call} {store : Store Tables Sequences} {s : JobServer ι}
  {i j : ι} {jobId : String}

omit [DecidableEq ι] [Fintype ι] in
theorem consistent_start (hempty : store.tables.jobs = .empty) :
    Consistent settings calls (start settings calls store) where
  obeying i := (calls i).follows_script settings
  inPhase i := ⟨rfl, fun _ => rfl⟩
  exclusive i j _ k hk := by simp [start, Transaction.writes] at hk
  jobs := by
    constructor <;> simp [start, Transaction.writes, hempty]

theorem consistent_after (hdistinct : Distinct calls) (hempty : store.tables.jobs = .empty)
    (turns : List (Turn Moment PostgresStoreError ι)) :
    Consistent settings calls (after settings calls store turns) := by
  apply Server.run_invariant _ turns (consistent_start hempty)
  intro s i s' h hstep
  exact h.step hdistinct hstep

/-- What a turn may make of the committed row of a job: a new row is queued and has no worker, the
status stays or moves along the life cycle, and a job that has left the queue keeps its worker. -/
def RowStep : Option JobRow → Option JobRow → Prop
  | none, none => True
  | none, some row => row.status = .queued ∧ row.workerId = none
  | some _, none => False
  | some row, some row' => (row'.status = row.status ∨ Move row.status row'.status) ∧
      (row.status.terminal = true → row'.status = row.status) ∧
      (row.status = .queued → row'.status = .queued → row'.workerId = row.workerId) ∧
      (row.status ≠ .queued → row'.workerId = row.workerId)

theorem rowStep_refl (old : Option JobRow) : RowStep old old := by
  cases old <;> simp [RowStep]

theorem Fires.rowStep {target : Target} {old : Option JobRow} {new : JobRow}
    (h : Fires target old new) : RowStep old (some new) := by
  cases h with
  | submitted hstatus hworker => exact ⟨hstatus, hworker⟩
  | claimed hqueued =>
    refine ⟨.inr ?_, ?_, ?_, ?_⟩
    · rw [hqueued]
      exact .claim
    · simp [hqueued, JobStatus.terminal]
    · simp [JobRow.claimed]
    · exact fun hne => absurd hqueued hne
  | cancelled hlive =>
    simp only [JobRow.cancellable, decide_eq_true_eq] at hlive
    refine ⟨.inr ?_, ?_, fun _ _ => rfl, fun _ => rfl⟩
    · rcases hlive with h | h <;> rw [h]
      · exact .cancelQueued
      · exact .cancelRunning
    · rcases hlive with h | h <;> simp [h, JobStatus.terminal]
  | completed hruns =>
    simp only [JobRow.runsFor, decide_eq_true_eq] at hruns
    refine ⟨.inr ?_, ?_, fun _ _ => rfl, fun _ => rfl⟩
    · rw [hruns.2]
      exact move_completion _
    · simp [hruns.2, JobStatus.terminal]

theorem Consistent.rowStep (h : Consistent settings calls s)
    (turn : Turn Moment PostgresStoreError ι) (jobId : String) :
    RowStep (s.store.tables.jobs.get jobId)
      ((s.step (dialect settings) turn).store.tables.jobs.get jobId) := by
  rcases h.rows_step (Server.step_spec (dialect settings) s turn) jobId with
    hsame | ⟨row, time, hrow, hrow'⟩ | ⟨target, new, hfires, hnew⟩
  · rw [hsame]
    exact rowStep_refl _
  · rw [hrow, hrow']
    exact ⟨.inl rfl, fun _ => rfl, fun _ _ => rfl, fun _ => rfl⟩
  · rw [hnew]
    exact hfires.rowStep

/-- The call completes or cancels the job. -/
def Call.Ends (call : Call) (jobId : String) : Prop :=
  (∃ id reason, call = .cancelJob id reason ∧ cString id = jobId) ∨
    ∃ id workerId status message artifacts result,
      call = .completeJob id workerId status message artifacts result ∧ cString id = jobId

namespace Consistent

omit [DecidableEq ι] [Fintype ι] in
theorem result_of_returned (h : Consistent settings calls s) {job : PlatformJobRecord}
    (hreturned : Returned s i job) : (calls i).Result (s.sessions i).ledger (some job) := by
  have hobeys := h.obeying i
  rw [hreturned] at hobeys
  exact hobeys

omit [DecidableEq ι] [Fintype ι] in
theorem committed_of_claim (h : Consistent settings calls s) {job : PlatformJobRecord}
    {workerId : String} (hclaims : (calls i).Claims workerId) (hreturned : Returned s i job) :
    Committed s i job.jobId (.running workerId) :=
  (h.result_of_returned hreturned).1 workerId hclaims

omit [DecidableEq ι] [Fintype ι] in
/-- A call that completes or cancels a job and returns it has committed the end of the job. -/
theorem committed_of_ends (h : Consistent settings calls s) {job : PlatformJobRecord}
    (hends : (calls i).Ends jobId) (hreturned : Returned s i job) :
    ∃ target, target.ends = true ∧ Committed s i jobId target := by
  obtain ⟨-, hcancel, hcomplete⟩ := h.result_of_returned hreturned
  rcases hends with ⟨id, reason, hcall, rfl⟩ | ⟨id, w, status, message, artifacts, result, hcall, rfl⟩
  · exact ⟨.cancelled, rfl, hcancel id reason hcall⟩
  · exact ⟨.completed (cString w) status, rfl, hcomplete id w status message artifacts result hcall⟩

end Consistent

/-- What holds of the jobs and of what the calls have returned, at every moment of a run. -/
structure JobsInOrder (settings : Settings) (calls : ι → Call) (s : JobServer ι) : Prop where
  /-- Rows only change along the life cycle, whichever turn comes next. -/
  rows : ∀ turn jobId, RowStep (s.store.tables.jobs.get jobId)
    ((s.step (dialect settings) turn).store.tables.jobs.get jobId)
  /-- A job is claimed by one call, for one worker. -/
  claimedOnce : ∀ i j jobId w w', Committed s i jobId (.running w) →
    Committed s j jobId (.running w') → i = j ∧ w = w'
  /-- A claim that returns a job has claimed it, and no other claim returns the same job. -/
  claimed : ∀ i workerId job, (calls i).Claims workerId → Returned s i job →
    Committed s i job.jobId (.running workerId)
  returnedOnce : ∀ i j w w' job job', (calls i).Claims w → (calls j).Claims w' →
    Returned s i job → Returned s j job' → job.jobId = job'.jobId → i = j
  /-- Of the calls that complete or cancel a job, one returns success. -/
  endedOnce : ∀ i j jobId job job', (calls i).Ends jobId → (calls j).Ends jobId →
    Returned s i job → Returned s j job' → i = j
  /-- The worker of a job is the one whose claim was committed. -/
  workers : ∀ jobId row workerId, s.store.tables.jobs.get jobId = some row →
    row.workerId = some workerId → ∃ j, Committed s j jobId (.running workerId)
  /-- A completion succeeds for the worker that claimed the job. -/
  completed : ∀ i id workerId status message artifacts result job,
    calls i = .completeJob id workerId status message artifacts result → Returned s i job →
    (∃ row, s.store.tables.jobs.get (cString id) = some row ∧ row.status = status.status ∧
      row.workerId = some (cString workerId)) ∧
    ∃ j, (calls j).Claims (cString workerId) ∧
      Committed s j (cString id) (.running (cString workerId))

theorem Consistent.jobsInOrder (h : Consistent settings calls s) : JobsInOrder settings calls s where
  rows := h.rowStep
  claimedOnce := by
    intro i j jobId w w' ⟨entry, hentry, hmoves⟩ ⟨entry', hentry', hmoves'⟩
    exact h.jobs.claimedOnce i j entry hentry entry' hentry' jobId w w' hmoves hmoves'
  claimed i workerId job hclaims hreturned := h.committed_of_claim hclaims hreturned
  returnedOnce := by
    intro i j w w' job job' hi hj hreturned hreturned' heq
    obtain ⟨entry, hentry, hmoves⟩ := h.committed_of_claim hi hreturned
    obtain ⟨entry', hentry', hmoves'⟩ := h.committed_of_claim hj hreturned'
    rw [heq] at hmoves
    exact (h.jobs.claimedOnce i j entry hentry entry' hentry' job'.jobId w w' hmoves hmoves').1
  endedOnce := by
    intro i j jobId job job' hi hj hreturned hreturned'
    obtain ⟨target, hends, entry, hentry, hmoves⟩ := h.committed_of_ends hi hreturned
    obtain ⟨target', hends', entry', hentry', hmoves'⟩ := h.committed_of_ends hj hreturned'
    exact h.jobs.endedOnce i j entry hentry entry' hentry' jobId target target' hmoves hmoves' hends
      hends'
  workers jobId row workerId hrow hworker := h.jobs.claimed jobId row workerId hrow hworker
  completed := by
    intro i id workerId status message artifacts result job hcall hreturned
    obtain ⟨-, -, hcomplete⟩ := h.result_of_returned hreturned
    obtain ⟨entry, hentry, hmoves⟩ :=
      hcomplete id workerId status message artifacts result hcall
    obtain ⟨row, hrow, hstatus, hworker⟩ := h.jobs.reached i entry hentry (cString id) _ hmoves
    refine ⟨⟨row, hrow, hstatus, hworker⟩, ?_⟩
    obtain ⟨j, entry', hentry', hmoves'⟩ := h.jobs.claimed (cString id) row _ hrow hworker
    exact ⟨j, h.jobs.owned j entry' (List.mem_append_right _ hentry') (cString id) _ hmoves',
      entry', hentry', hmoves'⟩

/-- Jobs live in order in every interleaving of calls that submit distinct jobs. -/
theorem jobsInOrder_after (settings : Settings) (calls : ι → Call) (hdistinct : Distinct calls)
    (store : Store Tables Sequences) (hempty : store.tables.jobs = .empty)
    (turns : List (Turn Moment PostgresStoreError ι)) :
    JobsInOrder settings calls (after settings calls store turns) :=
  (consistent_after hdistinct hempty turns).jobsInOrder

def sampleJob : QueuedJob where
  record :=
    { jobId := jobIdFor 1, tenantId := "tenant", userId := "user", workspaceId := "workspace"
      action := "build", region := "eu", workerPoolKey := "linux", jobRequest := .null }
  queued := rfl
  numbered := ⟨1, rfl⟩

def sampleCalls : Fin 4 → Call
  | 0 => .submitJob sampleJob
  | 1 => .claimJob "worker" "eu" "linux"
  | 2 => .heartbeatJob (jobIdFor 1) "worker" "still building"
  | 3 => .cancelJob (jobIdFor 1) "no longer needed"

/-- A database with one worker and no jobs. -/
def sampleStore : Store Tables Sequences where
  tables := { workers := OrderedMap.empty.set "worker" ⟨"eu", "linux", "active", 1⟩ }
  sequences := {}

instance neZero_sessions : NeZero 4 := ⟨by decide⟩

/-- Turns of the sessions, one moment after the other. -/
def turnsOf (sessions : List (Fin 4)) : List (Turn Moment PostgresStoreError (Fin 4)) :=
  sessions.zipIdx.map fun x => { session := x.1, now := { time := x.2 } }

/-- The job is submitted and claimed, then cancelled between the two statements of a heartbeat. -/
def sampleTurns : List (Turn Moment PostgresStoreError (Fin 4)) :=
  turnsOf ([0, 0, 0, 0, 0] ++ [1, 1, 1, 1, 1, 1, 1] ++ [2] ++ [3, 3, 3, 3, 3, 3] ++ [2, 2, 2])

theorem distinct_sampleCalls : Distinct sampleCalls := by
  intro i j job job' hi hj _
  fin_cases i <;> fin_cases j <;> simp_all [sampleCalls]

theorem jobsInOrder_sampleTurns : Distinct sampleCalls ∧
    JobsInOrder sampleSettings sampleCalls
      (after sampleSettings sampleCalls sampleStore sampleTurns) ∧
    (∃ job, Returned (after sampleSettings sampleCalls sampleStore sampleTurns) 1 job) ∧
    ∃ job, Returned (after sampleSettings sampleCalls sampleStore sampleTurns) 3 job :=
  ⟨distinct_sampleCalls,
    jobsInOrder_after sampleSettings sampleCalls distinct_sampleCalls sampleStore rfl sampleTurns,
    ⟨_, rfl⟩, ⟨_, rfl⟩⟩

end StyioPlatform.Workspace
