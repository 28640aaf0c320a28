import StyioPlatform.Workspace.JobRows

/-! Jobs in PostgreSQL under concurrent calls: an invariant of the rows, the open transactions and
what the sessions have committed, kept by every turn of the server. -/
namespace StyioPlatform.Workspace

/-- A server whose sessions are calls of the store. -/
abbrev JobServer (ι : Type) : Type :=
  Server Moment Tables Sequences Write Statement Reply PostgresStoreError (Option PlatformJobRecord) ι

/-- The call may move the job to the target. -/
def Call.Owns (call : Call) (jobId : String) : Target → Prop
  | .queued => ∃ job, call = .submitJob job ∧ jobId = cString job.record.jobId
  | .running workerId => call.Claims workerId
  | _ => True

section tables

variable {settings : Settings} {t : Tables} {ws : List Write} {jobId : String} {new : JobRow}

theorem isTable_jobs : (dialect settings).IsTable (fun t => t.jobs.get) Write.job where
  written t jobId row := OrderedMap.get_set_self
  unwritten t w jobId hw := by
    cases w with
    | job id row =>
      apply OrderedMap.get_set_of_ne
      rintro rfl
      exact hw row rfl
    | _ => rfl

/-- Writes that do not concern a job leave its row alone. -/
theorem get_applyAll_of_unwritten (h : ∀ new, .job jobId new ∉ ws) :
    ((dialect settings).applyAll t ws).jobs.get jobId = t.jobs.get jobId :=
  isTable_jobs.read_applyAll_of_unwritten h

/-- Where all writes of jobs write one row, that row is there afterwards. -/
theorem get_applyAll_of_written (hmem : .job jobId new ∈ ws)
    (honly : ∀ id row, .job id row ∈ ws → id = jobId ∧ row = new) :
    ((dialect settings).applyAll t ws).jobs.get jobId = some new :=
  isTable_jobs.read_applyAll_of_written hmem fun row hrow => (honly jobId row hrow).2

end tables

variable {ι : Type}

/-- What holds of the jobs at every moment of a run. -/
structure JobInvariant (calls : ι → Call) (s : JobServer ι) : Prop where
  /-- The entries of a ledger belong to the call of the session. -/
  owned : ∀ i entry, entry ∈ (s.sessions i).ledger.current ++ (s.sessions i).ledger.kept →
    ∀ jobId target, Moves entry jobId target → (calls i).Owns jobId target
  /-- A transaction that has moved no job has written none. -/
  unmoved : ∀ i, (∀ entry ∈ (s.sessions i).ledger.current, moveOf entry.1 entry.2 = none) →
    ∀ jobId new, .job jobId new ∉ (s.sessions i).transaction.writes
  /-- A transaction that has moved a job has written this row and no other, and the committed row
  is still the one that the move started from. -/
  pending : ∀ i, ∀ entry ∈ (s.sessions i).ledger.current, ∀ jobId target, Moves entry jobId target →
    ∃ new, (∀ id row, .job id row ∈ (s.sessions i).transaction.writes ↔ id = jobId ∧ row = new) ∧
      Fires target (s.store.tables.jobs.get jobId) new
  /-- Committed rows are past the committed moves. -/
  reached : ∀ i, ∀ entry ∈ (s.sessions i).ledger.kept, ∀ jobId target, Moves entry jobId target →
    target.Reached (s.store.tables.jobs.get jobId)
  /-- Every committed row was submitted. -/
  submitted : ∀ jobId row, s.store.tables.jobs.get jobId = some row →
    ∃ i, ∃ entry ∈ (s.sessions i).ledger.kept, Moves entry jobId .queued
  /-- The worker of a row has claimed it. -/
  claimed : ∀ jobId row workerId, s.store.tables.jobs.get jobId = some row →
    row.workerId = some workerId →
    ∃ i, ∃ entry ∈ (s.sessions i).ledger.kept, Moves entry jobId (.running workerId)
  /-- A job is claimed once. -/
  claimedOnce : ∀ i j, ∀ entry ∈ (s.sessions i).ledger.kept, ∀ entry' ∈ (s.sessions j).ledger.kept,
    ∀ jobId w w', Moves entry jobId (.running w) → Moves entry' jobId (.running w') → i = j ∧ w = w'
  /-- A job is ended once. -/
  endedOnce : ∀ i j, ∀ entry ∈ (s.sessions i).ledger.kept, ∀ entry' ∈ (s.sessions j).ledger.kept,
    ∀ jobId target target', Moves entry jobId target → Moves entry' jobId target' →
      target.ends = true → target'.ends = true → i = j

namespace JobInvariant

variable {settings : Settings} {calls : ι → Call} {s s' : JobServer ι} {i j : ι}

/-- A turn that leaves the committed rows and the committed entries alone, and at most gives up the
open transaction. -/
theorem of_reset [DecidableEq ι] (h : JobInvariant calls s)
    (htables : s'.store.tables = s.store.tables)
    (hother : ∀ j, j ≠ i → s'.sessions j = s.sessions j)
    (hkept : (s'.sessions i).ledger.kept = (s.sessions i).ledger.kept)
    (hopen : ((s'.sessions i).transaction.writes = (s.sessions i).transaction.writes ∧
        (s'.sessions i).ledger.current = (s.sessions i).ledger.current) ∨
      ((s'.sessions i).transaction.writes = [] ∧ (s'.sessions i).ledger.current = [])) :
    JobInvariant calls s' := by
  have hkept' : ∀ j, (s'.sessions j).ledger.kept = (s.sessions j).ledger.kept := by
    intro j
    by_cases hj : j = i
    · subst hj
      exact hkept
    · rw [hother j hj]
  have hopen' : ∀ j, ((s'.sessions j).transaction.writes = (s.sessions j).transaction.writes ∧
        (s'.sessions j).ledger.current = (s.sessions j).ledger.current) ∨
      ((s'.sessions j).transaction.writes = [] ∧ (s'.sessions j).ledger.current = []) := by
    intro j
    by_cases hj : j = i
    · subst hj
      exact hopen
    · left
      rw [hother j hj]
      exact ⟨rfl, rfl⟩
  have hcurrent : ∀ j, ∀ entry ∈ (s'.sessions j).ledger.current,
      entry ∈ (s.sessions j).ledger.current ∧
        (s'.sessions j).transaction.writes = (s.sessions j).transaction.writes := by
    intro j entry hentry
    rcases hopen' j with ⟨hwrites, hcurrent⟩ | ⟨-, hcurrent⟩
    · exact ⟨hcurrent ▸ hentry, hwrites⟩
    · simp [hcurrent] at hentry
  constructor
  · intro j entry hentry jobId target hmoves
    refine h.owned j entry ?_ jobId target hmoves
    rw [List.mem_append] at hentry ⊢
    rw [hkept'] at hentry
    exact hentry.imp_left fun hmem => (hcurrent j entry hmem).1
  · intro j hnone jobId new hmem
    rcases hopen' j with ⟨hwrites, hcurrent⟩ | ⟨hwrites, -⟩
    · rw [hwrites] at hmem
      rw [hcurrent] at hnone
      exact h.unmoved j hnone jobId new hmem
    · simp [hwrites] at hmem
  · intro j entry hentry jobId target hmoves
    obtain ⟨hmem, hwrites⟩ := hcurrent j entry hentry
    rw [hwrites, htables]
    exact h.pending j entry hmem jobId target hmoves
  · simpa only [hkept', htables] using h.reached
  · simpa only [hkept', htables] using h.submitted
  · simpa only [hkept', htables] using h.claimed
  · simpa only [hkept', htables] using h.claimedOnce
  · simpa only [hkept', htables] using h.endedOnce

/-- A turn that commits: rows change by a heartbeat or by the moves of the new entries, and no row
of another open transaction changes. -/
theorem of_commit [DecidableEq ι] (h : JobInvariant calls s) (more : List (Statement × Reply))
    (hother : ∀ j, j ≠ i → s'.sessions j = s.sessions j)
    (hkept : (s'.sessions i).ledger.kept = (s.sessions i).ledger.kept ++ more)
    (hwrites : (s'.sessions i).transaction.writes = []) (hcurrent : (s'.sessions i).ledger.current = [])
    (hrows : ∀ jobId, s'.store.tables.jobs.get jobId = s.store.tables.jobs.get jobId ∨
      (∃ row time, s.store.tables.jobs.get jobId = some row ∧
        s'.store.tables.jobs.get jobId = some { row with updatedAt := time }) ∨
      ∃ entry ∈ more, ∃ target, Moves entry jobId target)
    (hpending : ∀ j, j ≠ i → ∀ entry ∈ (s.sessions j).ledger.current, ∀ jobId target,
      Moves entry jobId target → s'.store.tables.jobs.get jobId = s.store.tables.jobs.get jobId)
    (hmore : ∀ entry ∈ more, ∀ jobId target, Moves entry jobId target →
      (calls i).Owns jobId target ∧ ∃ new, s'.store.tables.jobs.get jobId = some new ∧
        Fires target (s.store.tables.jobs.get jobId) new)
    (hsame : ∀ entry ∈ more, ∀ entry' ∈ more, ∀ jobId w w', Moves entry jobId (.running w) →
      Moves entry' jobId (.running w') → w = w') :
    JobInvariant calls s' := by
  have hkept_iff : ∀ j entry, entry ∈ (s'.sessions j).ledger.kept ↔
      entry ∈ (s.sessions j).ledger.kept ∨ j = i ∧ entry ∈ more := by
    intro j entry
    by_cases hj : j = i
    · subst hj
      simp [hkept]
    · simp [hother j hj, hj]
  have hmono : ∀ jobId target, Target.Reached target (s.store.tables.jobs.get jobId) →
      target.Reached (s'.store.tables.jobs.get jobId) := by
    intro jobId target hreached
    rcases hrows jobId with hsame | ⟨row, time, hrow, hrow'⟩ | ⟨entry, hentry, target', hmoves⟩
    · rwa [hsame]
    · rw [hrow] at hreached
      rw [hrow']
      exact hreached.touched
    · obtain ⟨-, new, hnew, hfires⟩ := hmore entry hentry jobId target' hmoves
      rw [hnew]
      exact hfires.mono hreached
  constructor
  · intro j entry hentry jobId target hmoves
    by_cases hj : j = i
    · subst hj
      rw [hcurrent, hkept, List.nil_append, List.mem_append] at hentry
      rcases hentry with hentry | hentry
      · exact h.owned j entry (List.mem_append_right _ hentry) jobId target hmoves
      · exact (hmore entry hentry jobId target hmoves).1
    · rw [hother j hj] at hentry
      exact h.owned j entry hentry jobId target hmoves
  · intro j hnone jobId new hmem
    by_cases hj : j = i
    · subst hj
      simp [hwrites] at hmem
    · rw [hother j hj] at hnone hmem
      exact h.unmoved j hnone jobId new hmem
  · intro j entry hentry jobId target hmoves
    by_cases hj : j = i
    · subst hj
      simp [hcurrent] at hentry
    · rw [hother j hj] at hentry ⊢
      rw [hpending j hj entry hentry jobId target hmoves]
      exact h.pending j entry hentry jobId target hmoves
  · intro j entry hentry jobId target hmoves
    rcases (hkept_iff j entry).mp hentry with hentry | ⟨rfl, hentry⟩
    · exact hmono jobId target (h.reached j entry hentry jobId target hmoves)
    · obtain ⟨-, new, hnew, hfires⟩ := hmore entry hentry jobId target hmoves
      rw [hnew]
      exact hfires.reached
  · intro jobId row hrow
    have hold : (∃ row, s.store.tables.jobs.get jobId = some row) ∨
        ∃ entry ∈ more, Moves entry jobId .queued := by
      rcases hrows jobId with hsame | ⟨row, time, hrow, -⟩ | ⟨entry, hentry, target, hmoves⟩
      · exact .inl ⟨row, hsame ▸ hrow⟩
      · exact .inl ⟨row, hrow⟩
      · obtain ⟨-, new, -, hfires⟩ := hmore entry hentry jobId target hmoves
        generalize hget : s.store.tables.jobs.get jobId = old at hfires
        cases hfires with
        | submitted => exact .inr ⟨entry, hentry, hmoves⟩
        | _ => exact .inl ⟨_, rfl⟩
    rcases hold with ⟨row, hrow⟩ | ⟨entry, hentry, hmoves⟩
    · obtain ⟨j, entry, hentry, hmoves⟩ := h.submitted jobId row hrow
      exact ⟨j, entry, (hkept_iff j entry).mpr (.inl hentry), hmoves⟩
    · exact ⟨i, entry, (hkept_iff i entry).mpr (.inr ⟨rfl, hentry⟩), hmoves⟩
  · intro jobId row workerId hrow hworker
    have hold : (∃ row, s.store.tables.jobs.get jobId = some row ∧ row.workerId = some workerId) ∨
        ∃ entry ∈ more, Moves entry jobId (.running workerId) := by
      rcases hrows jobId with hsame | ⟨row', time, hget, hget'⟩ | ⟨entry, hentry, target, hmoves⟩
      · exact .inl ⟨row, hsame ▸ hrow, hworker⟩
      · rw [hget'] at hrow
        cases hrow
        exact .inl ⟨row', hget, hworker⟩
      · obtain ⟨-, new, hnew, hfires⟩ := hmore entry hentry jobId target hmoves
        rw [hrow] at hnew
        cases hnew
        generalize hget : s.store.tables.jobs.get jobId = old at hfires
        cases hfires with
        | submitted hstatus hnone => simp [hnone] at hworker
        | claimed =>
          cases hworker
          exact .inr ⟨entry, hentry, hmoves⟩
        | cancelled | completed => exact .inl ⟨_, rfl, hworker⟩
    rcases hold with ⟨row, hrow, hworker⟩ | ⟨entry, hentry, hmoves⟩
    · obtain ⟨j, entry, hentry, hmoves⟩ := h.claimed jobId row workerId hrow hworker
      exact ⟨j, entry, (hkept_iff j entry).mpr (.inl hentry), hmoves⟩
    · exact ⟨i, entry, (hkept_iff i entry).mpr (.inr ⟨rfl, hentry⟩), hmoves⟩
  · intro a b entry hentry entry' hentry' jobId w w' hmoves hmoves'
    rcases (hkept_iff a entry).mp hentry with hold | ⟨rfl, hnew⟩ <;>
      rcases (hkept_iff b entry').mp hentry' with hold' | ⟨hb, hnew'⟩
    · exact h.claimedOnce a b entry hold entry' hold' jobId w w' hmoves hmoves'
    · obtain ⟨-, new, -, hfires⟩ := hmore entry' hnew' jobId _ hmoves'
      exact absurd (h.reached a entry hold jobId _ hmoves) hfires.not_reached_running
    · obtain ⟨-, new, -, hfires⟩ := hmore entry hnew jobId _ hmoves
      exact absurd (h.reached b entry' hold' jobId _ hmoves') hfires.not_reached_running
    · exact ⟨hb.symm, hsame entry hnew entry' hnew' jobId w w' hmoves hmoves'⟩
  · intro a b entry hentry entry' hentry' jobId target target' hmoves hmoves' hends hends'
    rcases (hkept_iff a entry).mp hentry with hold | ⟨rfl, hnew⟩ <;>
      rcases (hkept_iff b entry').mp hentry' with hold' | ⟨hb, hnew'⟩
    · exact h.endedOnce a b entry hold entry' hold' jobId target target' hmoves hmoves' hends hends'
    · obtain ⟨-, new, -, hfires⟩ := hmore entry' hnew' jobId _ hmoves'
      exact absurd (h.reached a entry hold jobId _ hmoves) (hfires.not_reached_of_ends hends' hends)
    · obtain ⟨-, new, -, hfires⟩ := hmore entry hnew jobId _ hmoves
      exact absurd (h.reached b entry' hold' jobId _ hmoves')
        (hfires.not_reached_of_ends hends hends')
    · exact hb.symm

/-- A statement of a transaction that moves no job. -/
theorem of_unmoving [DecidableEq ι] (h : JobInvariant calls s) (entry : Statement × Reply)
    {ws : List Write} (htables : s'.store.tables = s.store.tables)
    (hother : ∀ j, j ≠ i → s'.sessions j = s.sessions j)
    (hkept : (s'.sessions i).ledger.kept = (s.sessions i).ledger.kept)
    (hwrites : (s'.sessions i).transaction.writes = (s.sessions i).transaction.writes ++ ws)
    (hcurrent : (s'.sessions i).ledger.current = (s.sessions i).ledger.current ++ [entry])
    (hmoves : moveOf entry.1 entry.2 = none) (hws : ∀ jobId new, .job jobId new ∉ ws) :
    JobInvariant calls s' := by
  have hentries : ∀ j e jobId target, e ∈ (s'.sessions j).ledger.current → Moves e jobId target →
      e ∈ (s.sessions j).ledger.current := by
    intro j e jobId target he hmove
    by_cases hj : j = i
    · subst hj
      rw [hcurrent, List.mem_append, List.mem_singleton] at he
      rcases he with he | rfl
      · exact he
      · simp [Moves, hmoves] at hmove
    · rwa [hother j hj] at he
  have hjobs : ∀ j jobId new, .job jobId new ∈ (s'.sessions j).transaction.writes ↔
      .job jobId new ∈ (s.sessions j).transaction.writes := by
    intro j jobId new
    by_cases hj : j = i
    · subst hj
      simp [hwrites, hws]
    · rw [hother j hj]
  have hkept' : ∀ j, (s'.sessions j).ledger.kept = (s.sessions j).ledger.kept := by
    intro j
    by_cases hj : j = i
    · subst hj
      exact hkept
    · rw [hother j hj]
  constructor
  · intro j e he jobId target hmove
    rw [List.mem_append, hkept'] at he
    refine h.owned j e (List.mem_append.mpr ?_) jobId target hmove
    exact he.imp_left fun he => hentries j e jobId target he hmove
  · intro j hnone jobId new hmem
    rw [hjobs] at hmem
    refine h.unmoved j ?_ jobId new hmem
    intro e he
    apply hnone
    by_cases hj : j = i
    · subst hj
      simp [hcurrent, he]
    · rwa [hother j hj]
  · intro j e he jobId target hmove
    simp only [hjobs, htables]
    exact h.pending j e (hentries j e jobId target he hmove) jobId target hmove
  · simpa only [hkept', htables] using h.reached
  · simpa only [hkept', htables] using h.submitted
  · simpa only [hkept', htables] using h.claimed
  · simpa only [hkept', htables] using h.claimedOnce
  · simpa only [hkept', htables] using h.endedOnce

/-- A statement of a transaction that moves a job. -/
theorem of_moving [DecidableEq ι] (h : JobInvariant calls s) (entry : Statement × Reply)
    {jobId : String} {target : Target} {new : JobRow} (htables : s'.store.tables = s.store.tables)
    (hother : ∀ j, j ≠ i → s'.sessions j = s.sessions j)
    (hkept : (s'.sessions i).ledger.kept = (s.sessions i).ledger.kept)
    (hwrites : (s'.sessions i).transaction.writes =
      (s.sessions i).transaction.writes ++ [.job jobId new])
    (hcurrent : (s'.sessions i).ledger.current = (s.sessions i).ledger.current ++ [entry])
    (hunmoved : ∀ e ∈ (s.sessions i).ledger.current, moveOf e.1 e.2 = none)
    (hmoves : Moves entry jobId target) (howns : (calls i).Owns jobId target)
    (hfires : Fires target (s.store.tables.jobs.get jobId) new) : JobInvariant calls s' := by
  have hkept' : ∀ j, (s'.sessions j).ledger.kept = (s.sessions j).ledger.kept := by
    intro j
    by_cases hj : j = i
    · subst hj
      exact hkept
    · rw [hother j hj]
  have hentry : ∀ e id t, e ∈ (s'.sessions i).ledger.current → Moves e id t →
      id = jobId ∧ t = target := by
    intro e id t he hmove
    rw [hcurrent, List.mem_append, List.mem_singleton] at he
    rcases he with he | rfl
    · simp [Moves, hunmoved e he] at hmove
    · exact Prod.mk.inj (Option.some.inj (hmove.symm.trans hmoves))
  constructor
  · intro j e he id t hmove
    rw [List.mem_append, hkept'] at he
    rcases he with he | he
    · by_cases hj : j = i
      · subst hj
        obtain ⟨rfl, rfl⟩ := hentry e id t he hmove
        exact howns
      · rw [hother j hj] at he
        exact h.owned j e (List.mem_append_left _ he) id t hmove
    · exact h.owned j e (List.mem_append_right _ he) id t hmove
  · intro j hnone id row hmem
    by_cases hj : j = i
    · subst hj
      have := hnone entry (by simp [hcurrent])
      simp [Moves, this] at hmoves
    · rw [hother j hj] at hnone hmem
      exact h.unmoved j hnone id row hmem
  · intro j e he id t hmove
    by_cases hj : j = i
    · subst hj
      obtain ⟨rfl, rfl⟩ := hentry e id t he hmove
      refine ⟨new, ?_, by rwa [htables]⟩
      intro id' row'
      have := h.unmoved j hunmoved id' row'
      simp [hwrites, this]
    · rw [hother j hj] at he ⊢
      rw [htables]
      exact h.pending j e he id t hmove
  · simpa only [hkept', htables] using h.reached
  · simpa only [hkept', htables] using h.submitted
  · simpa only [hkept', htables] using h.claimed
  · simpa only [hkept', htables] using h.claimedOnce
  · simpa only [hkept', htables] using h.endedOnce

end JobInvariant

/-- The submitted jobs have distinct ids. -/
def Distinct (calls : ι → Call) : Prop :=
  ∀ i j job job', calls i = .submitJob job → calls j = .submitJob job' →
    job.record.jobId = job'.record.jobId → i = j

theorem QueuedJob.cString_jobId (job : QueuedJob) :
    cString job.record.jobId = job.record.jobId := by
  obtain ⟨n, hn⟩ := job.numbered
  rw [hn, cString_jobIdFor]

structure Consistent (settings : Settings) (calls : ι → Call) (s : JobServer ι) : Prop where
  obeying : s.Obeying possible (fun i => (calls i).Rule) (fun i => (calls i).Result)
    (fun _ _ _ => True)
  inPhase : s.InPhase
  exclusive : s.Exclusive (dialect settings)
  jobs : JobInvariant calls s

section step

variable {settings : Settings} {calls : ι → Call} {s s' : JobServer ι} {i j : ι} {l : Ledger Statement Reply}
  {call : Call} {st : Statement} {r : Reply} {jobId : String} {target : Target}

/-- A statement that moves a job is the first of its transaction to do so, and the call's own. -/
theorem Call.Rule.of_moves (h : call.Rule l (.statement st))
    (hmoves : moveOf st r = some (jobId, target)) : Unmoved l ∧ call.Owns jobId target := by
  unfold moveOf at hmoves
  split at hmoves
  · obtain ⟨hunmoved, -, job, hcall, hrecord⟩ := h
    simp only [Option.some.injEq, Prod.mk.injEq] at hmoves
    obtain ⟨rfl, rfl⟩ := hmoves
    simp only [Statement.bound, Statement.upsertJob.injEq] at hrecord
    exact ⟨hunmoved, job, hcall, by rw [hrecord]⟩
  · cases hmoves
    exact ⟨h, trivial⟩
  · cases hmoves
    exact h
  · cases hmoves
    exact h
  · cases hmoves
    exact ⟨h, trivial⟩
  · cases hmoves

/-- The ids of committed jobs are C strings. -/
theorem JobInvariant.cString_of_get (h : JobInvariant calls s) {row : JobRow}
    (hget : s.store.tables.jobs.get jobId = some row) : cString jobId = jobId := by
  obtain ⟨j, entry, hentry, hmoves⟩ := h.submitted jobId row hget
  obtain ⟨job, -, rfl⟩ := h.owned j entry (List.mem_append_right _ hentry) jobId .queued hmoves
  exact cString_cString _

/-- What a session sees of a job: the committed row, or the one it has moved. -/
theorem JobInvariant.visible_cases (h : JobInvariant calls s) (settings : Settings) (i : ι)
    (jobId : String) :
    ((dialect settings).visible s.store.tables (s.sessions i).transaction).jobs.get jobId =
        s.store.tables.jobs.get jobId ∨
      ∃ entry ∈ (s.sessions i).ledger.current, ∃ target new, Moves entry jobId target ∧
        ((dialect settings).visible s.store.tables (s.sessions i).transaction).jobs.get jobId =
          some new ∧ Fires target (s.store.tables.jobs.get jobId) new ∧
        .job jobId new ∈ (s.sessions i).transaction.writes := by
  by_cases hnone : ∀ entry ∈ (s.sessions i).ledger.current, moveOf entry.1 entry.2 = none
  · left
    exact get_applyAll_of_unwritten (h.unmoved i hnone jobId)
  · push Not at hnone
    obtain ⟨entry, hentry, hmoves⟩ := hnone
    obtain ⟨⟨id, target⟩, hmoves⟩ := Option.ne_none_iff_exists'.mp hmoves
    obtain ⟨new, hwrites, hfires⟩ := h.pending i entry hentry id target hmoves
    by_cases hid : jobId = id
    · subst hid
      right
      have hmem := (hwrites jobId new).mpr ⟨rfl, rfl⟩
      exact ⟨entry, hentry, target, new, hmoves,
        get_applyAll_of_written hmem (fun id row h => (hwrites id row).mp h), hfires, hmem⟩
    · left
      apply get_applyAll_of_unwritten
      intro row hmem
      exact hid ((hwrites jobId row).mp hmem).1

theorem JobInvariant.cString_of_visible (h : JobInvariant calls s) {row : JobRow}
    (hget : ((dialect settings).visible s.store.tables (s.sessions i).transaction).jobs.get jobId =
      some row) : cString jobId = jobId := by
  rcases h.visible_cases settings i jobId with
    hsame | ⟨entry, hentry, target, new, hmoves, -, hfires, -⟩
  · exact h.cString_of_get (hsame ▸ hget)
  · generalize hold : s.store.tables.jobs.get jobId = old at hfires
    cases hfires with
    | submitted =>
      obtain ⟨job, -, rfl⟩ := h.owned i entry (List.mem_append_left _ hentry) jobId .queued hmoves
      exact cString_cString _
    | _ => exact h.cString_of_get hold

end step

section possible

variable {settings : Settings} {start now : Moment} {locked : Key → Bool} {q q' : Sequences}
  {t : Tables} {st : Statement} {r : Reply} {ws : List Write} {jobId : String}

theorem updateJob_rows {o : Option JobRow} : ∀ x ∈ (updateJob jobId o).1.jobRows, x.1 = jobId := by
  cases o <;> simp [updateJob, Reply.jobRows]

theorem claimRow_rows {time : ℕ} {workerId : String} {o : Option (String × JobRow)} :
    ∀ x ∈ (claimRow time workerId o).1.jobRows, ∃ y, o = some y ∧ x.1 = y.1 := by
  cases o <;> simp [claimRow, updateJob, Reply.jobRows]

/-- Statements answer with rows of the job that they name. -/
theorem possible_of_answer (hids : ∀ id row, t.jobs.get id = some row → cString id = id)
    (h : t.answer settings start now locked q st = (.ok (r, ws), q')) :
    possible (.statement st) r := by
  cases st with
  | selectJob jobId =>
    simp only [Tables.answer, Prod.mk.injEq, Except.ok.injEq] at h
    obtain ⟨⟨rfl, -⟩, -⟩ := h
    simp [possible, Reply.jobRows]
  | cancelJob jobId | heartbeatJob jobId workerId =>
    simp only [Tables.answer, Prod.mk.injEq, Except.ok.injEq] at h
    obtain ⟨h, -⟩ := h
    obtain rfl := congrArg Prod.fst h
    exact updateJob_rows
  | completeJob jobId status result workerId =>
    simp only [Tables.answer] at h
    split at h
    · cases h
    · simp only [Prod.mk.injEq, Except.ok.injEq] at h
      obtain ⟨h, -⟩ := h
      obtain rfl := congrArg Prod.fst h
      exact updateJob_rows
  | claimJob region pool workerId | claimJobFor region pool workerId tenantId userId =>
    simp only [Tables.answer, Prod.mk.injEq, Except.ok.injEq] at h
    obtain ⟨h, -⟩ := h
    obtain rfl := congrArg Prod.fst h
    intro x hx
    obtain ⟨y, hy, hxy⟩ := claimRow_rows x hx
    rw [hxy]
    exact hids y.1 y.2 (Tables.candidate_spec hy).1
  | _ => trivial

end possible


section step

variable [DecidableEq ι] [Fintype ι] {settings : Settings} {calls : ι → Call} {s s' : JobServer ι}
  {i : ι}

theorem Consistent.obeying_step (h : Consistent settings calls s)
    (hstep : Server.Step (dialect settings) s i s') :
    s'.Obeying possible (fun i => (calls i).Rule) (fun i => (calls i).Result)
      (fun _ _ _ => True) := by
  apply h.obeying.step hstep
  · intro c hc
    cases c with
    | statement st => exact absurd rfl (hc st)
    | _ => trivial
  · intro start now locked q st r ws q' hanswer
    exact possible_of_answer (fun id row hget => h.jobs.cString_of_visible hget) hanswer

omit [DecidableEq ι] [Fintype ι] in
/-- Where a submission is executed, its job is new. -/
theorem Consistent.fresh (h : Consistent settings calls s) (hdistinct : Distinct calls)
    {record : PlatformJobRecord}
    (hrule : (calls i).Rule (s.sessions i).ledger (.statement (.upsertJob record))) :
    record.status = .queued ∧
      ((dialect settings).visible s.store.tables (s.sessions i).transaction).jobs.get record.jobId =
        none := by
  obtain ⟨⟨-, hunmoved⟩, hkept, job, hcall, hrecord⟩ := hrule
  simp only [Statement.bound, Statement.upsertJob.injEq] at hrecord
  refine ⟨by rw [hrecord]; exact job.queued, ?_⟩
  have hsame : ((dialect settings).visible s.store.tables (s.sessions i).transaction).jobs.get
      record.jobId = s.store.tables.jobs.get record.jobId :=
    get_applyAll_of_unwritten (h.jobs.unmoved i hunmoved record.jobId)
  rw [hsame]
  rcases hget : s.store.tables.jobs.get record.jobId with _ | row
  · rfl
  · obtain ⟨j, entry, hentry, hmoves⟩ := h.jobs.submitted record.jobId row hget
    obtain ⟨job', hcall', hid⟩ :=
      h.jobs.owned j entry (List.mem_append_right _ hentry) record.jobId .queued hmoves
    have hij : i = j := by
      apply hdistinct i j job job' hcall hcall'
      rw [← job.cString_jobId, ← job'.cString_jobId, ← hid, hrecord]
    subst hij
    simp [hkept] at hentry

omit [DecidableEq ι] [Fintype ι] in
/-- A row that one session has written is written by no other. -/
theorem Consistent.unwritten_of_ne (h : Consistent settings calls s) {j : ι} (hij : i ≠ j)
    {jobId : String} {new row : JobRow} (hi : .job jobId new ∈ (s.sessions i).transaction.writes) :
    .job jobId row ∉ (s.sessions j).transaction.writes := by
  intro hj
  apply h.exclusive i j hij (.job jobId)
  · exact List.mem_filterMap.mpr ⟨_, hi, rfl⟩
  · exact List.mem_filterMap.mpr ⟨_, hj, rfl⟩

/-- Outside of transactions a statement changes the row of a job at most by a heartbeat, and then
no other session has locked the row. -/
theorem Consistent.rows_of_outside (h : Consistent settings calls s) {st : Statement} {now : Moment}
    {r : Reply} {ws : List Write} {q : Sequences}
    {next : Except PostgresStoreError Reply → StoreCall (Option PlatformJobRecord)}
    (hscript : (s.sessions i).script = .send (.statement st) next)
    (hidle : (s.sessions i).transaction = .idle)
    (hfree : ∀ k ∈ s.store.tables.needs st, s.locked (dialect settings) i k = false)
    (hanswer : s.store.tables.answer settings now now (s.locked (dialect settings) i)
      s.store.sequences st = (.ok (r, ws), q)) :
    moveOf st r = none ∧ ∀ jobId, ((dialect settings).applyAll s.store.tables ws).jobs.get jobId =
        s.store.tables.jobs.get jobId ∨
      ∃ row time, s.store.tables.jobs.get jobId = some row ∧
        ((dialect settings).applyAll s.store.tables ws).jobs.get jobId =
          some { row with updatedAt := time } ∧
        ∀ j, j ≠ i → ∀ new, .job jobId new ∉ (s.sessions j).transaction.writes := by
  have hphase : (s.sessions i).ledger.phase = .idle := by
    rw [(h.inPhase i).1, hidle]
    rfl
  have hmoves : moveOf st r = none := by
    rcases hmove : moveOf st r with _ | ⟨jobId, target⟩
    · rfl
    · have hopen := ((h.obeying.command hscript).of_moves hmove).1.1
      simp [hphase] at hopen
  have hsubmit : ∀ record, st = .upsertJob record →
      record.status = .queued ∧ s.store.tables.jobs.get record.jobId = none := by
    rintro record rfl
    simp [moveOf] at hmoves
  refine ⟨hmoves, ?_⟩
  intro jobId
  rcases answer_jobs hanswer hsubmit with ⟨-, hnone⟩ | ⟨-, id, new, rfl, hbeaten⟩ |
    ⟨_, _, _, -, hmove, -⟩
  · exact .inl (get_applyAll_of_unwritten (hnone jobId))
  · by_cases hid : jobId = id
    · subst hid
      obtain ⟨workerId, row, time, -, hrow, -, rfl⟩ := hbeaten
      refine .inr ⟨row, time, hrow, OrderedMap.get_set_self, ?_⟩
      intro j hj new hmem
      have hlocked := (dialect settings).unlocked hfree hanswer _ List.mem_cons_self (.job jobId) rfl
      exact Server.locked_eq_false.mp hlocked j hj (List.mem_filterMap.mpr ⟨_, hmem, rfl⟩)
    · exact .inl (OrderedMap.get_set_of_ne hid)
  · simp [hmoves] at hmove

theorem Consistent.jobs_step (h : Consistent settings calls s) (hdistinct : Distinct calls)
    (hstep : Server.Step (dialect settings) s i s') : JobInvariant calls s' := by
  have hother : ∀ j, j ≠ i → s'.sessions j = s.sessions j := fun j hj => hstep.sessions_of_ne hj
  cases hstep with
  | wait => exact h.jobs
  | @fail c next e q hscript hsequences =>
    refine h.jobs.of_reset (by rfl) hother ?_ ?_
    · cases c <;> cases hphase : (s.sessions i).ledger.phase <;>
        simp [Session.proceed, Ledger.record, hphase]
    · have hphase := (h.inPhase i).1
      cases c <;> cases htxn : (s.sessions i).transaction <;> rw [htxn] at hphase <;>
        simp [Session.proceed, Ledger.record, Transaction.failed, Transaction.writes, hphase,
          Transaction.phase]
  | begin hscript hidle =>
    have hphase := (h.inPhase i).1
    rw [hidle] at hphase
    refine h.jobs.of_reset (by rfl) hother ?_ ?_ <;>
      simp [Session.proceed, Ledger.record, hphase, Transaction.phase, Transaction.writes]
  | beginAgain hscript hopen =>
    have hphase := h.obeying.command hscript
    have hphase' := (h.inPhase i).1
    rw [show (s.sessions i).ledger.phase = .idle from hphase] at hphase'
    cases htxn : (s.sessions i).transaction <;> simp_all [Transaction.phase]
  | rollback hscript =>
    refine h.jobs.of_reset (by rfl) hother ?_ ?_ <;>
      simp [Session.proceed, Ledger.record, Transaction.writes]
  | @outside st next now r ws q hscript hidle hfree hanswer =>
    have hphase : (s.sessions i).ledger.phase = .idle := by
      rw [(h.inPhase i).1, hidle]
      rfl
    obtain ⟨hmoves, hrows⟩ := h.rows_of_outside hscript hidle hfree hanswer
    refine h.jobs.of_commit [(st, r)] hother ?_ ?_ ?_ ?_ ?_ ?_ ?_
    · simp [Session.proceed, Ledger.record, hphase]
    · simp [Session.proceed, Transaction.writes]
    · simp [Session.proceed, Ledger.record, hphase, (h.inPhase i).2]
    · intro jobId
      rcases hrows jobId with hsame | ⟨row, time, hrow, hrow', -⟩
      · exact .inl hsame
      · exact .inr (.inl ⟨row, time, hrow, hrow'⟩)
    · intro j hj entry hentry jobId target hmove
      rcases hrows jobId with hsame | ⟨row, time, -, -, hunwritten⟩
      · exact hsame
      · obtain ⟨new, hwrites, -⟩ := h.jobs.pending j entry hentry jobId target hmove
        exact absurd ((hwrites jobId new).mpr ⟨rfl, rfl⟩) (hunwritten j hj new)
    · simp [Moves, hmoves]
    · simp [Moves, hmoves]
  | @inside st next start now ws ws' r q hscript hopen hfree hanswer =>
    have hphase : (s.sessions i).ledger.phase = .opened := by
      rw [(h.inPhase i).1, hopen]
      rfl
    have hrule := h.obeying.command hscript
    have hvisible : (dialect settings).applyAll s.store.tables ws =
        (dialect settings).visible s.store.tables (s.sessions i).transaction := by
      rw [hopen]
      rfl
    rw [hvisible] at hanswer
    have hsubmit : ∀ record, st = .upsertJob record → record.status = .queued ∧
        ((dialect settings).visible s.store.tables (s.sessions i).transaction).jobs.get
          record.jobId = none := by
      rintro record rfl
      exact h.fresh hdistinct hrule
    rcases answer_jobs hanswer hsubmit with ⟨hmoves, hnone⟩ | ⟨-, id, new, -, w, row, time, hst, -⟩ |
      ⟨jobId, target, new, rfl, hmoves, hfires⟩
    · refine h.jobs.of_unmoving (st, r) (by rfl) hother ?_ ?_ ?_ hmoves hnone
      · simp [Session.proceed, Ledger.record, hphase]
      · simp [Session.proceed, hopen, Transaction.writes]
      · simp [Session.proceed, Ledger.record, hphase]
    · rw [hst] at hrule
      have hidle : (s.sessions i).ledger.phase = .idle := hrule
      simp [hphase] at hidle
    · obtain ⟨⟨-, hunmoved⟩, howns⟩ := hrule.of_moves hmoves
      have hsame : ((dialect settings).visible s.store.tables (s.sessions i).transaction).jobs.get
          jobId = s.store.tables.jobs.get jobId :=
        get_applyAll_of_unwritten (h.jobs.unmoved i hunmoved jobId)
      rw [hsame] at hfires
      refine h.jobs.of_moving (st, r) (by rfl) hother ?_ ?_ ?_ hunmoved hmoves howns hfires
      · simp [Session.proceed, Ledger.record, hphase]
      · simp [Session.proceed, hopen, Transaction.writes]
      · simp [Session.proceed, Ledger.record, hphase]
  | commit hscript =>
    refine h.jobs.of_commit (s.sessions i).ledger.current hother ?_ ?_ ?_ ?_ ?_ ?_ ?_
    · simp [Session.proceed, Ledger.record]
    · simp [Session.proceed, Transaction.writes]
    · simp [Session.proceed, Ledger.record]
    · intro jobId
      rcases h.jobs.visible_cases settings i jobId with
        hsame | ⟨entry, hentry, target, new, hmoves, -⟩
      · exact .inl hsame
      · exact .inr (.inr ⟨entry, hentry, target, hmoves⟩)
    · intro j hj entry hentry jobId target hmoves
      obtain ⟨new, hwrites, -⟩ := h.jobs.pending j entry hentry jobId target hmoves
      apply get_applyAll_of_unwritten
      intro row
      exact h.unwritten_of_ne hj ((hwrites jobId new).mpr ⟨rfl, rfl⟩)
    · intro entry hentry jobId target hmoves
      refine ⟨h.jobs.owned i entry (List.mem_append_left _ hentry) jobId target hmoves, ?_⟩
      obtain ⟨new, hwrites, hfires⟩ := h.jobs.pending i entry hentry jobId target hmoves
      refine ⟨new, ?_, hfires⟩
      exact get_applyAll_of_written ((hwrites jobId new).mpr ⟨rfl, rfl⟩)
        (fun id row hmem => (hwrites id row).mp hmem)
    · intro entry hentry entry' hentry' jobId w w' hmoves hmoves'
      obtain ⟨new, hwrites, hfires⟩ := h.jobs.pending i entry hentry jobId _ hmoves
      obtain ⟨new', hwrites', hfires'⟩ := h.jobs.pending i entry' hentry' jobId _ hmoves'
      obtain ⟨-, rfl⟩ := (hwrites jobId new').mp ((hwrites' jobId new').mpr ⟨rfl, rfl⟩)
      obtain ⟨row, hrow, -, hworker⟩ := hfires.reached
      obtain ⟨row', hrow', -, hworker'⟩ := hfires'.reached
      cases hrow
      cases hrow'
      exact Option.some.inj (hworker.symm.trans hworker')

theorem Consistent.step (h : Consistent settings calls s) (hdistinct : Distinct calls)
    (hstep : Server.Step (dialect settings) s i s') : Consistent settings calls s' where
  obeying := h.obeying_step hstep
  inPhase := h.inPhase.step hstep
  exclusive := h.exclusive.step hstep
  jobs := h.jobs_step hdistinct hstep

/-- A turn changes the committed row of a job by a heartbeat, by a move, or not at all. -/
theorem Consistent.rows_step (h : Consistent settings calls s)
    (hstep : Server.Step (dialect settings) s i s') (jobId : String) :
    s'.store.tables.jobs.get jobId = s.store.tables.jobs.get jobId ∨
      (∃ row time, s.store.tables.jobs.get jobId = some row ∧
        s'.store.tables.jobs.get jobId = some { row with updatedAt := time }) ∨
      ∃ target new, Fires target (s.store.tables.jobs.get jobId) new ∧
        s'.store.tables.jobs.get jobId = some new := by
  cases hstep with
  | outside hscript hidle hfree hanswer =>
    rcases (h.rows_of_outside hscript hidle hfree hanswer).2 jobId with
      hsame | ⟨row, time, hrow, hrow', -⟩
    · exact .inl hsame
    · exact .inr (.inl ⟨row, time, hrow, hrow'⟩)
  | commit hscript =>
    rcases h.jobs.visible_cases settings i jobId with
      hsame | ⟨entry, hentry, target, new, hmoves, hget, hfires, -⟩
    · exact .inl hsame
    · exact .inr (.inr ⟨target, new, hfires, hget⟩)
  | _ => exact .inl rfl

end step

end StyioPlatform.Workspace
