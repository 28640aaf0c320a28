import Mathlib.Data.Nat.SuccPred
import StyioPlatform.Workspace.ConcurrentJobs

/-! The events of a job against its status. A heartbeat updates the row and inserts its event in two
transactions; the history agrees with the status where no job ends between the two. -/
namespace StyioPlatform.Workspace

section answers

variable {settings : Settings} {start now : Moment} {locked : Key → Bool} {q q' : Sequences}
  {t : Tables} {st : Statement} {r : Reply} {ws : List Write} {e : PostgresStoreError}

/-- A statement inserts one event under the next number, or none. -/
theorem answer_events (h : t.answer settings start now locked q st = (.ok (r, ws), q')) :
    (∃ jobId status message, st = .insertEvent jobId status message ∧
      ws = [.event q.event ⟨jobId, status, message, start.time⟩] ∧ q'.event = q.event + 1 ∧
      (t.jobs.get jobId).isSome) ∨
    ((∀ jobId status message, st ≠ .insertEvent jobId status message) ∧
      (∀ id row, .event id row ∉ ws) ∧ q'.event = q.event) := by
  cases st with
  | insertEvent jobId status message =>
    left
    simp only [Tables.answer] at h
    split at h
    · cases h
    · rename_i hsome
      simp only [Prod.mk.injEq, Except.ok.injEq] at h
      obtain ⟨⟨-, rfl⟩, rfl⟩ := h
      exact ⟨jobId, status, message, rfl, rfl, rfl, Option.isSome_iff_ne_none.mpr (by simpa using hsome)⟩
  | _ =>
    right
    simp only [Tables.answer, updateContainer, selectForUpdate, updateJob, claimRow] at h
    repeat' split at h
    all_goals first
      | (simp only [Prod.mk.injEq, reduceCtorEq, false_and] at h; done)
      | (simp only [Prod.mk.injEq, Except.ok.injEq] at h
         obtain ⟨⟨-, rfl⟩, rfl⟩ := h
         simp)

theorem event_le_of_error (h : t.answer settings start now locked q st = (.error e, q')) :
    q.event ≤ q'.event := by
  cases st with
  | insertEvent jobId status message =>
    simp only [Tables.answer] at h
    split at h
    · simp only [Prod.mk.injEq] at h
      obtain ⟨-, rfl⟩ := h
      exact Nat.le_succ _
    · cases h
  | _ =>
    simp only [Tables.answer] at h
    repeat' split at h
    all_goals first
      | (simp only [Prod.mk.injEq, reduceCtorEq, false_and] at h; done)
      | (simp only [Prod.mk.injEq] at h
         obtain ⟨-, rfl⟩ := h
         exact le_rfl)

theorem isTable_events : (dialect settings).IsTable (fun t => t.events.get) Write.event where
  written t id row := OrderedMap.get_set_self
  unwritten t w id hw := by
    cases w with
    | event id' row =>
      apply OrderedMap.get_set_of_ne
      rintro rfl
      exact hw row rfl
    | _ => rfl

theorem events_applyAll_of_unwritten (h : ∀ id row, .event id row ∉ ws) :
    ((dialect settings).applyAll t ws).events = t.events := by
  induction ws generalizing t with
  | nil => rfl
  | cons w ws ih =>
    have hrest : ∀ id row, .event id row ∉ ws := fun id row hmem => h id row (List.mem_cons_of_mem w hmem)
    have hw : (t.apply w).events = t.events := by
      cases w with
      | event id row => exact absurd List.mem_cons_self (h id row)
      | _ => rfl
    exact (ih hrest).trans hw

end answers

/-- A job moves from a status that is not terminal. -/
theorem Fires.not_terminal {target : Target} {job new : JobRow} (h : Fires target (some job) new) :
    job.status.terminal = false := by
  cases h with
  | claimed hqueued => simp [hqueued, JobStatus.terminal]
  | cancelled hlive =>
    simp only [JobRow.cancellable, decide_eq_true_eq] at hlive
    rcases hlive with h | h <;> simp [h, JobStatus.terminal]
  | completed hruns =>
    simp only [JobRow.runsFor, decide_eq_true_eq] at hruns
    simp [hruns.2, JobStatus.terminal]

variable {ι : Type}

/-- What holds of the events at every moment of a run. -/
structure EventInvariant (s : JobServer ι) : Prop where
  numbered : ∀ id row, s.store.tables.events.get id = some row → id < s.store.sequences.event
  /-- The open transactions have inserted events under numbers of their own. -/
  fresh : ∀ i id row, .event id row ∈ (s.sessions i).transaction.writes →
    id < s.store.sequences.event ∧ s.store.tables.events.get id = none
  unique : ∀ i j id row row', .event id row ∈ (s.sessions i).transaction.writes →
    .event id row' ∈ (s.sessions j).transaction.writes → i = j ∧ row = row'
  /-- Events belong to jobs, and the event of an end to a job that ended so. -/
  known : ∀ id row, s.store.tables.events.get id = some row →
    ∃ job, s.store.tables.jobs.get row.jobId = some job ∧
      (row.status.terminal = true → job.status = row.status)
  /-- The greatest event of a job has its status. -/
  latest : ∀ jobId job, s.store.tables.jobs.get jobId = some job →
    ∃ id row, s.store.tables.events.get id = some row ∧ row.jobId = jobId ∧
      row.status = job.status ∧
      ∀ id' row', s.store.tables.events.get id' = some row' → row'.jobId = jobId → id' ≤ id
  /-- Nothing else follows the end of a job. -/
  final : ∀ id row id' row', s.store.tables.events.get id = some row →
    s.store.tables.events.get id' = some row' → row.jobId = row'.jobId →
    row.status.terminal = true → id < id' → row'.status = row.status
  /-- An open transaction has inserted the events that it was told to. -/
  recorded : ∀ i, ∀ entry ∈ (s.sessions i).ledger.current, ∀ jobId status message,
    entry.1 = .insertEvent jobId status message →
    ∃ id row, .event id row ∈ (s.sessions i).transaction.writes ∧ row.jobId = jobId ∧
      row.status = status
  /-- The events of an open transaction are those of its move, and they are the last of the job. -/
  pending : ∀ i id row, .event id row ∈ (s.sessions i).transaction.writes →
    (∃ entry ∈ (s.sessions i).ledger.current, ∃ target, Moves entry row.jobId target ∧
      target.status = row.status) ∧
    ∀ id' row', s.store.tables.events.get id' = some row' → row'.jobId = row.jobId → id' < id

namespace EventInvariant

variable {settings : Settings} {calls : ι → Call} {s s' : JobServer ι} {i : ι}

/-- A turn that inserts no event: it leaves the statuses alone, and the open transaction keeps its
events or is given up. -/
theorem of_unrecorded [DecidableEq ι] (h : EventInvariant s)
    (hevents : s'.store.tables.events = s.store.tables.events)
    (hjobs : ∀ jobId, (s'.store.tables.jobs.get jobId).map (·.status) =
      (s.store.tables.jobs.get jobId).map (·.status))
    (hsequence : s.store.sequences.event ≤ s'.store.sequences.event)
    (hother : ∀ j, j ≠ i → s'.sessions j = s.sessions j)
    (hopen : ((∀ id row, .event id row ∉ (s'.sessions i).transaction.writes) ∧
        (s'.sessions i).ledger.current = []) ∨
      ((∀ id row, .event id row ∈ (s'.sessions i).transaction.writes ↔
          .event id row ∈ (s.sessions i).transaction.writes) ∧
        ∃ more, (s'.sessions i).ledger.current = (s.sessions i).ledger.current ++ more ∧
          ∀ entry ∈ more, ∀ jobId status message,
            entry.1 ≠ .insertEvent jobId status message)) :
    EventInvariant s' := by
  have hwrites : ∀ j id row, .event id row ∈ (s'.sessions j).transaction.writes →
      .event id row ∈ (s.sessions j).transaction.writes ∧
        ∀ entry ∈ (s.sessions j).ledger.current, entry ∈ (s'.sessions j).ledger.current := by
    intro j id row hmem
    by_cases hj : j = i
    · subst hj
      rcases hopen with ⟨hnone, -⟩ | ⟨hsame, more, hcurrent, -⟩
      · exact absurd hmem (hnone id row)
      · refine ⟨(hsame id row).mp hmem, ?_⟩
        intro entry hentry
        simp [hcurrent, hentry]
    · rw [hother j hj] at hmem ⊢
      exact ⟨hmem, fun _ h => h⟩
  have hstatus : ∀ jobId job, s.store.tables.jobs.get jobId = some job →
      ∃ job', s'.store.tables.jobs.get jobId = some job' ∧ job'.status = job.status := by
    intro jobId job hget
    have hmap := hjobs jobId
    rwa [hget, Option.map_some, Option.map_eq_some_iff] at hmap
  have hstatus' : ∀ jobId job, s'.store.tables.jobs.get jobId = some job →
      ∃ job', s.store.tables.jobs.get jobId = some job' ∧ job'.status = job.status := by
    intro jobId job hget
    have hmap := (hjobs jobId).symm
    rwa [hget, Option.map_some, Option.map_eq_some_iff] at hmap
  constructor
  · intro id row hget
    rw [hevents] at hget
    exact lt_of_lt_of_le (h.numbered id row hget) hsequence
  · intro j id row hmem
    obtain ⟨hlt, hnone⟩ := h.fresh j id row (hwrites j id row hmem).1
    rw [hevents]
    exact ⟨lt_of_lt_of_le hlt hsequence, hnone⟩
  · intro a b id row row' ha hb
    exact h.unique a b id row row' (hwrites a id row ha).1 (hwrites b id row' hb).1
  · intro id row hget
    rw [hevents] at hget
    obtain ⟨job, hjob, hterminal⟩ := h.known id row hget
    obtain ⟨job', hjob', hsame⟩ := hstatus _ job hjob
    exact ⟨job', hjob', fun ht => hsame.trans (hterminal ht)⟩
  · intro jobId job hget
    obtain ⟨job', hjob', hsame⟩ := hstatus' jobId job hget
    rw [hevents, ← hsame]
    exact h.latest jobId job' hjob'
  · rw [hevents]
    exact h.final
  · intro j entry hentry jobId status message hinsert
    by_cases hj : j = i
    · subst hj
      rcases hopen with ⟨-, hnone⟩ | ⟨hsame, more, hcurrent, hmore⟩
      · simp [hnone] at hentry
      · rw [hcurrent, List.mem_append] at hentry
        rcases hentry with hentry | hentry
        · simpa only [hsame] using h.recorded j entry hentry jobId status message hinsert
        · exact absurd hinsert (hmore entry hentry jobId status message)
    · rw [hother j hj] at hentry ⊢
      exact h.recorded j entry hentry jobId status message hinsert
  · intro j id row hmem
    obtain ⟨hold, hentries⟩ := hwrites j id row hmem
    obtain ⟨⟨entry, hentry, htarget⟩, hlast⟩ := h.pending j id row hold
    rw [hevents]
    exact ⟨⟨entry, hentries entry hentry, htarget⟩, hlast⟩

/-- A heartbeat inserts its event: the job is still running and no open transaction has inserted an
event of it. -/
theorem of_heartbeat [DecidableEq ι] (h : EventInvariant s) (new : EventRow) (job : JobRow)
    (hevents : ∀ id, s'.store.tables.events.get id =
      if id = s.store.sequences.event then some new else s.store.tables.events.get id)
    (hjobs : s'.store.tables.jobs = s.store.tables.jobs)
    (hsequence : s'.store.sequences.event = s.store.sequences.event + 1)
    (hother : ∀ j, j ≠ i → s'.sessions j = s.sessions j)
    (hwrites : (s'.sessions i).transaction.writes = []) (hcurrent : (s'.sessions i).ledger.current = [])
    (hjob : s.store.tables.jobs.get new.jobId = some job) (hstatus : new.status = job.status)
    (hlive : job.status.terminal = false)
    (hunrecorded : ∀ j id row, .event id row ∈ (s.sessions j).transaction.writes →
      row.jobId ≠ new.jobId) : EventInvariant s' := by
  have hnone : s.store.tables.events.get s.store.sequences.event = none := by
    rcases hget : s.store.tables.events.get s.store.sequences.event with _ | row
    · rfl
    · exact absurd (h.numbered _ row hget) (lt_irrefl _)
  have hcases : ∀ id row, s'.store.tables.events.get id = some row →
      (id = s.store.sequences.event ∧ row = new) ∨ s.store.tables.events.get id = some row := by
    intro id row hget
    rw [hevents] at hget
    split at hget
    · rename_i hid
      exact .inl ⟨hid, (Option.some.inj hget).symm⟩
    · exact .inr hget
  have hold : ∀ id row, s.store.tables.events.get id = some row →
      s'.store.tables.events.get id = some row := by
    intro id row hget
    have hlt := h.numbered id row hget
    rw [hevents, if_neg (by omega), hget]
  have hsessions : ∀ j id row, .event id row ∈ (s'.sessions j).transaction.writes →
      j ≠ i ∧ .event id row ∈ (s.sessions j).transaction.writes := by
    intro j id row hmem
    by_cases hj : j = i
    · subst hj
      simp [hwrites] at hmem
    · rw [hother j hj] at hmem
      exact ⟨hj, hmem⟩
  constructor
  · intro id row hget
    rw [hsequence]
    rcases hcases id row hget with ⟨rfl, -⟩ | hget
    · exact Nat.lt_succ_self _
    · exact Nat.lt_succ_of_lt (h.numbered id row hget)
  · intro j id row hmem
    obtain ⟨hlt, hfree⟩ := h.fresh j id row (hsessions j id row hmem).2
    rw [hsequence, hevents, if_neg (by omega)]
    exact ⟨by omega, hfree⟩
  · intro a b id row row' ha hb
    exact h.unique a b id row row' (hsessions a id row ha).2 (hsessions b id row' hb).2
  · intro id row hget
    rw [hjobs]
    rcases hcases id row hget with ⟨-, rfl⟩ | hget
    · exact ⟨job, hjob, fun _ => hstatus.symm⟩
    · exact h.known id row hget
  · intro jobId job' hget
    rw [hjobs] at hget
    by_cases hid : new.jobId = jobId
    · subst hid
      rw [hjob] at hget
      cases hget
      refine ⟨s.store.sequences.event, new, by simp [hevents], rfl, hstatus, ?_⟩
      intro id row hget _
      rcases hcases id row hget with ⟨rfl, -⟩ | hget
      · exact le_rfl
      · exact le_of_lt (h.numbered id row hget)
    · obtain ⟨id, row, hrow, hjobId, hsame, hgreatest⟩ := h.latest jobId job' hget
      refine ⟨id, row, hold id row hrow, hjobId, hsame, ?_⟩
      intro id' row' hget' hjobId'
      rcases hcases id' row' hget' with ⟨-, rfl⟩ | hget'
      · exact absurd hjobId' hid
      · exact hgreatest id' row' hget' hjobId'
  · intro id row id' row' hget hget' hsame hterminal hlt
    rcases hcases id row hget with ⟨rfl, rfl⟩ | hget
    · rw [hstatus, hlive] at hterminal
      cases hterminal
    · rcases hcases id' row' hget' with ⟨rfl, rfl⟩ | hget'
      · -- the event of an end would belong to a job that has ended
        obtain ⟨job', hjob', hended⟩ := h.known id row hget
        rw [hsame, hjob] at hjob'
        cases hjob'
        rw [← hended hterminal, hlive] at hterminal
        cases hterminal
      · exact h.final id row id' row' hget hget' hsame hterminal hlt
  · intro j entry hentry jobId status message hinsert
    by_cases hj : j = i
    · subst hj
      simp [hcurrent] at hentry
    · rw [hother j hj] at hentry ⊢
      exact h.recorded j entry hentry jobId status message hinsert
  · intro j id row hmem
    obtain ⟨hj, hmem⟩ := hsessions j id row hmem
    obtain ⟨hentry, hlast⟩ := h.pending j id row hmem
    rw [hother j hj]
    refine ⟨hentry, ?_⟩
    intro id' row' hget' hjobId
    rcases hcases id' row' hget' with ⟨-, rfl⟩ | hget'
    · exact absurd hjobId.symm (hunrecorded j id row hmem)
    · exact hlast id' row' hget' hjobId

/-- A transaction inserts the event of its move. -/
theorem of_recorded [DecidableEq ι] (h : EventInvariant s) (new : EventRow)
    (entry : Statement × Reply) (htables : s'.store.tables = s.store.tables)
    (hsequence : s'.store.sequences.event = s.store.sequences.event + 1)
    (hother : ∀ j, j ≠ i → s'.sessions j = s.sessions j)
    (hwrites : (s'.sessions i).transaction.writes =
      (s.sessions i).transaction.writes ++ [.event s.store.sequences.event new])
    (hcurrent : (s'.sessions i).ledger.current = (s.sessions i).ledger.current ++ [entry])
    (hentry : ∀ jobId status message, entry.1 = .insertEvent jobId status message →
      new.jobId = jobId ∧ new.status = status)
    (hmoves : ∃ entry ∈ (s.sessions i).ledger.current, ∃ target, Moves entry new.jobId target ∧
      target.status = new.status) : EventInvariant s' := by
  have hcases : ∀ j id row, .event id row ∈ (s'.sessions j).transaction.writes →
      (j = i ∧ id = s.store.sequences.event ∧ row = new) ∨
        .event id row ∈ (s.sessions j).transaction.writes := by
    intro j id row hmem
    by_cases hj : j = i
    · subst hj
      rw [hwrites, List.mem_append, List.mem_singleton] at hmem
      rcases hmem with hmem | hmem
      · exact .inr hmem
      · cases hmem
        exact .inl ⟨rfl, rfl, rfl⟩
    · rw [hother j hj] at hmem
      exact .inr hmem
  have hentries : ∀ j, ∀ e ∈ (s.sessions j).ledger.current, e ∈ (s'.sessions j).ledger.current := by
    intro j e he
    by_cases hj : j = i
    · subst hj
      simp [hcurrent, he]
    · rwa [hother j hj]
  constructor
  · intro id row hget
    rw [htables] at hget
    have := h.numbered id row hget
    omega
  · intro j id row hmem
    rw [htables, hsequence]
    rcases hcases j id row hmem with ⟨-, rfl, -⟩ | hmem
    · refine ⟨Nat.lt_succ_self _, ?_⟩
      rcases hget : s.store.tables.events.get s.store.sequences.event with _ | row'
      · rfl
      · exact absurd (h.numbered _ row' hget) (lt_irrefl _)
    · obtain ⟨hlt, hnone⟩ := h.fresh j id row hmem
      exact ⟨by omega, hnone⟩
  · intro a b id row row' ha hb
    rcases hcases a id row ha with ⟨rfl, hid, rfl⟩ | ha <;>
      rcases hcases b id row' hb with ⟨rfl, hid', rfl⟩ | hb
    · exact ⟨rfl, rfl⟩
    · have := (h.fresh b id row' hb).1
      omega
    · have := (h.fresh a id row ha).1
      omega
    · exact h.unique a b id row row' ha hb
  · rw [htables]
    exact h.known
  · rw [htables]
    exact h.latest
  · rw [htables]
    exact h.final
  · intro j e he jobId status message hinsert
    by_cases hj : j = i
    · subst hj
      rw [hcurrent, List.mem_append, List.mem_singleton] at he
      rcases he with he | rfl
      · obtain ⟨id, row, hmem, hrow⟩ := h.recorded j e he jobId status message hinsert
        exact ⟨id, row, by simp [hwrites, hmem], hrow⟩
      · exact ⟨s.store.sequences.event, new, by simp [hwrites], hentry jobId status message hinsert⟩
    · rw [hother j hj] at he ⊢
      exact h.recorded j e he jobId status message hinsert
  · intro j id row hmem
    rw [htables]
    rcases hcases j id row hmem with ⟨rfl, rfl, rfl⟩ | hmem
    · obtain ⟨e, he, hmove⟩ := hmoves
      refine ⟨⟨e, hentries j e he, hmove⟩, ?_⟩
      intro id' row' hget _
      exact h.numbered id' row' hget
    · obtain ⟨⟨e, he, hmove⟩, hlast⟩ := h.pending j id row hmem
      exact ⟨⟨e, hentries j e he, hmove⟩, hlast⟩

/-- A transaction commits: the events of its move become the last of the job. -/
theorem of_commit [DecidableEq ι] (h : EventInvariant s) (hjobs : JobInvariant calls s)
    (hexclusive : s.Exclusive (dialect settings))
    (hrule : (calls i).Rule (s.sessions i).ledger .commit)
    (htables : s'.store.tables =
      (dialect settings).visible s.store.tables (s.sessions i).transaction)
    (hsequence : s'.store.sequences = s.store.sequences)
    (hother : ∀ j, j ≠ i → s'.sessions j = s.sessions j)
    (hwrites : (s'.sessions i).transaction.writes = [])
    (hcurrent : (s'.sessions i).ledger.current = []) : EventInvariant s' := by
  have hevents : ∀ id row, s'.store.tables.events.get id = some row ↔
      s.store.tables.events.get id = some row ∨
        .event id row ∈ (s.sessions i).transaction.writes := by
    intro id row
    rw [htables]
    by_cases hmem : ∃ row', .event id row' ∈ (s.sessions i).transaction.writes
    · obtain ⟨row', hmem⟩ := hmem
      have hget : ((dialect settings).visible s.store.tables
          (s.sessions i).transaction).events.get id = some row' :=
        isTable_events.read_applyAll_of_written hmem
          fun r hr => (h.unique i i id r row' hr hmem).2
      rw [hget, (h.fresh i id row' hmem).2]
      constructor
      · rintro ⟨⟩
        exact .inr hmem
      · rintro (⟨⟨⟩⟩ | hrow)
        rw [(h.unique i i id row row' hrow hmem).2]
    · push Not at hmem
      have hget : ((dialect settings).visible s.store.tables
          (s.sessions i).transaction).events.get id = s.store.tables.events.get id :=
        isTable_events.read_applyAll_of_unwritten hmem
      rw [hget]
      simp [hmem]
  have hsessions : ∀ j id row, .event id row ∈ (s'.sessions j).transaction.writes →
      j ≠ i ∧ .event id row ∈ (s.sessions j).transaction.writes := by
    intro j id row hmem
    by_cases hj : j = i
    · subst hj
      simp [hwrites] at hmem
    · rw [hother j hj] at hmem
      exact ⟨hj, hmem⟩
  -- the job of an event of the transaction: its row before and after
  have hmoved : ∀ id row, .event id row ∈ (s.sessions i).transaction.writes →
      ∃ target new, Fires target (s.store.tables.jobs.get row.jobId) new ∧
        s'.store.tables.jobs.get row.jobId = some new ∧ new.status = row.status := by
    intro id row hmem
    obtain ⟨⟨entry, hentry, target, hmoves, hstatus⟩, -⟩ := h.pending i id row hmem
    obtain ⟨new, hwritten, hfires⟩ := hjobs.pending i entry hentry row.jobId target hmoves
    refine ⟨target, new, hfires, ?_, hfires.status.trans hstatus⟩
    rw [htables]
    exact get_applyAll_of_written ((hwritten row.jobId new).mpr ⟨rfl, rfl⟩)
      fun id row hrow => (hwritten id row).mp hrow
  have hlive : ∀ id row id' row', .event id row ∈ (s.sessions i).transaction.writes →
      s.store.tables.events.get id' = some row' → row'.jobId = row.jobId →
      row'.status.terminal = false := by
    intro id row id' row' hmem hget hsame
    obtain ⟨target, new, hfires, -⟩ := hmoved id row hmem
    obtain ⟨job, hjob, hterminal⟩ := h.known id' row' hget
    rw [hsame] at hjob
    rw [hjob] at hfires
    rcases hstatus : row'.status.terminal with _ | _
    · rfl
    · have hended := hfires.not_terminal
      rw [hterminal hstatus, hstatus] at hended
      cases hended
  constructor
  · intro id row hget
    rw [hsequence]
    rcases (hevents id row).mp hget with hget | hmem
    · exact h.numbered id row hget
    · exact (h.fresh i id row hmem).1
  · intro j id row hmem
    obtain ⟨hj, hmem⟩ := hsessions j id row hmem
    obtain ⟨hlt, hnone⟩ := h.fresh j id row hmem
    rw [hsequence]
    refine ⟨hlt, ?_⟩
    rcases hget : s'.store.tables.events.get id with _ | row'
    · rfl
    · rcases (hevents id row').mp hget with hget | hmem'
      · rw [hnone] at hget
        cases hget
      · exact absurd (h.unique j i id row row' hmem hmem').1 hj
  · intro a b id row row' ha hb
    exact h.unique a b id row row' (hsessions a id row ha).2 (hsessions b id row' hb).2
  · intro id row hget
    rcases (hevents id row).mp hget with hget | hmem
    · obtain ⟨job, hjob, hterminal⟩ := h.known id row hget
      rw [htables]
      rcases hjobs.visible_cases settings i row.jobId with
        hsame | ⟨entry, -, target, new, -, hnew, hfires, -⟩
      · exact ⟨job, hsame.trans hjob, hterminal⟩
      · refine ⟨new, hnew, ?_⟩
        intro hstatus
        rw [hjob] at hfires
        have hended := hfires.not_terminal
        rw [hterminal hstatus, hstatus] at hended
        cases hended
    · obtain ⟨target, new, -, hnew, hstatus⟩ := hmoved id row hmem
      exact ⟨new, hnew, fun _ => hstatus⟩
  · intro jobId job hget
    by_cases hmem : ∃ id row, .event id row ∈ (s.sessions i).transaction.writes ∧ row.jobId = jobId
    · have hbounded : BddAbove {id | ∃ row, .event id row ∈ (s.sessions i).transaction.writes ∧
          row.jobId = jobId} := by
        refine ⟨s.store.sequences.event, ?_⟩
        rintro id ⟨row, hrow, -⟩
        exact le_of_lt (h.fresh i id row hrow).1
      obtain ⟨id, ⟨row, hrow, rfl⟩, hgreatest⟩ := hbounded.exists_isGreatest_of_nonempty hmem
      obtain ⟨target, new, -, hnew, hstatus⟩ := hmoved id row hrow
      rw [hget] at hnew
      cases hnew
      refine ⟨id, row, (hevents id row).mpr (.inr hrow), rfl, hstatus.symm, ?_⟩
      intro id' row' hget' hsame
      rcases (hevents id' row').mp hget' with hget' | hmem'
      · exact le_of_lt ((h.pending i id row hrow).2 id' row' hget' hsame)
      · exact hgreatest ⟨row', hmem', hsame⟩
    · -- no event was inserted, so the job was not moved
      have hunmoved : s'.store.tables.jobs.get jobId = s.store.tables.jobs.get jobId := by
        rw [htables]
        rcases hjobs.visible_cases settings i jobId with
          hsame | ⟨entry, hentry, target, new, hmoves, -⟩
        · exact hsame
        · obtain ⟨message, reply, hinsert⟩ := hrule.2 entry hentry jobId target hmoves
          obtain ⟨id, row, hrow, hjobId, -⟩ := h.recorded i _ hinsert jobId target.status message rfl
          exact absurd ⟨id, row, hrow, hjobId⟩ hmem
      rw [hunmoved] at hget
      obtain ⟨id, row, hrow, hjobId, hsame, hgreatest⟩ := h.latest jobId job hget
      refine ⟨id, row, (hevents id row).mpr (.inl hrow), hjobId, hsame, ?_⟩
      intro id' row' hget' hjobId'
      rcases (hevents id' row').mp hget' with hget' | hmem'
      · exact hgreatest id' row' hget' hjobId'
      · exact absurd ⟨id', row', hmem', hjobId'⟩ hmem
  · intro id row id' row' hget hget' hsame hterminal hlt
    rcases (hevents id row).mp hget with hget | hmem <;>
      rcases (hevents id' row').mp hget' with hget' | hmem'
    · exact h.final id row id' row' hget hget' hsame hterminal hlt
    · rw [hlive id' row' id row hmem' hget hsame] at hterminal
      cases hterminal
    · have := (h.pending i id row hmem).2 id' row' hget' hsame.symm
      omega
    · obtain ⟨-, new, -, hnew, hstatus⟩ := hmoved id row hmem
      obtain ⟨-, new', -, hnew', hstatus'⟩ := hmoved id' row' hmem'
      rw [hsame, hnew'] at hnew
      cases hnew
      exact hstatus'.symm.trans hstatus
  · intro j entry hentry jobId status message hinsert
    by_cases hj : j = i
    · subst hj
      simp [hcurrent] at hentry
    · rw [hother j hj] at hentry ⊢
      exact h.recorded j entry hentry jobId status message hinsert
  · intro j id row hmem
    obtain ⟨hj, hmem⟩ := hsessions j id row hmem
    obtain ⟨hentry, hlast⟩ := h.pending j id row hmem
    rw [hother j hj]
    refine ⟨hentry, ?_⟩
    intro id' row' hget' hsame
    rcases (hevents id' row').mp hget' with hget' | hmem'
    · exact hlast id' row' hget' hsame
    · -- both transactions would have moved the job
      obtain ⟨entry, hentry, target, hmoves, -⟩ := hentry
      obtain ⟨⟨entry', hentry', target', hmoves', -⟩, -⟩ := h.pending i id' row' hmem'
      obtain ⟨new, hwritten, -⟩ := hjobs.pending j entry hentry row.jobId target hmoves
      obtain ⟨new', hwritten', -⟩ := hjobs.pending i entry' hentry' row'.jobId target' hmoves'
      have hj' := (hwritten row.jobId new).mpr ⟨rfl, rfl⟩
      have hi' := (hwritten' row'.jobId new').mpr ⟨rfl, rfl⟩
      rw [hsame] at hi'
      exact (hexclusive j i hj (.job row.jobId) (List.mem_filterMap.mpr ⟨_, hj', rfl⟩)
        (List.mem_filterMap.mpr ⟨_, hi', rfl⟩)).elim

end EventInvariant

section history

variable [DecidableEq ι] [Fintype ι] {settings : Settings} {calls : ι → Call} {s s' : JobServer ι}
  {i : ι}

/-- The write inserts an event of the job. -/
def Write.records (jobId : String) : Write → Bool
  | event _ row => row.jobId = jobId
  | _ => false

/-- Where the session is about to insert an event outside of a transaction, as a heartbeat does, its
job is still running, and no open transaction has inserted an event of the job. -/
def timely (s : JobServer ι) (i : ι) : Bool :=
  match (s.sessions i).script, (s.sessions i).transaction.phase with
  | .send (.statement (.insertEvent jobId _ _)) _, .idle =>
    decide ((s.store.tables.jobs.get jobId).map (·.status) = some .running ∧
      ∀ j, ∀ w ∈ (s.sessions j).transaction.writes, w.records jobId = false)
  | _, _ => true

omit [DecidableEq ι] in
theorem timely_spec (h : timely s i = true) {jobId message : String} {status : JobStatus}
    {next : Except PostgresStoreError Reply → StoreCall (Option PlatformJobRecord)}
    (hscript : (s.sessions i).script = .send (.statement (.insertEvent jobId status message)) next)
    (hidle : (s.sessions i).transaction = .idle) :
    (∃ job, s.store.tables.jobs.get jobId = some job ∧ job.status = .running) ∧
      ∀ j id row, .event id row ∈ (s.sessions j).transaction.writes → row.jobId ≠ jobId := by
  simp only [timely, hscript, hidle, Transaction.phase, decide_eq_true_eq,
    Option.map_eq_some_iff] at h
  refine ⟨h.1, ?_⟩
  intro j id row hmem
  simpa [Write.records] using h.2 j _ hmem

theorem EventInvariant.step (h : EventInvariant s) (hs : Consistent settings calls s)
    (htimely : timely s i = true) (hstep : Server.Step (dialect settings) s i s') : EventInvariant s' := by
  have hother : ∀ j, j ≠ i → s'.sessions j = s.sessions j := fun j hj => hstep.sessions_of_ne hj
  have hphase := (hs.inPhase i).1
  cases hstep with
  | wait => exact h
  | @fail c next e q hscript hsequences =>
    refine h.of_unrecorded rfl (fun _ => rfl) ?_ hother ?_
    · rcases hsequences with rfl | ⟨start, now, t, st, hanswer⟩
      · exact le_rfl
      · exact event_le_of_error hanswer
    · cases c <;> cases htxn : (s.sessions i).transaction <;> rw [htxn] at hphase <;>
        simp [Session.proceed, Ledger.record, Transaction.failed, Transaction.writes, hphase,
          Transaction.phase]
  | begin hscript hidle =>
    refine h.of_unrecorded rfl (fun _ => rfl) le_rfl hother (.inl ?_)
    simp [Session.proceed, Ledger.record, hphase, hidle, Transaction.phase, Transaction.writes]
  | beginAgain hscript hopen =>
    have hrule : (s.sessions i).ledger.phase = .idle := hs.obeying.command hscript
    rw [hrule] at hphase
    cases htxn : (s.sessions i).transaction <;> simp_all [Transaction.phase]
  | rollback hscript =>
    refine h.of_unrecorded rfl (fun _ => rfl) le_rfl hother (.inl ?_)
    simp [Session.proceed, Ledger.record, Transaction.writes]
  | commit hscript =>
    refine h.of_commit hs.jobs hs.exclusive (hs.obeying.command hscript) rfl rfl hother ?_ ?_ <;>
      simp [Session.proceed, Ledger.record, Transaction.writes]
  | @outside st next now r ws q hscript hidle hfree hanswer =>
    have hledger : (s.sessions i).ledger.phase = .idle := by
      rw [hphase, hidle]
      rfl
    rcases answer_events hanswer with ⟨jobId, status, message, rfl, rfl, hq, -⟩ | ⟨-, hnone, hq⟩
    · have hrule := hs.obeying.command hscript
      simp only [Call.Rule, hledger] at hrule
      obtain ⟨rfl, -⟩ := hrule
      obtain ⟨⟨job, hjob, hrunning⟩, hunrecorded⟩ :=
        timely_spec htimely hscript hidle
      refine h.of_heartbeat ⟨jobId, .running, message, now.time⟩ job ?_ rfl hq
        hother ?_ ?_ hjob hrunning.symm (by simp [hrunning, JobStatus.terminal]) hunrecorded
      · intro id
        exact OrderedMap.get_set
      · simp [Session.proceed, Transaction.writes]
      · simp [Session.proceed, Ledger.record, hledger, (hs.inPhase i).2]
    · refine h.of_unrecorded ?_ ?_ (le_of_eq hq.symm) hother (.inl ?_)
      · exact events_applyAll_of_unwritten hnone
      · intro jobId
        rcases (hs.rows_of_outside hscript hidle hfree hanswer).2 jobId with
          hsame | ⟨row, time, hrow, hrow', -⟩
        · exact congrArg _ hsame
        · rw [hrow, Server.after_store, hrow', Option.map_some, Option.map_some]
      · simp [Session.proceed, Ledger.record, hledger, Transaction.writes, (hs.inPhase i).2]
  | @inside st next start now ws ws' r q hscript hopen hfree hanswer =>
    have hledger : (s.sessions i).ledger.phase = .opened := by
      rw [hphase, hopen]
      rfl
    rcases answer_events hanswer with
      ⟨jobId, status, message, rfl, rfl, hq, -⟩ | ⟨hinsert, hnone, hq⟩
    · have hrule := hs.obeying.command hscript
      simp only [Call.Rule, hledger] at hrule
      refine h.of_recorded ⟨jobId, status, message, start.time⟩
        (.insertEvent jobId status message, r) rfl hq hother ?_ ?_ ?_ hrule
      · simp [Session.proceed, hopen, Transaction.writes]
      · simp [Session.proceed, Ledger.record, hledger]
      · rintro _ _ _ ⟨⟩
        exact ⟨rfl, rfl⟩
    · refine h.of_unrecorded rfl (fun _ => rfl) (le_of_eq hq.symm) hother (.inr ⟨?_, [(st, r)], ?_, ?_⟩)
      · simp [Session.proceed, hopen, Transaction.writes, hnone]
      · simp [Session.proceed, Ledger.record, hledger]
      · intro entry hentry
        rw [List.mem_singleton.mp hentry]
        exact hinsert

/-- The greatest event of a job has the status of the job, and no event of a running job follows the
event of its end. -/
def EventsAgree (t : Tables) : Prop :=
  (∀ jobId job, t.jobs.get jobId = some job →
    ∃ id row, t.events.get id = some row ∧ row.jobId = jobId ∧
      (∀ id' row', t.events.get id' = some row' → row'.jobId = jobId → id' ≤ id) ∧
      row.status = job.status) ∧
  ∀ id row id' row', t.events.get id = some row → t.events.get id' = some row' →
    row.jobId = row'.jobId → row.status.terminal = true → row'.status = .running → id' ≤ id

omit [DecidableEq ι] [Fintype ι] in
theorem EventInvariant.eventsAgree (h : EventInvariant s) : EventsAgree s.store.tables := by
  constructor
  · intro jobId job hget
    obtain ⟨id, row, hrow, hjobId, hstatus, hgreatest⟩ := h.latest jobId job hget
    exact ⟨id, row, hrow, hjobId, hgreatest, hstatus⟩
  · intro id row id' row' hget hget' hsame hterminal hrunning
    by_contra hlt
    have hstatus := h.final id row id' row' hget hget' hsame hterminal (by omega)
    rw [← hstatus, hrunning] at hterminal
    cases hterminal

omit [DecidableEq ι] [Fintype ι] in
theorem eventInvariant_start {store : Store Tables Sequences} (hjobs : store.tables.jobs = .empty)
    (hevents : store.tables.events = .empty) :
    EventInvariant (JobServer.start settings calls store) := by
  constructor <;> simp [JobServer.start, Transaction.writes, hjobs, hevents]

/-- The events agree with the jobs, whichever transactions are open, in every run in which each
heartbeat inserts its event in time. -/
theorem eventsAgree_after (settings : Settings) (calls : ι → Call) (hdistinct : Distinct calls)
    (store : Store Tables Sequences) (hjobs : store.tables.jobs = .empty)
    (hevents : store.tables.events = .empty) (turns : List (Turn Moment PostgresStoreError ι))
    (htimely : Server.Along (dialect settings) (fun s i => timely s i = true)
      (JobServer.start settings calls store) turns) :
    EventsAgree (JobServer.after settings calls store turns).store.tables := by
  have hinvariant : Consistent settings calls (JobServer.after settings calls store turns) ∧
      EventInvariant (JobServer.after settings calls store turns) := by
    apply Server.run_invariant_along
      (P := fun s => Consistent settings calls s ∧ EventInvariant s) _ htimely
    · exact ⟨consistent_start hjobs, eventInvariant_start hjobs hevents⟩
    · intro s i s' h hi hstep
      exact ⟨h.1.step hdistinct hstep, h.2.step h.1 hi hstep⟩
  exact hinvariant.2.eventsAgree

end history

open JobServer

/-- The heartbeat inserts its event before the job is cancelled. -/
def timelyTurns : List (Turn Moment PostgresStoreError (Fin 4)) :=
  turnsOf ([0, 0, 0, 0, 0] ++ [1, 1, 1, 1, 1, 1, 1] ++ [2, 2, 2, 2] ++ [3, 3, 3, 3, 3, 3])

theorem eventsAgree_timelyTurns :
    Server.Along (dialect sampleSettings) (fun s i => timely s i = true)
      (start sampleSettings sampleCalls sampleStore) timelyTurns ∧
    EventsAgree (after sampleSettings sampleCalls sampleStore timelyTurns).store.tables := by
  have htimely : Server.Along (dialect sampleSettings) (fun s i => timely s i = true)
      (start sampleSettings sampleCalls sampleStore) timelyTurns := by decide +kernel
  exact ⟨htimely, eventsAgree_after sampleSettings sampleCalls distinct_sampleCalls sampleStore rfl
    rfl timelyTurns htimely⟩

/-- A heartbeat that is overtaken by a cancellation leaves a running event behind the event of the
cancellation, and no transaction is open any more. -/
theorem not_eventsAgree_of_overtaken_heartbeat :
    (∀ i, ((after sampleSettings sampleCalls sampleStore sampleTurns).sessions i).transaction.phase =
      .idle) ∧
    ¬ EventsAgree (after sampleSettings sampleCalls sampleStore sampleTurns).store.tables := by
  refine ⟨by decide +kernel, ?_⟩
  rintro ⟨-, hfinal⟩
  have hcancelled : ((after sampleSettings sampleCalls sampleStore
      sampleTurns).store.tables.events.get 3).map (fun row => (row.jobId, row.status)) =
        some (jobIdFor 1, .cancelled) := by decide +kernel
  have hrunning : ((after sampleSettings sampleCalls sampleStore
      sampleTurns).store.tables.events.get 4).map (fun row => (row.jobId, row.status)) =
        some (jobIdFor 1, .running) := by decide +kernel
  rw [Option.map_eq_some_iff] at hcancelled hrunning
  obtain ⟨row, hget, hrow⟩ := hcancelled
  obtain ⟨row', hget', hrow'⟩ := hrunning
  rw [Prod.mk.injEq] at hrow hrow'
  have hle := hfinal 3 row 4 row' hget hget' (hrow.1.trans hrow'.1.symm)
    (by simp [hrow.2, JobStatus.terminal]) hrow'.2
  omega

end StyioPlatform.Workspace
