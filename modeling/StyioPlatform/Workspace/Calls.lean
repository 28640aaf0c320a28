import StyioPlatform.Workspace.PostgresStore

/-! The calls of `PostgresStore` on jobs as sessions of a server, and the rules that their scripts
follow whatever the server answers. -/
namespace StyioPlatform.Workspace

/-- A job as `HandleSubmitJob` builds it: queued, under an id of `NextJobId`. -/
structure QueuedJob where
  record : PlatformJobRecord
  queued : record.status = .queued
  numbered : ∃ n, record.jobId = jobIdFor n

inductive Call where
  | submitJob (job : QueuedJob)
  | claimJob (workerId region workerPoolKey : String)
  | claimJobForCompileContainer (workerId region workerPoolKey containerId : String)
  | heartbeatJob (jobId workerId message : String)
  | completeJob (jobId workerId : String) (status : Completion) (message : String)
      (artifacts : List ArtifactRecord) (result : Json)
  | cancelJob (jobId reason : String)

/-- The script of a call; a call without a result returns none. -/
def Call.script (settings : Settings) : Call → StoreCall (Option PlatformJobRecord)
  | submitJob job => do
    PostgresStore.submitJob job.record
    return none
  | claimJob workerId region workerPoolKey =>
    PostgresStore.claimJob settings workerId region workerPoolKey
  | claimJobForCompileContainer workerId region workerPoolKey containerId =>
    PostgresStore.claimJobForCompileContainer settings workerId region workerPoolKey containerId
  | heartbeatJob jobId workerId message => PostgresStore.heartbeatJob settings jobId workerId message
  | completeJob jobId workerId status message artifacts result =>
    PostgresStore.completeJob settings jobId workerId status message artifacts result
  | cancelJob jobId reason => PostgresStore.cancelJob settings jobId reason

/-- What a statement makes of a job. -/
inductive Target where
  | queued
  | running (workerId : String)
  | cancelled
  | completed (workerId : String) (status : Completion)
  deriving DecidableEq

def Target.status : Target → JobStatus
  | queued => .queued
  | running _ => .running
  | cancelled => .cancelled
  | completed _ status => status.status

/-- The job that an answered statement has moved. -/
def moveOf (statement : Statement) (reply : Reply) : Option (String × Target) :=
  match statement, reply.jobRows with
  | .upsertJob job, _ => some (job.jobId, .queued)
  | .cancelJob _, x :: _ => some (x.1, .cancelled)
  | .claimJob _ _ workerId, x :: _ => some (x.1, .running workerId)
  | .claimJobFor _ _ workerId _ _, x :: _ => some (x.1, .running workerId)
  | .completeJob _ status _ workerId, x :: _ => some (x.1, .completed workerId status)
  | _, _ => none

/-- The entry of the ledger moves the job to the target. -/
def Moves (entry : Statement × Reply) (jobId : String) (target : Target) : Prop :=
  moveOf entry.1 entry.2 = some (jobId, target)

/-- The rows that a statement returns belong to the job that it names, and the ids of jobs in the
table are C strings. -/
def possible : Command Statement → Reply → Prop
  | .statement (.selectJob jobId), reply => ∀ x ∈ reply.jobRows, x.1 = jobId
  | .statement (.cancelJob jobId), reply => ∀ x ∈ reply.jobRows, x.1 = jobId
  | .statement (.completeJob jobId _ _ _), reply => ∀ x ∈ reply.jobRows, x.1 = jobId
  | .statement (.heartbeatJob jobId _), reply => ∀ x ∈ reply.jobRows, x.1 = jobId
  | .statement (.claimJob _ _ _), reply => ∀ x ∈ reply.jobRows, cString x.1 = x.1
  | .statement (.claimJobFor _ _ _ _ _), reply => ∀ x ∈ reply.jobRows, cString x.1 = x.1
  | _, _ => True

/-- The call is a claim of the worker, whose id reaches the server as a C string. -/
def Call.Claims (call : Call) (workerId : String) : Prop :=
  (∃ w region workerPoolKey, call = .claimJob w region workerPoolKey ∧ workerId = cString w) ∨
    ∃ w region workerPoolKey containerId,
      call = .claimJobForCompileContainer w region workerPoolKey containerId ∧ workerId = cString w

/-- A transaction that has not moved a job. -/
def Unmoved (l : Ledger Statement Reply) : Prop :=
  l.phase = .opened ∧ ∀ entry ∈ l.current, moveOf entry.1 entry.2 = none

/-- The rule for each command of a call: a transaction moves one job and records it with an event;
outside of transactions, only a heartbeat that found its job records an event. -/
def Call.Rule (call : Call) (l : Ledger Statement Reply) : Command Statement → Prop
  | .begin => l.phase = .idle
  | .commit => l.phase = .opened ∧ ∀ entry ∈ l.current, ∀ jobId target, Moves entry jobId target →
      ∃ message reply, (.insertEvent jobId target.status message, reply) ∈ l.current
  | .rollback => True
  | .statement (.upsertJob record) => Unmoved l ∧ l.kept = [] ∧
      ∃ job, call = .submitJob job ∧ Statement.upsertJob record = (Statement.upsertJob job.record).bound
  | .statement (.claimJob _ _ workerId) => Unmoved l ∧ call.Claims workerId
  | .statement (.claimJobFor _ _ workerId _ _) => Unmoved l ∧ call.Claims workerId
  | .statement (.cancelJob _) => Unmoved l
  | .statement (.completeJob _ _ _ _) => Unmoved l
  | .statement (.heartbeatJob _ _) => l.phase = .idle
  | .statement (.insertEvent jobId status _) =>
    match l.phase with
    | .opened => ∃ entry ∈ l.current, ∃ target, Moves entry jobId target ∧ target.status = status
    | .idle => status = .running ∧ ∃ workerId reply,
        (.heartbeatJob jobId workerId, reply) ∈ l.kept ∧ reply.jobRows ≠ []
    | .aborted => False
  | .statement _ => True

/-- The rule for the result of a call: a job is returned only after it was moved. -/
def Call.Result (call : Call) (l : Ledger Statement Reply) : Option PlatformJobRecord → Prop
  | none => True
  | some job =>
    (∀ workerId, call.Claims workerId → ∃ entry ∈ l.kept, Moves entry job.jobId (.running workerId)) ∧
    (∀ jobId reason, call = .cancelJob jobId reason →
      ∃ entry ∈ l.kept, Moves entry (cString jobId) .cancelled) ∧
    ∀ jobId workerId status message artifacts result,
      call = .completeJob jobId workerId status message artifacts result →
      ∃ entry ∈ l.kept, Moves entry (cString jobId) (.completed (cString workerId) status)

/-- The script follows the rules of the call. -/
abbrev Call.Follows (call : Call) {α : Type} (Q : Ledger Statement Reply → α → Prop)
    (script : StoreCall α) (l : Ledger Statement Reply) : Prop :=
  script.Obeys possible call.Rule Q (fun _ _ => True) l

namespace Call

open PostgresStore Statement

variable {call : Call} {settings : Settings} {kept : List (Statement × Reply)}

/-- Reading a job adds entries to the ledger that move nothing. -/
theorem follows_getJob {jobId : String} {Q : Ledger Statement Reply → Option PlatformJobRecord → Prop}
    (hnone : ∀ more, Q ⟨.idle, [], kept ++ more⟩ none)
    (hsome : ∀ more job, job.jobId = cString jobId → Q ⟨.idle, [], kept ++ more⟩ (some job)) :
    call.Follows Q (getJob settings jobId) ⟨.idle, [], kept⟩ := by
  simp only [getJob, execParams, Script.obeys_bind, Script.obeys_query, Statement.bound]
  refine ⟨trivial, ?_, fun _ => trivial⟩
  intro r hr
  simp only [Ledger.record]
  split
  · exact hnone _
  · rename_i id row rest hrows
    simp only [Script.obeys_bind, Script.obeys_query]
    refine ⟨trivial, ?_, fun _ => trivial⟩
    intro r' hr'
    simp only [Ledger.record, List.append_assoc, Script.pure_eq, Script.obeys_done_ok]
    apply hsome
    exact hr (id, row) (by simp [hrows])

theorem follows_orRollback {α : Type} {Q : Ledger Statement Reply → α → Prop} {body : StoreCall α}
    {l : Ledger Statement Reply} : call.Follows Q (orRollback body) l ↔ call.Follows Q body l := by
  simp [Follows, orRollback, PostgresStore.exec, Rule]

theorem follows_exec {Q : Ledger Statement Reply → Unit → Prop} {c : Command Statement}
    {l : Ledger Statement Reply} (hrule : call.Rule l c)
    (h : ∀ r, Q (l.record c (.ok r : Except PostgresStoreError Reply)) ()) :
    call.Follows Q (PostgresStore.exec c) l :=
  Script.obeys_exec.mpr ⟨hrule, fun r _ => h r, fun _ => trivial⟩

theorem follows_execParams {Q : Ledger Statement Reply → Reply → Prop} {st : Statement}
    {l : Ledger Statement Reply} (hrule : call.Rule l (.statement st.bound))
    (h : ∀ r, possible (.statement st.bound) r →
      Q (l.record (.statement st.bound) (.ok r : Except PostgresStoreError Reply)) r) :
    call.Follows Q (execParams st) l :=
  Script.obeys_query.mpr ⟨hrule, h, fun _ => trivial⟩

/-- The rule of a commit, where the transaction moved one job and recorded it. -/
theorem rule_commit {l : Ledger Statement Reply} (jobId message : String) (target : Target)
    (reply : Reply) (hphase : l.phase = .opened)
    (honly : ∀ entry ∈ l.current, ∀ x ∈ moveOf entry.1 entry.2, x = (jobId, target))
    (hevent : (.insertEvent jobId target.status message, reply) ∈ l.current) :
    call.Rule l .commit := by
  refine ⟨hphase, ?_⟩
  intro entry hentry id t hmoves
  obtain ⟨rfl, rfl⟩ := Prod.mk.inj (honly entry hentry (id, t) hmoves)
  exact ⟨message, reply, hevent⟩

theorem follows_submitJob {job : QueuedJob} :
    (submitJob job).Follows (submitJob job).Result ((submitJob job).script settings) {} := by
  simp only [script, PostgresStore.submitJob, Script.obeys_bind]
  apply follows_exec (by rfl)
  intro _
  apply follows_orRollback.mpr
  simp only [Script.obeys_bind]
  apply follows_execParams
  · trivial
  intro _ _
  apply follows_execParams
  · exact ⟨⟨rfl, by simp [Ledger.record, moveOf, bound]⟩, rfl, job, rfl, rfl⟩
  intro r _
  apply follows_execParams
  · exact ⟨((upsertJob job.record).bound, r), by simp [Ledger.record], .queued, rfl, rfl⟩
  intro r' _
  apply follows_exec
  · apply rule_commit (cString job.record.jobId) (cString "job queued") .queued r' rfl
    · simp [Ledger.record, bound, moveOf]
    · simp [Ledger.record, bound, Target.status]
  intro _
  trivial

theorem follows_cancelJob {jobId reason : String} :
    (cancelJob jobId reason).Follows (cancelJob jobId reason).Result
      ((cancelJob jobId reason).script settings) {} := by
  simp only [script, PostgresStore.cancelJob, Script.obeys_bind]
  apply follows_exec (by rfl)
  intro _
  apply follows_orRollback.mpr
  simp only [Script.obeys_bind]
  apply follows_execParams
  · exact ⟨rfl, by simp [Ledger.record]⟩
  intro r hr
  split
  · simp only [Script.obeys_bind]
    apply follows_exec
    · trivial
    intro _
    trivial
  · rename_i x rest hrows
    have hmoves : moveOf (Statement.cancelJob jobId).bound r = some (cString jobId, .cancelled) := by
      simp [moveOf, bound, hrows, hr x (by simp [hrows])]
    simp only [Script.obeys_bind]
    apply follows_execParams
    · exact ⟨((Statement.cancelJob jobId).bound, r), by simp [Ledger.record], .cancelled, hmoves, rfl⟩
    intro r' _
    apply follows_exec
    · apply rule_commit (cString jobId) (cString reason) .cancelled r' rfl
      · simp [Ledger.record, hmoves]
        simp [bound, moveOf]
      · simp [Ledger.record, bound, Target.status]
    intro _
    simp only [Script.pure_eq, Script.obeys_done_ok, if_true]
    apply follows_getJob
    · intro _
      trivial
    · intro more job _
      refine ⟨?_, ?_, ?_⟩
      · rintro workerId (⟨_, _, _, ⟨⟩, -⟩ | ⟨_, _, _, _, ⟨⟩, -⟩)
      · rintro _ _ ⟨⟩
        exact ⟨((Statement.cancelJob jobId).bound, r), by simp [Ledger.record], hmoves⟩
      · rintro _ _ _ _ _ _ ⟨⟩

/-- A claim that returns a job has moved it. -/
theorem result_of_claim {workerId : String} {l : Ledger Statement Reply} {job : PlatformJobRecord}
    (hclaims : call.Claims workerId)
    (hmoved : ∃ entry ∈ l.kept, Moves entry job.jobId (.running workerId)) :
    call.Result l (some job) := by
  refine ⟨?_, ?_, ?_⟩
  · intro w hw
    have heq : w = workerId := by
      rcases hclaims with ⟨_, _, _, rfl, rfl⟩ | ⟨_, _, _, _, rfl, rfl⟩ <;>
        rcases hw with ⟨_, _, _, ⟨⟩, rfl⟩ | ⟨_, _, _, _, ⟨⟩, rfl⟩ <;> rfl
    rwa [heq]
  · rintro _ _ rfl
    rcases hclaims with ⟨_, _, _, ⟨⟩, -⟩ | ⟨_, _, _, _, ⟨⟩, -⟩
  · rintro _ _ _ _ _ _ rfl
    rcases hclaims with ⟨_, _, _, ⟨⟩, -⟩ | ⟨_, _, _, _, ⟨⟩, -⟩

/-- The end of a claim: the event, the commit and the job as it is read afterwards. -/
theorem follows_recordClaim {workerId jobId message : String} {entry : Statement × Reply}
    {l : Ledger Statement Reply} (hclaims : call.Claims workerId) (hphase : l.phase = .opened)
    (hentry : entry ∈ l.current) (hmoves : Moves entry jobId (.running workerId))
    (honly : ∀ e ∈ l.current, ∀ x ∈ moveOf e.1 e.2, x = (jobId, .running workerId))
    (hid : cString jobId = jobId) :
    call.Follows (fun l claimed => call.Follows call.Result
      (match claimed with
        | none => pure none
        | some jobId => getJob settings jobId) l)
      (do
        let _ ← execParams (insertEvent jobId .running message)
        PostgresStore.exec .commit
        return some jobId) l := by
  obtain ⟨phase, current, kept⟩ := l
  dsimp only at hphase hentry honly
  subst hphase
  simp only [Script.obeys_bind]
  apply follows_execParams
  · exact ⟨entry, hentry, .running workerId, by rwa [hid], rfl⟩
  intro r _
  apply follows_exec
  · apply rule_commit jobId (cString message) (.running workerId) r rfl
    · simp only [Ledger.record, List.mem_append, List.mem_singleton]
      rintro e (he | rfl)
      · exact honly e he
      · simp [bound, moveOf]
    · simp [Ledger.record, bound, Target.status, hid]
  intro _
  simp only [Script.pure_eq, Script.obeys_done_ok]
  apply follows_getJob
  · intro _
    trivial
  · intro more job hjob
    apply result_of_claim hclaims
    refine ⟨entry, by simp [Ledger.record, hentry], ?_⟩
    rwa [hjob, hid]

theorem follows_claimJob {workerId region workerPoolKey : String} :
    (claimJob workerId region workerPoolKey).Follows (claimJob workerId region workerPoolKey).Result
      ((claimJob workerId region workerPoolKey).script settings) {} := by
  have hclaims : (claimJob workerId region workerPoolKey).Claims (cString workerId) :=
    .inl ⟨_, _, _, rfl, rfl⟩
  simp only [script, PostgresStore.claimJob, Script.obeys_bind]
  apply follows_exec (by rfl)
  intro _
  apply follows_orRollback.mpr
  simp only [Script.obeys_bind]
  apply follows_execParams
  · trivial
  intro _ _
  simp only [Script.obeys_ite, Script.obeys_bind, Script.obeys_throw]
  refine ⟨fun _ => trivial, fun _ => ?_⟩
  apply follows_execParams
  · exact ⟨⟨rfl, by simp [Ledger.record, bound, moveOf]⟩, hclaims⟩
  intro r hr
  split
  · rename_i hrows
    simp only [Script.obeys_bind]
    apply follows_exec
    · exact ⟨rfl, by simp [Ledger.record, bound, Moves, moveOf, hrows]⟩
    intro _
    trivial
  · rename_i jobId row rest hrows
    have hmoves : moveOf (Statement.claimJob region workerPoolKey workerId).bound r =
        some (jobId, .running (cString workerId)) := by simp [moveOf, bound, hrows]
    have hentry : Moves ((Statement.claimJob region workerPoolKey workerId).bound, r) jobId
        (.running (cString workerId)) := hmoves
    apply follows_recordClaim hclaims rfl _ hentry _ (hr (jobId, row) (by simp [hrows]))
    · simp [Ledger.record]
    · simp [Ledger.record, hmoves]
      simp [bound, moveOf]

theorem follows_claimJobForCompileContainer {workerId region workerPoolKey containerId : String} :
    (claimJobForCompileContainer workerId region workerPoolKey containerId).Follows
      (claimJobForCompileContainer workerId region workerPoolKey containerId).Result
      ((claimJobForCompileContainer workerId region workerPoolKey containerId).script settings) {} := by
  have hclaims : (claimJobForCompileContainer workerId region workerPoolKey containerId).Claims
      (cString workerId) := .inr ⟨_, _, _, _, rfl, rfl⟩
  simp only [script, PostgresStore.claimJobForCompileContainer, Script.obeys_bind]
  apply follows_exec (by rfl)
  intro _
  apply follows_orRollback.mpr
  simp only [Script.obeys_bind]
  apply follows_execParams
  · trivial
  intro _ _
  simp only [Script.obeys_ite, Script.obeys_bind, Script.obeys_throw]
  refine ⟨fun _ => trivial, fun _ => ?_⟩
  apply follows_execParams
  · trivial
  intro _ _
  split
  · trivial
  rename_i id container rest hcontainer
  simp only [Script.obeys_bind]
  apply follows_execParams
  · exact ⟨⟨rfl, by simp [Ledger.record, bound, moveOf]⟩, hclaims⟩
  intro r hr
  split
  · rename_i hrows
    simp only [Script.obeys_bind]
    apply follows_exec
    · exact ⟨rfl, by simp [Ledger.record, bound, Moves, moveOf, hrows]⟩
    intro _
    trivial
  · rename_i jobId row others hrows
    have hid : cString jobId = jobId := hr (jobId, row) (by simp [hrows])
    have hmoves : moveOf (claimJobFor region workerPoolKey workerId container.tenantId
        container.userId).bound r = some (jobId, .running (cString workerId)) := by
      simp [moveOf, bound, hrows]
    have hentry : Moves ((claimJobFor region workerPoolKey workerId container.tenantId
        container.userId).bound, r) jobId (.running (cString workerId)) := hmoves
    rw [Script.obeys_ite]
    refine ⟨fun _ => ?_, fun _ => ?_⟩
    · rw [Script.obeys_bind]
      apply follows_execParams
      · trivial
      intro _ _
      rw [Script.obeys_bind]
      apply follows_execParams
      · refine ⟨((claimJobFor region workerPoolKey workerId container.tenantId
          container.userId).bound, r), by simp [Ledger.record], .running (cString workerId), ?_, rfl⟩
        rwa [hid]
      intro _ _
      apply follows_recordClaim hclaims rfl _ hentry _ hid
      · simp [Ledger.record]
      · simp [Ledger.record, hmoves]
        simp [bound, moveOf]
    · apply follows_recordClaim hclaims rfl _ hentry _ hid
      · simp [Ledger.record]
      · simp [Ledger.record, hmoves]
        simp [bound, moveOf]

theorem follows_heartbeatJob {jobId workerId message : String} :
    (heartbeatJob jobId workerId message).Follows (heartbeatJob jobId workerId message).Result
      ((heartbeatJob jobId workerId message).script settings) {} := by
  simp only [script, PostgresStore.heartbeatJob, Script.obeys_bind]
  apply follows_execParams
  · rfl
  intro r hr
  split
  · trivial
  · rename_i x rest hrows
    rw [Script.obeys_bind]
    apply follows_execParams
    · exact ⟨rfl, cString workerId, r, by simp [Ledger.record, bound], by simp [hrows]⟩
    intro r' _
    apply follows_getJob
    · intro _
      trivial
    · intro more job _
      refine ⟨?_, ?_, ?_⟩
      · rintro _ (⟨_, _, _, ⟨⟩, -⟩ | ⟨_, _, _, _, ⟨⟩, -⟩)
      · rintro _ _ ⟨⟩
      · rintro _ _ _ _ _ _ ⟨⟩

/-- Inserting artifacts adds entries to the ledger that move nothing. -/
theorem follows_insertArtifacts {jobId : String} {artifacts : List ArtifactRecord}
    {current : List (Statement × Reply)} {Q : Ledger Statement Reply → Unit → Prop}
    (h : ∀ more, (∀ entry ∈ more, moveOf entry.1 entry.2 = none) →
      Q ⟨.opened, current ++ more, kept⟩ ()) :
    call.Follows Q (insertArtifacts jobId artifacts) ⟨.opened, current, kept⟩ := by
  induction artifacts generalizing current with
  | nil => simpa [insertArtifacts] using h [] (by simp)
  | cons artifact rest ih =>
    rw [insertArtifacts, Follows, Script.obeys_bind]
    apply follows_execParams
    · trivial
    intro r _
    apply ih
    intro more hmore
    have hall := h (((insertArtifact artifact jobId).bound, r) :: more) (by
      intro entry hentry
      rcases List.mem_cons.mp hentry with rfl | hentry
      · rfl
      · exact hmore entry hentry)
    simpa using hall

theorem follows_completeJob {jobId workerId message : String} {status : Completion}
    {artifacts : List ArtifactRecord} {result : Json} :
    (completeJob jobId workerId status message artifacts result).Follows
      (completeJob jobId workerId status message artifacts result).Result
      ((completeJob jobId workerId status message artifacts result).script settings) {} := by
  simp only [script, PostgresStore.completeJob, Script.obeys_bind]
  apply follows_exec (by rfl)
  intro _
  apply follows_orRollback.mpr
  simp only [Script.obeys_bind]
  apply follows_execParams
  · exact ⟨rfl, by simp [Ledger.record]⟩
  intro r hr
  split
  · rw [Script.obeys_bind]
    apply follows_exec
    · trivial
    intro _
    trivial
  · rename_i x rest hrows
    have hmoves : moveOf (Statement.completeJob jobId status result workerId).bound r =
        some (cString jobId, .completed (cString workerId) status) := by
      simp [moveOf, bound, hrows, hr x (by simp [hrows])]
    simp only [Script.obeys_bind]
    apply follows_execParams
    · trivial
    intro r' _
    apply follows_insertArtifacts
    intro more hmore
    apply follows_execParams
    · exact ⟨((Statement.completeJob jobId status result workerId).bound, r), by simp [Ledger.record],
        .completed (cString workerId) status, hmoves, rfl⟩
    intro r'' _
    apply follows_exec
    · apply rule_commit (cString jobId) (cString message) (.completed (cString workerId) status) r''
        rfl
      · simp only [Ledger.record, List.nil_append, List.cons_append, List.mem_cons,
          List.mem_append, List.not_mem_nil, or_false]
        rintro entry (rfl | rfl | hentry | rfl)
        · simp [hmoves]
        · simp [bound, moveOf]
        · simp [hmore entry hentry]
        · simp [bound, moveOf]
      · simp [Ledger.record, bound, Target.status]
    intro _
    simp only [Script.pure_eq, Script.obeys_done_ok, if_true]
    apply follows_getJob
    · intro _
      trivial
    · intro more' job _
      refine ⟨?_, ?_, ?_⟩
      · rintro _ (⟨_, _, _, ⟨⟩, -⟩ | ⟨_, _, _, _, ⟨⟩, -⟩)
      · rintro _ _ ⟨⟩
      · rintro _ _ _ _ _ _ ⟨⟩
        exact ⟨((Statement.completeJob jobId status result workerId).bound, r),
          by simp [Ledger.record], hmoves⟩

/-- Every call follows its rules. -/
theorem follows_script (settings : Settings) (call : Call) :
    call.Follows call.Result (call.script settings) {} := by
  cases call with
  | submitJob => exact follows_submitJob
  | claimJob => exact follows_claimJob
  | claimJobForCompileContainer => exact follows_claimJobForCompileContainer
  | heartbeatJob => exact follows_heartbeatJob
  | completeJob => exact follows_completeJob
  | cancelJob => exact follows_cancelJob

end Call

end StyioPlatform.Workspace
