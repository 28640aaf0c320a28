import StyioPlatform.Workspace.JobLifecycle
import StyioPlatform.Workspace.Worker

/-! When the worker reports the jobs that it claims. The exceptions of the fetch that are no
`FetchError`, those of `WriteText` and an answer 403 to a request leave `ExecuteClaimedJob`, and
`RunWorker` catches them outside its loop. -/
namespace StyioPlatform.Workspace

open Prog

section reading

variable {j : Json} {key : String} {job : ClaimedJob}

theorem textAt_eq_ok {text : String} : textAt j key = .ok text ↔ j.textField key = some text := by
  unfold textAt memberAt Json.textField
  cases h : j.get? key with
  | none => simp [bind, Except.bind]
  | some member => cases hm : member.text? <;> simp [bind, Except.bind, pure, Except.pure, hm]

theorem memberAt_eq_ok {member : Json} :
    memberAt j key = .ok member ↔ j.get? key = some member := by
  unfold memberAt
  cases h : j.get? key <;> simp

/-- What the worker reads of a valid request is there. -/
theorem reads_of_valid (h : validateCloudBuildRequest j = none) :
    ∃ source manifestPath origin, textAt j "manifest_path" = .ok manifestPath ∧
      memberAt j "source" = .ok source ∧ textAt source "origin" = .ok origin := by
  simp only [textAt_eq_ok, memberAt_eq_ok]
  simp only [validateCloudBuildRequest] at h
  split at h
  · cases h
  · split at h
    · cases h
    · rename_i hmanifest
      split at h
      · cases h
      · rename_i hsource
        split at h
        · cases h
        · rename_i origin horigin
          rw [Json.nonEmptyField, Option.isNone_iff_eq_none] at hmanifest
          obtain ⟨manifestPath, hmanifest⟩ := Option.ne_none_iff_exists'.mp hmanifest
          obtain ⟨source, hget⟩ : ∃ source, j.get? "source" = some source := by
            cases hget : j.get? "source" with
            | none => simp [hget, Json.isObject] at hsource
            | some source => exact ⟨source, rfl⟩
          rw [hget] at horigin
          exact ⟨source, manifestPath, origin, (Option.filter_eq_some_iff.mp hmanifest).1, hget,
            (Option.filter_eq_some_iff.mp horigin).1⟩

theorem textField_serializeJobRecord (r : PlatformJobRecord) :
    (serializeJobRecord r).textField "job_id" = some r.jobId ∧
      (serializeJobRecord r).textField "tenant_id" = some r.tenantId ∧
      (serializeJobRecord r).textField "workspace_id" = some r.workspaceId := by
  simp only [serializeJobRecord, Json.ofFields, Json.textField, Json.get?, List.foldl_append]
  split_ifs <;> simp [getKey_setKey, Json.text?]

theorem get?_serializeJobRecord {r : PlatformJobRecord} (h : r.jobRequest.isEmpty = false) :
    (serializeJobRecord r).get? "job_request" = some r.jobRequest := by
  simp only [serializeJobRecord, Json.ofFields, Json.get?, List.foldl_append, h,
    Bool.false_eq_true, if_false]
  split_ifs <;> simp [getKey_setKey]

theorem isEmpty_of_valid (h : validateCloudBuildRequest j = none) : j.isEmpty = false := by
  obtain ⟨source, manifestPath, origin, -, hsource, -⟩ := reads_of_valid h
  rw [memberAt_eq_ok] at hsource
  cases j with
  | object fields => cases fields <;> simp_all [Json.get?, getKey, Json.isEmpty]
  | _ => cases hsource
end reading
section

variable {scenario : Scenario} {worker : WorkerRuntimeConfig} {render : Json → String}
  {job : ClaimedJob} {session : Session} {C : Prop}

theorem runHeartbeatLoop_eq {n : ℕ} : runHeartbeatLoop scenario n session =
    (.ok (), { session with clock := session.clock + n }) := by
  induction n generalizing session with
  | zero => rfl
  | succ n ih =>
    have hround : Prog.handle (heartbeat scenario) (fun _ => pure ()) session =
        (.ok (), { session with clock := session.clock + 1 }) := by
      simp only [heartbeat, httpJson, Prog.handle, bind, Prog.read, Prog.modify]
      by_cases h : scenario.holds session = true <;> simp [h, Prog.fail, pure]
    rw [runHeartbeatLoop]
    simp only [bind]
    rw [hround]
    simp only
    rw [ih]
    simp [Nat.add_right_comm, ← Nat.add_assoc]

/-- The run returns and has reported the job, if and only if `C`. -/
def Ends (C : Prop) (job : ClaimedJob) (result : Except WorkerException Unit) (session : Session) :
    Prop :=
  result.isOk = true ∧ session.Reports job ↔ C

/-- No completion has been requested. -/
def Session.Fresh (session : Session) : Prop :=
  session.completed = false ∧ session.completions = []

theorem ends_error {e : WorkerException} (h : ¬ C) : Ends C job (.error e) session := by
  simp [Ends, Except.isOk, Except.toBool, h]

theorem wp_complete {status message : String} {artifacts result : Json}
    (hfresh : session.Fresh) (hC : C ↔ ∀ n ∈ scenario.cancelAt, session.clock < n) :
    wp (complete scenario worker job.record.jobId status message artifacts result)
      (fun _ t => Ends C job (.ok ()) t) (fun e t => Ends C job (.error e) t) session := by
  have hholds : scenario.holds session = true ↔ C := by
    simp [Scenario.holds, hfresh.1, Option.all_eq_true, hC]
  simp only [complete, httpJson, wp_bind, wp_read, wp_modify, wp_ite, wp_pure, wp_fail]
  constructor
  · intro h
    refine iff_of_true ⟨rfl, ?_⟩ (hholds.mp h)
    simp only [Session.Reports, hfresh.2, List.nil_append]
    exact ⟨_, rfl⟩
  · intro h
    exact ends_error (mt hholds.mpr h)

/-- A text that is written before the completion. -/
theorem wp_writeText {file : WorkspaceFile} {text : String} {x : Work Unit}
    (hfile : C → (scenario.writeText file).isOk)
    (hx : (scenario.writeText file).isOk →
      wp x (fun _ t => Ends C job (.ok ()) t) (fun e t => Ends C job (.error e) t)
        { session with clock := session.clock + 1, files := session.files ++ [(file, text)] }) :
    wp (writeText scenario file text)
      (fun _ t => wp x (fun _ t => Ends C job (.ok ()) t) (fun e t => Ends C job (.error e) t) t)
      (fun e t => Ends C job (.error e) t) session := by
  simp only [writeText, act, wp_bind, wp_modify, wp_ofExcept]
  constructor
  · intro u hu
    exact hx (by simp [hu, Except.isOk, Except.toBool])
  · intro e he
    exact ends_error fun hc => by simpa [he, Except.isOk, Except.toBool] using hfile hc

/-- A failure is reported: its text is written, and the job is completed. -/
theorem wp_writeText_complete {text status message : String} {artifacts result : Json}
    (hfresh : session.Fresh) (hC : C ↔ (scenario.writeText .stderr).isOk ∧
      ∀ n ∈ scenario.cancelAt, session.clock + 1 < n) :
    wp (writeText scenario .stderr text)
      (fun _ t => wp (complete scenario worker job.record.jobId status message artifacts result)
        (fun _ t => Ends C job (.ok ()) t) (fun e t => Ends C job (.error e) t) t)
      (fun e t => Ends C job (.error e) t) session := by
  apply wp_writeText (fun hc => (hC.mp hc).1)
  intro hwrite
  apply wp_complete
  · exact hfresh
  · rw [hC, and_iff_right hwrite]

theorem wp_heartbeat {R : Session → Prop} (hfresh : session.Fresh)
    (hC : C → ∀ n ∈ scenario.cancelAt, session.clock < n)
    (hR : R { session with clock := session.clock + 1 }) :
    wp (heartbeat scenario) (fun _ t => R t) (fun e t => Ends C job (.error e) t) session := by
  simp only [heartbeat, httpJson, wp_bind, wp_read, wp_modify, wp_ite, wp_pure, wp_fail]
  refine ⟨fun _ => hR, fun h => ends_error fun hc => h ?_⟩
  simpa [Scenario.holds, hfresh.1, Option.all_eq_true] using hC hc

theorem wp_fetchFailed {e : WorkerException} (hfresh : session.Fresh)
    (hC : C ↔ (∀ what, e ≠ .other what) ∧ (scenario.writeText .stderr).isOk ∧
      ∀ n ∈ scenario.cancelAt, session.clock + 1 < n) :
    wp (fetchFailed scenario worker job.record.jobId e) (fun _ t => Ends C job (.ok ()) t)
      (fun e t => Ends C job (.error e) t) session := by
  cases e with
  | other what =>
    rw [fetchFailed, wp_fail]
    exact ends_error fun hc => (hC.mp hc).1 what rfl
  | sourceFetchError operation result what =>
    rw [fetchFailed, wp_bind]
    apply wp_writeText_complete hfresh
    simpa using hC
  | fetchError what =>
    rw [fetchFailed, wp_bind]
    apply wp_writeText_complete hfresh
    simpa using hC

theorem create_eq : create scenario (serializeJobRecord job.record) =
    if isSafeRelativePath ((job.record.jobRequest.textField "manifest_path").getD "") then
      scenario.directories
    else .error (.other "manifest_path must be relative for source fetch jobs") := by
  obtain ⟨hid, htenant, hworkspace⟩ := textField_serializeJobRecord job.record
  have hrequest := get?_serializeJobRecord (isEmpty_of_valid job.valid)
  obtain ⟨source, manifestPath, origin, hmanifest, -, -⟩ := reads_of_valid job.valid
  have htext := textAt_eq_ok.mp hmanifest
  rw [← textAt_eq_ok] at hid htenant hworkspace
  rw [← memberAt_eq_ok] at hrequest
  simp only [create, hid, htenant, hworkspace, hrequest, hmanifest, htext, bind, Except.bind,
    Option.getD_some]
  cases isSafeRelativePath manifestPath <;> rfl

theorem artifact_isOk (artifactRoot name kind : String) :
    ∃ a, artifact (serializeJobRecord job.record) artifactRoot name kind = .ok a := by
  obtain ⟨hid, htenant, hworkspace⟩ := textField_serializeJobRecord job.record
  rw [← textAt_eq_ok] at hid htenant hworkspace
  simp only [artifact, hid, htenant, hworkspace, bind, Except.bind]
  exact ⟨_, rfl⟩

theorem wp_reportBuild {build : ProcessResult} (hfresh : session.Fresh)
    (hC : C ↔ (∀ file, (scenario.writeText file).isOk) ∧
      ∀ n ∈ scenario.cancelAt, session.clock + 3 < n) :
    wp (reportBuild scenario worker (serializeJobRecord job.record) job.record.jobId render build)
      (fun _ t => Ends C job (.ok ()) t) (fun e t => Ends C job (.error e) t) session := by
  obtain ⟨stdoutLog, hstdoutLog⟩ := @artifact_isOk job worker.artifactRoot "stdout.log" "log"
  obtain ⟨stderrLog, hstderrLog⟩ := @artifact_isOk job worker.artifactRoot "stderr.log" "log"
  obtain ⟨resultJson, hresultJson⟩ :=
    @artifact_isOk job worker.artifactRoot "result.json" "metadata"
  rw [reportBuild, wp_bind]
  apply wp_writeText (fun hc => (hC.mp hc).1 _)
  intro hstdout
  rw [wp_bind]
  apply wp_writeText (fun hc => (hC.mp hc).1 _)
  intro hstderr
  rw [wp_bind]
  apply wp_writeText (fun hc => (hC.mp hc).1 _)
  intro hresult
  simp only [hstdoutLog, hstderrLog, hresultJson, wp_bind, wp_ofExcept, Except.ok.injEq, forall_eq',
    reduceCtorEq, false_imp_iff, implies_true, and_true]
  apply wp_complete
  · exact hfresh
  rw [hC, and_iff_right]
  intro file
  cases file <;> assumption

/-- A run reports its job and returns, if and only if nothing has troubled it. -/
theorem ends_executeClaimedJob (worker : WorkerRuntimeConfig) (render : Json → String)
    (scenario : Scenario) (job : ClaimedJob) :
    Ends (scenario.Untroubled worker job) job
      (executeClaimedJob worker render scenario (serializeJobRecord job.record) {}).1
      (executeClaimedJob worker render scenario (serializeJobRecord job.record) {}).2 := by
  apply result_of_wp
  obtain ⟨hid, -, -⟩ := textField_serializeJobRecord job.record
  have hrequest := get?_serializeJobRecord (isEmpty_of_valid job.valid)
  obtain ⟨source, manifestPath, origin, hmanifest, hsource, horigin⟩ := reads_of_valid job.valid
  rw [← textAt_eq_ok] at hid
  rw [← memberAt_eq_ok] at hrequest
  simp only [executeClaimedJob, hid, hrequest, hsource, horigin, wp_bind, wp_ofExcept,
    Except.ok.injEq, reduceCtorEq, forall_eq', false_imp_iff, implies_true, and_true, wp_handle,
    wp_pure, act, wp_modify, create_eq, if_true, Bool.false_eq_true, if_false]
  refine ⟨?_, ?_⟩
  · intro u hcreate
    have hsafe : isSafeRelativePath
        ((job.record.jobRequest.textField "manifest_path").getD "") = true := by
      by_contra h
      simp [h] at hcreate
    rw [if_pos hsafe] at hcreate
    have hcourse : scenario.course worker job = scenario.preparedCourse worker job := by
      simp [Scenario.course, hsafe, hcreate, Except.isOk, Except.toBool]
    refine ⟨?_, ?_⟩
    · intro v hfetch
      rw [Scenario.preparedCourse, hfetch] at hcourse
      apply wp_heartbeat ⟨rfl, rfl⟩
      · intro hc n hn
        have := hc.2.2 n hn
        simp only at hcourse
        split at hcourse <;> rw [hcourse, Course.completionAt] at this <;> simp only <;> omega
      · rw [wp_of_eq_ok runHeartbeatLoop_eq]
        refine ⟨?_, ?_⟩
        · intro build hbuild
          simp only [hbuild, Except.isOk, Except.toBool, if_true] at hcourse
          apply wp_reportBuild ⟨rfl, rfl⟩
          have hclock : 0 + 1 + 1 + 1 + scenario.beats + 1 + 3 = scenario.beats + 7 := by omega
          have hfiles : (∀ file ∈ Course.built.files, (scenario.writeText file).isOk = true) ↔
              ∀ file, (scenario.writeText file).isOk = true :=
            ⟨fun h file => h file (by cases file <;> simp [Course.files]), fun h file _ => h file⟩
          simp only [Scenario.Untroubled, hcourse, hfiles, Course.completionAt, hclock, ne_eq,
            reduceCtorEq, not_false_eq_true, true_and]
        · intro e hbuild
          simp only [hbuild, Except.isOk, Except.toBool, Bool.false_eq_true, if_false] at hcourse
          apply wp_writeText_complete ⟨rfl, rfl⟩
          have hclock : 0 + 1 + 1 + 1 + scenario.beats + 1 + 1 = scenario.beats + 5 := by omega
          simp [Scenario.Untroubled, hcourse, Course.files, Course.completionAt, hclock]
    · intro e hfetch
      rw [Scenario.preparedCourse, hfetch] at hcourse
      apply wp_fetchFailed ⟨rfl, rfl⟩
      cases e <;> simp [Scenario.Untroubled, hcourse, Course.files, Course.completionAt]
  · intro e hcreate
    have hcourse : scenario.course worker job = .unprepared := by
      rw [Scenario.course, if_neg]
      by_cases hsafe : isSafeRelativePath
          ((job.record.jobRequest.textField "manifest_path").getD "") = true
      · rw [if_pos hsafe] at hcreate
        simp [hcreate, Except.isOk, Except.toBool]
      · simp [hsafe]
    apply wp_complete ⟨rfl, rfl⟩
    simp [Scenario.Untroubled, hcourse, Course.files, Course.completionAt]
end

/-- A round after which the worker has reported its job and goes on. -/
def Round.Untroubled (worker : WorkerRuntimeConfig) : Round → Prop
  | unclaimed => True
  | claimed job scenario => scenario.Untroubled worker job

/-- The worker has reported every job and goes on, if and only if no round has troubled it. -/
theorem reportsAll_iff (worker : WorkerRuntimeConfig) (render : Json → String)
    (rounds : List Round) :
    ReportsAll worker render rounds ↔ ∀ round ∈ rounds, round.Untroubled worker := by
  induction rounds with
  | nil => simp [ReportsAll, runWorker, claimedJobs]
  | cons round rounds ih =>
    rw [List.forall_mem_cons, ← ih]
    cases round with
    | unclaimed => simp [ReportsAll, runWorker, claimedJobs, Round.Untroubled]
    | claimed job scenario =>
      have hends := ends_executeClaimedJob worker render scenario job
      rcases hrun : executeClaimedJob worker render scenario (serializeJobRecord job.record) {} with
        ⟨_ | _, session⟩
      · rw [hrun] at hends
        have htroubled : ¬ scenario.Untroubled worker job := by
          intro h
          cases (hends.mpr h).1
        simp [ReportsAll, runWorker, hrun, Round.Untroubled, htroubled]
      · rw [hrun] at hends
        have hreports : session.Reports job ↔ scenario.Untroubled worker job := by
          exact ⟨fun h => hends.mp ⟨rfl, h⟩, fun h => (hends.mpr h).2⟩
        simp only [ReportsAll, runWorker, hrun, claimedJobs, Round.Untroubled, ← hreports,
          Bool.false_eq_true, if_false, List.map_cons, List.cons.injEq, true_and,
          List.forall_mem_cons]
        tauto

theorem valid_of_submission {body : Json} {configRegion jobId : String} {job : PlatformJobRecord}
    (hvalid : validateSubmitJobRequest body = none)
    (hjob : buildQueuedJobRecord body configRegion jobId = some job) :
    validateCloudBuildRequest job.jobRequest = none := by
  rw [buildQueuedJobRecord, Option.map_eq_some_iff] at hjob
  obtain ⟨region, -, rfl⟩ := hjob
  simp only [validateSubmitJobRequest] at hvalid
  repeat' split at hvalid
  all_goals simp_all

/-- The jobs of the store passed the check of their request. -/
theorem valid_run (configRegion : String) (requests : List Request) (id : String)
    (job : PlatformJobRecord)
    (h : (MemoryStateStore.run configRegion requests).jobs.get id = some job) :
    validateCloudBuildRequest job.jobRequest = none := by
  induction requests using List.reverseRecOn generalizing job with
  | nil => simp [MemoryStateStore.run] at h
  | append_singleton before request ih =>
    have hchange := MemoryStateStore.jobChange_run configRegion before request id
    rw [h] at hchange
    generalize hold : (MemoryStateStore.run configRegion before).jobs.get id = o at hchange
    cases hchange with
    | same => exact ih job hold
    | @cancelled found => exact ih found hold
    | @claimed found => exact ih found hold
    | @completed found => exact ih found hold
    | @submitted _ _ body hrequest hid hstatus =>
      subst hrequest
      rw [MemoryStateStore.run_append_singleton] at h
      simp only [MemoryStateStore.handle, MemoryStateStore.handleSubmitJob] at h
      split at h
      · exact ih job (hold.symm ▸ h)
      · rename_i hvalid
        split at h
        · exact ih job (hold.symm ▸ h)
        · rename_i built hbuilt
          simp only [MemoryStateStore.submitJob, MemoryStateStore.pushEvent_jobs,
            MemoryStateStore.putJob_jobs, OrderedMap.get_set] at h
          split at h
          · cases h
            exact valid_of_submission hvalid hbuilt
          · exact ih job h

/-- What a claim hands out passed the check of its request. -/
theorem valid_of_claim {configRegion message : String} {requests : List Request} {body : Json}
    {job : PlatformJobRecord} {held : Option CompileContainerRecord}
    (h : (MemoryStateStore.handle configRegion (.claimJob body)
      (MemoryStateStore.run configRegion requests)).1 =
        some (.success message (.claimed job held))) :
    validateCloudBuildRequest job.jobRequest = none := by
  simp only [MemoryStateStore.handle, MemoryStateStore.handleClaimJob, MemoryStateStore.answer] at h
  split at h
  · rename_i rejected hrejected
    cases h
    simp only [claimFromRequest] at hrejected
    repeat' split at hrejected
    all_goals cases hrejected
  · split at h
    · rename_i error herror
      cases error <;> cases h
    · cases h
    · rename_i claimed store hclaim
      cases h
      obtain ⟨found, worker, hfound, -, -, rfl⟩ := MemoryStateStore.claim_spec hclaim
      have hget := (MemoryStateStore.candidate_spec hfound).1
      exact valid_run configRegion requests found.1 found.2 hget

def sampleClaimedJob : ClaimedJob where
  record :=
    { sampleJob.record with
      status := .running
      workerId := "worker"
      jobRequest := .object [("manifest_path", .string "spio.toml"), ("schema_version", .int 1),
        ("source", .object [("origin", .string "https://host/repo.git")])] }
  valid := by decide +kernel

/-- Every step of the job succeeds. -/
def smoothScenario : Scenario where
  directories := .ok ()
  ensureWorktree := .ok ()
  writeText _ := .ok ()
  beats := 0
  runProcess _ := .ok {}
  cancelAt := none

/-- The job is cancelled while its source is fetched, and the heartbeat before the build ends the
worker; so does a fetch that cannot create a directory. -/
theorem not_reportsAll_of_trouble :
    ¬ ReportsAll {} (fun _ => "") [.claimed sampleClaimedJob { smoothScenario with
      cancelAt := some 2 }] ∧
    ¬ ReportsAll {} (fun _ => "") [.claimed sampleClaimedJob { smoothScenario with
      ensureWorktree := .error (.other "filesystem error: cannot create directories") }] := by
  constructor
  · rintro ⟨h, -⟩
    revert h
    decide +kernel
  · rintro ⟨h, -⟩
    revert h
    decide +kernel

end StyioPlatform.Workspace
