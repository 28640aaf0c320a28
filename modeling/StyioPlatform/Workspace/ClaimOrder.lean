import StyioPlatform.Workspace.JobLifecycle

/-! The order in which `MemoryStateStore` hands out jobs: the loops of the claims go through the map
of jobs, whose keys are numbered in the order of submission. -/
namespace StyioPlatform.Workspace.MemoryStateStore

/-- The id of the job that a request has submitted. -/
def submittedId : Request → Option Response → Option String
  | .submitJob _, some (.success _ (.job job)) => some job.jobId
  | _, _ => none

def isSubmission : Request → Bool
  | .submitJob _ => true
  | _ => false

/-- The ids of the jobs that are submitted from a state on, the earliest first. -/
def submissions (configRegion : String) : MemoryStateStore → List Request → List String
  | _, [] => []
  | m, request :: requests =>
    (submittedId request (handle configRegion request m).1).toList ++
      submissions configRegion (handle configRegion request m).2 requests

/-- The job waits for a worker of the region and the pool. -/
def QueuedFor (region workerPoolKey : String) (job : PlatformJobRecord) : Prop :=
  job.status = .queued ∧ job.region = region ∧ job.workerPoolKey = workerPoolKey

/-- The worker has the container, in this region and pool. -/
def Holds (container : CompileContainerRecord) (workerId region workerPoolKey : String) : Prop :=
  container.workerId = workerId ∧ container.region = region ∧
    container.workerPoolKey = workerPoolKey ∧ container.status = .active

/-- The answer to a claim of a worker is the eligible job that was submitted first. -/
structure ServesFirst (ids : List String) (m : MemoryStateStore)
    (eligible : PlatformJobRecord → Prop) (workerId : String)
    (answer : Option PlatformJobRecord) : Prop where
  none_iff : answer = none ↔ ∀ id job, m.getJob id = some job → ¬ eligible job
  first : ∀ job ∈ answer, ∃ found, m.getJob job.jobId = some found ∧ eligible found ∧
    job = claimed found workerId ∧
    ∀ id other, m.getJob id = some other → eligible other → id ≠ job.jobId → List.Sublist [job.jobId, id] ids

/-- Both claims of registered workers serve the jobs in the order of submission. -/
structure ClaimsInOrder (ids : List String) (m : MemoryStateStore) : Prop where
  nodup : ids.Nodup
  claimJob : ∀ workerId region workerPoolKey, (m.workers.get workerId).isSome →
    ∃ answer, m.claimJob workerId region workerPoolKey = .ok answer ∧
      ServesFirst ids m (QueuedFor region workerPoolKey) workerId (answer.map (·.1))
  claimJobForCompileContainer : ∀ workerId region workerPoolKey containerId container,
    (m.workers.get workerId).isSome → m.compileContainers.get containerId = some container →
    Holds container workerId region workerPoolKey →
    ∃ answer, m.claimJobForCompileContainer workerId region workerPoolKey containerId = .ok answer ∧
      ServesFirst ids m (fun job => QueuedFor region workerPoolKey job ∧
        job.tenantId = container.tenantId ∧ job.userId = container.userId) workerId
        (answer.map (·.1))

/-- The jobs of the store have the numbers that were given out, in the order of submission. -/
structure Numbered (ids : List String) (m : MemoryStateStore) : Prop where
  numbers : ∃ ns : List ℕ, ids = ns.map jobIdFor ∧ ns.Pairwise (· < ·) ∧
    ∀ n ∈ ns, n < m.nextJobSequence
  listed : ∀ id job, m.jobs.get id = some job → id ∈ ids ∧ job.jobId = id

variable {configRegion : String} {m m' : MemoryStateStore} {request : Request} {ids : List String}
  {requests : List Request}

theorem nextJobSequence_claim {claim : ClaimRequest} {job : PlatformJobRecord}
    (h : m.claim claim = .ok (some (job, m'))) : m'.nextJobSequence = m.nextJobSequence := by
  unfold MemoryStateStore.claim at h
  split at h
  · simp only [claimJobForCompileContainer] at h
    split at h
    · cases h
    · split at h
      · cases h
      · split at h
        · cases h
        · simp only [Except.ok.injEq, Option.map_eq_some_iff, Prod.mk.injEq] at h
          obtain ⟨found, -, -, rfl⟩ := h
          split <;> rfl
  · simp only [claimJob] at h
    split at h
    · cases h
    · simp only [Except.ok.injEq, Option.map_eq_some_iff, Prod.mk.injEq] at h
      obtain ⟨found, -, -, rfl⟩ := h
      rfl

/-- Only a submission takes a number. -/
theorem nextJobSequence_of_step (h : Step configRegion m request m') :
    m'.nextJobSequence = m.nextJobSequence ∨
      isSubmission request = true ∧ m'.nextJobSequence = (m.nextJobSequence + 1) % 2 ^ 64 := by
  cases h with
  | stay => exact Or.inl rfl
  | numbered => exact Or.inr ⟨rfl, rfl⟩
  | submit hjob => exact Or.inr ⟨rfl, rfl⟩
  | cancel hreason hcancel =>
    simp only [cancelJob, Option.map_eq_some_iff, Prod.mk.injEq] at hcancel
    obtain ⟨found, -, -, rfl⟩ := hcancel
    exact Or.inl rfl
  | registerWorker hworker => exact Or.inl rfl
  | registerContainer hregister =>
    unfold registerCompileContainer at hregister
    left
    repeat' split at hregister
    all_goals first
      | cases hregister
        done
      | cases hregister
        rfl
  | switch hswitch =>
    unfold switchCompileContainerWorkspace at hswitch
    left
    repeat' split at hswitch
    all_goals first
      | cases hswitch
        done
      | cases hswitch
        rfl
  | claim hrequest hclaim => exact Or.inl (nextJobSequence_claim hclaim)
  | heartbeat hbeat =>
    simp only [heartbeatJob, Option.map_eq_some_iff, Prod.mk.injEq] at hbeat
    obtain ⟨found, -, -, rfl⟩ := hbeat
    exact Or.inl rfl
  | complete hworker hrequest hmessage hcomplete =>
    simp only [completeJob, Option.map_eq_some_iff, Prod.mk.injEq] at hcomplete
    obtain ⟨found, -, -, rfl⟩ := hcomplete
    exact Or.inl rfl

/-- A job that is there after a request other than a submission was there before. -/
theorem Numbered.of_step (h : Numbered ids m) (hstep : Step configRegion m request m')
    (hnot : isSubmission request = false) : Numbered ids m' where
  numbers := by
    obtain ⟨ns, hids, hincreasing, hbelow⟩ := h.numbers
    refine ⟨ns, hids, hincreasing, ?_⟩
    rcases nextJobSequence_of_step hstep with hsame | ⟨hsubmission, -⟩
    · rwa [hsame]
    · rw [hnot] at hsubmission
      cases hsubmission
  listed id job hget := by
    have hchange := jobChange_of_step hstep id
    rw [hget] at hchange
    generalize hbefore : m.jobs.get id = before at hchange
    cases hchange with
    | same => exact h.listed id job hbefore
    | submitted hrequest =>
      subst hrequest
      cases hnot
    | cancelled =>
      have hlisted := h.listed id _ hbefore
      exact hlisted
    | claimed =>
      have hlisted := h.listed id _ hbefore
      exact hlisted
    | completed =>
      have hlisted := h.listed id _ hbefore
      exact hlisted

/-- The numbers that were given out, with the next one taken. -/
theorem Numbered.numbered (h : Numbered ids m) (hsmall : m.nextJobSequence + 1 < 2 ^ 64) :
    Numbered ids m.nextJobId.2 where
  numbers := by
    obtain ⟨ns, hids, hincreasing, hbelow⟩ := h.numbers
    have hnext : m.nextJobId.2.nextJobSequence = m.nextJobSequence + 1 := Nat.mod_eq_of_lt hsmall
    refine ⟨ns, hids, hincreasing, fun n hn => ?_⟩
    have := hbelow n hn
    omega
  listed := h.listed

theorem Numbered.submitJob (h : Numbered ids m) (hsmall : m.nextJobSequence + 1 < 2 ^ 64)
    {body : Json} {job : PlatformJobRecord}
    (hjob : buildQueuedJobRecord body configRegion m.nextJobId.1 = some job) :
    Numbered (ids ++ [job.jobId]) (m.nextJobId.2.submitJob job) := by
  rw [buildQueuedJobRecord, Option.map_eq_some_iff] at hjob
  obtain ⟨region, -, rfl⟩ := hjob
  constructor
  · obtain ⟨ns, rfl, hincreasing, hbelow⟩ := h.numbers
    have hnext : m.nextJobId.2.nextJobSequence = m.nextJobSequence + 1 := Nat.mod_eq_of_lt hsmall
    refine ⟨ns ++ [m.nextJobSequence], by rw [List.map_append]; rfl, ?_, fun n hn => ?_⟩
    · rw [List.pairwise_append]
      refine ⟨hincreasing, List.pairwise_singleton _ _, fun a ha b hb => ?_⟩
      rw [List.mem_singleton.mp hb]
      exact hbelow a ha
    · change n < m.nextJobId.2.nextJobSequence
      rcases List.mem_append.mp hn with hn | hn
      · have := hbelow n hn
        omega
      · rw [List.mem_singleton.mp hn]
        omega
  · intro id job hget
    simp only [MemoryStateStore.submitJob, pushEvent_jobs, putJob_jobs, OrderedMap.get_set] at hget
    split at hget
    · next hid =>
      obtain rfl := Option.some.inj hget
      subst hid
      exact ⟨List.mem_append_right _ (List.mem_singleton_self _), rfl⟩
    · obtain ⟨hmem, hown⟩ := h.listed id job hget
      exact ⟨List.mem_append_left _ hmem, hown⟩

theorem Numbered.handle (h : Numbered ids m) (hsmall : m.nextJobSequence + 1 < 2 ^ 64) :
    Numbered (ids ++ (submittedId request (handle configRegion request m).1).toList)
      (handle configRegion request m).2 := by
  cases request with
  | submitJob body =>
    simp only [MemoryStateStore.handle, handleSubmitJob]
    split
    · simpa [answer, submittedId, submitRejected] using h
    · split
      · simpa [submittedId] using h.numbered hsmall
      · next job hjob => exact h.submitJob hsmall hjob
  | _ => simpa [submittedId] using h.of_step (step_handle configRegion _ m) rfl

theorem Numbered.run (h : Numbered ids m)
    (hsmall : m.nextJobSequence + requests.countP isSubmission ≤ 10 ^ 12) :
    Numbered (ids ++ submissions configRegion m requests)
        (requests.foldl (fun m request => (MemoryStateStore.handle configRegion request m).2) m) ∧
      (requests.foldl (fun m request => (MemoryStateStore.handle configRegion request m).2)
        m).nextJobSequence ≤ 10 ^ 12 := by
  induction requests generalizing ids m with
  | nil => simpa [submissions] using ⟨h, hsmall⟩
  | cons request requests ih =>
    have hnext : (MemoryStateStore.handle configRegion request m).2.nextJobSequence +
        requests.countP isSubmission ≤ 10 ^ 12 := by
      rw [List.countP_cons] at hsmall
      rcases nextJobSequence_of_step (step_handle configRegion request m) with hsame | ⟨hcount, htaken⟩
      · omega
      · rw [hcount, if_pos rfl] at hsmall
        rw [htaken, Nat.mod_eq_of_lt (by omega)]
        omega
    have hafter := ih (h.handle (by omega)) hnext
    rwa [List.append_assoc] at hafter

/-- The loop stops at the eligible job that was submitted first. -/
theorem Numbered.servesFirst (h : Numbered ids m) (hsmall : m.nextJobSequence ≤ 10 ^ 12)
    {eligible : PlatformJobRecord → Bool} {workerId : String} :
    ServesFirst ids m (fun job => eligible job = true) workerId
      ((m.jobs.first eligible).map fun found => claimed found.2 workerId) := by
  constructor
  · rw [Option.map_eq_none_iff, OrderedMap.first_eq_none_iff]
    simp [getJob]
  · intro job hjob
    obtain ⟨found, hfound, rfl⟩ := Option.map_eq_some_iff.mp hjob
    obtain ⟨hget, heligible⟩ := OrderedMap.first_eq_some hfound
    have hown : (claimed found.2 workerId).jobId = found.1 := (h.listed _ _ hget).2
    rw [hown]
    refine ⟨found.2, hget, heligible, rfl, fun id other hother heligible' hne => ?_⟩
    have hle := OrderedMap.first_le hfound hother heligible'
    obtain ⟨ns, rfl, hincreasing, hbelow⟩ := h.numbers
    obtain ⟨a, ha, haid⟩ := List.mem_map.mp (h.listed _ _ hget).1
    obtain ⟨b, hb, rfl⟩ := List.mem_map.mp (h.listed _ _ hother).1
    have hlt : a < b := by
      by_contra hnot
      rcases Nat.lt_or_eq_of_le (Nat.not_lt.mp hnot) with hlt | rfl
      · have := jobIdFor_lt ((hbelow a ha).trans_le hsmall) hlt
        rw [haid] at this
        exact absurd this (not_lt_of_ge hle)
      · exact hne haid
    rw [← haid]
    change List.Sublist ([a, b].map jobIdFor) _
    refine List.Sublist.map jobIdFor (List.sublist_of_subperm_of_pairwise ?_ ?_ hincreasing)
    · refine List.subperm_of_subset ?_ ?_
      · simpa using hlt.ne
      · simpa using ⟨ha, hb⟩
    · simpa using hlt

theorem claims_in_order (configRegion : String)
    (hfew : requests.countP isSubmission < 10 ^ 12) :
    ClaimsInOrder (submissions configRegion {} requests) (run configRegion requests) := by
  have hstart : Numbered [] {} := by
    refine ⟨⟨[], rfl, List.Pairwise.nil, nofun⟩, fun id job hget => ?_⟩
    cases hget
  have hsmall : ({} : MemoryStateStore).nextJobSequence + requests.countP isSubmission ≤ 10 ^ 12 := by
    change 1 + _ ≤ _
    omega
  obtain ⟨hnumbered, hnext⟩ := @Numbered.run configRegion {} [] requests hstart hsmall
  rw [List.nil_append] at hnumbered
  constructor
  · obtain ⟨ns, hids, hincreasing, -⟩ := hnumbered.numbers
    rw [hids]
    exact List.Nodup.map jobIdFor_injective (hincreasing.imp ne_of_lt)
  · intro workerId region workerPoolKey hworker
    obtain ⟨worker, hworker⟩ := Option.isSome_iff_exists.mp hworker
    refine ⟨_, by rw [claimJob, hworker], ?_⟩
    have hserves := @Numbered.servesFirst _ _ hnumbered hnext (fun job =>
      decide (job.status = .queued ∧ job.region = region ∧ job.workerPoolKey = workerPoolKey)) workerId
    simp only [decide_eq_true_iff] at hserves
    rw [Option.map_map]
    exact hserves
  · intro workerId region workerPoolKey containerId container hworker hcontainer hholds
    obtain ⟨worker, hworker⟩ := Option.isSome_iff_exists.mp hworker
    obtain ⟨hown, hregion, hpool, hactive⟩ := hholds
    have havailable : ¬ (container.workerId ≠ workerId ∨ container.region ≠ region ∨
        container.workerPoolKey ≠ workerPoolKey ∨ container.status ≠ .active) := by
      simp [hown, hregion, hpool, hactive]
    refine ⟨_, by rw [claimJobForCompileContainer, hworker, hcontainer]; exact if_neg havailable, ?_⟩
    have hserves := @Numbered.servesFirst _ _ hnumbered hnext (fun job =>
      decide (job.status = .queued ∧ job.region = region ∧ job.workerPoolKey = workerPoolKey ∧
        job.tenantId = container.tenantId ∧ job.userId = container.userId)) workerId
    simp only [decide_eq_true_iff] at hserves
    rw [Option.map_map]
    simp only [QueuedFor, and_assoc]
    exact hserves

/-- Two jobs are submitted, and a worker registers. -/
def sampleQueue : List Request := [sampleSubmission, sampleSubmission, sampleRegistration]

theorem claims_in_order_sampleQueue :
    ClaimsInOrder (submissions "eu" {} sampleQueue) (run "eu" sampleQueue) :=
  claims_in_order "eu" (by decide)

example : submissions "eu" {} sampleQueue = ["job-000000000001", "job-000000000002"] := by
  decide +kernel

end StyioPlatform.Workspace.MemoryStateStore
