import StyioPlatform.Workspace.ConcurrentJobs
import StyioPlatform.Workspace.SequentialCalls

/-! The artifacts of completed jobs. Artifacts of all jobs share one key, so a completion depends on
what other jobs have stored. -/
namespace StyioPlatform.Workspace

open PostgresStore

variable {settings : Settings} {now : Moment} {t : Tables} {q : Sequences}
  {store : Store Tables Sequences} {jobId workerId message : String} {status : Completion}
  {artifacts : List ArtifactRecord} {result : Json} {row : JobRow}

/-- Inserting artifacts under free ids adds them and nothing else. -/
theorem get_insertedArtifacts {m : OrderedMap String ArtifactRow} (hfree : Free m artifacts)
    {id : String} {row : ArtifactRow} :
    (insertedArtifacts m jobId artifacts).get id = some row ↔ m.get id = some row ∨
      ∃ a ∈ artifacts, id = cString a.artifactId ∧
        row = ⟨jobId, cString a.objectKey, cString a.kind⟩ := by
  induction artifacts generalizing m with
  | nil => simp [insertedArtifacts]
  | cons a rest ih =>
    have hnone := hfree.1 a List.mem_cons_self
    have hstep := ih ((free_cons ⟨jobId, cString a.objectKey, cString a.kind⟩ hnone).mp hfree)
    rw [insertedArtifacts, List.foldl_cons]
    rw [insertedArtifacts] at hstep
    rw [hstep, OrderedMap.get_set]
    by_cases hid : id = cString a.artifactId
    · subst hid
      simp [hnone, eq_comm]
    · simp [hid]

/-- The completion succeeds, stores exactly the artifacts for the job, and leaves those of other
jobs as they were. -/
def CompletesAlone (settings : Settings) (now : Moment) (store : Store Tables Sequences)
    (jobId workerId : String) (status : Completion) (message : String)
    (artifacts : List ArtifactRecord) (result : Json) : Prop :=
  let (answer, after) := (dialect settings).call now
    (completeJob settings jobId workerId status message artifacts result) store
  (∃ job, answer = .ok (some job)) ∧
  (∀ a : ArtifactRecord, after.tables.artifacts.get a.artifactId =
    some ⟨cString jobId, a.objectKey, a.kind⟩ ↔ a ∈ artifacts) ∧
  ∀ id row, row.jobId ≠ cString jobId →
    (after.tables.artifacts.get id = some row ↔ store.tables.artifacts.get id = some row)

/-- The texts of an artifact reach the server unchanged. -/
def ArtifactRecord.Unbroken (a : ArtifactRecord) : Prop :=
  hasNul a.artifactId = false ∧ hasNul a.objectKey = false ∧ hasNul a.kind = false

theorem call_eq {α : Type} {script : StoreCall α} {answer : Except PostgresStoreError α}
    {after : Store Tables Sequences} {txn : Transaction Moment Write}
    (h : (dialect settings).run now script store .idle = (answer, after, txn)) :
    (dialect settings).call now script store = (answer, after) := by
  rw [Dialect.call, h]

/-- Free ids, from the condition on the stored artifacts. -/
theorem free_of_unshared (hdistinct : (artifacts.map (·.artifactId)).Nodup)
    (hunbroken : ∀ a ∈ artifacts, a.Unbroken)
    (hunshared : ∀ a ∈ artifacts, ∀ row, t.artifacts.get a.artifactId = some row →
      row.jobId = jobId) : Free (droppedArtifacts t jobId) artifacts := by
  have hids : ∀ a ∈ artifacts, cString a.artifactId = a.artifactId :=
    fun a ha => cString_eq (hunbroken a ha).1
  constructor
  · intro a ha
    rw [hids a ha]
    rcases hget : (droppedArtifacts t jobId).get a.artifactId with _ | row
    · rfl
    · obtain ⟨hstored, hother⟩ := get_droppedArtifacts.mp hget
      exact absurd (hunshared a ha row hstored) hother
  · rwa [List.map_congr_left hids]

/-- A completion of a running job by its worker works alone exactly when nothing it passes on
contains a NUL and no id of its artifacts is stored for another job. -/
theorem completesAlone_iff (hjob : store.tables.jobs.get (cString jobId) = some row)
    (hruns : row.runsFor (cString workerId) = true)
    (hdistinct : (artifacts.map (·.artifactId)).Nodup) :
    CompletesAlone settings now store jobId workerId status message artifacts result ↔
      result.anyNul = false ∧ (∀ a ∈ artifacts, a.Unbroken) ∧
      ∀ a ∈ artifacts, ∀ row, store.tables.artifacts.get a.artifactId = some row →
        row.jobId = cString jobId := by
  obtain ⟨t, q⟩ := store
  have hfind : Tables.find t.jobs (cString jobId) (·.runsFor (cString workerId)) = some row :=
    Tables.find_eq_some.mpr ⟨hjob, hruns⟩
  constructor
  · intro h
    rcases hresult : result.anyNul with _ | _
    · by_cases hfree : Free (droppedArtifacts t (cString jobId)) artifacts
      · rw [CompletesAlone, call_eq (run_completeJob_free hresult hfind hfree)] at h
        obtain ⟨-, hstored, -⟩ := h
        have hunbroken : ∀ a ∈ artifacts, a.Unbroken := by
          intro a ha
          have hget := (hstored a).mpr ha
          rw [completedTables, get_insertedArtifacts hfree] at hget
          rcases hget with hget | ⟨b, -, hid, hrow⟩
          · exact absurd rfl (get_droppedArtifacts.mp hget).2
          · simp only [ArtifactRow.mk.injEq, true_and] at hrow
            rw [ArtifactRecord.Unbroken, hid, hrow.1, hrow.2]
            exact ⟨hasNul_cString _, hasNul_cString _, hasNul_cString _⟩
        refine ⟨rfl, hunbroken, ?_⟩
        intro a ha other hget
        by_contra hne
        have hdropped := get_droppedArtifacts.mpr ⟨hget, hne⟩
        have hnone := hfree.1 a ha
        rw [cString_eq (hunbroken a ha).1, hdropped] at hnone
        cases hnone
      · rw [CompletesAlone, call_eq (run_completeJob_taken hresult hfind hfree)] at h
        obtain ⟨⟨job, hok⟩, -⟩ := h
        cases hok
    · rw [CompletesAlone, call_eq (run_completeJob_of_nul hresult)] at h
      obtain ⟨⟨job, hok⟩, -⟩ := h
      cases hok
  · rintro ⟨hresult, hunbroken, hunshared⟩
    have hfree : Free (droppedArtifacts t (cString jobId)) artifacts :=
      free_of_unshared hdistinct hunbroken hunshared
    rw [CompletesAlone, call_eq (run_completeJob_free hresult hfind hfree)]
    refine ⟨?_, ?_, ?_⟩
    · simp [Tables.jobRecord, completedTables, Tables.recordJob]
    · intro a
      rw [completedTables, get_insertedArtifacts hfree]
      constructor
      · rintro (hget | ⟨b, hb, hid, hrow⟩)
        · exact absurd rfl (get_droppedArtifacts.mp hget).2
        · obtain ⟨hid', hkey, hkind⟩ := hunbroken b hb
          simp only [ArtifactRow.mk.injEq, true_and, cString_eq hkey, cString_eq hkind] at hrow
          rw [cString_eq hid'] at hid
          have hab : a = b := by
            cases a
            cases b
            simp_all
          rwa [hab]
      · intro ha
        obtain ⟨hid, hkey, hkind⟩ := hunbroken a ha
        exact .inr ⟨a, ha, (cString_eq hid).symm, by rw [cString_eq hkey, cString_eq hkind]⟩
    · intro id other hother
      rw [completedTables, get_insertedArtifacts hfree, get_droppedArtifacts]
      constructor
      · rintro (⟨hget, -⟩ | ⟨b, -, -, rfl⟩)
        · exact hget
        · exact absurd rfl hother
      · intro hget
        exact .inl ⟨hget, hother⟩

/-- `SanitizeKeyPart`, byte by byte. -/
def sanitizeKeyPart (value : String) : String :=
  let result := value.toList.flatMap fun c =>
    if c.isAlphanum || c == '-' || c == '_' || c == '.' then [c] else List.replicate c.utf8Size '_'
  if result = [] then "unset" else String.ofList result

def buildArtifactObjectKey (tenantId workspaceId jobId artifactName : String) : String :=
  "tenants/" ++ sanitizeKeyPart tenantId ++ "/workspaces/" ++ sanitizeKeyPart workspaceId ++
    "/jobs/" ++ sanitizeKeyPart jobId ++ "/artifacts/" ++ sanitizeKeyPart artifactName

/-- `Artifact`: what the worker reports of one of its files. -/
def workerArtifact (job : PlatformJobRecord) (artifactRoot name kind : String) : ArtifactRecord where
  artifactId := name
  objectKey := artifactRoot ++ "/" ++
    buildArtifactObjectKey job.tenantId job.workspaceId job.jobId name
  kind

/-- The artifacts of the request that ends `ExecuteClaimedJob`. -/
def workerArtifacts (job : PlatformJobRecord) (artifactRoot : String) : List ArtifactRecord :=
  [workerArtifact job artifactRoot "stdout.log" "log",
    workerArtifact job artifactRoot "stderr.log" "log",
    workerArtifact job artifactRoot "result.json" "metadata"]

/-- The store after some calls, one after the other. -/
def afterCalls (settings : Settings) (store : Store Tables Sequences) (calls : List Call) :
    Store Tables Sequences :=
  calls.zipIdx.foldl (fun store x =>
    ((dialect settings).call { time := x.2 } (x.1.script settings) store).2) store

def numberedJob (n : ℕ) : QueuedJob where
  record := { sampleJob.record with jobId := jobIdFor n }
  queued := rfl
  numbered := ⟨n, rfl⟩

/-- Two jobs are submitted and claimed. -/
def claimedDatabase : Store Tables Sequences :=
  afterCalls sampleSettings sampleStore [.submitJob (numberedJob 1), .submitJob (numberedJob 2),
    .claimJob "worker" "eu" "linux", .claimJob "worker" "eu" "linux"]

/-- The completion that the worker reports for a job. -/
def workerCompletion (n : ℕ) : Call :=
  .completeJob (jobIdFor n) "worker" .succeeded "build completed"
    (workerArtifacts (numberedJob n).record "/var/artifacts") (.object [])

/-- The first of the two jobs is completed. -/
def completedDatabase : Store Tables Sequences :=
  afterCalls sampleSettings claimedDatabase [workerCompletion 1]

theorem completesAlone_first_worker :
    (∀ a ∈ workerArtifacts (numberedJob 1).record "/var/artifacts", ∀ row,
      claimedDatabase.tables.artifacts.get a.artifactId = some row → row.jobId = jobIdFor 1) ∧
    CompletesAlone sampleSettings { time := 9 } claimedDatabase (jobIdFor 1) "worker" .succeeded
      "build completed" (workerArtifacts (numberedJob 1).record "/var/artifacts") (.object []) := by
  have hunshared : ∀ a ∈ workerArtifacts (numberedJob 1).record "/var/artifacts", ∀ row,
      claimedDatabase.tables.artifacts.get a.artifactId = some row → row.jobId = jobIdFor 1 := by
    intro a _ row hget
    have hempty : claimedDatabase.tables.artifacts = .empty := rfl
    rw [hempty, OrderedMap.get_empty] at hget
    cases hget
  refine ⟨hunshared, ?_⟩
  obtain ⟨row, hjob, hruns⟩ : ∃ row,
      claimedDatabase.tables.jobs.get (cString (jobIdFor 1)) = some row ∧
        row.runsFor (cString "worker") = true := ⟨_, rfl, by decide +kernel⟩
  apply (completesAlone_iff hjob hruns (by decide +kernel)).mpr
  exact ⟨rfl, by unfold ArtifactRecord.Unbroken; decide +kernel, hunshared⟩

/-- The second job that the worker completes meets the ids of the first. -/
theorem not_completesAlone_second_worker :
    (∃ row, completedDatabase.tables.jobs.get (jobIdFor 2) = some row ∧
      row.runsFor "worker" = true) ∧
    ((workerArtifacts (numberedJob 2).record "/var/artifacts").map (·.artifactId)).Nodup ∧
    ¬ CompletesAlone sampleSettings { time := 9 } completedDatabase (jobIdFor 2) "worker" .succeeded
      "build completed" (workerArtifacts (numberedJob 2).record "/var/artifacts") (.object []) := by
  refine ⟨⟨_, rfl, by decide +kernel⟩, by decide +kernel, ?_⟩
  rintro ⟨⟨job, hok⟩, -⟩
  have herror : ((dialect sampleSettings).call { time := 9 }
      (completeJob sampleSettings (jobIdFor 2) "worker" .succeeded "build completed"
        (workerArtifacts (numberedJob 2).record "/var/artifacts") (.object []))
      completedDatabase).1 = .error (.command .uniqueKey) := rfl
  cases herror.symm.trans hok

end StyioPlatform.Workspace
