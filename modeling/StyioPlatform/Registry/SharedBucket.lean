import StyioPlatform.Lib.Runs
import StyioPlatform.Registry.Catalogue

/-! Nodes that share a bucket. A publish first takes the read plane from the bucket and at the end
puts its tree over it, so that the bucket always holds the catalogue of all publishes and yanks so
far, whatever the disks, memories and databases of the nodes hold. -/
namespace StyioPlatform.Registry

open FileTree Prog Catalogue

variable {env : Environment} {cfg : PlatformConfig} {host : Host} {fault : Option Site}
  {w w' w₀ : World} {b b' t t' : Tree} {c : Catalogue} {package version : String}
  {draft : PublishDraft} {archive : File}

/-- The bucket holds the catalogue, and more than releases when it has some. -/
structure Held (env : Environment) (b : Tree) (c : Catalogue) : Prop where
  catalogued : Catalogued env b c
  registry : bucketHasRegistry b = false → c = []

theorem Held.empty : Held env .empty [] := ⟨.empty, fun _ => rfl⟩

section stages

/-- The files that make up the catalogue, and the root metadata. -/
def InCatalogue (p : Path) : Prop :=
  isIndexPath p = true ∨ isLeafPath p = true ∨ (∃ sha, p = artifactPath sha) ∨ p = rootPath

/-- The catalogue in the root and the bucket are as they were. -/
structure SameCatalogue (w₀ w : World) : Prop where
  root : ∀ p, InCatalogue p → w.root.get p = w₀.root.get p
  bucket : w.bucket = w₀.bucket

theorem SameCatalogue.refl : SameCatalogue w w := ⟨fun _ _ => rfl, rfl⟩

theorem SameCatalogue.trans (h : SameCatalogue w₀ w) (h' : SameCatalogue w w') :
    SameCatalogue w₀ w' :=
  ⟨fun p hp => (h'.root p hp).trans (h.root p hp), h'.bucket.trans h.bucket⟩

theorem SameCatalogue.of_changes {S : Path → Prop} (hc : OnlyChanges S w w')
    (hS : ∀ p, InCatalogue p → ¬ S p) : SameCatalogue w w' :=
  ⟨fun p hp => hc.get (hS p hp), hc.bucket⟩

theorem Catalogued.of_same (h : Catalogued env w.root c) (hs : SameCatalogue w w') :
    Catalogued env w'.root c :=
  h.congr (fun p hp => hs.root p (Or.inl hp)) (fun p hp => hs.root p (Or.inr (Or.inl hp)))
    fun sha _ hf => (hs.root _ (Or.inr (Or.inr (Or.inl ⟨sha, rfl⟩)))).trans hf

/-- A file of the catalogue is in one of these directories. -/
theorem InCatalogue.head {p : Path} (h : InCatalogue p) : p.head? = some "index" ∨
    isLeafPath p = true ∨ p.head? = some "artifacts" ∨ p = rootPath := by
  rcases h with h | h | ⟨sha, rfl⟩ | h
  · exact Or.inl (isIndexPath_head h)
  · exact Or.inr (Or.inl h)
  · exact Or.inr (Or.inr (Or.inl rfl))
  · exact Or.inr (Or.inr (Or.inr h))

end stages

section requests

theorem isUploaded_of_inReadPlane {p : Path} (h : inReadPlane p = true) : isUploaded p = true := by
  cases p with
  | nil => cases h
  | cons name rest =>
    have hne : name ≠ "_staging" ∧ name ≠ "_tmp" := by
      refine ⟨?_, ?_⟩
      all_goals
        rintro rfl
        exact absurd h (by simp [inReadPlane, readPlaneEntries])
    simpa [isUploaded] using hne

/-- The bucket after an upload of a tree with a later catalogue. -/
theorem Held.upload {c' : Catalogue} (h : Held env b c) (ht : Catalogued env t c')
    (hgrown : c.map CatalogueEntry.toListing <+: c'.map CatalogueEntry.toListing)
    (hregistry : bucketHasRegistry b = false → t.get rootPath = none → c' = []) :
    Held env (b.graft [] (t.restrict isUploaded)) c' := by
  refine ⟨h.catalogued.graft ht hgrown fun _ => isUploaded_of_inReadPlane, fun hnone => ?_⟩
  simp only [bucketHasRegistry, get_graft_nil, get_restrict, Bool.or_eq_false_iff,
    Option.isSome_eq_false_iff, Option.isNone_iff_eq_none, Option.or_eq_none_iff] at hnone
  refine hregistry ?_ ?_
  · simp [bucketHasRegistry, hnone.1.2, hnone.2.2]
  · simpa [isUploaded, rootPath] using hnone.2.1

theorem isFetched_of_all {p : Path} (hall : ∀ fetched, fault ≠ some (.syncBucket fetched)) :
    isFetched fault p = isSynced p := by
  cases fault with
  | none => simp [isFetched]
  | some site =>
    cases site with
    | syncBucket fetched => exact (hall fetched rfl).elim
    | _ => simp [isFetched]

/-- After the sync the root holds the catalogue of the bucket. -/
theorem Held.synced (h : Held env w.bucket c) (hs3 : cfg.usesS3ObjectStore = true)
    (hgo : ¬ SyncStops cfg fault w) : Catalogued env (syncedTree cfg fault w) c := by
  have hprobe : fault ≠ some .probeBucket := fun hf => hgo ⟨hs3, Or.inl hf⟩
  have hplane : ∀ p, inReadPlane p = true → (cleared w.root).get p = none := fun p hp => by
    rw [get_cleared, if_pos hp]
  rw [syncedTree, if_pos ⟨hs3, hprobe⟩]
  split
  · next hbucket =>
    have hget : ∀ p, inReadPlane p = true →
        ((cleared w.root).graft [] (w.bucket.restrict (isFetched fault))).get p =
          w.bucket.get p := by
      intro p hp
      have hfetched : isFetched fault p = true := by
        have hall : ∀ fetched, fault ≠ some (.syncBucket fetched) := fun fetched hf =>
          hgo ⟨hs3, Or.inr ⟨hbucket, fetched, hf⟩⟩
        rw [isFetched_of_all hall, isSynced_of_inReadPlane hp]
      rw [get_graft_nil, get_restrict, if_pos hfetched, hplane p hp, Option.or_none]
    exact h.catalogued.congr (fun p hp => hget p (inReadPlane_of_isIndexPath hp))
      (fun p hp => hget p (inReadPlane_of_isLeafPath hp)) fun sha f hf => (hget _ rfl).trans hf
  · next hbucket =>
    rw [h.registry (by simpa using hbucket)]
    exact Catalogued.empty.congr (fun p hp => hplane p (inReadPlane_of_isIndexPath hp))
      (fun p hp => hplane p (inReadPlane_of_isLeafPath hp)) fun _ _ hf => by cases hf

end requests

/-- Nodes with their own worlds, and the bucket that all of them work on. -/
structure StoreNodes (ι : Type) where
  bucket : Tree := .empty
  node : ι → World

/-- What can happen to the nodes. -/
inductive StoreEvent (ι : Type) where
  /-- A node handles a request, which can break off anywhere. -/
  | request (node : ι) (host : Host) (fault : Option Site) (request : Request)
  /-- A node is restarted or set up anew, or others change its disk or database. -/
  | replace (node : ι) (w : World)

/-- The request yanks or unyanks. -/
def Request.yanks : Request → Bool
  | .setYanked .. => true
  | _ => false

namespace StoreNodes

variable {ι : Type} [DecidableEq ι] {nodes : ι → PlatformConfig} {s : StoreNodes ι}
  {e : StoreEvent ι} {l before after : List (StoreEvent ι)}

/-- The world that a node works in. -/
def world (s : StoreNodes ι) (i : ι) : World := { s.node i with bucket := s.bucket }

def step (env : Environment) (nodes : ι → PlatformConfig) (s : StoreNodes ι) :
    StoreEvent ι → StoreNodes ι
  | .request i host fault request =>
    let w := (handleRequest env (nodes i) host fault request (s.world i)).2
    { bucket := w.bucket, node := Function.update s.node i w }
  | .replace i w => { s with node := Function.update s.node i w }

/-- The status of the answer to an event. -/
def answer (env : Environment) (nodes : ι → PlatformConfig) (s : StoreNodes ι) : StoreEvent ι → ℕ
  | .request i host fault request =>
    answerStatus (handleRequest env (nodes i) host fault request (s.world i)).1
  | .replace .. => 0

/-- The version that an event yanks or unyanks, when it is answered with 200. -/
def marks (env : Environment) (nodes : ι → PlatformConfig) (s : StoreNodes ι) :
    StoreEvent ι → Option (String × String × Bool)
  | .request i host fault (.setYanked namespaceName name version yanked request) =>
    if s.answer env nodes (.request i host fault
        (.setYanked namespaceName name version yanked request)) = 200 then
      some (namespaceName ++ "/" ++ name, version, yanked)
    else none
  | _ => none

/-- No upload breaks off halfway, and a node yanks only what it serves as the bucket has it. A
publish may come to any node in any state. -/
def Allowed (s : StoreNodes ι) : StoreEvent ι → Prop
  | .request i _ fault request => (∀ sent, fault ≠ some (.upload sent)) ∧
      (request.yanks = true → readPlane (s.node i).root = readPlane s.bucket)
  | .replace .. => True

/-- What an event does to the catalogue. -/
inductive Advance (env : Environment) (nodes : ι → PlatformConfig) (s : StoreNodes ι)
    (e : StoreEvent ι) (c : Catalogue) : Catalogue → Prop where
  | mark {package version : String} {yanked : Bool}
      (hmarks : s.marks env nodes e = some (package, version, yanked)) :
      Advance env nodes s e c (c.mark package version yanked)
  | gain {i : ι} {host : Host} {fault : Option Site} {request : HttpRequest} {draft : PublishDraft}
      {archive : File} (he : e = .request i host fault (.publishRelease request))
      (hdraft : draftOf env host fault request = some draft)
      (harchive : draftArchive host draft = some archive) :
      Advance env nodes s e c (c ++ [draftEntry env draft archive])
  | same (hmarks : s.marks env nodes e = none)
      (hpublish : ∀ i host fault request, e = .request i host fault (.publishRelease request) →
        s.answer env nodes e ≠ 200) : Advance env nodes s e c c

/-- Whether the version is yanked after the events, by the last one that yanks or unyanks it. -/
def flagAfter (env : Environment) (nodes : ι → PlatformConfig) (package version : String) :
    List (StoreEvent ι) → StoreNodes ι → Bool → Bool
  | [], _, flag => flag
  | e :: l, s, flag =>
    flagAfter env nodes package version l (s.step env nodes e)
      (match s.marks env nodes e with
      | some (package', version', yanked) =>
        if package = package' ∧ version = version' then yanked else flag
      | none => flag)

/-- No entry is lost, and only the marks of its version change it. -/
theorem Advance.entry {c' : Catalogue} {x : CatalogueEntry} (h : Advance env nodes s e c c')
    (hx : x ∈ c) : ∃ y ∈ c', y.toListing = x.toListing ∧
      y.yanked = flagAfter env nodes x.package x.version [e] s x.yanked := by
  cases h with
  | @mark package version yanked hmarks =>
    refine ⟨_, List.mem_map.mpr ⟨x, hx, rfl⟩, ?_, ?_⟩
    · split <;> rfl
    · simp only [flagAfter, hmarks]
      by_cases hfor : IsFor package version x
      · rw [if_pos hfor]
        exact (if_pos hfor).symm
      · rw [if_neg hfor]
        exact (if_neg hfor).symm
  | gain he hdraft harchive =>
    subst he
    exact ⟨x, List.mem_append_left _ hx, rfl, rfl⟩
  | same hmarks hpublish =>
    refine ⟨x, hx, rfl, ?_⟩
    simp only [flagAfter, hmarks]

omit [DecidableEq ι] in
theorem Advance.length_le {c' : Catalogue} (h : Advance env nodes s e c c') :
    c'.length ≤ c.length + 1 := by
  cases h with
  | mark hmarks => simp
  | gain he hdraft harchive => simp
  | same hmarks hpublish => simp

end StoreNodes

end StyioPlatform.Registry
