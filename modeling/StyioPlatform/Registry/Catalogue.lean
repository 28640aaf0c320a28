import StyioPlatform.Registry.Immutability
import StyioPlatform.Registry.ReadAgreement

/-! The catalogue that a registry tree holds: its index files list the releases of a catalogue by
package, and its log has one leaf for each release, in the order of their publication. -/
namespace StyioPlatform.Registry

open FileTree Prog

variable {env : Environment} {cfg : PlatformConfig} {host : Host} {w w' : World} {t t' u : Tree}
  {package version : String} {draft : PublishDraft} {archive : File}

/-- What a catalogue says about a release. -/
structure CatalogueEntry extends Listing where
  yanked : Bool
  deriving DecidableEq

/-- The releases in the order of their publication. -/
abbrev Catalogue := List CatalogueEntry

namespace Catalogue

variable {c c' : Catalogue} {e e' : CatalogueEntry} {yanked : Bool}

/-- The entry belongs to the version of the package. -/
def IsFor (package version : String) (e : CatalogueEntry) : Prop :=
  e.package = package ∧ e.version = version

instance : DecidablePred (IsFor package version) := fun _ => inferInstanceAs (Decidable (_ ∧ _))

/-- A version is yanked or unyanked. -/
def mark (package version : String) (yanked : Bool) (c : Catalogue) : Catalogue :=
  c.map fun e => if IsFor package version e then { e with yanked } else e

/-- Each version of a package is in the catalogue once. -/
def Distinct (c : Catalogue) : Prop := (c.map fun e => (e.package, e.version)).Nodup

theorem map_mark {α : Type} {f : CatalogueEntry → α}
    (hf : ∀ (e : CatalogueEntry) yanked, f { e with yanked } = f e) :
    (c.mark package version yanked).map f = c.map f := by
  rw [mark, List.map_map]
  refine List.map_congr_left fun e _ => ?_
  simp only [Function.comp_apply]
  split
  · exact hf e yanked
  · rfl

@[simp] theorem length_mark : (c.mark package version yanked).length = c.length :=
  List.length_map _

theorem Distinct.mark (h : Distinct c) : Distinct (c.mark package version yanked) := by
  rw [Distinct, map_mark fun _ _ => rfl]
  exact h

theorem Distinct.append (h : Distinct c) (hnew : ∀ e' ∈ c, ¬ IsFor e.package e.version e') :
    Distinct (c ++ [e]) := by
  rw [Distinct, List.map_append, List.nodup_append]
  refine ⟨h, by simp, ?_⟩
  intro x hx y hy hxy
  obtain ⟨e', he', rfl⟩ := List.mem_map.mp hx
  rw [List.map_singleton, List.mem_singleton] at hy
  rw [hy, Prod.mk.injEq] at hxy
  exact hnew e' he' hxy

/-- The entries of one package after a mark. -/
theorem filter_mark {p : String} :
    (c.mark package version yanked).filter (fun e => decide (e.package = p)) =
      Catalogue.mark package version yanked (c.filter fun e => decide (e.package = p)) := by
  induction c with
  | nil => rfl
  | cons e c ih =>
    have hpackage : (if IsFor package version e then { e with yanked } else e).package =
        e.package := by split <;> rfl
    by_cases hp : e.package = p
    · rw [List.filter_cons_of_pos (by simpa using hp), mark, List.map_cons,
        List.filter_cons_of_pos (by simpa [hpackage] using hp)]
      exact congrArg _ ih
    · rw [List.filter_cons_of_neg (by simpa using hp), mark, List.map_cons,
        List.filter_cons_of_neg (by simpa [hpackage] using hp)]
      exact ih

/-- A mark of another package. -/
theorem mark_of_ne {c : Catalogue} (h : ∀ e ∈ c, e.package ≠ package) :
    c.mark package version yanked = c := by
  rw [mark]
  conv_rhs => rw [← List.map_id c]
  exact List.map_congr_left fun e he => if_neg fun hfor => h e he hfor.1

end Catalogue

open Catalogue

def ReleaseRecord.entry (r : ReleaseRecord) : CatalogueEntry where
  toListing := r.listing
  yanked := r.yanked

def LogLeaf.listing (leaf : LogLeaf) : Listing where
  package := leaf.package
  version := leaf.version
  sha256 := leaf.sourceArtifactSha256

/-- The entry of a new release. -/
def draftEntry (env : Environment) (draft : PublishDraft) (archive : File) : CatalogueEntry where
  package := draft.package
  version := draft.version
  sha256 := archive.sha256 env
  yanked := false

/-- The records in the index file of a package. -/
def indexRecords (t : Tree) (package : String) : List ReleaseRecord :=
  ((t.get (registryIndexPathForPackage package)).bind File.records).getD []

theorem indexRecords_of_get {records : List ReleaseRecord}
    (h : t.get (registryIndexPathForPackage package) = some (.jsonl records)) :
    indexRecords t package = records := by
  rw [indexRecords, h]
  rfl

theorem indexRecords_of_none (h : t.get (registryIndexPathForPackage package) = none) :
    indexRecords t package = [] := by
  rw [indexRecords, h]
  rfl

/-- The tree holds the catalogue. -/
structure Catalogued (env : Environment) (t : Tree) (c : Catalogue) : Prop where
  stocked : Stocked env t
  validName : ∀ e ∈ c, validatePackageName e.package = none
  records : ∀ package, validatePackageName package = none →
    (indexRecords t package).map ReleaseRecord.entry =
      c.filter fun e => decide (e.package = package)
  leaves : ∃ leaves, LeavesAre t leaves ∧
    leaves.map LogLeaf.listing = c.map CatalogueEntry.toListing
  distinct : Distinct c

namespace Catalogued

variable {c c' : Catalogue}

theorem empty : Catalogued env .empty [] where
  stocked := .empty
  validName := nofun
  records _ _ := rfl
  leaves := ⟨[], .empty, rfl⟩
  distinct := List.nodup_nil

/-- A stage that leaves index and log alone and removes no artifact. -/
theorem congr (h : Catalogued env t c) (hindex : ∀ p, isIndexPath p = true → t'.get p = t.get p)
    (hleaf : ∀ p, isLeafPath p = true → t'.get p = t.get p)
    (hartifact : ∀ sha f, t.get (artifactPath sha) = some f → t'.get (artifactPath sha) = some f) :
    Catalogued env t' c where
  stocked := h.stocked.congr hindex hartifact
  validName := h.validName
  records package hname := by
    rw [indexRecords, hindex _ (isIndexPath_registryIndexPath hname)]
    exact h.records package hname
  leaves := by
    obtain ⟨leaves, hleaves, heq⟩ := h.leaves
    exact ⟨leaves, hleaves.congr hleaf, heq⟩
  distinct := h.distinct

theorem length_leaves {leaves : List LogLeaf} (heq : leaves.map LogLeaf.listing =
    c.map CatalogueEntry.toListing) : leaves.length = c.length := by
  simpa using congrArg List.length heq

/-- The entries of a package are its records. -/
theorem mem_records {e : CatalogueEntry} (h : Catalogued env t c) (he : e ∈ c) :
    ∃ r ∈ indexRecords t e.package, r.entry = e := by
  have hmem : e ∈ (indexRecords t e.package).map ReleaseRecord.entry := by
    rw [h.records e.package (h.validName e he)]
    exact List.mem_filter.mpr ⟨he, by simp⟩
  exact List.mem_map.mp hmem

theorem get_index {records : List ReleaseRecord} (h : Catalogued env t c)
    (hname : validatePackageName package = none) (hrecords : indexRecords t package = records)
    (hne : records ≠ []) :
    t.get (registryIndexPathForPackage package) = some (.jsonl records) := by
  cases hget : t.get (registryIndexPathForPackage package) with
  | none => exact (hne (hrecords ▸ indexRecords_of_none hget)).elim
  | some f =>
    obtain ⟨records', rfl, -⟩ := h.stocked.get hname hget
    rw [← hrecords, indexRecords_of_get hget]

/-- A version that the index does not have is new to the catalogue. -/
theorem fresh (h : Catalogued env t c) (hfree : releaseExistsOnDisk t package version = false) :
    ∀ e ∈ c, ¬ IsFor package version e := by
  rintro e he ⟨rfl, rfl⟩
  obtain ⟨r, hr, hentry⟩ := h.mem_records he
  have hget := h.get_index (h.validName e he) rfl (List.ne_nil_of_mem hr)
  rw [releaseExistsOnDisk, hget] at hfree
  simp only [File.releaseLines, List.any_eq_false, jsonLineHasRelease, decide_eq_true_eq] at hfree
  exact hfree r hr ⟨congrArg (·.package) hentry, congrArg (·.version) hentry⟩

/-- A release is appended. -/
theorem append (h : Catalogued env w.root c)
    (ha : Appended env archive (buildReleaseRecord env draft host.now archive) w w')
    (hname : validatePackageName draft.package = none) (hversion : draft.version ≠ "")
    (hbound : c.length + 1 < 10 ^ 12) :
    Catalogued env w'.root (c ++ [draftEntry env draft archive]) := by
  obtain ⟨records, hold, hnew⟩ := ha.records h.stocked hname
  have hrecords : indexRecords w.root draft.package = records := by
    rcases hold with ⟨hget, -⟩ | ⟨hget, rfl⟩
    · exact indexRecords_of_get hget
    · exact indexRecords_of_none hget
  obtain ⟨leaves, hleaves, heq⟩ := h.leaves
  have hlength := length_leaves heq
  refine ⟨ha.stocked h.stocked hname hversion, fun e he => ?_, fun package hpackage => ?_,
    ⟨_, ha.leavesAre hleaves (by omega), ?_⟩, h.distinct.append (h.fresh ha.fresh)⟩
  · rcases List.mem_append.mp he with he | he
    · exact h.validName e he
    · rw [List.mem_singleton.mp he]
      exact hname
  · by_cases hsame : draft.package = package
    · subst hsame
      rw [indexRecords_of_get hnew, List.map_append, List.filter_append, ← hrecords,
        h.records _ hname, List.filter_cons_of_pos (by simp [draftEntry]), List.filter_nil]
      rfl
    · rw [List.filter_append, List.filter_cons_of_neg (by simp [draftEntry, hsame]),
        List.filter_nil, List.append_nil, ← h.records package hpackage, indexRecords, indexRecords,
        ha.changes.get]
      rintro (hpath | hpath | hpath)
      · exact artifactPath_ne_indexPath hpath.symm
      · exact hsame (registryIndexPath_injective hpackage hname hpath).symm
      · exact indexPath_ne_leafPath hpath
  · rw [List.map_append, List.map_append, heq]
    rfl

/-- The records of a version are yanked or unyanked. -/
theorem mark {records : List ReleaseRecord} {yanked : Bool} {reason yankedAt : String}
    (h : Catalogued env t c) (hname : validatePackageName package = none)
    (hget : t.get (registryIndexPathForPackage package) = some (.jsonl records)) :
    Catalogued env (t.put (registryIndexPathForPackage package)
      (.jsonl (yankRecords version yanked reason yankedAt records)))
      (c.mark package version yanked) := by
  obtain ⟨records', heq, hpackage⟩ := h.stocked.get hname hget
  obtain rfl : records = records' := by simpa using heq
  have hartifact : ∀ f sha g, t.get (artifactPath sha) = some g →
      (t.put (registryIndexPathForPackage package) f).get (artifactPath sha) = some g :=
    fun f sha g hg => (get_put_of_ne artifactPath_ne_indexPath).trans hg
  refine ⟨?_, fun e he => ?_, fun package' hname' => ?_, ?_, h.distinct.mark⟩
  · exact h.stocked.rewrite (hpackage.yank.of_artifacts (hartifact _)) get_put_self
      (fun p _ hne => get_put_of_ne hne) (hartifact _)
  · obtain ⟨e', he', rfl⟩ := List.mem_map.mp he
    have := h.validName e' he'
    split <;> exact this
  · rw [filter_mark, ← h.records package' hname']
    by_cases hsame : package' = package
    · subst hsame
      rw [indexRecords_of_get get_put_self, indexRecords_of_get hget, yankRecords, Catalogue.mark,
        List.map_map, List.map_map]
      refine List.map_congr_left fun r hr => ?_
      have hfor : IsFor package' version r.entry ↔ r.version = version :=
        ⟨fun hfor => hfor.2, fun hversion => ⟨hpackage.package_eq r hr, hversion⟩⟩
      simp only [Function.comp_apply, hfor]
      split <;> rfl
    · have hpath : registryIndexPathForPackage package' ≠ registryIndexPathForPackage package :=
        fun heq => hsame (registryIndexPath_injective hname' hname heq)
      rw [mark_of_ne, indexRecords, indexRecords, get_put_of_ne hpath]
      intro e he
      rw [h.records package' hname', List.mem_filter] at he
      rw [of_decide_eq_true he.2]
      exact hsame
  · obtain ⟨leaves, hleaves, hlistings⟩ := h.leaves
    refine ⟨leaves, hleaves.congr fun p hp => get_put_of_ne ?_, ?_⟩
    · rintro rfl
      rw [isLeafPath_registryIndexPath] at hp
      cases hp
    · rw [hlistings, map_mark fun _ _ => rfl]

/-- Where the tree with the later catalogue has no file, neither has that with the earlier one. -/
theorem get_none (h : Catalogued env t c) (h' : Catalogued env t' c')
    (hgrown : c.map CatalogueEntry.toListing <+: c'.map CatalogueEntry.toListing) {p : Path}
    (hp : isIndexPath p = true ∨ isLeafPath p = true) (hnone : t'.get p = none) :
    t.get p = none := by
  by_contra hsome
  obtain ⟨f, hf⟩ := Option.ne_none_iff_exists'.mp hsome
  rcases hp with hp | hp
  · obtain ⟨package, records, rfl, rfl, hpackage⟩ := h.stocked p f hp hf
    obtain ⟨r, rest, rfl⟩ := List.exists_cons_of_ne_nil hpackage.ne_nil
    have hmem : r.entry ∈ c.filter fun e => decide (e.package = package) := by
      rw [← h.records package hpackage.validName, indexRecords_of_get hf]
      exact List.mem_map.mpr ⟨r, List.mem_cons_self, rfl⟩
    have hlisting := hgrown.subset (List.mem_map.mpr ⟨_, List.mem_of_mem_filter hmem, rfl⟩)
    obtain ⟨e, he, heq⟩ := List.mem_map.mp hlisting
    obtain ⟨r', hr', -⟩ := h'.mem_records he
    have hpackage' : e.package = package := by
      rw [show e.package = r.package from congrArg (·.package) heq]
      exact hpackage.package_eq r List.mem_cons_self
    rw [hpackage', indexRecords_of_none hnone] at hr'
    cases hr'
  · obtain ⟨leaves, hleaves, heq⟩ := h.leaves
    obtain ⟨leaves', hleaves', heq'⟩ := h'.leaves
    obtain ⟨i, hi, rfl⟩ := hleaves.only p f hp hf
    have hle : leaves.length ≤ leaves'.length := by
      rw [length_leaves heq, length_leaves heq']
      simpa using hgrown.length_le
    rw [hleaves'.get i _ (List.getElem?_eq_getElem (by omega))] at hnone
    cases hnone

/-- The files of a tree are put over those of a tree with an earlier catalogue. -/
theorem graft (h : Catalogued env t c) (h' : Catalogued env t' c')
    (hgrown : c.map CatalogueEntry.toListing <+: c'.map CatalogueEntry.toListing)
    {keep : Path → Bool} (hkeep : ∀ p, inReadPlane p = true → keep p = true) :
    Catalogued env (t.graft [] (t'.restrict keep)) c' := by
  have hget : ∀ p, isIndexPath p = true ∨ isLeafPath p = true →
      (t.graft [] (t'.restrict keep)).get p = t'.get p := by
    intro p hp
    have hplane : inReadPlane p = true := by
      rcases hp with hp | hp
      · exact inReadPlane_of_isIndexPath hp
      · exact inReadPlane_of_isLeafPath hp
    rw [get_graft_nil, get_restrict, if_pos (hkeep p hplane)]
    cases hget : t'.get p with
    | none => exact h.get_none h' hgrown hp hget
    | some f => rfl
  refine h'.congr (fun p hp => hget p (Or.inl hp)) (fun p hp => hget p (Or.inr hp))
    fun sha f hf => ?_
  rw [get_graft_nil, get_restrict, if_pos (hkeep _ rfl), hf]
  rfl

end Catalogued

end StyioPlatform.Registry
