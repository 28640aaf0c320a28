import StyioPlatform.Registry.Requests

/-! Which publication an id leads to. An id is followed as a path, so it may go through other
directories; it keeps its meaning while no directory outside the read plane disappears, and every
manifest that names a repository version is that of a numbered publication. -/
namespace StyioPlatform.Registry

open FileTree Prog

variable {env : Environment} {cfg : PlatformConfig} {host : Host} {w w' : World} {t t' : Tree}
  {n k : ℕ} {id : String}

theorem walk_mono {directory directory' : Path → Bool}
    (h : ∀ p, directory p = true → directory' p = true) {names : List String} {p q : Path}
    (hw : walk directory names p = some q) : walk directory' names p = some q := by
  fun_induction walk directory names p with
  | case1 p => exact hw
  | case2 p name rest hname ih => rw [walk, if_pos hname]; exact ih hw
  | case3 p rest hname ih => rw [walk, if_neg hname, if_pos rfl]; exact ih hw
  | case4 p name rest hname hup hdir ih =>
    rw [walk, if_neg hname, if_neg hup, if_pos (h _ hdir)]
    exact ih hw
  | case5 p name rest hname hup hdir => cases hw

theorem publicationRoot_mono (h : ∀ p, t.isDirectory p = true → t'.isDirectory p = true)
    {p : Path} (hp : publicationRoot cfg t id = some p) : publicationRoot cfg t' id = some p := by
  have hhost : ∀ p, hostDirectory cfg t p = true → hostDirectory cfg t' p = true := by
    intro p hp
    simp only [hostDirectory, Bool.or_eq_true, Bool.and_eq_true] at hp ⊢
    exact hp.imp_right fun hp => ⟨hp.1, h _ hp.2⟩
  obtain ⟨q, hq, hroot⟩ := Option.bind_eq_some_iff.mp hp
  refine Option.bind_eq_some_iff.mpr ⟨q, ?_, hroot⟩
  split at hq
  · next habs =>
    rw [if_pos habs]
    exact walk_mono hhost hq
  · next habs =>
    rw [if_neg habs]
    exact walk_mono hhost hq

theorem not_mem_publicationIdFor {c : Char} (hc : c ∉ ['p', 'u', 'b', '-'])
    (hdigit : c.isDigit = false) : c ∉ (publicationIdFor k).toList := by
  rw [publicationIdFor_toList]
  intro h
  simp only [List.mem_cons, List.not_mem_nil, or_false, not_or] at hc
  have : c ∈ paddedDigits 6 k := by simpa [hc] using h
  rw [isDigit_of_mem_paddedDigits this] at hdigit
  cases hdigit

/-- The id of a publication leads to its directory. -/
theorem publicationRoot_publicationIdFor
    (h : t.isDirectory (publicationPath (publicationIdFor k)) = true) :
    publicationRoot cfg t (publicationIdFor k) = some (publicationPath (publicationIdFor k)) := by
  have hsplit : ((publicationIdFor k).toList.splitOn '/').map String.ofList =
      [publicationIdFor k] := by
    rw [List.splitOn_eq_singleton (not_mem_publicationIdFor (by decide) (by decide)), List.map_cons,
      List.map_nil, String.ofList_toList]
  have habs : ¬ (publicationIdFor k).toList.head? = some '/' := by
    rw [publicationIdFor_toList]
    simp
  have hname : ∀ s : String, s.toList.head? ≠ some 'p' → publicationIdFor k ≠ s := by
    rintro s hs rfl
    exact hs (by rw [publicationIdFor_toList]; rfl)
  have hempty := hname "" (by simp)
  have hdot := hname "." (by simp)
  have hup := hname ".." (by simp)
  have hparent : t.isDirectory ["_publications"] = true := by
    obtain ⟨q, f, -, hf⟩ := isDirectory_iff.mp h
    exact isDirectory_iff.mpr ⟨publicationIdFor k :: q, f, by simp, hf⟩
  have hdirectory : ∀ p, t.isDirectory p = true →
      hostDirectory cfg t (cfg.registryRoot ++ p) = true := by
    intro p hp
    simp [hostDirectory, hp]
  simp only [publicationRoot, hsplit, if_neg habs]
  have hwalk : walk (hostDirectory cfg t) ["_publications", publicationIdFor k] cfg.registryRoot =
      some (cfg.registryRoot ++ publicationPath (publicationIdFor k)) := by
    rw [walk, if_neg (by decide), if_neg (by decide), if_pos (hdirectory _ hparent), walk,
      if_neg (not_or.mpr ⟨hempty, hdot⟩), if_neg hup, if_pos, walk]
    · simp [publicationPath]
    · rw [List.append_assoc]
      exact hdirectory _ h
  rw [hwalk]
  simp

/-- The id leads to the publication with the number, also while the read plane is removed. -/
def Resolves (cfg : PlatformConfig) (t : Tree) (id : String) (k : ℕ) : Prop :=
  publicationRoot cfg (cleared t) id = some (publicationPath (publicationIdFor k))

/-- No directory outside the read plane disappears. -/
def KeepsDirectories (t t' : Tree) : Prop :=
  ∀ p, inReadPlane p = false → (t.get p).isSome → (t'.get p).isSome

theorem KeepsDirectories.trans {t'' : Tree} (h : KeepsDirectories t t')
    (h' : KeepsDirectories t' t'') : KeepsDirectories t t'' := fun p hp hs => h' p hp (h p hp hs)

theorem KeepsDirectories.of_agreeOff {S : Path → Prop} (h : AgreeOff S t t')
    (hS : ∀ p, S p → inReadPlane p = false → (t.get p).isSome → (t'.get p).isSome) :
    KeepsDirectories t t' := by
  intro p hp hs
  by_cases hSp : S p
  · exact hS p hSp hp hs
  · rwa [h p hSp]

theorem isDirectory_cleared {p : Path} (h : KeepsDirectories t t')
    (hp : (cleared t).isDirectory p = true) : (cleared t').isDirectory p = true := by
  refine isDirectory_mono (fun q hq => ?_) hp
  rw [get_cleared] at hq ⊢
  cases hplane : inReadPlane q with
  | true => simp [hplane] at hq
  | false =>
    simp only [hplane] at hq ⊢
    exact h q hplane hq

theorem isDirectory_of_cleared {p : Path} (hp : (cleared t).isDirectory p = true) :
    t.isDirectory p = true := by
  refine isDirectory_mono (fun q hq => ?_) hp
  rw [get_cleared] at hq
  split at hq
  · cases hq
  · exact hq

namespace Resolves

theorem mono (h : Resolves cfg t id k) (hd : KeepsDirectories t t') : Resolves cfg t' id k :=
  publicationRoot_mono (fun _ => isDirectory_cleared hd) h

theorem injective {j : ℕ} (h : Resolves cfg t id k) (h' : Resolves cfg t id j) : k = j := by
  have heq := Option.some.inj (h.symm.trans h')
  simp only [publicationPath, List.cons.injEq, and_true, true_and] at heq
  exact publicationIdFor_injective heq

theorem publicationIdFor (h : t.isDirectory (publicationPath (publicationIdFor k)) = true) :
    Resolves cfg t (Registry.publicationIdFor k) k := by
  refine publicationRoot_publicationIdFor ?_
  obtain ⟨q, f, hq, hf⟩ := isDirectory_iff.mp h
  refine isDirectory_iff.mpr ⟨q, f, hq, ?_⟩
  rw [get_cleared, if_neg (by simp [publicationPath, inReadPlane, readPlaneEntries]), hf]

/-- The empty id leads to `_publications` itself. -/
theorem ne_empty (h : Resolves cfg t id k) : id ≠ "" := by
  rintro rfl
  have hne : ∀ p, walk (hostDirectory cfg (cleared t)) ["_publications", ""] cfg.registryRoot =
      some p → p = cfg.registryRoot ++ ["_publications"] := by
    intro p hp
    rw [walk, if_neg (by decide), if_neg (by decide)] at hp
    split at hp
    · rw [walk, if_pos (Or.inl rfl), walk] at hp
      exact (Option.some.inj hp).symm
    · cases hp
  obtain ⟨p, hp, hroot⟩ := Option.bind_eq_some_iff.mp h
  rw [if_neg (by simp)] at hp
  obtain rfl := hne p hp
  simp [publicationPath] at hroot

end Resolves

/-- The file is a document with the field `repository_version_id`. -/
def NamesVersion (f : File) : Prop := ∃ d v, f.parse = some d ∧ d.repositoryVersionId = some v

/-- Manifests that name a repository version are those of publications. -/
def ManifestsInPlace (t : Tree) : Prop := ∀ p f, t.get (p ++ ["publication.json"]) = some f →
  NamesVersion f → ∃ k, p = publicationPath (publicationIdFor k)

theorem not_namesVersion_signedFile {role : RegistryRole} {p : SignedPayload} :
    ¬ NamesVersion (signedFile env cfg role p) := by
  rintro ⟨d, v, hd, hv⟩
  cases hd
  cases hv

theorem ManifestsInPlace.of_agreeOff {S : Path → Prop} (h : ManifestsInPlace t)
    (hc : AgreeOff S t t') (hS : ∀ p f, S (p ++ ["publication.json"]) →
      t'.get (p ++ ["publication.json"]) = some f → NamesVersion f →
      ∃ k, p = publicationPath (publicationIdFor k)) : ManifestsInPlace t' := by
  intro p f hf hv
  by_cases hp : S (p ++ ["publication.json"])
  · exact hS p f hp hf hv
  · exact h p f (hc _ hp ▸ hf) hv

/-- A stage that writes no file of that name. -/
theorem ManifestsInPlace.of_names {S : Path → Prop} (h : ManifestsInPlace t)
    (hc : AgreeOff S t t') (hS : ∀ p, S p → p.getLast? ≠ some "publication.json") :
    ManifestsInPlace t' :=
  h.of_agreeOff hc fun _ _ hp => (hS _ hp (by simp)).elim

end StyioPlatform.Registry
