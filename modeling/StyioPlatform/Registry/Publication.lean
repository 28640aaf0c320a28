import StyioPlatform.Registry.Effects

/-! Creating a publication: what a new publication directory holds, and that its id is fresh. -/
namespace StyioPlatform.Registry

open FileTree Prog

variable {env : Environment} {cfg : PlatformConfig} {host : Host} {fault : Option Site}
  {w w' : World} {sequence : ℕ} {generatedAt : String}

/-- The read plane of a tree. -/
def readPlane (t : Tree) : Tree := t.restrict inReadPlane

theorem get_readPlane {t : Tree} {p : Path} :
    (readPlane t).get p = if inReadPlane p then t.get p else none := rfl

theorem get_readPlane_of {t : Tree} {p : Path} (h : inReadPlane p = true) :
    (readPlane t).get p = t.get p := by simp [get_readPlane, h]

@[simp] theorem readPlane_empty : readPlane .empty = .empty := by
  ext p
  rw [get_readPlane, get_empty, ite_self]

theorem readPlane_ext {t u : Tree} (h : ∀ p, inReadPlane p = true → t.get p = u.get p) :
    readPlane t = readPlane u := by
  ext p
  rw [get_readPlane, get_readPlane]
  split
  · next hp => rw [h p hp]
  · rfl

/-- The read plane with the configuration that names its publication. -/
def publicationPlane (cfg : PlatformConfig) (t : Tree) (sequence : ℕ) (generatedAt : String) :
    Tree :=
  (readPlane t).put configPath (.json (.config (publicationConfig cfg sequence generatedAt)))

/-- The files of a new publication directory. -/
def publicationTree (env : Environment) (cfg : PlatformConfig) (t : Tree) (sequence : ℕ)
    (generatedAt : String) : Tree :=
  let plane := publicationPlane cfg t sequence generatedAt
  plane.put ["publication.json"]
    (.json (.publication (publicationManifest env plane sequence generatedAt)))

theorem wp_copyRegistryReadPlaneTo {source dest : Path} {Q : Unit → World → Prop}
    {E : Failure → World → Prop}
    (hok : (∀ copied, fault ≠ some (.copyReadPlane copied)) →
      ((w.root.get (source ++ configPath)).isSome) →
      Q () (w.setRoot (w.root.graft dest (readPlane (w.root.subtree source)))))
    (hfault : ∀ copied, fault = some (.copyReadPlane copied) → E (.fault (.copyReadPlane copied))
      (w.setRoot (w.root.graft dest
        ((readPlane (w.root.subtree source)).restrict (· ∈ copied)))))
    (hconfig : (∀ copied, fault ≠ some (.copyReadPlane copied)) →
      w.root.get (source ++ configPath) = none →
      E (.error "failed to copy registry publication config")
        (w.setRoot (w.root.graft dest (readPlane (w.root.subtree source))))) :
    wp (copyRegistryReadPlaneTo fault source dest) Q E w := by
  rw [copyRegistryReadPlaneTo, wp_bind, wp_rootTree]
  dsimp only
  split
  · next copied =>
    rw [wp_bind, wp_modifyRoot, wp_fail]
    exact hfault copied rfl
  · next hn =>
    rw [wp_bind, wp_modifyRoot, wp_require]
    have hget : ((w.root.subtree source).restrict inReadPlane).get ["config.json"] =
        w.root.get (source ++ configPath) := rfl
    rw [hget]
    exact ⟨hok hn, fun hc => hconfig hn (by simpa using hc)⟩

/-- What a completed `buildPublication` leaves. -/
structure Published (env : Environment) (cfg : PlatformConfig) (sequence : ℕ)
    (generatedAt : String) (w w' : World) (manifest : PublicationManifest) : Prop where
  manifest_eq : manifest =
    publicationManifest env (publicationPlane cfg w.root sequence generatedAt) sequence generatedAt
  fresh : w.root.isDirectory (publicationPath (publicationIdFor sequence)) = false
  changes : OnlyChanges
    (fun p => ["_tmp"] <+: p ∨ publicationPath (publicationIdFor sequence) <+: p) w w'
  publication : ∀ q, w.root.get (publicationPath (publicationIdFor sequence) ++ q) = none →
    w'.root.get (publicationPath (publicationIdFor sequence) ++ q) =
      (publicationTree env cfg w.root sequence generatedAt).get q
  tmp : (∀ q, w.root.get ("_tmp" :: q) = none) → ∀ q, w'.root.get ("_tmp" :: q) = none

/-- What `buildPublication` needs. -/
structure Publishable (sequence : ℕ) (t : Tree) : Prop where
  config : (t.get configPath).isSome
  rootFile : (t.get rootPath).isSome
  fresh : t.isDirectory (publicationPath (publicationIdFor sequence)) = false

theorem not_below_staged {id : String} {p : Path} (h : inReadPlane p = true) :
    ¬ stagedPublicationPath id <+: p := by
  rintro ⟨q, rfl⟩
  simp [stagedPublicationPath, inReadPlane, readPlaneEntries] at h

theorem subtree_put_append {t u : Tree} {pre p : Path} {f : File}
    (h : ∀ q, t.get (pre ++ q) = u.get q) : (t.put (pre ++ p) f).subtree pre = u.put p f := by
  ext q
  rw [get_subtree, get_put, get_put, h q]
  simp only [List.append_cancel_left_eq]

section staged

variable {t : Tree}

/-- The tree with the read plane copied to `_tmp/publications/<id>`. -/
def copiedTree (t : Tree) (sequence : ℕ) : Tree :=
  let staged := stagedPublicationPath (publicationIdFor sequence)
  (t.removeAll staged).graft staged (readPlane ((t.removeAll staged).subtree []))

/-- The tree before the rename: the publication is complete in `_tmp/publications/<id>`. -/
def stagedTree (env : Environment) (cfg : PlatformConfig) (t : Tree) (sequence : ℕ)
    (generatedAt : String) : Tree :=
  let staged := stagedPublicationPath (publicationIdFor sequence)
  let copied := (copiedTree t sequence).put (staged ++ configPath)
    (.json (.config (publicationConfig cfg sequence generatedAt)))
  copied.put (staged ++ ["publication.json"]) (.json (.publication
    (publicationManifest env (copied.subtree staged) sequence generatedAt)))

theorem agreeOff_copiedTree :
    AgreeOff (stagedPublicationPath (publicationIdFor sequence) <+: ·) t
      (copiedTree t sequence) :=
  (AgreeOff.refl.removeAll fun _ => id).graft fun q _ _ => List.prefix_append _ q

theorem agreeOff_stagedTree :
    AgreeOff (stagedPublicationPath (publicationIdFor sequence) <+: ·) t
      (stagedTree env cfg t sequence generatedAt) :=
  (agreeOff_copiedTree.put (List.prefix_append _ _)).put (List.prefix_append _ _)

theorem get_copiedTree {q : Path} :
    (copiedTree t sequence).get (stagedPublicationPath (publicationIdFor sequence) ++ q) =
      (readPlane t).get q := by
  rw [copiedTree, get_graft_append, get_removeAll_append, Option.or_none, subtree_nil,
    get_readPlane, get_readPlane]
  split
  · next hq => rw [get_removeAll_of_not_below (not_below_staged hq)]
  · rfl

theorem subtree_copiedTree_put :
    ((copiedTree t sequence).put (stagedPublicationPath (publicationIdFor sequence) ++ configPath)
      (.json (.config (publicationConfig cfg sequence generatedAt)))).subtree
        (stagedPublicationPath (publicationIdFor sequence)) =
      publicationPlane cfg t sequence generatedAt :=
  subtree_put_append fun _ => get_copiedTree

theorem get_stagedTree {q : Path} :
    (stagedTree env cfg t sequence generatedAt).get
      (stagedPublicationPath (publicationIdFor sequence) ++ q) =
        (publicationTree env cfg t sequence generatedAt).get q := by
  rw [← get_subtree, stagedTree, subtree_copiedTree_put, publicationTree]
  exact congrFun (congrArg FileTree.get (subtree_put_append fun q => by
    rw [← get_subtree, subtree_copiedTree_put])) q

theorem isDirectory_stagedTree {id : String} :
    (stagedTree env cfg t sequence generatedAt).isDirectory (publicationPath id) =
      t.isDirectory (publicationPath id) := by
  rw [Bool.eq_iff_iff, isDirectory_iff, isDirectory_iff]
  have hsame : ∀ q, (stagedTree env cfg t sequence generatedAt).get (publicationPath id ++ q) =
      t.get (publicationPath id ++ q) := by
    refine fun q => agreeOff_stagedTree _ ?_
    rintro ⟨r, hr⟩
    simp [publicationPath, stagedPublicationPath] at hr
  simp only [hsame]

/-- After the rename the publication directory holds the publication. -/
theorem get_renamed_final {q : Path}
    (hnone : t.get (publicationPath (publicationIdFor sequence) ++ q) = none) :
    ((stagedTree env cfg t sequence generatedAt).rename
      (stagedPublicationPath (publicationIdFor sequence))
      (publicationPath (publicationIdFor sequence))).get
        (publicationPath (publicationIdFor sequence) ++ q) =
      (publicationTree env cfg t sequence generatedAt).get q := by
  rw [get_rename_append, get_stagedTree, agreeOff_stagedTree, hnone, Option.or_none]
  all_goals
    rintro ⟨r, hr⟩
    simp [publicationPath, stagedPublicationPath] at hr

/-- The rename empties the staging place. -/
theorem get_renamed_tmp {q : Path} (htmp : ∀ q, t.get ("_tmp" :: q) = none) :
    ((stagedTree env cfg t sequence generatedAt).rename
      (stagedPublicationPath (publicationIdFor sequence))
      (publicationPath (publicationIdFor sequence))).get ("_tmp" :: q) = none := by
  have hfinal : ¬ publicationPath (publicationIdFor sequence) <+: "_tmp" :: q := by
    rintro ⟨r, hr⟩
    simp [publicationPath] at hr
  by_cases hs : stagedPublicationPath (publicationIdFor sequence) <+: "_tmp" :: q
  · obtain ⟨r, hr⟩ := hs
    rw [← hr] at hfinal ⊢
    exact get_rename_source hfinal
  · rw [get_rename_of_not_below hs hfinal, agreeOff_stagedTree _ hs, htmp]

end staged

theorem tmp_of_staged {id : String} {q : Path} (h : stagedPublicationPath id <+: q) :
    ["_tmp"] <+: q :=
  (List.prefix_append ["_tmp"] ["publications", id]).trans h

theorem wp_buildPublication :
    wp (buildPublication env cfg fault sequence generatedAt)
      (fun manifest w' => Published env cfg sequence generatedAt w w' manifest)
      (fun _ w' => OnlyChanges (["_tmp"] <+: ·) w w' ∧
        (fault = none → ¬ Publishable sequence w.root)) w := by
  let staged := stagedPublicationPath (publicationIdFor sequence)
  have hconfig : (w.root.removeAll staged).get ([] ++ configPath) = w.root.get configPath :=
    get_removeAll_of_not_below (not_below_staged (by decide))
  have hcopied : OnlyChanges (["_tmp"] <+: ·) w (w.setRoot (copiedTree w.root sequence)) :=
    OnlyChanges.refl.setRoot (agreeOff_copiedTree.mono fun _ => tmp_of_staged)
  have hstaged : ∀ f g, OnlyChanges (["_tmp"] <+: ·) w
      (((w.setRoot (copiedTree w.root sequence)).write (staged ++ configPath) f).write
        (staged ++ ["publication.json"]) g) := fun f g =>
    (hcopied.write (tmp_of_staged (List.prefix_append _ _))).write
      (tmp_of_staged (List.prefix_append _ _))
  rw [buildPublication, wp_bind, wp_modifyRoot, wp_bind]
  refine wp_copyRegistryReadPlaneTo (fun _ hc => ?_) (fun copied hf => ⟨?_, ?_⟩)
    (fun _ hn => ⟨hcopied, fun _ hready => ?_⟩)
  · simp only [wp_bind, wp_writeTextFile, wp_rootTree, wp_require, wp_failAt, wp_modifyRoot,
      wp_pure, World.write_root, World.setRoot_root]
    have hroot : (stagedTree env cfg w.root sequence generatedAt).get (staged ++ rootPath) =
        w.root.get rootPath := get_stagedTree.trans rfl
    refine ⟨fun hp => ⟨fun hd => ⟨fun hf => ⟨hstaged _ _, fun hn => ?_⟩,
      fun _ => ?_⟩, fun hd => ⟨hstaged _ _, fun _ hready => ?_⟩⟩,
      fun hp => ⟨hstaged _ _, fun _ hready => ?_⟩⟩
    · rw [hf] at hn
      cases hn
    · have hfresh := isDirectory_stagedTree.symm.trans hd
      exact
        { manifest_eq := by
            simp only [← subtree_copiedTree_put]
            rfl
          fresh := hfresh
          changes := ((hstaged _ _).mono fun _ => Or.inl).setRoot
            (AgreeOff.refl.rename (fun _ h => Or.inl (tmp_of_staged h)) fun _ => Or.inr)
          publication := fun q hq => get_renamed_final hq
          tmp := fun htmp q => get_renamed_tmp htmp }
    · exact hd (isDirectory_stagedTree.trans hready.fresh)
    · refine hp fun p hmem => ?_
      rcases List.mem_cons.mp hmem with rfl | hmem
      · exact Option.isSome_of_eq_some get_stagedTree
      · rcases List.mem_cons.mp hmem with rfl | hmem
        · exact hroot ▸ hready.rootFile
        · obtain rfl := List.mem_singleton.mp hmem
          exact Option.isSome_of_eq_some get_stagedTree
  · refine OnlyChanges.refl.setRoot ?_
    exact ((AgreeOff.refl.removeAll fun _ => tmp_of_staged).graft
      fun q _ _ => tmp_of_staged (List.prefix_append _ q))
  · intro hn
    rw [hf] at hn
    cases hn
  · have := hready.config
    rw [← hconfig] at this
    exact absurd (Option.isSome_iff_ne_none.mp this) (not_not.mpr hn)

end StyioPlatform.Registry
