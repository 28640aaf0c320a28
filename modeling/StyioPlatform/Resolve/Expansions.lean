import Mathlib.Algebra.GroupWithZero.Nat
import StyioPlatform.Lib.Prog
import StyioPlatform.Resolve.Correctness

/-! How often the resolver calls itself: every call that goes on adds a package name that was not
known before. -/
namespace StyioPlatform.Resolve

open Manifest Prog

/-- A call of `ResolveNode` that adds a node, inside of `depth` others of the kind. -/
structure Expansion where
  depth : ℕ
  package : PackageConfig

/-- The calls of `ResolveNode` so far. -/
structure Trace where
  calls : ℕ := 0
  expansions : List Expansion := []

def Trace.call (t : Trace) : Trace := { t with calls := t.calls + 1 }

def Trace.expand (t : Trace) (e : Expansion) : Trace := { t with expansions := t.expansions ++ [e] }

/-- The package that a call adds to the graph, if it does. -/
def addedPackage (w : World) (g : Graph) (selected : ManifestSelection) : Option PackageConfig :=
  match getKey g.nodeBySourceFingerprint selected.fingerprint, selected.loadPackage w with
  | none, .ok package =>
    match getKey g.nodeByPackageName package.name with
    | none => some package
    | some _ => none
  | _, _ => none

section Traced

variable (w : World) (topLevelWorkspaceDirs : List String)

/-- `resolveDependency`, with the calls that it makes. -/
def traceDependency (resolve : Graph → ManifestSelection → Prog Stop Trace (ℕ × Graph))
    (node : Entry) (state : Graph × List ResolvedDependencyAlias) (dependency : Dependency) :
    Prog Stop Trace (Graph × List ResolvedDependencyAlias) := do
  let selected ← ofExcept (attempt
    (selectDependency w topLevelWorkspaceDirs node.packageDir node.origin dependency))
  let found ← resolve state.1 selected
  ofExcept (resolveDependency w topLevelWorkspaceDirs (fun _ _ => .ok found) node state dependency)

/-- `resolveNode`, with the calls that it makes. -/
def traceNode : ℕ → ℕ → Graph → ManifestSelection → Prog Stop Trace (ℕ × Graph)
  | 0, _, _, _ => fail .exhausted
  | depth + 1, level, g, selected => do
    modify Trace.call
    match addedPackage w g selected with
    | none => ofExcept (resolveNode w topLevelWorkspaceDirs 1 g selected)
    | some package => do
      modify fun t => t.expand ⟨level, package⟩
      let node := selected.entry package
      let (g', aliases) ← (collectDependencies package).foldlM
        (traceDependency w topLevelWorkspaceDirs (traceNode depth (level + 1)) node)
        (g.push node, [])
      return (g.nodes.length, g'.finish g.nodes.length aliases)

/-- `resolveSeed`, with the calls that it makes. -/
def traceSeed (depth : ℕ) (state : Graph × List String) (seed : ManifestSelection) :
    Prog Stop Trace (Graph × List String) := do
  let found ← traceNode w topLevelWorkspaceDirs depth 0 state.1 seed
  ofExcept (match found.2.nodes[found.1]? with
    | none => attempt (.error .missing)
    | some node => .ok (found.2, state.2 ++ [node.id]))

end Traced

/-- `resolveSingleVersionGraph`, with the calls that it makes. The result is made of the graph
without further ones. -/
def traceSingleVersionGraph (w : World) (manifestPath : Path) :
    Prog Stop Trace ResolvedGraphResult := do
  let rootManifestPath := canonicalAbsolutePath manifestPath
  let seeds ← ofExcept (attempt (buildRootSeeds w rootManifestPath))
  let _ ← seeds.selections.foldlM (traceSeed w seeds.topLevelWorkspaceDirs (w.names.card + 1))
    (Graph.empty, [])
  ofExcept (resolveGraph w rootManifestPath seeds)

variable {w : World} {seeds : RootSeeds} {dirs : List String} {g g' : Graph}
  {selected : ManifestSelection} {package : PackageConfig} {node : Entry} {depth level : ℕ}
  {dependency : Dependency} {state : Graph × List ResolvedDependencyAlias}

section Erasure

/-- Without the calls inside, a call that adds nothing does what it does at any depth. -/
theorem resolveNode_of_not_added (h : addedPackage w g selected = none) :
    resolveNode w dirs 1 g selected = resolveNode w dirs (depth + 1) g selected := by
  rw [addedPackage] at h
  rw [resolveNode, resolveNode]
  cases hfingerprint : getKey g.nodeBySourceFingerprint selected.fingerprint with
  | some index => rfl
  | none =>
    cases hload : selected.loadPackage w with
    | error e => rfl
    | ok package =>
      rw [hfingerprint, hload] at h
      dsimp only at h
      cases hname : getKey g.nodeByPackageName package.name with
      | some index => simp only [attempt, Except.mapError, bind, Except.bind, hname]
      | none =>
        rw [hname] at h
        cases h

theorem addedPackage_eq_some (h : addedPackage w g selected = some package) :
    getKey g.nodeBySourceFingerprint selected.fingerprint = none ∧
      selected.loadPackage w = .ok package ∧ getKey g.nodeByPackageName package.name = none := by
  rw [addedPackage] at h
  cases hfingerprint : getKey g.nodeBySourceFingerprint selected.fingerprint with
  | some index =>
    rw [hfingerprint] at h
    cases h
  | none =>
    cases hload : selected.loadPackage w with
    | error e =>
      rw [hfingerprint, hload] at h
      cases h
    | ok package' =>
      rw [hfingerprint, hload] at h
      dsimp only at h
      cases hname : getKey g.nodeByPackageName package'.name with
      | some index =>
        rw [hname] at h
        cases h
      | none =>
        rw [hname] at h
        cases h
        exact ⟨rfl, rfl, hname⟩

theorem resolveNode_of_added (h : addedPackage w g selected = some package) :
    resolveNode w dirs (depth + 1) g selected =
      ((collectDependencies package).foldlM
        (resolveDependency w dirs (resolveNode w dirs depth) (selected.entry package))
        (g.push (selected.entry package), []) >>= fun x =>
          .ok (g.nodes.length, x.1.finish g.nodes.length x.2)) := by
  obtain ⟨hfingerprint, hload, hname⟩ := addedPackage_eq_some h
  rw [resolveNode, hfingerprint, hload]
  simp only [attempt, Except.mapError, bind, Except.bind, hname]

theorem computes_traceDependency {trace : Graph → ManifestSelection → Prog Stop Trace (ℕ × Graph)}
    {resolve : Graph → ManifestSelection → Except Stop (ℕ × Graph)}
    (h : ∀ g s, Computes (trace g s) (resolve g s)) :
    Computes (traceDependency w dirs trace node state dependency)
      (resolveDependency w dirs resolve node state dependency) := by
  have hsplit : resolveDependency w dirs resolve node state dependency =
      (attempt (selectDependency w dirs node.packageDir node.origin dependency) >>= fun selected =>
        resolve state.1 selected >>= fun found =>
          resolveDependency w dirs (fun _ _ => .ok found) node state dependency) := by
    unfold resolveDependency
    cases attempt (selectDependency w dirs node.packageDir node.origin dependency) with
    | error e => rfl
    | ok selected =>
      cases hfound : resolve state.1 selected with
      | error e => simp only [bind, Except.bind, hfound]
      | ok found => simp only [bind, Except.bind, hfound]
  rw [hsplit]
  exact computes_ofExcept.bind fun selected =>
    (h state.1 selected).bind fun found => computes_ofExcept

theorem computes_traceNode :
    Computes (traceNode w dirs depth level g selected) (resolveNode w dirs depth g selected) := by
  induction depth generalizing level g selected with
  | zero => exact computes_fail
  | succ depth ih =>
    rw [traceNode]
    refine Computes.after_modify ?_
    cases hadded : addedPackage w g selected with
    | none =>
      have hsame : resolveNode w dirs 1 g selected = resolveNode w dirs (depth + 1) g selected :=
        resolveNode_of_not_added hadded
      rw [← hsame]
      exact computes_ofExcept
    | some package =>
      dsimp only
      rw [resolveNode_of_added hadded]
      refine Computes.after_modify ?_
      refine (computes_foldlM fun state dependency => ?_).bind fun x => computes_pure
      exact computes_traceDependency fun g s => ih

theorem computes_traceSeed {state : Graph × List String} :
    Computes (traceSeed w dirs depth state selected) (resolveSeed w dirs depth state selected) :=
  computes_traceNode.bind fun _ => computes_ofExcept

theorem computes_traceSingleVersionGraph {manifestPath : Path} :
    Computes (traceSingleVersionGraph w manifestPath) (resolveSingleVersionGraph w manifestPath) := by
  have hresult : ∀ root seeds, resolveGraph w root seeds =
      (seeds.selections.foldlM (resolveSeed w seeds.topLevelWorkspaceDirs (w.names.card + 1))
        (Graph.empty, []) >>= fun _ => resolveGraph w root seeds) := by
    intro root seeds
    cases hfold : seeds.selections.foldlM
        (resolveSeed w seeds.topLevelWorkspaceDirs (w.names.card + 1)) (Graph.empty, []) with
    | error e =>
      rw [resolveGraph, hfold]
      rfl
    | ok x => rfl
  have hsearch : resolveSingleVersionGraph w manifestPath =
      (attempt (buildRootSeeds w (canonicalAbsolutePath manifestPath)) >>= fun seeds =>
        seeds.selections.foldlM (resolveSeed w seeds.topLevelWorkspaceDirs (w.names.card + 1))
          (Graph.empty, []) >>= fun _ => resolveGraph w (canonicalAbsolutePath manifestPath) seeds) := by
    rw [resolveSingleVersionGraph]
    congr 1
    funext seeds
    exact hresult _ seeds
  rw [hsearch]
  exact computes_ofExcept.bind fun seeds =>
    (computes_foldlM fun _ _ => computes_traceSeed).bind fun _ => computes_ofExcept

end Erasure

section Growth

/-- The names of the packages of a graph. -/
def Graph.names (g : Graph) : List String := g.entries.map (·.package.name)

/-- The calls that the expansions make for their dependencies. -/
def dependencyCalls (expansions : List Expansion) : ℕ :=
  (expansions.map fun e => (collectDependencies e.package).length).sum

/-- From a graph, the resolver has made the expansions, each of a name that was not known, and as
many calls as these and the budget allow. -/
structure Grows (w : World) (g : Graph) (budget : ℕ) (new : List Expansion) (t t' : Trace) :
    Prop where
  expansions : t'.expansions = t.expansions ++ new
  nodup : (new.map (·.package.name)).Nodup
  unknown : ∀ e ∈ new, e.package.name ∉ g.names
  names : ∀ e ∈ new, e.package.name ∈ w.names
  depth : ∀ e ∈ new, e.depth < w.names.card
  calls : t'.calls ≤ t.calls + budget + dependencyCalls new

variable {t t' t'' : Trace} {budget budget' : ℕ} {new new' : List Expansion}

theorem Grows.refl : Grows w g budget [] t t where
  expansions := by simp
  nodup := List.nodup_nil
  unknown := nofun
  names := nofun
  depth := nofun
  calls := by simp [dependencyCalls]

theorem Grows.mono (h : Grows w g budget new t t') (hbudget : budget ≤ budget') :
    Grows w g budget' new t t' :=
  { h with calls := by have := h.calls; omega }

theorem Grows.trans (h : Grows w g budget new t t') (h' : Grows w g' budget' new' t' t'')
    (hkept : ∀ name ∈ g.names, name ∈ g'.names) (hknown : ∀ e ∈ new, e.package.name ∈ g'.names) :
    Grows w g (budget + budget') (new ++ new') t t'' where
  expansions := by rw [h'.expansions, h.expansions, List.append_assoc]
  nodup := by
    rw [List.map_append, List.nodup_append]
    refine ⟨h.nodup, h'.nodup, ?_⟩
    intro name hname name' hname' heq
    obtain ⟨e, he, rfl⟩ := List.mem_map.mp hname
    obtain ⟨e', he', rfl⟩ := List.mem_map.mp hname'
    exact h'.unknown e' he' (heq ▸ hknown e he)
  unknown e he := by
    rcases List.mem_append.mp he with he | he
    · exact h.unknown e he
    · exact fun hmem => h'.unknown e he (hkept _ hmem)
  names e he := by
    rcases List.mem_append.mp he with he | he
    · exact h.names e he
    · exact h'.names e he
  depth e he := by
    rcases List.mem_append.mp he with he | he
    · exact h.depth e he
    · exact h'.depth e he
  calls := by
    have hfirst := h.calls
    have hsecond := h'.calls
    rw [dependencyCalls, List.map_append, List.sum_append]
    rw [dependencyCalls] at hfirst hsecond
    omega

theorem names_push : (g.push node).names = g.names ++ [node.package.name] := by
  simp [Graph.names, Graph.entries_push]

theorem names_finish {index : ℕ} {aliases : List ResolvedDependencyAlias} :
    (g.finish index aliases).names = g.names := by
  rw [Graph.names, Graph.entries_finish, Graph.names]

theorem names_subset (h : g.nodes <+: g'.nodes) : ∀ name ∈ g.names, name ∈ g'.names := by
  intro name hname
  obtain ⟨e, he, rfl⟩ := List.mem_map.mp hname
  exact List.mem_map_of_mem (entries_subset h e he)

/-- The name of a package that is added was not known. -/
theorem Sound.not_mem_names (h : Sound w seeds g)
    (hname : getKey g.nodeByPackageName package.name = none) : package.name ∉ g.names := by
  intro hmem
  obtain ⟨e, he, heq⟩ := List.mem_map.mp hmem
  obtain ⟨i, hi⟩ := List.mem_iff_getElem?.mp he
  have hsome := (h.byName package.name i).mpr ⟨e, hi, heq⟩
  rw [hname] at hsome
  cases hsome

/-- The call itself, before the calls for its dependencies. -/
theorem Grows.expand (h : Grows w (g.push (selected.entry package))
      (collectDependencies package).length new (t.call.expand ⟨level, package⟩) t')
    (hunknown : package.name ∉ g.names) (hname : package.name ∈ w.names)
    (hlevel : level < w.names.card) : Grows w g 1 (⟨level, package⟩ :: new) t t' := by
  have hnames : (g.push (selected.entry package)).names = g.names ++ [package.name] := names_push
  have hnew : ∀ e ∈ new, e.package.name ∉ g.names ∧ e.package.name ≠ package.name := by
    intro e he
    have hnot := h.unknown e he
    rw [hnames, List.mem_append, List.mem_singleton, not_or] at hnot
    exact hnot
  refine ⟨?_, ?_, ?_, ?_, ?_, ?_⟩
  · rw [h.expansions, Trace.expand, Trace.call]
    simp
  · rw [List.map_cons, List.nodup_cons]
    refine ⟨fun hmem => ?_, h.nodup⟩
    obtain ⟨e, he, heq⟩ := List.mem_map.mp hmem
    exact (hnew e he).2 heq
  · intro e he
    rcases List.mem_cons.mp he with rfl | he
    · exact hunknown
    · exact (hnew e he).1
  · intro e he
    rcases List.mem_cons.mp he with rfl | he
    · exact hname
    · exact h.names e he
  · intro e he
    rcases List.mem_cons.mp he with rfl | he
    · exact hlevel
    · exact h.depth e he
  · have hcalls := h.calls
    simp only [Trace.expand, Trace.call] at hcalls
    simp only [dependencyCalls, List.map_cons, List.sum_cons] at hcalls ⊢
    omega

/-- What a part of the search leaves: its expansions, which the graph knows then. -/
def Leaves (w : World) (g : Graph) (budget : ℕ) (t : Trace) (g' : Graph) (t' : Trace) : Prop :=
  ∃ new, Grows w g budget new t t' ∧ ∀ e ∈ new, e.package.name ∈ g'.names

/-- What a part of the search leaves that stops. -/
def Stops (w : World) (g : Graph) (budget : ℕ) (t t' : Trace) : Prop :=
  ∃ new, Grows w g budget new t t'

theorem Leaves.trans (h : Leaves w g budget t g' t') {g₁ : Graph}
    (h' : Leaves w g' budget' t' g₁ t'') (hkept : g.nodes <+: g'.nodes)
    (hkept' : g'.nodes <+: g₁.nodes) : Leaves w g (budget + budget') t g₁ t'' := by
  obtain ⟨new, hnew, hknown⟩ := h
  obtain ⟨new', hnew', hknown'⟩ := h'
  refine ⟨new ++ new', hnew.trans hnew' (names_subset hkept) hknown, ?_⟩
  intro e he
  rcases List.mem_append.mp he with he | he
  · exact names_subset hkept' _ (hknown e he)
  · exact hknown' e he

theorem Leaves.stops (h : Leaves w g budget t g' t') (h' : Stops w g' budget' t' t'')
    (hkept : g.nodes <+: g'.nodes) : Stops w g (budget + budget') t t'' := by
  obtain ⟨new, hnew, hknown⟩ := h
  obtain ⟨new', hnew'⟩ := h'
  exact ⟨new ++ new', hnew.trans hnew' (names_subset hkept) hknown⟩

theorem Leaves.stops_of_le (h : Leaves w g budget t g' t') (hbudget : budget ≤ budget') :
    Stops w g budget' t t' := by
  obtain ⟨new, hnew, -⟩ := h
  exact ⟨new, hnew.mono hbudget⟩

/-- A round of the loop leaves the graph of the call in it. -/
theorem graph_of_resolveDependency {found : ℕ × Graph}
    {state' : Graph × List ResolvedDependencyAlias}
    (h : resolveDependency w dirs (fun _ _ => .ok found) node state dependency = .ok state') :
    state'.1 = found.2 := by
  unfold resolveDependency at h
  obtain ⟨selected, -, h⟩ := bind_ok_iff.mp h
  obtain ⟨found', hfound, h⟩ := bind_ok_iff.mp h
  cases hfound
  dsimp only at h
  split at h
  · cases h
  · split at h
    · cases h
    · split at h
      · cases h
      · cases h
        rfl

/-- A round of the loop over the dependencies, from what the call in it leaves. -/
theorem wp_traceDependency {base : Graph} {before : List Dependency} {total : ℕ}
    (hloop : Loop w seeds base node before state)
    (hleaves : Leaves w base before.length t state.1 t') (htotal : before.length < total)
    (hclosure : ∀ s, selectDependency w seeds.topLevelWorkspaceDirs node.packageDir node.origin
      dependency = .ok s → Closure w seeds s)
    (htrace : ∀ s, Closure w seeds s →
      wp (traceNode w seeds.topLevelWorkspaceDirs depth level state.1 s)
        (fun found t'' => Leaves w state.1 1 t' found.2 t'')
        (fun _ t'' => Stops w state.1 1 t' t'') t') :
    wp (traceDependency w seeds.topLevelWorkspaceDirs
        (traceNode w seeds.topLevelWorkspaceDirs depth level) node state dependency)
      (fun state' t'' => Loop w seeds base node (before ++ [dependency]) state' ∧
        Leaves w base (before ++ [dependency]).length t state'.1 t'')
      (fun _ t'' => Stops w base total t t'') t' := by
  rw [traceDependency, wp_bind, wp_ofExcept]
  refine ⟨fun selected hselected => ?_, fun _ _ => hleaves.stops_of_le (by omega)⟩
  rw [attempt_eq_ok] at hselected
  have hs := hclosure selected hselected
  rw [wp_bind]
  refine wp_mono (wp_and (htrace selected hs) wp_self) ?_ ?_
  · rintro ⟨index, g'⟩ t'' ⟨hcall, hrun⟩
    have hreaches := resolveNode_reaches hs hloop.sound (computes_traceNode.eq_of_run hrun)
    have hround := hleaves.trans hcall hloop.kept hreaches.kept
    rw [wp_ofExcept]
    refine ⟨fun state' hstate' => ⟨?_, ?_⟩, fun _ _ => hround.stops_of_le (by omega)⟩
    · refine hloop.step (fun selected' index' g'' hselect hfound => ?_) hstate'
      rw [hselected] at hselect
      cases hselect
      cases hfound
      exact hreaches
    · rw [graph_of_resolveDependency hstate', List.length_append, List.length_singleton]
      exact hround
  · rintro e t'' ⟨hcall, -⟩
    obtain ⟨new, hnew⟩ := hleaves.stops hcall hloop.kept
    exact ⟨new, hnew.mono (by omega)⟩

/-- The calls that a call makes. -/
theorem wp_traceNode (hclosure : Closure w seeds selected) (hg : Sound w seeds g)
    (hlevel : level ≤ g.nodes.length) :
    wp (traceNode w seeds.topLevelWorkspaceDirs depth level g selected)
      (fun found t' => Leaves w g 1 t found.2 t') (fun _ t' => Stops w g 1 t t') t := by
  induction depth generalizing level g selected t with
  | zero => exact ⟨[], Grows.refl⟩
  | succ depth ih =>
    have hcall : Grows w g 1 [] t t.call :=
      ⟨by simp [Trace.call], List.nodup_nil, nofun, nofun, nofun,
        by simp [Trace.call, dependencyCalls]⟩
    rw [traceNode, wp_bind, wp_modify]
    cases hadded : addedPackage w g selected with
    | none =>
      rw [wp_ofExcept]
      exact ⟨fun found _ => ⟨[], hcall, nofun⟩, fun _ _ => ⟨[], hcall⟩⟩
    | some package =>
      obtain ⟨hfingerprint, hload, hname⟩ := addedPackage_eq_some hadded
      have hpush := hg.push hclosure hload hfingerprint hname
      have hlength : g.nodes.length < w.names.card := by
        have hle := hpush.length_le
        simp only [Graph.push, List.length_append, List.length_singleton] at hle
        omega
      have hexpand : ∀ {new t'}, Grows w (g.push (selected.entry package))
          (collectDependencies package).length new (t.call.expand ⟨level, package⟩) t' →
          Grows w g 1 (⟨level, package⟩ :: new) t t' := fun hnew =>
        hnew.expand (hg.not_mem_names hname) (mem_names_of_loadPackage hload) (by omega)
      dsimp only
      rw [wp_bind, wp_modify, wp_bind]
      refine wp_mono (wp_foldlM (fun before state t' =>
          Loop w seeds (g.push (selected.entry package)) (selected.entry package) before state ∧
          Leaves w (g.push (selected.entry package)) before.length
            (t.call.expand ⟨level, package⟩) state.1 t') ?_ ?_) ?_ ?_
        (E := fun _ t' => Stops w (g.push (selected.entry package))
          (collectDependencies package).length (t.call.expand ⟨level, package⟩) t')
      · intro before dependency rest hsplit state t' hstate
        have hmem : dependency ∈ collectDependencies package := by simp [hsplit]
        have hdepth : level + 1 ≤ state.1.nodes.length := by
          have hle := hstate.1.kept.length_le
          simp only [Graph.push, List.length_append, List.length_singleton] at hle
          omega
        refine wp_traceDependency hstate.1 hstate.2 ?_ ?_ ?_
        · rw [hsplit, List.length_append, List.length_cons]
          omega
        · intro s hselect
          exact hclosure.step ⟨package, hload, dependency, hmem, hselect⟩
        · intro s hs
          exact ih hs hstate.1.sound hdepth
      · exact ⟨Loop.start hpush, [], Grows.refl, nofun⟩
      · rintro ⟨g', aliases⟩ t' ⟨hloop, new, hnew, hknown⟩
        rw [wp_pure]
        refine ⟨_, hexpand hnew, ?_⟩
        intro e he
        rw [names_finish]
        rcases List.mem_cons.mp he with rfl | he
        · refine names_subset hloop.kept _ ?_
          rw [names_push]
          exact List.mem_append_right _ (List.mem_singleton_self _)
        · exact hknown e he
      · rintro e t' ⟨new, hnew⟩
        exact ⟨_, hexpand hnew⟩

/-- A round of the loop over the seeds. -/
theorem wp_traceSeed {before : List ManifestSelection} {state : Graph × List String} {total : ℕ}
    (hseed : selected ∈ seeds.selections) (hstate : Searched w seeds before state)
    (hleaves : Leaves w Graph.empty before.length t state.1 t') (htotal : before.length < total) :
    wp (traceSeed w seeds.topLevelWorkspaceDirs depth state selected)
      (fun state' t'' => Searched w seeds (before ++ [selected]) state' ∧
        Leaves w Graph.empty (before ++ [selected]).length t state'.1 t'')
      (fun _ t'' => Stops w Graph.empty total t t'') t' := by
  have hclosure : Closure w seeds selected := ⟨selected, hseed, .refl⟩
  have hkept : Graph.empty.nodes <+: state.1.nodes := List.nil_prefix
  have hstep : wp (traceSeed w seeds.topLevelWorkspaceDirs depth state selected)
      (fun state' _ => Searched w seeds (before ++ [selected]) state') (fun _ _ => True) t' := by
    refine wp_mono wp_self (fun state' t'' hrun => ?_) fun _ _ _ => trivial
    exact hstate.step hseed (computes_traceSeed.eq_of_run hrun)
  have hcalls : wp (traceSeed w seeds.topLevelWorkspaceDirs depth state selected)
      (fun state' t'' => Leaves w Graph.empty (before ++ [selected]).length t state'.1 t'')
      (fun _ t'' => Stops w Graph.empty total t t'') t' := by
    rw [traceSeed, wp_bind]
    refine wp_mono (wp_and (wp_traceNode hclosure hstate.sound (Nat.zero_le _)) wp_self) ?_ ?_
    · rintro ⟨index, g'⟩ t'' ⟨hcall, hrun⟩
      have hreaches := resolveNode_reaches hclosure hstate.sound
        (computes_traceNode.eq_of_run hrun)
      have hround := hleaves.trans hcall hkept hreaches.kept
      rw [wp_ofExcept]
      refine ⟨fun state' hstate' => ?_, fun _ _ => hround.stops_of_le (by omega)⟩
      split at hstate'
      · cases hstate'
      · cases hstate'
        rw [List.length_append, List.length_singleton]
        exact hround
    · rintro e t'' ⟨hcall, -⟩
      obtain ⟨new, hnew⟩ := hleaves.stops hcall hkept
      exact ⟨new, hnew.mono (by omega)⟩
  exact wp_mono (wp_and hstep hcalls) (fun _ _ h => h) fun _ _ h => h.2

/-- The calls for the root seeds. -/
def rootCalls (w : World) (manifestPath : Path) : ℕ :=
  match buildRootSeeds w (canonicalAbsolutePath manifestPath) with
  | .ok seeds => seeds.selections.length
  | .error _ => 0

theorem wp_traceSingleVersionGraph {manifestPath : Path} :
    wp (traceSingleVersionGraph w manifestPath)
      (fun _ t' => Stops w Graph.empty (rootCalls w manifestPath) t t')
      (fun _ t' => Stops w Graph.empty (rootCalls w manifestPath) t t') t := by
  rw [traceSingleVersionGraph, wp_bind, wp_ofExcept]
  refine ⟨fun seeds hseeds => ?_, fun _ _ => ⟨[], Grows.refl⟩⟩
  rw [attempt_eq_ok] at hseeds
  have htotal : rootCalls w manifestPath = seeds.selections.length := by
    rw [rootCalls, hseeds]
  rw [wp_bind, htotal]
  refine wp_mono (wp_foldlM (fun before state t' => Searched w seeds before state ∧
    Leaves w Graph.empty before.length t state.1 t') ?_ ?_) ?_ fun _ _ h => h
  · intro before seed rest hsplit state t' hstate
    refine wp_traceSeed (by simp [hsplit]) hstate.1 hstate.2 ?_
    rw [hsplit, List.length_append, List.length_cons]
    omega
  · exact ⟨Searched.start, [], Grows.refl, nofun⟩
  · rintro state t' ⟨-, hleaves⟩
    rw [wp_ofExcept]
    exact ⟨fun _ _ => hleaves.stops_of_le le_rfl, fun _ _ => hleaves.stops_of_le le_rfl⟩

end Growth

/-- The resolver returns or throws. Each call that goes on adds a package name that was not known;
there are no more of them, nor are they nested deeper, than there are names. -/
theorem resolution_terminates (w : World) (manifestPath : Path) :
    let run := traceSingleVersionGraph w manifestPath {}
    run.1 = resolveSingleVersionGraph w manifestPath ∧
    ((∃ r, run.1 = .ok r) ∨ ∃ failure, run.1 = .error (.failed failure)) ∧
    (run.2.expansions.map (·.package.name)).Nodup ∧
    (∀ e ∈ run.2.expansions, e.package.name ∈ w.names ∧ e.depth < w.names.card) ∧
    run.2.expansions.length ≤ w.names.card ∧
    run.2.calls ≤ rootCalls w manifestPath + dependencyCalls run.2.expansions := by
  intro run
  have hresult : run.1 = resolveSingleVersionGraph w manifestPath :=
    computes_traceSingleVersionGraph {}
  obtain ⟨new, hnew⟩ : Stops w Graph.empty (rootCalls w manifestPath) {} run.2 :=
    wp.of_snd wp_traceSingleVersionGraph
  have hexpansions : run.2.expansions = new := by simpa using hnew.expansions
  refine ⟨hresult, ?_, ?_, ?_, ?_, ?_⟩
  · rcases hrun : run.1 with (failure | _) | r
    · exact .inr ⟨failure, rfl⟩
    · exact (resolveSingleVersionGraph_ne_exhausted (hresult.symm.trans hrun)).elim
    · exact .inl ⟨r, rfl⟩
  · rw [hexpansions]
    exact hnew.nodup
  · rw [hexpansions]
    exact fun e he => ⟨hnew.names e he, hnew.depth e he⟩
  · have hsubset : (new.map (·.package.name)).toFinset ⊆ w.names := by
      intro name hname
      obtain ⟨e, he, rfl⟩ := List.mem_map.mp (List.mem_toFinset.mp hname)
      exact hnew.names e he
    have hcard := Finset.card_le_card hsubset
    rw [List.toFinset_card_of_nodup hnew.nodup, List.length_map] at hcard
    rw [hexpansions]
    exact hcard
  · rw [hexpansions]
    simpa using hnew.calls

end StyioPlatform.Resolve
