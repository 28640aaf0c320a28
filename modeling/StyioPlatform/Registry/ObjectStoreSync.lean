import StyioPlatform.Storage.ObjectStore

/-! The registry tree and the bucket (`RegistryObjectStoreSync.hpp`): what a sync fetches and an
upload sends, byte for byte. Local files are named by their paths from the registry root. -/
namespace StyioPlatform.Registry.ObjectStoreSync

open FileTree Storage

/-- A file of that name, or the files in a directory of that name. -/
def isAt (directory path : Text) : Bool := path = directory ∨ (directory ++ ['/']) <+: path

/-- `RemoveLocalRegistryMetadataCache`. -/
def removeLocalRegistryMetadataCache (t : Objects) : Objects :=
  t.restrict fun path =>
    !(["config.json", "trust", "index", "log", "artifacts"].any fun name => isAt name.toList path)

/-- `WriteTextFile`: `none` where `create_directories` throws because a directory on the way is a
file. A path that is a directory cannot be opened, and the write does nothing. -/
def writeTextFile (t : Objects) (path : Text) (payload : Storage.Bytes) : Option Objects :=
  if ∃ file ∈ t.support, (file ++ ['/']) <+: path then none
  else if ∃ file ∈ t.support, (path ++ ['/']) <+: file then some t
  else some (t.put path payload)

def isTransient (path : Text) : Bool := "_staging/".toList <+: path ∨ "_tmp/".toList <+: path

section transfer

variable (s : Service) (outcomes : Outcomes) (storePrefix : Text)

/-- One round of the inner loop of the sync. -/
def syncKey (bucket t : Objects) (key : Text) : Option Objects :=
  if isTransient key then some t
  else
    match getObjectText s outcomes storePrefix bucket key with
    | none => none
    | some none => some t
    | some (some payload) => (normalizeObjectKey key).bind fun path => writeTextFile t path payload

def syncPrefix (bucket t : Objects) (objectPrefix : Text) : Option Objects :=
  (listObjectKeys s outcomes storePrefix bucket objectPrefix).bind fun keys =>
    keys.foldlM (syncKey s outcomes storePrefix bucket) t

/-- The directories that a sync fetches. -/
def syncedPrefixes : List Text :=
  ["trust/", "index/", "log/", "artifacts/", "_publications/", "_distributions/"].map String.toList

/-- `SyncS3RegistryStateToLocal`: the local files afterwards, `none` where it throws. -/
def syncS3RegistryStateToLocal (bucket t : Objects) : Option Objects :=
  (syncKey s outcomes storePrefix bucket (removeLocalRegistryMetadataCache t)
    "config.json".toList).bind fun t =>
    syncedPrefixes.foldlM (syncPrefix s outcomes storePrefix bucket) t

/-- The files below the registry root, in the order in which the iterator meets them. -/
structure LocalFiles where
  files : List (Text × Storage.Bytes)
  relative : ∀ x ∈ files, x.1.head? ≠ some '/'
  nodup : (files.map (·.1)).Nodup

/-- `UploadRegistryTreeToS3`: the bucket afterwards, `none` where it throws. -/
def uploadRegistryTreeToS3 (bucket : Objects) (l : LocalFiles) : Option Objects :=
  l.files.foldlM (fun bucket x =>
    if isTransient x.1 then some bucket
    else putObjectFile s outcomes storePrefix bucket x.1 x.2) bucket

end transfer

/-- The directories that have to agree with the bucket. -/
def mirroredPrefixes : List Text := ["trust/", "index/", "log/", "artifacts/"].map String.toList

def IsMirrored (path : Text) : Prop := ∃ directory ∈ mirroredPrefixes, directory <+: path

/-- The directories hold exactly the objects of the bucket. -/
def Mirrors (storePrefix : Text) (bucket t : Objects) : Prop :=
  ∀ path, IsMirrored path → t.get path = bucket.get (applyPrefix storePrefix path)

/-- An object as a sync can carry it over. -/
structure Carried (s : Service) (outcomes : Outcomes) (storePrefix path : Text) (content : Storage.Bytes) :
    Prop where
  plain : s.escape (applyPrefix storePrefix path) = applyPrefix storePrefix path
  fetched : outcomes.get (applyPrefix storePrefix path) = .served
  small : content.length ≤ maxStdoutBytes

/-- A bucket and answers with which a sync is faithful. -/
structure Faithful (s : Service) (outcomes : Outcomes) (storePrefix : Text) (bucket : Objects) :
    Prop where
  listed : ∀ directory ∈ mirroredPrefixes,
    keysUnder bucket (applyPrefix storePrefix directory) ≠ [] →
    outcomes.list (applyPrefix storePrefix directory) = .served
  page : ∀ directory ∈ mirroredPrefixes,
    (keysUnder bucket (applyPrefix storePrefix directory)).length ≤ maxKeys
  carried : ∀ path content, IsMirrored path →
    bucket.get (applyPrefix storePrefix path) = some content →
    Carried s outcomes storePrefix path content
  apart : ∀ path file, IsMirrored path → (path ++ ['/']) <+: file →
    (bucket.get (applyPrefix storePrefix path)).isSome →
    bucket.get (applyPrefix storePrefix file) = none

/-- Every object that is sent is accepted, or was there before with the same bytes. -/
def Accepted (outcomes : Outcomes) (storePrefix : Text) (l : LocalFiles) (bucket : Objects) :
    Prop :=
  ∀ x ∈ l.files, isTransient x.1 = false → outcomes.put (applyPrefix storePrefix x.1) = .served ∨
    bucket.get (applyPrefix storePrefix x.1) = some x.2

section writes

variable {t t' : Objects} {path : Text} {payload : Storage.Bytes}

theorem mem_support_of_get {q : Text} {c : Storage.Bytes} (h : t.get q = some c) : q ∈ t.support :=
  mem_support_iff.mpr ⟨c, h⟩

/-- A write puts the file, unless the path is a directory. -/
theorem writeTextFile_cases (h : writeTextFile t path payload = some t') :
    (∀ file ∈ t.support, ¬ (file ++ ['/']) <+: path) ∧
    ((t' = t ∧ ∃ file ∈ t.support, (path ++ ['/']) <+: file) ∨
      (t' = t.put path payload ∧ ∀ file ∈ t.support, ¬ (path ++ ['/']) <+: file)) := by
  unfold writeTextFile at h
  split at h
  · cases h
  · next habove =>
    push Not at habove
    refine ⟨habove, ?_⟩
    split at h
    · next hbelow => exact Or.inl ⟨(Option.some.inj h).symm, hbelow⟩
    · next hbelow =>
      push Not at hbelow
      exact Or.inr ⟨(Option.some.inj h).symm, hbelow⟩

/-- No mirrored file is a directory as well. -/
def Apart (t : Objects) : Prop :=
  ∀ path file, IsMirrored path → (path ++ ['/']) <+: file → (t.get path).isSome →
    t.get file = none

theorem Apart.write (h : Apart t) (hw : writeTextFile t path payload = some t') : Apart t' := by
  obtain ⟨habove, ⟨rfl, -⟩ | ⟨rfl, hbelow⟩⟩ := writeTextFile_cases hw
  · exact h
  intro q file hq hfile hsome
  by_contra hne
  obtain ⟨c, hc⟩ := Option.ne_none_iff_exists'.mp hne
  obtain ⟨c', hc'⟩ := Option.isSome_iff_exists.mp hsome
  have hproper : file ≠ q := by
    rintro rfl
    have := hfile.length_le
    simp at this
  by_cases hqp : q = path
  · subst hqp
    rw [get_put_of_ne hproper] at hc
    exact hbelow file (mem_support_of_get hc) hfile
  · rw [get_put_of_ne hqp] at hc'
    by_cases hfp : file = path
    · subst hfp
      exact habove q (mem_support_of_get hc') hfile
    · rw [get_put_of_ne hfp] at hc
      rw [h q file hq hfile (by simp [hc'])] at hc
      cases hc

end writes

section progress

variable {s : Service} {outcomes : Outcomes} {storePrefix : Text} {bucket t₀ t t' : Objects}
  {key path : Text} {content : Storage.Bytes} {keys visited : List Text}

/-- The sync of the key fetches the content and writes it to the path. -/
structure Fetches (s : Service) (outcomes : Outcomes) (storePrefix : Text) (bucket : Objects)
    (key path : Text) (content : Storage.Bytes) : Prop where
  transient : isTransient key = false
  normal : normalizeObjectKey key = some path
  content : getObjectText s outcomes storePrefix bucket key = some (some content)

/-- What is fetched for a path depends on the path alone. -/
theorem Fetches.eq_content {key' : Text} {content' : Storage.Bytes}
    (h : Fetches s outcomes storePrefix bucket key path content)
    (h' : Fetches s outcomes storePrefix bucket key' path content') : content = content' := by
  have hcontent := h.content
  have hcontent' := h'.content
  rw [getObjectText, h.normal] at hcontent
  rw [getObjectText, h'.normal, hcontent] at hcontent'
  exact Option.some.inj (Option.some.inj hcontent')

/-- What is fetched is the object at the path, as far as the limit lets it through. -/
theorem Fetches.object (hs : Documented s)
    (h : Fetches s outcomes storePrefix bucket key path content) :
    outcomes.get (applyPrefix storePrefix path) = .served ∧
      ∃ whole, bucket.get (applyPrefix storePrefix path) = some whole ∧
        content = whole.take maxStdoutBytes := by
  have hcontent := h.content
  rw [getObjectText, h.normal, Option.map_some, Option.some.injEq] at hcontent
  dsimp only at hcontent
  cases hget : bucket.get (applyPrefix storePrefix path) with
  | none =>
    rw [hget] at hcontent
    cases hcontent
  | some whole =>
    rw [hget] at hcontent
    cases houtcome : outcomes.get (applyPrefix storePrefix path) with
    | refused =>
      rw [houtcome] at hcontent
      cases hcontent
    | errorStatus =>
      rw [houtcome] at hcontent
      cases hcontent
    | served =>
      rw [houtcome] at hcontent
      dsimp only at hcontent
      rw [runCurl_served hs, Option.some.injEq] at hcontent
      exact ⟨rfl, whole, rfl, hcontent.symm⟩

/-- One round writes what it fetches, or leaves the files alone. -/
theorem syncKey_cases (h : syncKey s outcomes storePrefix bucket t key = some t') :
    (isTransient key = true ∨ (normalizeObjectKey key).isSome) ∧
    ((t' = t ∧ ∀ path content, ¬ Fetches s outcomes storePrefix bucket key path content) ∨
      ∃ path content, Fetches s outcomes storePrefix bucket key path content ∧
        writeTextFile t path content = some t') := by
  unfold syncKey at h
  split at h
  · next htransient =>
    refine ⟨Or.inl htransient, Or.inl ⟨(Option.some.inj h).symm, fun path content hf => ?_⟩⟩
    rw [hf.transient] at htransient
    cases htransient
  · next htransient =>
    rw [Bool.not_eq_true] at htransient
    cases hnormal : normalizeObjectKey key with
    | none => simp [getObjectText, hnormal] at h
    | some path =>
      refine ⟨Or.inr rfl, ?_⟩
      cases hget : getObjectText s outcomes storePrefix bucket key with
      | none => simp [hget] at h
      | some payload =>
        cases payload with
        | none =>
          rw [hget] at h
          refine Or.inl ⟨(Option.some.inj h).symm, fun path content hf => ?_⟩
          have := hf.content
          rw [hget] at this
          cases this
        | some content =>
          rw [hget, hnormal] at h
          exact Or.inr ⟨path, content, ⟨htransient, hnormal, hget⟩, h⟩

/-- The files while a sync runs, from what it has visited so far. -/
structure Progress (s : Service) (outcomes : Outcomes) (storePrefix : Text)
    (bucket t₀ : Objects) (visited : List Text) (t : Objects) : Prop where
  origin : ∀ path content, t.get path = some content → t₀.get path = some content ∨
    ∃ key ∈ visited, Fetches s outcomes storePrefix bucket key path content
  normal : ∀ key ∈ visited, isTransient key = true ∨ (normalizeObjectKey key).isSome
  written : ∀ key ∈ visited, ∀ path content,
    Fetches s outcomes storePrefix bucket key path content →
    t.get path = some content ∨ ∃ file, (path ++ ['/']) <+: file ∧ (t.get file).isSome
  apart : Apart t

theorem Progress.start (h : Apart t) : Progress s outcomes storePrefix bucket t [] t where
  origin _ _ h := Or.inl h
  normal := nofun
  written := nofun
  apart := h

theorem Progress.step (h : Progress s outcomes storePrefix bucket t₀ visited t)
    (hkey : syncKey s outcomes storePrefix bucket t key = some t') :
    Progress s outcomes storePrefix bucket t₀ (visited ++ [key]) t' := by
  obtain ⟨hnormal, hcases⟩ := syncKey_cases hkey
  have hnormals : ∀ k ∈ visited ++ [key], isTransient k = true ∨ (normalizeObjectKey k).isSome := by
    intro k hk
    rcases List.mem_append.mp hk with hk | hk
    · exact h.normal k hk
    · rw [List.mem_singleton.mp hk]
      exact hnormal
  rcases hcases with ⟨rfl, hnot⟩ | ⟨path, content, hfetches, hwrite⟩
  · refine ⟨fun q c hq => ?_, hnormals, fun k hk q c hf => ?_, h.apart⟩
    · exact (h.origin q c hq).imp_right fun ⟨k, hk, hf⟩ => ⟨k, List.mem_append_left _ hk, hf⟩
    · rcases List.mem_append.mp hk with hk | hk
      · exact h.written k hk q c hf
      · rw [List.mem_singleton.mp hk] at hf
        exact absurd hf (hnot q c)
  · have hapart := h.apart.write hwrite
    obtain ⟨-, ⟨rfl, file, hfile, hbelow⟩ | ⟨rfl, -⟩⟩ := writeTextFile_cases hwrite
    · refine ⟨fun q c hq => ?_, hnormals, fun k hk q c hf => ?_, hapart⟩
      · exact (h.origin q c hq).imp_right fun ⟨k, hk, hf⟩ => ⟨k, List.mem_append_left _ hk, hf⟩
      · rcases List.mem_append.mp hk with hk | hk
        · exact h.written k hk q c hf
        · rw [List.mem_singleton.mp hk] at hf
          obtain rfl : q = path := Option.some.inj (hf.normal.symm.trans hfetches.normal)
          exact Or.inr ⟨file, hbelow, (mem_support _ _).mp hfile⟩
    · have hkept : ∀ q, (t.get q).isSome → ((t.put path content).get q).isSome := by
        intro q hq
        by_cases hqp : q = path
        · rw [hqp, get_put_self]
          rfl
        · rwa [get_put_of_ne hqp]
      refine ⟨fun q c hq => ?_, hnormals, fun k hk q c hf => ?_, hapart⟩
      · by_cases hqp : q = path
        · subst hqp
          rw [get_put_self, Option.some.injEq] at hq
          subst hq
          exact Or.inr ⟨key, by simp, hfetches⟩
        · rw [get_put_of_ne hqp] at hq
          exact (h.origin q c hq).imp_right fun ⟨k, hk, hf⟩ => ⟨k, List.mem_append_left _ hk, hf⟩
      · by_cases hqp : q = path
        · subst hqp
          rw [get_put_self, hf.eq_content hfetches]
          exact Or.inl rfl
        · rcases List.mem_append.mp hk with hk | hk
          · rw [get_put_of_ne hqp]
            exact (h.written k hk q c hf).imp_right fun ⟨file, hfile, hsome⟩ =>
              ⟨file, hfile, hkept file hsome⟩
          · rw [List.mem_singleton.mp hk] at hf
            exact absurd (Option.some.inj (hf.normal.symm.trans hfetches.normal)) hqp

theorem Progress.run (h : Progress s outcomes storePrefix bucket t₀ visited t)
    (hkeys : keys.foldlM (syncKey s outcomes storePrefix bucket) t = some t') :
    Progress s outcomes storePrefix bucket t₀ (visited ++ keys) t' := by
  induction keys generalizing t visited with
  | nil =>
    cases hkeys
    simpa using h
  | cons key keys ih =>
    rw [List.foldlM_cons] at hkeys
    obtain ⟨t₁, h₁, hrest⟩ := Option.bind_eq_some_iff.mp hkeys
    have := ih (h.step h₁) hrest
    simpa using this

/-- The keys that a listing yields. -/
def listedKeys (s : Service) (outcomes : Outcomes) (storePrefix : Text) (bucket : Objects)
    (objectPrefix : Text) : List Text :=
  (listObjectKeys s outcomes storePrefix bucket objectPrefix).getD []

theorem Progress.prefixes {prefixes : List Text}
    (h : Progress s outcomes storePrefix bucket t₀ visited t)
    (hrun : prefixes.foldlM (syncPrefix s outcomes storePrefix bucket) t = some t') :
    Progress s outcomes storePrefix bucket t₀
      (visited ++ prefixes.flatMap (listedKeys s outcomes storePrefix bucket)) t' := by
  induction prefixes generalizing t visited with
  | nil =>
    cases hrun
    simpa using h
  | cons directory prefixes ih =>
    rw [List.foldlM_cons] at hrun
    obtain ⟨t₁, h₁, hrest⟩ := Option.bind_eq_some_iff.mp hrun
    obtain ⟨keys, hkeys, hfold⟩ := Option.bind_eq_some_iff.mp h₁
    have hlisted : listedKeys s outcomes storePrefix bucket directory = keys := by
      rw [listedKeys, hkeys]
      rfl
    have := ih (h.run hfold) hrest
    rw [List.flatMap_cons, hlisted, ← List.append_assoc]
    exact this

theorem mirrored_removed : ∀ d ∈ mirroredPrefixes,
    ∃ name ∈ ["config.json", "trust", "index", "log", "artifacts"], name.toList ++ ['/'] = d := by
  decide

theorem removed_of_isMirrored (h : IsMirrored path) :
    (removeLocalRegistryMetadataCache t).get path = none := by
  obtain ⟨directory, hdirectory, hpath⟩ := h
  obtain ⟨name, hname, rfl⟩ := mirrored_removed directory hdirectory
  have hat : (["config.json", "trust", "index", "log", "artifacts"].any fun name =>
      isAt name.toList path) = true :=
    List.any_eq_true.mpr ⟨name, hname, decide_eq_true (Or.inr hpath)⟩
  rw [removeLocalRegistryMetadataCache, get_restrict, hat]
  rfl

/-- The keys that a sync asks for. -/
def askedKeys (s : Service) (outcomes : Outcomes) (storePrefix : Text) (bucket : Objects) :
    List Text :=
  "config.json".toList :: syncedPrefixes.flatMap (listedKeys s outcomes storePrefix bucket)

/-- After a sync the mirrored directories hold what was fetched for the keys asked for. -/
theorem Progress.synced (h : syncS3RegistryStateToLocal s outcomes storePrefix bucket t = some t') :
    Progress s outcomes storePrefix bucket (removeLocalRegistryMetadataCache t)
      (askedKeys s outcomes storePrefix bucket) t' := by
  obtain ⟨t₁, hconfig, hrest⟩ := Option.bind_eq_some_iff.mp h
  have hapart : Apart (removeLocalRegistryMetadataCache t) := by
    intro path file hpath _ hsome
    rw [removed_of_isMirrored hpath] at hsome
    cases hsome
  have := ((Progress.start hapart).step hconfig).prefixes hrest
  exact this

end progress

section faithful

variable {s : Service} {outcomes : Outcomes} {storePrefix : Text} {bucket t t' : Objects}
  {path file key directory : Text} {content : Storage.Bytes}

theorem mirrored_subset : ∀ d ∈ mirroredPrefixes, d ∈ syncedPrefixes := by decide

/-- Of the directories that a sync fetches no one lies in another. -/
theorem synced_apart : ∀ d ∈ syncedPrefixes, ∀ d' ∈ syncedPrefixes, d <+: d' → d = d' := by decide

theorem synced_relative : ∀ d ∈ syncedPrefixes, d ≠ [] ∧ d.head? ≠ some '/' := by decide

theorem synced_normal : ∀ d ∈ syncedPrefixes, normalizeObjectPrefix d = some d := by decide

theorem synced_letters : ∀ d ∈ syncedPrefixes,
    (d.all fun c => c.isAlphanum || c == '/' || c == '_') = true := by decide

theorem escape_synced (hs : Documented s) (hdirectory : directory ∈ syncedPrefixes) :
    s.escape directory = directory := by
  apply escape_of_plain hs
  intro c hc
  have hletter := List.all_eq_true.mp (synced_letters _ hdirectory) c hc
  simp only [Bool.or_eq_true, beq_iff_eq] at hletter
  rcases hletter with (hletter | hletter) | hletter
  · exact Or.inl hletter
  · exact Or.inr (Or.inl hletter)
  · exact Or.inr (Or.inr (Or.inl hletter))

theorem head?_of_start {d : Text} (hne : d ≠ []) (h : d <+: path) : path.head? = d.head? := by
  obtain ⟨tail, rfl⟩ := h
  obtain ⟨c, d, rfl⟩ := List.exists_cons_of_ne_nil hne
  rfl

theorem relative_of_synced (hdirectory : directory ∈ syncedPrefixes) (h : directory <+: path) :
    path.head? ≠ some '/' := by
  rw [head?_of_start (synced_relative _ hdirectory).1 h]
  exact (synced_relative _ hdirectory).2

theorem IsMirrored.relative (h : IsMirrored path) : path.head? ≠ some '/' := by
  obtain ⟨directory, hdirectory, hpath⟩ := h
  exact relative_of_synced (mirrored_subset _ hdirectory) hpath

/-- A key that a listing yields is the text of an object of the page. -/
theorem mem_listedKeys (hs : Documented s) (hshort : ∀ key ∈ bucket.support, key.length ≤ 1024)
    (hdirectory : directory ∈ syncedPrefixes) :
    key ∈ listedKeys s outcomes storePrefix bucket directory ↔
      outcomes.list (applyPrefix storePrefix directory) = .served ∧
        key ∈ pageKeys s bucket storePrefix directory := by
  rw [listedKeys, listObjectKeys_eq hs hshort (synced_normal _ hdirectory)
    (synced_relative _ hdirectory).1]
  cases outcomes.list (applyPrefix storePrefix directory) <;> simp

/-- An object that can be carried over is asked for under its own path. -/
theorem Faithful.asked (hs : Documented s) (hshort : ∀ key ∈ bucket.support, key.length ≤ 1024)
    (h : Faithful s outcomes storePrefix bucket) (hpath : IsMirrored path)
    (hget : bucket.get (applyPrefix storePrefix path) = some content) :
    path ∈ askedKeys s outcomes storePrefix bucket := by
  obtain ⟨directory, hdirectory, hstart⟩ := id hpath
  have hsynced := mirrored_subset _ hdirectory
  have hunder : applyPrefix storePrefix path ∈
      keysUnder bucket (applyPrefix storePrefix directory) := by
    rw [mem_keysUnder]
    obtain ⟨tail, rfl⟩ := hstart
    exact ⟨mem_support_of_get hget, by rw [applyPrefix_append]; exact List.prefix_append ..⟩
  have hlist := h.listed directory hdirectory (List.ne_nil_of_mem hunder)
  have hpage : path ∈ pageKeys s bucket storePrefix directory := by
    have hne : path ≠ [] := by
      rintro rfl
      exact (synced_relative _ hsynced).1 (List.prefix_nil.mp hstart)
    rw [pageKeys, List.take_of_length_le (h.page directory hdirectory), List.mem_filter]
    refine ⟨List.mem_map.mpr ⟨_, hunder, ?_⟩, by simpa using hne⟩
    rw [(h.carried path content hpath hget).plain, stripPrefix_applyPrefix]
  refine List.mem_cons_of_mem _ (List.mem_flatMap.mpr ⟨directory, hsynced, ?_⟩)
  exact (mem_listedKeys hs hshort hsynced).mpr ⟨hlist, hpage⟩

/-- A file of a mirrored directory is what was fetched for it. -/
theorem exists_fetches
    (hsync : syncS3RegistryStateToLocal s outcomes storePrefix bucket t = some t')
    (hpath : IsMirrored path) (hget : t'.get path = some content) :
    ∃ key ∈ askedKeys s outcomes storePrefix bucket,
      Fetches s outcomes storePrefix bucket key path content := by
  rcases (Progress.synced hsync).origin path content hget with hold | hfetched
  · rw [removed_of_isMirrored hpath] at hold
    cases hold
  · exact hfetched

/-- Where the prefix is plain, a mirrored file comes from an object of the page of its directory,
and its path is the text of that object. -/
theorem exists_listed (hs : Documented s) (hshort : ∀ key ∈ bucket.support, key.length ≤ 1024)
    (hplain : s.escape (trimSlashes storePrefix) = trimSlashes storePrefix)
    (hsync : syncS3RegistryStateToLocal s outcomes storePrefix bucket t = some t')
    (hdirectory : directory ∈ mirroredPrefixes) (hstart : directory <+: path)
    (hget : t'.get path = some content) :
    outcomes.list (applyPrefix storePrefix directory) = .served ∧
      ∃ source, directory <+: source ∧ s.escape source = path ∧ applyPrefix storePrefix source ∈
        (keysUnder bucket (applyPrefix storePrefix directory)).take maxKeys := by
  obtain ⟨key, hkey, hfetches⟩ := exists_fetches hsync ⟨directory, hdirectory, hstart⟩ hget
  have hsynced := mirrored_subset _ hdirectory
  rcases List.mem_cons.mp hkey with rfl | hkey
  · have hpath := normalizeObjectKey_eq (by decide) hfetches.normal
    subst hpath
    exact absurd hstart (by revert directory; decide)
  · obtain ⟨directory', hdirectory', hlisted⟩ := List.mem_flatMap.mp hkey
    obtain ⟨hserved, hpage⟩ := (mem_listedKeys hs hshort hdirectory').mp hlisted
    rw [pageKeys, List.mem_filter] at hpage
    obtain ⟨objectKey, htake, rfl⟩ := List.mem_map.mp hpage.1
    obtain ⟨tail, htail⟩ := (mem_keysUnder.mp (List.mem_of_mem_take htake)).2
    rw [← applyPrefix_append] at htail
    subst htail
    -- the key is the escaped text after the prefix, which starts with the directory
    have hkeyText : stripPrefix storePrefix (s.escape (applyPrefix storePrefix
        (directory' ++ tail))) = directory' ++ s.escape tail := by
      rw [escape_applyPrefix hs hplain, stripPrefix_applyPrefix, escape_append,
        escape_synced hs hdirectory']
    have hpath : path = directory' ++ s.escape tail := by
      have hnormal := hfetches.normal
      rw [hkeyText] at hnormal
      exact normalizeObjectKey_eq
        (relative_of_synced hdirectory' (List.prefix_append ..)) hnormal
    have hsame : directory' = directory := by
      have hstart' : directory' <+: path := hpath ▸ List.prefix_append ..
      rcases List.prefix_or_prefix_of_prefix hstart' hstart with h | h
      · exact synced_apart _ hdirectory' _ hsynced h
      · exact (synced_apart _ hsynced _ hdirectory' h).symm
    subst hsame
    refine ⟨hserved, directory' ++ tail, List.prefix_append .., ?_, htake⟩
    rw [escape_append, escape_synced hs hdirectory', hpath]

/-- Where the directories agree, every mirrored object has a path that is shown as it is. -/
theorem Mirrors.plain (hs : Documented s) (hshort : ∀ key ∈ bucket.support, key.length ≤ 1024)
    (hplain : s.escape (trimSlashes storePrefix) = trimSlashes storePrefix)
    (hsync : syncS3RegistryStateToLocal s outcomes storePrefix bucket t = some t')
    (h : Mirrors storePrefix bucket t') (hpath : IsMirrored path)
    (hget : (bucket.get (applyPrefix storePrefix path)).isSome) : s.escape path = path := by
  -- by induction on the length: an object whose text is another path is shorter than that path
  induction hlength : path.length using Nat.strong_induction_on generalizing path with
  | _ n ih =>
    subst hlength
    obtain ⟨content, hcontent⟩ := Option.isSome_iff_exists.mp hget
    obtain ⟨directory, hdirectory, hstart⟩ := id hpath
    obtain ⟨-, source, hsource, hescape, htake⟩ := exists_listed hs hshort hplain hsync hdirectory
      hstart ((h path hpath).trans hcontent)
    have hcases : s.escape source = source ∨ source.length < (s.escape source).length :=
      escape_eq_or_lt hs
    rcases hcases with hsame | hlonger
    · rw [← hescape, hsame, hsame]
    · have hobject := (mem_keysUnder.mp (List.mem_of_mem_take htake)).1
      have hsame := ih source.length (hescape ▸ hlonger) ⟨directory, hdirectory, hsource⟩
        ((bucket.mem_support _).mp hobject) rfl
      rw [hsame] at hlonger
      omega

theorem Mirrors.listed (hs : Documented s) (hshort : ∀ key ∈ bucket.support, key.length ≤ 1024)
    (hplain : s.escape (trimSlashes storePrefix) = trimSlashes storePrefix)
    (hsync : syncS3RegistryStateToLocal s outcomes storePrefix bucket t = some t')
    (h : Mirrors storePrefix bucket t') (hdirectory : directory ∈ mirroredPrefixes)
    (hkey : key ∈ keysUnder bucket (applyPrefix storePrefix directory)) :
    outcomes.list (applyPrefix storePrefix directory) = .served ∧
      key ∈ (keysUnder bucket (applyPrefix storePrefix directory)).take maxKeys := by
  obtain ⟨hmem, tail, htail⟩ := mem_keysUnder.mp hkey
  rw [← applyPrefix_append] at htail
  subst htail
  have hpath : IsMirrored (directory ++ tail) := ⟨directory, hdirectory, List.prefix_append ..⟩
  obtain ⟨content, hcontent⟩ := mem_support_iff.mp hmem
  obtain ⟨hserved, source, hsource, hescape, htake⟩ := exists_listed hs hshort hplain hsync
    hdirectory (List.prefix_append ..) ((h _ hpath).trans hcontent)
  have hobject := (mem_keysUnder.mp (List.mem_of_mem_take htake)).1
  have hsame := h.plain hs hshort hplain hsync ⟨directory, hdirectory, hsource⟩
    ((bucket.mem_support _).mp hobject)
  rw [hsame] at hescape
  rw [← hescape]
  exact ⟨hserved, htake⟩

end faithful

section upload

variable {s : Service} {outcomes : Outcomes} {storePrefix : Text} {bucket bucket' : Objects}
  {files : List (Text × Storage.Bytes)} {key : Text} {content : Storage.Bytes}

end upload

/-- Every request succeeds. -/
def served : Outcomes where
  get _ := .served
  list _ := .served
  put _ := .served

def sampleFiles : LocalFiles where
  files := [("index/a".toList, [4]), ("_tmp/b".toList, [5])]
  relative := by decide
  nodup := by decide

end StyioPlatform.Registry.ObjectStoreSync
