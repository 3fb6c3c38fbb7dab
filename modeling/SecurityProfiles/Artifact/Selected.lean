import SecurityProfiles.Artifact.Layers
import SecurityProfiles.Library.Fallible

namespace SecurityProfiles.Artifact

open List

def Platform.normalized (platform : Platform) : Platform :=
  { platform with variant := normalizeVariant platform.architecture platform.variant }

theorem platformMatches_iff {present wanted : Platform} :
    platformMatches present wanted = true ↔ present.normalized = wanted.normalized := by
  simp only [platformMatches, Platform.normalized, Bool.and_eq_true, decide_eq_true_eq,
    Platform.mk.injEq, and_assoc]

section pushed

variable {Content Digest : Type} (env : Environment Content Digest)

def pushedLayer (file : Option Platform × Str) : Option (Descriptor Digest) := do
  let absPath ← env.filepathAbs file.2
  let digest ← env.digest absPath
  return ⟨.imageLayer, digest, some (profileName file.1), file.1⟩

/-- All files are profiles of the cluster, none is a runtime profile. -/
def CrdProfiles (files : List (Option Platform × Str)) : Prop :=
  ∀ file ∈ files, ∀ absPath content, env.filepathAbs file.2 = some absPath → env.readFile absPath = some content →
    env.runtimeSpec content = some false

/-- The platforms have an operating system and are different once their variants are normalized. There may be one
file for no platform. -/
structure Distinct (files : List (Option Platform × Str)) : Prop where
  os : ∀ platform file, (some platform, file) ∈ files → platform.os ≠ []
  nodup : (files.map fun file => file.1.map Platform.normalized).Nodup

/-- The layers of a manifest are those of the files. -/
structure Packed (files : List (Option Platform × Str)) (manifest : Manifest Digest) : Prop where
  config : manifest.config = .emptyJSON
  artifactType : manifest.artifactType = .unknownConfig
  length : manifest.layers.length = files.length
  stored : ∀ file ∈ files, ∃ layer ∈ manifest.layers, pushedLayer env file = some layer
  origin : ∀ layer ∈ manifest.layers, ∃ file ∈ files, pushedLayer env file = some layer

variable {env} {files : List (Option Platform × Str)} {manifest : Manifest Digest} {wanted : Option Platform}

variable {skipValidation : Bool}

theorem profileEntry_ok {file : Option Platform × Str} {entry : ProfileEntry}
    (crd : ∀ absPath content, env.filepathAbs file.2 = some absPath → env.readFile absPath = some content →
      env.runtimeSpec content = some false)
    (made : profileEntry env skipValidation file = .ok entry) :
    ∃ absPath, env.filepathAbs file.2 = some absPath ∧
      entry = ⟨file.1, absPath, profileName file.1, .imageLayer, false⟩ := by
  unfold profileEntry at made
  cases isPath : env.filepathAbs file.2 with
  | none =>
    rw [isPath] at made
    cases made
  | some absPath =>
    rw [isPath] at made
    dsimp only at made
    cases isContent : env.readFile absPath with
    | none =>
      rw [isContent] at made
      cases made
    | some content =>
      rw [isContent] at made
      dsimp only at made
      rw [crd absPath content isPath isContent] at made
      exact ⟨absPath, rfl, (Except.ok.inj made).symm⟩

theorem addProfiles_ok {names : List Str} {entries : List ProfileEntry} {layers : List (Descriptor Digest)}
    (added : addProfiles env names entries = .ok layers) :
    List.Forall₂ (fun entry layer => ∃ digest, env.digest entry.absPath = some digest ∧
      layer = ⟨entry.layerMediaType, digest, some entry.name, entry.platform⟩) entries layers := by
  induction entries generalizing names layers with
  | nil =>
    cases Except.ok.inj added
    exact .nil
  | cons entry rest ih =>
    unfold addProfiles at added
    split at added
    · cases added
    cases isDigest : env.digest entry.absPath with
    | none =>
      rw [isDigest] at added
      cases added
    | some digest =>
      rw [isDigest] at added
      obtain ⟨others, addedRest, same⟩ := Fallible.bind_ok.mp added
      rw [Fallible.pure_ok] at same
      rw [← same]
      exact .cons ⟨digest, isDigest, rfl⟩ (ih addedRest)

theorem pushedLayer_of_entry {file : Option Platform × Str} {entry : ProfileEntry} {layer : Descriptor Digest}
    (crd : CrdProfiles env files) (member : file ∈ files) (made : profileEntry env skipValidation file = .ok entry)
    (added : ∃ digest, env.digest entry.absPath = some digest ∧
      layer = ⟨entry.layerMediaType, digest, some entry.name, entry.platform⟩) :
    pushedLayer env file = some layer := by
  obtain ⟨absPath, isPath, rfl⟩ := profileEntry_ok (crd file member) made
  obtain ⟨digest, isDigest, rfl⟩ := added
  unfold pushedLayer
  rw [isPath]
  change (env.digest absPath >>= _) = _
  rw [isDigest]
  rfl

/-- The manifest that is pushed has one layer for each file and no others. -/
theorem packed_of_packProfiles (some' : files ≠ []) (crd : CrdProfiles env files)
    (packed : packProfiles env skipValidation files = .ok manifest) : Packed env files manifest := by
  unfold packProfiles at packed
  obtain ⟨⟨entries, count⟩, made, packed⟩ := Fallible.bind_ok.mp packed
  obtain ⟨unsorted, mapped, same⟩ := Fallible.bind_ok.mp made
  rw [Fallible.pure_ok] at same
  obtain ⟨isSorted, isCount⟩ := Prod.mk.inj same
  obtain ⟨entryOf, fileOf⟩ := Fallible.mapM_mem mapped
  have perm : entries.Perm unsorted := isSorted ▸ perm_insertionSort _ _
  have noRuntime : count = 0 := by
    rw [← isCount, countP_eq_zero]
    intro entry member
    obtain ⟨file, isFile, madeEntry⟩ := fileOf entry member
    obtain ⟨absPath, _, rfl⟩ := profileEntry_ok (crd file isFile) madeEntry
    exact Bool.false_ne_true
  subst noRuntime
  dsimp only at packed
  rw [if_neg (by simp), if_neg (by simp)] at packed
  obtain ⟨layers, added, packed⟩ := Fallible.bind_ok.mp packed
  have each := addProfiles_ok added
  obtain ⟨layerOf, addedFrom⟩ := Fallible.forall₂_mem each
  have count : layers.length = files.length := by
    rw [← each.length_eq, perm.length_eq, ← (Fallible.mapM_ok mapped).length_eq]
  split at packed
  · rw [if_neg (by simp), packManifest] at packed
    split at packed
    · have nonempty : layers ≠ [] := by
        intro empty
        rw [empty] at count
        exact some' (length_eq_zero_iff.mp count.symm)
      rw [if_neg nonempty] at packed
      obtain rfl := Except.ok.inj packed
      refine ⟨rfl, rfl, count, fun file isFile => ?_, fun layer isLayer => ?_⟩
      · obtain ⟨entry, member, madeEntry⟩ := entryOf file isFile
        obtain ⟨layer, isLayer, addedLayer⟩ := layerOf entry (perm.mem_iff.mpr member)
        exact ⟨layer, isLayer, pushedLayer_of_entry crd isFile madeEntry addedLayer⟩
      · obtain ⟨entry, member, addedLayer⟩ := addedFrom layer isLayer
        obtain ⟨file, isFile, madeEntry⟩ := fileOf entry (perm.mem_iff.mp member)
        exact ⟨file, isFile, pushedLayer_of_entry crd isFile madeEntry addedLayer⟩
    · cases packed
  · cases packed

theorem pushedLayer_some {file : Option Platform × Str} {layer : Descriptor Digest}
    (pushed : pushedLayer env file = some layer) : layer.platform = file.1 ∧ layer.name = profileName file.1 := by
  unfold pushedLayer at pushed
  obtain ⟨absPath, _, pushed⟩ := Option.bind_eq_some_iff.mp pushed
  obtain ⟨digest, _, pushed⟩ := Option.bind_eq_some_iff.mp pushed
  obtain rfl := Option.some.inj pushed
  exact ⟨rfl, rfl⟩

theorem profileName_ne_default {platform : Platform} (os : platform.os ≠ []) :
    profileName (some platform) ≠ profileName none := by
  intro same
  have parts : ([platform.os, platform.architecture, platform.variant, platform.osVersion].filter (· ≠ [])).flatMap
      ('-' :: ·) = [] := append_cancel_left (append_cancel_right same)
  rw [filter_cons_of_pos (by simpa using os)] at parts
  cases parts

section

variable {file : Option Platform × Str} {layer : Descriptor Digest} (pushed : pushedLayer env file = some layer)
include pushed

theorem boundTo_iff {wanted : Platform} : boundTo wanted layer = true ↔
      file.1.map Platform.normalized = some wanted.normalized ∨
        (file.1 = none ∧ profileName (some wanted) = profileName none) := by
  obtain ⟨isPlatform, isName⟩ := pushedLayer_some pushed
  unfold boundTo
  rw [isPlatform]
  cases bound : file.1 with
  | none =>
    rw [bound] at isName
    simp [isName, eq_comm]
  | some present => simp [platformMatches_iff]

theorem independent_iff : independent defaultProfileYAML layer = true ↔ file.1 = none := by
  obtain ⟨isPlatform, isName⟩ := pushedLayer_some pushed
  have default : profileName none = defaultProfileYAML := by decide
  unfold independent
  rw [isPlatform, isName]
  cases file.1 with
  | none => simp [default]
  | some present => simp

end

theorem Distinct.same (distinct : Distinct files) {first second : Option Platform × Str} (isFirst : first ∈ files)
    (isSecond : second ∈ files) (platforms : first.1.map Platform.normalized = second.1.map Platform.normalized) :
    first = second :=
  inj_on_of_nodup_map distinct.nodup isFirst isSecond platforms

section

variable (packed : Packed env files manifest)
include packed

theorem Packed.find_layer {file : Option Platform × Str} (isFile : file ∈ files) {check : Descriptor Digest → Bool}
    (own : ∀ layer, pushedLayer env file = some layer → check layer = true)
    (only : ∀ other ∈ files, ∀ layer, pushedLayer env other = some layer → check layer = true → other = file) :
    ∃ layer, pushedLayer env file = some layer ∧ manifest.layers.find? check = some layer := by
  obtain ⟨layer, isLayer, pushed⟩ := packed.stored file isFile
  cases found : manifest.layers.find? check with
  | none =>
    have passes := own layer pushed
    rw [find?_eq_none.mp found layer isLayer |> Bool.eq_false_of_not_eq_true] at passes
    cases passes
  | some other =>
    obtain ⟨origin, isOrigin, pushedOther⟩ := packed.origin other (mem_of_find?_eq_some found)
    obtain rfl := only origin isOrigin other pushedOther (find?_some found)
    exact ⟨other, pushedOther, rfl⟩

/-- A manifest of the operator is within the limits, and does not have the runtime format. -/
theorem Packed.selectLayer_eq (few : files.length ≤ maxArtifactLayers) (platform : Option Platform) :
    selectLayer manifest platform = selectByPlatform manifest.layers platform := by
  have limit : ¬manifest.layers.length > maxArtifactLayers := by
    rw [packed.length]
    omega
  have format : ¬(manifest.config = .seccompProfile ∨ manifest.artifactType = .seccompProfile) := by
    rw [packed.config, packed.artifactType]
    decide
  unfold selectLayer
  rw [if_neg limit, if_neg format]

theorem Packed.select_own (distinct : Distinct files) (few : files.length ≤ maxArtifactLayers)
    {platform wanted : Platform} {file : Str} (isFile : (some platform, file) ∈ files)
    (same : wanted.normalized = platform.normalized) :
    ∃ layer, pushedLayer env (some platform, file) = some layer ∧
      selectLayer manifest (some wanted) = .ok (layer, false) := by
  have os : wanted.os ≠ [] := by
    have sameOs : wanted.normalized.os = platform.normalized.os := congrArg Platform.os same
    change wanted.normalized.os ≠ []
    rw [sameOs]
    exact distinct.os platform file isFile
  obtain ⟨layer, pushed, found⟩ := packed.find_layer isFile
    (fun layer pushed => (boundTo_iff pushed).mpr (Or.inl (congrArg some same.symm)))
    fun other isOther layer pushed bound => by
      rcases (boundTo_iff pushed).mp bound with platforms | ⟨_, named⟩
      · exact distinct.same isOther isFile (platforms.trans (congrArg some same))
      · exact absurd named (profileName_ne_default os)
  refine ⟨layer, pushed, ?_⟩
  rw [packed.selectLayer_eq few]
  unfold selectByPlatform
  rw [Option.bind_some, found]

end

def Unbound (files : List (Option Platform × Str)) (wanted : Option Platform) : Prop :=
  ∀ platform file, (some platform, file) ∈ files → wanted.map Platform.normalized ≠ some platform.normalized

theorem Unbound.find (unbound : Unbound files wanted) (packed : Packed env files manifest)
    {layer : Descriptor Digest}
    (found : (wanted.bind fun platform => manifest.layers.find? (boundTo platform)) = some layer) :
    ∃ file, (none, file) ∈ files ∧ pushedLayer env (none, file) = some layer := by
  obtain ⟨platform, rfl, found⟩ := Option.bind_eq_some_iff.mp found
  obtain ⟨⟨bound, file⟩, isFile, pushed⟩ := packed.origin layer (mem_of_find?_eq_some found)
  rcases (boundTo_iff pushed).mp (find?_some found) with platforms | ⟨isNone, _⟩
  · obtain ⟨present, rfl, same⟩ := Option.map_eq_some_iff.mp platforms
    exact absurd (congrArg some same.symm) (unbound present file isFile)
  · cases isNone
    exact ⟨file, isFile, pushed⟩

section

variable (packed : Packed env files manifest)
include packed

theorem Packed.select_independent (distinct : Distinct files) (few : files.length ≤ maxArtifactLayers)
    {wanted : Option Platform} (unbound : Unbound files wanted) {file : Str} (isFile : (none, file) ∈ files) :
    ∃ layer, pushedLayer env (none, file) = some layer ∧ selectLayer manifest wanted = .ok (layer, false) := by
  rw [packed.selectLayer_eq few]
  unfold selectByPlatform
  cases found : wanted.bind fun platform => manifest.layers.find? (boundTo platform) with
  | some layer =>
    obtain ⟨other, isOther, pushed⟩ := unbound.find packed found
    cases distinct.same isOther isFile rfl
    exact ⟨layer, pushed, rfl⟩
  | none =>
    obtain ⟨layer, pushed, isDefault⟩ := packed.find_layer isFile
      (fun layer pushed => (independent_iff pushed).mpr rfl)
      fun other isOther layer pushed isIndependent =>
        distinct.same isOther isFile (by rw [(independent_iff pushed).mp isIndependent])
    refine ⟨layer, pushed, ?_⟩
    dsimp only
    rw [findSome?_cons, isDefault]

theorem Packed.select_error (few : files.length ≤ maxArtifactLayers) {wanted : Option Platform}
    (unbound : Unbound files wanted) (bound : ∀ file, (none, file) ∉ files) :
    ∃ error, selectLayer manifest wanted = .error error := by
  have platformOf : ∀ layer ∈ manifest.layers, ∃ platform, layer.platform = some platform ∧
      wanted.map Platform.normalized ≠ some platform.normalized := by
    intro layer isLayer
    obtain ⟨⟨platform, file⟩, isFile, pushed⟩ := packed.origin layer isLayer
    cases platform with
    | none => exact absurd isFile (bound file)
    | some platform => exact ⟨platform, (pushedLayer_some pushed).1, unbound platform file isFile⟩
  have notFound : (wanted.bind fun platform => manifest.layers.find? (boundTo platform)) = none := by
    cases found : wanted.bind fun platform => manifest.layers.find? (boundTo platform) with
    | none => rfl
    | some layer =>
      obtain ⟨file, isFile, _⟩ := unbound.find packed found
      exact absurd isFile (bound file)
  have noDefault : ∀ name, manifest.layers.find? (independent name) = none := by
    intro name
    refine find?_eq_none.mpr fun layer isLayer => ?_
    obtain ⟨platform, isPlatform, _⟩ := platformOf layer isLayer
    simp [independent, isPlatform]
  rw [packed.selectLayer_eq few]
  unfold selectByPlatform
  rw [notFound]
  dsimp only
  rw [findSome?_cons, noDefault, findSome?_cons, noDefault, findSome?_nil]
  dsimp only
  split
  next layer single =>
    obtain ⟨platform, isPlatform, other⟩ := platformOf layer (single ▸ mem_singleton_self layer)
    have mismatch : layerMatchesPlatform layer wanted = false := by
      unfold layerMatchesPlatform
      rw [isPlatform]
      cases wanted with
      | none => rfl
      | some wanted =>
        rw [Bool.eq_false_iff]
        intro isMatch
        exact other (congrArg some (platformMatches_iff.mp isMatch).symm)
    rw [mismatch]
    exact ⟨_, rfl⟩
  next => exact ⟨_, rfl⟩

theorem Packed.select_bound (distinct : Distinct files) (few : files.length ≤ maxArtifactLayers)
    {layer : Descriptor Digest} {runtimeFormat : Bool} {platform : Platform}
    (selected : selectLayer manifest wanted = .ok (layer, runtimeFormat)) (bound : layer.platform = some platform) :
    wanted.map Platform.normalized = some platform.normalized := by
  by_cases unbound : Unbound files wanted
  · by_cases independent : ∃ file, (none, file) ∈ files
    · obtain ⟨file, isFile⟩ := independent
      obtain ⟨other, pushed, isOther⟩ := packed.select_independent distinct few unbound isFile
      obtain ⟨rfl, _⟩ := Prod.mk.inj (Except.ok.inj (isOther.symm.trans selected))
      rw [(pushedLayer_some pushed).1] at bound
      cases bound
    · obtain ⟨error, failed⟩ := packed.select_error few unbound (not_exists.mp independent)
      cases failed.symm.trans selected
  · obtain ⟨present, rest⟩ := not_forall.mp unbound
    obtain ⟨file, rest⟩ := not_forall.mp rest
    obtain ⟨isFile, same⟩ := Classical.not_imp.mp rest
    obtain ⟨platform', rfl, isSame⟩ := Option.map_eq_some_iff.mp (not_not.mp same)
    obtain ⟨other, pushed, isOther⟩ := packed.select_own distinct few isFile isSame
    obtain ⟨rfl, _⟩ := Prod.mk.inj (Except.ok.inj (isOther.symm.trans selected))
    rw [(pushedLayer_some pushed).1] at bound
    obtain rfl := Option.some.inj bound
    exact congrArg some isSame

end

/-- From the manifest that is packed of profile files, a platform gets the layer of its own file. Any other one gets
the one of no platform if there is one, and an error otherwise, and never a layer that is bound to another
platform. -/
theorem selects_pushed_layer {skipValidation : Bool} (some' : files ≠ []) (few : files.length ≤ maxArtifactLayers)
    (crd : CrdProfiles env files) (distinct : Distinct files)
    (packed : packProfiles env skipValidation files = .ok manifest) :
    (∀ platform file, (some platform, file) ∈ files → ∀ wanted : Platform, wanted.normalized = platform.normalized →
      ∃ layer, pushedLayer env (some platform, file) = some layer ∧
        selectLayer manifest (some wanted) = .ok (layer, false)) ∧
    (∀ wanted, Unbound files wanted →
      (∀ file, (none, file) ∈ files → ∃ layer, pushedLayer env (none, file) = some layer ∧
        selectLayer manifest wanted = .ok (layer, false)) ∧
      ((∀ file, (none, file) ∉ files) → ∃ error, selectLayer manifest wanted = .error error)) ∧
    ∀ wanted layer runtimeFormat, selectLayer manifest wanted = .ok (layer, runtimeFormat) →
      ∀ platform, layer.platform = some platform → wanted.map Platform.normalized = some platform.normalized := by
  have isPacked := packed_of_packProfiles some' crd packed
  refine ⟨fun platform file isFile wanted same => isPacked.select_own distinct few isFile same,
    fun wanted unbound =>
    ⟨fun file isFile => isPacked.select_independent distinct few unbound isFile, isPacked.select_error few unbound⟩,
    ?_⟩
  exact fun wanted layer runtimeFormat selected platform bound => isPacked.select_bound distinct few selected bound

end pushed

section arm

/-- An environment in which everything works and the digest of a file is its path. -/
def plainEnvironment : Environment Str Str where
  filepathAbs := some
  readFile := some
  runtimeSpec _ := some false
  accepted _ := true
  digest := some
  emptyDigest := []
  annotates := true
  pushesConfig := true
  packs := true

def armPlatform : Platform := ⟨"linux".toList, "arm64".toList, [], []⟩

def armFiles : List (Option Platform × Str) := [(some armPlatform, "arm".toList), (none, "any".toList)]

def armManifest : Manifest Str where
  config := .emptyJSON
  artifactType := .unknownConfig
  layers := [⟨.imageLayer, "arm".toList, some "profile-linux-arm64.yaml".toList, some armPlatform⟩,
    ⟨.imageLayer, "any".toList, some "profile.yaml".toList, none⟩]

/-- The default variant of a platform gets the layer of its file. -/
theorem arm_selected : packProfiles plainEnvironment false armFiles = .ok armManifest ∧
    ∃ layer, pushedLayer plainEnvironment (some armPlatform, "arm".toList) = some layer ∧
      selectLayer armManifest (some { armPlatform with variant := "v8".toList }) = .ok (layer, false) := by
  have packed : packProfiles plainEnvironment false armFiles = .ok armManifest := by decide
  have crd : CrdProfiles plainEnvironment armFiles := fun _ _ _ _ _ _ => rfl
  have distinct : Distinct armFiles := by
    refine ⟨fun platform file isFile => ?_, by decide⟩
    have isArm : platform = armPlatform := by
      rcases mem_cons.mp isFile with same | other
      · exact Option.some.inj (Prod.mk.inj same).1
      · cases (Prod.mk.inj (mem_singleton.mp other)).1
    rw [isArm]
    decide
  refine ⟨packed, ?_⟩
  exact (selects_pushed_layer (by decide) (by decide) crd distinct packed).1 armPlatform _
    mem_cons_self _ (by decide)

/-- Without any file there is an empty layer, which every platform gets. -/
theorem empty_selected : ∃ manifest : Manifest Str, packProfiles plainEnvironment false [] = .ok manifest ∧
    selectLayer manifest (some armPlatform) = .ok (⟨.emptyJSON, [], none, none⟩, false) :=
  ⟨⟨.emptyJSON, .unknownConfig, [⟨.emptyJSON, [], none, none⟩]⟩, by decide, by decide⟩

end arm

end SecurityProfiles.Artifact
