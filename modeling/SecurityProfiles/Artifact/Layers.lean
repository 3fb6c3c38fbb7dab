import SecurityProfiles.AppArmor.Abstract

namespace SecurityProfiles.Artifact

structure Platform where
  os : Str
  architecture : Str
  variant : Str
  osVersion : Str
deriving DecidableEq

/-- `normalizeVariant` makes the default variant explicit or omits it, like containerd. -/
def normalizeVariant (architecture variant : Str) : Str :=
  if architecture = "arm64".toList then if variant = "v8".toList then [] else variant
  else if architecture = "arm".toList then if variant = [] then "v7".toList else variant
  else if architecture = "amd64".toList then if variant = "v1".toList then [] else variant
  else variant

def platformMatches (present wanted : Platform) : Bool :=
  present.os = wanted.os && present.architecture = wanted.architecture &&
    normalizeVariant present.architecture present.variant = normalizeVariant wanted.architecture wanted.variant &&
    present.osVersion = wanted.osVersion

/-- `profileName` is the name of the layer for the platform. -/
def profileName (platform : Option Platform) : Str :=
  "profile".toList ++
    (platform.elim [] fun platform =>
      ([platform.os, platform.architecture, platform.variant, platform.osVersion].filter (· ≠ [])).flatMap
        ('-' :: ·)) ++
    ".yaml".toList

def platformToString : Option Platform → Str
  | none => []
  | some platform =>
    platform.os ++ ([platform.architecture, platform.variant].filter (· ≠ [])).flatMap ('/' :: ·) ++
      if platform.osVersion = [] then [] else ':' :: platform.osVersion

def defaultProfileYAML : Str := "profile.yaml".toList

def defaultProfileJSON : Str := "profile.json".toList

def maxArtifactLayers : Nat := 128

inductive MediaType where
  | seccompProfile
  | unknownConfig
  | emptyJSON
  | imageLayer
  | json
deriving DecidableEq

/-- A layer, with the digest of its content and the title among its annotations. -/
structure Descriptor (Digest : Type) where
  mediaType : MediaType
  digest : Digest
  title : Option Str
  platform : Option Platform
deriving DecidableEq

structure Manifest (Digest : Type) where
  config : MediaType
  artifactType : MediaType
  layers : List (Descriptor Digest)
deriving DecidableEq

inductive PushError where
  | absolutePath
  | readProfile
  | decodeProfile
  | runtimeRestrictions
  | mixedProfileFormats
  | multipleRuntimeSpecProfiles
  | addProfile
  | annotations
  | pushConfig
  | packFiles
deriving DecidableEq

/-- What packing depends on: the paths and contents of the files, whether a content is a runtime profile and whether
the runtimes accept it, the digests of the files, and which of the other calls work. -/
structure Environment (Content Digest : Type) where
  filepathAbs : Str → Option Str
  readFile : Str → Option Content
  runtimeSpec : Content → Option Bool
  accepted : Content → Bool
  digest : Str → Option Digest
  emptyDigest : Digest
  annotates : Bool
  pushesConfig : Bool
  packs : Bool

structure ProfileEntry where
  platform : Option Platform
  absPath : Str
  name : Str
  layerMediaType : MediaType
  runtimeSpec : Bool

section push

variable {Content Digest : Type} (env : Environment Content Digest)

/-- The entry of a file. A runtime profile is neither named nor tagged for a platform. -/
def profileEntry (skipValidation : Bool) (file : Option Platform × Str) : Except PushError ProfileEntry :=
  match env.filepathAbs file.2 with
  | none => .error .absolutePath
  | some absPath =>
    match env.readFile absPath with
    | none => .error .readProfile
    | some content =>
      match env.runtimeSpec content with
      | none => .error .decodeProfile
      | some false => .ok ⟨file.1, absPath, profileName file.1, .imageLayer, false⟩
      | some true =>
        if skipValidation || env.accepted content then .ok ⟨none, absPath, defaultProfileJSON, .json, true⟩
        else .error .runtimeRestrictions

/-- The entries in the order of their names, and the number of runtime profiles. -/
def profileEntries (skipValidation : Bool) (files : List (Option Platform × Str)) :
    Except PushError (List ProfileEntry × Nat) := do
  let entries ← files.mapM (profileEntry env skipValidation)
  return (entries.insertionSort (fun first second => first.name ≤ second.name), entries.countP (·.runtimeSpec))

/-- The files are added to a store, which has one file for a name. -/
def addProfiles (names : List Str) : List ProfileEntry → Except PushError (List (Descriptor Digest))
  | [] => .ok []
  | entry :: rest =>
    if entry.name ∈ names then .error .addProfile
    else
      match env.digest entry.absPath with
      | none => .error .addProfile
      | some digest => do
          let layers ← addProfiles (entry.name :: names) rest
          return ⟨entry.layerMediaType, digest, some entry.name, entry.platform⟩ :: layers

/-- A manifest without layers gets an empty one. -/
def packManifest (config artifactType : MediaType) (layers : List (Descriptor Digest)) :
    Except PushError (Manifest Digest) :=
  if env.packs then
    .ok ⟨config, artifactType, if layers = [] then [⟨.emptyJSON, env.emptyDigest, none, none⟩] else layers⟩
  else .error .packFiles

def packProfiles (skipValidation : Bool) (files : List (Option Platform × Str)) :
    Except PushError (Manifest Digest) := do
  let (entries, runtimeSpecProfiles) ← profileEntries env skipValidation files
  if runtimeSpecProfiles > 0 ∧ runtimeSpecProfiles ≠ files.length then .error .mixedProfileFormats
  else if runtimeSpecProfiles > 1 then .error .multipleRuntimeSpecProfiles
  else do
    let layers ← addProfiles env [] entries
    if env.annotates then
      if runtimeSpecProfiles > 0 then
        if env.pushesConfig then packManifest env .seccompProfile .seccompProfile layers else .error .pushConfig
      else packManifest env .emptyJSON .unknownConfig layers
    else .error .annotations

end push

inductive SelectError where
  | tooManyLayers (got : Nat)
  | noSingleLayer (got : Nat)
  | platformMismatch (title platform : Str)
deriving DecidableEq

/-- `platformQualifiedName` matches the names of layers for a platform. -/
def platformQualifiedName (name : Str) : Bool :=
  "profile-".toList.isPrefixOf name && ".yaml".toList.isSuffixOf name && name.length > 13 &&
    '\n' ∉ (name.drop 8).take (name.length - 13)

section select

variable {Digest : Type}

def Descriptor.name (layer : Descriptor Digest) : Str := layer.title.getD []

def layerMatchesPlatform (layer : Descriptor Digest) (platform : Option Platform) : Bool :=
  match layer.platform with
  | none => !platformQualifiedName layer.name
  | some present => platform.any (platformMatches present)

def boundTo (platform : Platform) (layer : Descriptor Digest) : Bool :=
  match layer.platform with
  | some present => platformMatches present platform
  | none => layer.name = profileName (some platform)

def independent (name : Str) (layer : Descriptor Digest) : Bool := layer.platform = none && layer.name = name

/-- The layer of the platform is preferred, then the one that is independent of it, and then the only one. -/
def selectByPlatform (layers : List (Descriptor Digest)) (platform : Option Platform) :
    Except SelectError (Descriptor Digest × Bool) :=
  match platform.bind fun platform => layers.find? (boundTo platform) with
  | some layer => .ok (layer, false)
  | none =>
    match [defaultProfileYAML, defaultProfileJSON].findSome? fun name => layers.find? (independent name) with
    | some layer => .ok (layer, false)
    | none =>
      match layers with
      | [layer] =>
        if layerMatchesPlatform layer platform then .ok (layer, false)
        else .error (.platformMismatch layer.name (platformToString layer.platform))
      | layers => .error (.noSingleLayer layers.length)

/-- `selectLayer` also tells whether the artifact has the runtime format. -/
def selectLayer (manifest : Manifest Digest) (platform : Option Platform) :
    Except SelectError (Descriptor Digest × Bool) :=
  if manifest.layers.length > maxArtifactLayers then .error (.tooManyLayers manifest.layers.length)
  else if manifest.config = .seccompProfile ∨ manifest.artifactType = .seccompProfile then
    match manifest.layers with
    | [layer] => .ok (layer, true)
    | layers => .error (.noSingleLayer layers.length)
  else selectByPlatform manifest.layers platform

end select

end SecurityProfiles.Artifact
