import SecurityProfiles.Files.Owner

namespace SecurityProfiles.Files

open Naming (ProfileState initialState)
open Faulty

/-- A change of a file: the profile that it is made for, the new content unless the file is removed, and the
profiles of the cluster at that time. -/
structure FileChange where
  changedFor : ObjectName
  content : Option Str
  profiles : Profiles

/-- What a reconcile works on: the profiles of the cluster, the files and statuses of the node, and the changes of
files. -/
structure Node where
  profiles : Profiles
  files : SortedMap Str Str
  statuses : SortedMap Str ProfileState
  changes : List FileChange

/-- What becomes of the content of a profile. -/
inductive Built where
  | failed
  | rejected
  | content (text : Str)

/-- A reconcile: the profile that it is for, what the cache tells about the sibling, if it can be read, and what is
built from the profile. -/
structure Request where
  name : Str
  cached : Option (Option Profile)
  built : Built

inductive Result where
  | done
  | requeue
  | failed

/-- The profiles with one of them changed, but not its name. -/
def Profiles.setFinalizer (profiles : Profiles) (name : Str) (hasFinalizer : Bool) : Profiles :=
  match found : profiles.get? name with
  | none => profiles
  | some profile =>
    { entries := profiles.entries.insert name { profile with hasFinalizer }
      named := fun other profile' isProfile => by
        by_cases same : other = name
        · subst same
          rw [SortedMap.lookup_insert_self] at isProfile
          cases isProfile
          exact profiles.named other profile found
        · rw [SortedMap.lookup_insert_ne _ _ same] at isProfile
          exact profiles.named _ _ isProfile }

section calls

variable (profile : Profile)

/-- The other profile that owns the file, or none in case of an error. -/
def fileOwner : Faulty Node (Option (Option Profile)) :=
  query fun node => ownerOf profile (node.profiles.get? (siblingName profile.name.value))

def readFile : Faulty Node (Option (Option Str)) :=
  query fun node => node.files.lookup (profileFile profile.name.value)

def writeFile (content : Str) : Faulty Node Bool :=
  change fun node => { node with
    files := node.files.insert (profileFile profile.name.value) content
    changes := ⟨profile.name, some content, node.profiles⟩ :: node.changes }

def removeFile : Faulty Node Bool :=
  change fun node => { node with
    files := node.files.erase (profileFile profile.name.value)
    changes := ⟨profile.name, none, node.profiles⟩ :: node.changes }

def getStatus : Faulty Node (Option (Option ProfileState)) :=
  query fun node => node.statuses.lookup profile.name.value

def setNodeStatus (state : ProfileState) : Faulty Node Bool :=
  change fun node => { node with statuses := node.statuses.insert profile.name.value state }

def removeNodeStatus : Faulty Node Bool :=
  change fun node => { node with statuses := node.statuses.erase profile.name.value }

def setFinalizer (hasFinalizer : Bool) : Faulty Node Bool :=
  change fun node => { node with profiles := node.profiles.setFinalizer profile.name.value hasFinalizer }

end calls

/-- The result of the last call of a reconcile. -/
def finish (result : Result) (succeeded : Bool) : Result := if succeeded then result else .failed

section reconciler

variable (profile : Profile)

/-- Keep the file if another profile owns it. -/
def handleDeletion : Faulty Node Bool := do
  match ← fileOwner profile with
  | none => pure false
  | some (some _) => pure true
  | some none => removeFile profile

def fileDiffers (content : Str) : Faulty Node Bool := do
  match ← readFile profile with
  | some (some existing) => pure (existing ≠ content)
  | _ => pure true

def saveProfileOnDisk (content : Str) : Faulty Node Bool := do
  if ← fileDiffers profile content then writeFile profile content else pure true

inductive FileCheck where
  | failed
  | conflict
  | upToDate
  | free

/-- Look for the owner of the file. -/
def checkOwner : Faulty Node FileCheck := do
  match ← fileOwner profile with
  | none => pure .failed
  | some none => pure .free
  | some (some _) => if ← setNodeStatus profile .error then pure .conflict else pure .failed

/-- The owner only matters if the cache shows a sibling or the file changes. -/
def handleFileConflict (cached : Option (Option Profile)) (content : Str) : Faulty Node FileCheck := do
  match cached with
  | none => pure .failed
  | some found =>
    if (siblingOf profile found).isSome then checkOwner profile
    else if ← fileDiffers profile content then checkOwner profile
    else pure .upToDate

def writeProfile (cached : Option (Option Profile)) (content : Str) : Faulty Node Result := do
  match ← handleFileConflict profile cached content with
  | .failed => pure .failed
  | .conflict => pure .requeue
  | .upToDate => pure .done
  | .free => finish .done <$> saveProfileOnDisk profile content

def rejectProfile : Faulty Node Result := do
  if ← handleDeletion profile then finish .done <$> setNodeStatus profile .error else pure .failed

/-- Whether the status had to be created, which ends the reconcile, or none in case of an error. -/
def ensureNodeStatus : Faulty Node (Option Bool) := do
  match ← getStatus profile with
  | none => pure none
  | some status =>
    if status.isSome && profile.hasFinalizer then pure (some false)
    else if ← setFinalizer profile true then
      if ← setNodeStatus profile (initialState profile.disabled profile.isPartial none) then pure (some true)
      else pure none
    else pure none

def markInstalled : Faulty Node Result := do
  match ← getStatus profile with
  | none => pure .failed
  | some status =>
    if status = some .installed then pure .done else finish .done <$> setNodeStatus profile .installed

def reconcileDisabled : Faulty Node Result := do
  match ← getStatus profile with
  | none => pure .failed
  | some status =>
    if status = some .disabled then pure .done
    else if profile.inUse then pure .requeue
    else if ← handleDeletion profile then finish .done <$> setNodeStatus profile .disabled
    else pure .failed

def removeProfile : Faulty Node Result := do
  if ← handleDeletion profile then
    if ← setFinalizer profile false then finish .done <$> removeNodeStatus profile
    else pure .failed
  else pure .failed

def reconcileDeletion : Faulty Node Result := do
  if !profile.hasFinalizer then pure .done
  else match ← getStatus profile with
    | none => pure .failed
    | some status =>
      if status ≠ none ∧ status ≠ some .terminating then finish .requeue <$> setNodeStatus profile .terminating
      else if profile.inUse then pure .requeue
      else removeProfile profile

def reconcileSeccompProfile (request : Request) : Faulty Node Result := do
  if profile.deleting then reconcileDeletion profile
  else match ← ensureNodeStatus profile with
    | none => pure .failed
    | some true => pure .requeue
    | some false =>
      if !profile.isReconcilable then
        if profile.disabled && !profile.isPartial then reconcileDisabled profile else pure .done
      else match request.built with
        | .failed => pure .failed
        | .rejected => rejectProfile profile
        | .content content => do
            match ← writeProfile profile request.cached content with
            | .done => markInstalled profile
            | result => pure result

end reconciler

def reconcile (request : Request) : Faulty Node Result := do
  match ← query fun node => node.profiles.get? request.name with
  | none => pure .failed
  | some none => pure .done
  | some (some profile) => reconcileSeccompProfile profile request

/-- What can happen: a reconcile, or any change of the profiles by others. -/
inductive Step where
  | reconcile (request : Request)
  | update (profiles : Profiles)

def step : Step → Faulty Node Unit
  | .reconcile request => (fun _ => ()) <$> reconcile request
  | .update profiles => (fun _ => ()) <$> change fun node => { node with profiles }

section owners

variable {profiles : Profiles} {profile : Profile}

/-- While the file changed, no other profile owned it. -/
def FileChange.Fair (change : FileChange) : Prop :=
  ∀ owner, owner.name ≠ change.changedFor → profileFile owner.name.value = profileFile change.changedFor.value →
    ¬change.profiles.Owns owner

def AllFair (node : Node) : Prop := ∀ change ∈ node.changes, change.Fair

/-- No other profile owns the file of the profile. -/
def Unowned (profiles : Profiles) (profile : Profile) : Prop :=
  ∀ owner, owner.name ≠ profile.name → profileFile owner.name.value = profileFile profile.name.value →
    ¬profiles.Owns owner

/-- All changes are fair, and the profiles are the given ones. -/
def FairWith (profiles : Profiles) (node : Node) : Prop := AllFair node ∧ node.profiles = profiles

theorem keeps_finish {inv : Node → Prop} {program : Faulty Node Bool} (result : Result)
    (keeps : Keeps inv program fun _ => True) : Keeps inv (finish result <$> program) fun _ => True :=
  Keeps.bind keeps fun _ _ => .done

theorem keeps_setNodeStatus (state : ProfileState) :
    Keeps (FairWith profiles) (setNodeStatus profile state) fun _ => True := Keeps.change fun _ kept => kept

theorem keeps_changeFile (unowned : Unowned profiles profile) (content : Option Str)
    (effect : SortedMap Str Str → SortedMap Str Str) :
    Keeps (FairWith profiles) (change fun node => { node with
      files := effect node.files
      changes := ⟨profile.name, content, node.profiles⟩ :: node.changes }) fun _ => True := by
  refine Keeps.change fun node kept => ⟨List.forall_mem_cons.mpr ⟨?_, kept.1⟩, kept.2⟩
  rw [kept.2]
  exact unowned

theorem keeps_fileDiffers (content : Str) : Keeps (FairWith profiles) (fileDiffers profile content) fun _ => True :=
  Keeps.ifFound .ask .done .done fun _ _ => .done

section

variable (isProfile : profiles.get? profile.name.value = some profile)
include isProfile

theorem fileOwner_spec : Keeps (FairWith profiles) (fileOwner profile) fun told =>
    told = some none → Unowned profiles profile := by
  refine Keeps.query nofun fun node kept isNone owner different shares owns => ?_
  have found := (ownerOf_eq_some_iff isProfile).mpr ⟨different, shares, owns⟩
  rw [← kept.2, Option.some.inj isNone] at found
  cases found

theorem keeps_handleDeletion : Keeps (FairWith profiles) (handleDeletion profile) fun _ => True := by
  refine Keeps.bind (fileOwner_spec isProfile) fun told unowned => ?_
  match told with
  | none => exact .done
  | some (some _) => exact .done
  | some none => exact keeps_changeFile (unowned rfl) none (·.erase _)

theorem checkOwner_spec : Keeps (FairWith profiles) (checkOwner profile) fun check =>
    check = .free → Unowned profiles profile := by
  refine Keeps.bind (fileOwner_spec isProfile) fun told unowned => ?_
  match told with
  | none => exact Keeps.pure nofun
  | some none => exact Keeps.pure fun _ => unowned rfl
  | some (some _) => exact (keeps_setNodeStatus _).ifDone (Keeps.pure nofun) (Keeps.pure nofun)

theorem handleFileConflict_spec (cached : Option (Option Profile)) (content : Str) :
    Keeps (FairWith profiles) (handleFileConflict profile cached content) fun check =>
      check = .free → Unowned profiles profile := by
  cases cached with
  | none => exact Keeps.pure nofun
  | some found =>
    unfold handleFileConflict
    dsimp only
    split
    · exact checkOwner_spec isProfile
    · exact (keeps_fileDiffers content).ifDone (Keeps.pure nofun) (checkOwner_spec isProfile)

theorem keeps_writeProfile (cached : Option (Option Profile)) (content : Str) :
    Keeps (FairWith profiles) (writeProfile profile cached content) fun _ => True := by
  refine Keeps.bind (handleFileConflict_spec isProfile cached content) fun check unowned => ?_
  cases check with
  | failed => exact .done
  | conflict => exact .done
  | upToDate => exact .done
  | free =>
    refine keeps_finish _ ((keeps_fileDiffers content).ifDone .done ?_)
    exact keeps_changeFile (unowned rfl) (some content) (·.insert _ content)

theorem keeps_reconcileDisabled : Keeps (FairWith profiles) (reconcileDisabled profile) fun _ => True := by
  refine Keeps.ifSome .ask .done fun status _ => ?_
  dsimp only
  split
  · exact .done
  split
  · exact .done
  · exact (keeps_handleDeletion isProfile).ifDone .done (keeps_finish _ (keeps_setNodeStatus _))

end

theorem keeps_markInstalled : Keeps (FairWith profiles) (markInstalled profile) fun _ => True := by
  refine Keeps.ifSome .ask .done fun status _ => ?_
  dsimp only
  split
  · exact .done
  · exact keeps_finish _ (keeps_setNodeStatus _)

/-- From the given profiles on, the program keeps all changes fair. The finalizers change the profiles, but no
file. -/
abbrev KeepsFair {α : Type} (profiles : Profiles) (program : Faulty Node α) : Prop :=
  Triple AllFair (fun node => node.profiles = profiles) program fun _ _ => True

theorem KeepsFair.of_keeps {α : Type} {program : Faulty Node α}
    (keeps : Keeps (FairWith profiles) program fun _ => True) :
    KeepsFair profiles program := keeps.framed.imp (fun _ _ same => same) fun _ _ _ _ => trivial

theorem keepsFair_removeProfile (isProfile : profiles.get? profile.name.value = some profile) :
    KeepsFair profiles (removeProfile profile) := by
  refine Triple.bind (keeps_handleDeletion isProfile).framed fun removed => Keeps.weaken ?_
  cases removed with
  | false => exact .done
  | true =>
    exact Keeps.ifDone (Keeps.change fun _ fair => fair) .done (keeps_finish _ (Keeps.change fun _ fair => fair))

theorem keepsFair_reconcileDeletion (isProfile : profiles.get? profile.name.value = some profile) :
    KeepsFair profiles (reconcileDeletion profile) := by
  unfold reconcileDeletion
  split
  · exact KeepsFair.of_keeps .done
  refine Triple.bind Keeps.ask.framed fun told => ?_
  cases told with
  | none => exact KeepsFair.of_keeps .done
  | some status =>
    dsimp only
    split
    · exact KeepsFair.of_keeps (keeps_finish _ (keeps_setNodeStatus _))
    split
    · exact KeepsFair.of_keeps .done
    · exact keepsFair_removeProfile isProfile

/-- The reconcile goes on only if the profiles are as before. -/
theorem ensureNodeStatus_spec :
    Triple AllFair (fun node => node.profiles = profiles) (ensureNodeStatus profile) fun created node =>
      created = some false → node.profiles = profiles := by
  refine Triple.bind Keeps.ask.framed fun told => ?_
  cases told with
  | none => exact Triple.pure fun _ _ same _ => same
  | some status =>
    dsimp only
    split
    · exact Triple.pure fun _ _ same _ => same
    refine Triple.imp (Keeps.weaken (Keeps.ifDone (Keeps.change fun _ fair => fair) (Keeps.pure ?_)
      (Keeps.ifDone (Keeps.change fun _ fair => fair) (Keeps.pure ?_) (Keeps.pure ?_)))) (fun _ _ same => same)
      fun created _ _ (other : created ≠ some false) same => absurd same other
    all_goals exact nofun

/-- A reconcile changes the file of the profile only while no other profile owns it, wherever it is stopped. -/
theorem keepsFair_reconcileSeccompProfile (isProfile : profiles.get? profile.name.value = some profile)
    (request : Request) : KeepsFair profiles (reconcileSeccompProfile profile request) := by
  unfold reconcileSeccompProfile
  split
  · exact keepsFair_reconcileDeletion isProfile
  refine Triple.bind ensureNodeStatus_spec fun created => ?_
  match created with
  | none => exact Triple.pure fun _ _ _ => trivial
  | some true => exact Triple.pure fun _ _ _ => trivial
  | some false =>
    refine Triple.imp (KeepsFair.of_keeps ?_) (fun _ _ same => same rfl) fun _ _ _ holds => holds
    dsimp only
    split
    · split
      · exact keeps_reconcileDisabled isProfile
      · exact .done
    · cases request.built with
      | failed => exact .done
      | rejected => exact (keeps_handleDeletion isProfile).ifDone .done (keeps_finish _ (keeps_setNodeStatus _))
      | content content =>
        refine Keeps.bind (keeps_writeProfile isProfile request.cached content) fun result _ => ?_
        cases result with
        | done => exact keeps_markInstalled
        | requeue => exact .done
        | failed => exact .done

theorem keepsFair_reconcile (request : Request) : KeepsFair profiles (reconcile request) := by
  refine Triple.asks Node.profiles (fun profiles => profiles.get? request.name) .done ?_
  cases found : profiles.get? request.name with
  | none => exact .done
  | some profile =>
    refine keepsFair_reconcileSeccompProfile ?_ request
    rw [profiles.named _ _ found]
    exact found

theorem step_keepsFair (next : Step) : Triple AllFair (fun _ => True) (step next) fun _ _ => True := by
  cases next with
  | reconcile request =>
    refine Triple.bind (Triple.starting Node.profiles fun profiles => keepsFair_reconcile request) fun _ => ?_
    exact Triple.pure fun _ _ _ => trivial
  | update profiles => exact Triple.bind (Keeps.change fun _ fair => fair) fun _ => Triple.pure fun _ _ _ => trivial

end owners

/-- A profile file has one owner. Two names have one file exactly if each is the sibling of the other. Of two active
profiles with one file exactly one owns it, and that is the owner that the reconciler finds for every other profile
with the file. However reconciles of profiles and changes of them follow each other, a profile neither writes nor
removes a file while another profile owns it. -/
theorem file_has_one_owner :
    (∀ first second : ObjectName, first ≠ second → (profileFile first.value = profileFile second.value ↔
      siblingName first.value = second.value ∧ siblingName second.value = first.value)) ∧
    (∀ (profiles : Profiles) (first second : Profile), profiles.get? first.name.value = some first →
      profiles.get? second.name.value = some second → first.name ≠ second.name →
      profileFile first.name.value = profileFile second.name.value → first.isActive = true →
      second.isActive = true →
      (profiles.Owns first ∧ ¬profiles.Owns second) ∨ (¬profiles.Owns first ∧ profiles.Owns second)) ∧
    (∀ (profiles : Profiles) (profile other : Profile), profiles.get? profile.name.value = some profile →
      (ownerOf profile (profiles.get? (siblingName profile.name.value)) = some other ↔ other.name ≠ profile.name ∧
        profileFile other.name.value = profileFile profile.name.value ∧ profiles.Owns other)) ∧
    (∀ (start final : Node) (steps : List Step), start.changes = [] → Runs step start steps final →
      ∀ change ∈ final.changes, ∀ owner, owner.name ≠ change.changedFor →
        profileFile owner.name.value = profileFile change.changedFor.value → ¬change.profiles.Owns owner) := by
  refine ⟨fun first second different => ?_, fun _ _ _ => owns_exclusive, fun _ _ _ => ownerOf_eq_some_iff, ?_⟩
  · exact profileFile_eq_iff fun same => different (ObjectName.value_injective same)
  · intro start final steps unchanged run
    refine run.keeps (fun next _ => step_keepsFair next) ?_
    intro change member
    rw [unchanged] at member
    cases member

end SecurityProfiles.Files
