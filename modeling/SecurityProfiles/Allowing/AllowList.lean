import SecurityProfiles.Allowing.Resolve

namespace SecurityProfiles.Allowing

open List

/-- The part of the configuration that restricts seccomp profiles. -/
structure SPODSecurityConfig where
  allowedSyscalls : List String
  allowedSeccompActions : List Action
deriving DecidableEq

inductive AllowError where
  | forbiddenSyscall (name : String)
  | forbiddenProfile
  | forbiddenAction (action : Action)

def checkableActions : List Action := [.allow, .log, .trace, .notify]

def checkedActions (allowedActions : List Action) : Except AllowError (List Action) :=
  if allowedActions = [] then .ok checkableActions
  else
    match allowedActions.find? (· ∉ checkableActions) with
    | some action => .error (.forbiddenAction action)
    | none => .ok allowedActions

def actionCalls (profile : SeccompProfile) (action : Action) : List String :=
  (profile.syscalls.filter fun call => call.action = action).flatMap (·.names)

def allowAction (profile : SeccompProfile) (allowedSyscalls : List String) (action : Action) :
    Except AllowError Unit :=
  match (actionCalls profile action).find? (· ∉ allowedSyscalls) with
  | some call => .error (.forbiddenSyscall call)
  | none => if profile.defaultAction = action && allowedSyscalls ≠ [] then .error .forbiddenProfile else .ok ()

def allowProfile (profile : SeccompProfile) (config : SPODSecurityConfig) : Except AllowError Unit := do
  let allowedActions ← checkedActions config.allowedSeccompActions
  allowedActions.forM (allowAction profile config.allowedSyscalls)

section reconcile

variable (union : List Syscall → List Syscall → Except SeccompError (List Syscall))

/-- Profiles whose base profiles cannot be resolved here are left to the daemons. -/
def notAllowed (store : Store) (config : SPODSecurityConfig) (profile : SeccompProfile) : Bool :=
  if profile.deleting then false
  else
    match resolveLocalSyscalls union store profile with
    | .error _ => false
    | .ok syscalls =>
      match allowProfile { profile with syscalls := syscalls } config with
      | .ok _ => false
      | .error _ => true

/-- A profile with finalizers is marked as one that is being deleted. -/
def Store.delete (store : Store) (name : Str) : Store :=
  match found : store.profiles.lookup name with
  | none => store
  | some profile =>
    if profile.finalizers = [] then
      { profiles := store.profiles.erase name
        named := fun other profile lookup =>
          store.named other profile (SortedMap.lookup_erase_eq_some.mp lookup).2 }
    else
      { profiles := store.profiles.insert name { profile with deleting := true }
        named := fun other profile' lookup => by
          rw [SortedMap.lookup_insert] at lookup
          split at lookup
          · next same =>
              rw [← Option.some.inj lookup, same]
              exact store.named name profile found
          · exact store.named other profile' lookup }

/-- The profiles are deleted one after the other. Those that could not be deleted are reported. -/
def deleteRejected (failing : Str → Bool) (store : Store) : List SeccompProfile → Store × List Str
  | [] => (store, [])
  | profile :: rest =>
    if failing profile.name then
      let (after, errors) := deleteRejected failing store rest
      (after, profile.name :: errors)
    else deleteRejected failing (store.delete profile.name) rest

/-- All profiles are checked before any is deleted. -/
def reconcileAllowList (failing : Str → Bool) (store : Store) (config : Option SPODSecurityConfig)
    (listed : Option (List SeccompProfile)) : Store × List Str :=
  match config with
  | none => (store, [])
  | some config =>
    if config.allowedSyscalls = [] then (store, [])
    else
      match checkedActions config.allowedSeccompActions, listed with
      | .error _, _ => (store, [])
      | .ok _, none => (store, [])
      | .ok _, some profiles => deleteRejected failing store (profiles.filter (notAllowed union store config))

inductive ValidationError where
  | resolving (error : DaemonError)
  | notAllowed (error : AllowError)

def validateProfile (config : SPODSecurityConfig) (profile : SeccompProfile) : Except AllowError Unit :=
  if config.allowedSyscalls ≠ [] then allowProfile profile config else .ok ()

/-- The daemon merges the base profiles into a profile before it validates it. -/
def validateMerged (pullBaseProfile : Pull) (store : Store) (config : SPODSecurityConfig)
    (profile : SeccompProfile) :
    Except ValidationError Unit :=
  match resolveSyscallsForProfile union store pullBaseProfile profile profile.syscalls 0 with
  | .error error => .error (.resolving error)
  | .ok (syscalls, _) =>
    match validateProfile config { profile with syscalls := syscalls } with
    | .error error => .error (.notAllowed error)
    | .ok () => .ok ()

end reconcile

section deletions

variable {union : List Syscall → List Syscall → Except SeccompError (List Syscall)} {failing : Str → Bool}
  {store : Store}

def deletedProfile (profile : SeccompProfile) : Option SeccompProfile :=
  if profile.finalizers = [] then none else some { profile with deleting := true }

theorem get?_delete (store : Store) (name other : Str) :
    (store.delete name).get? other =
      if other = name then (store.get? name).bind deletedProfile else store.get? other := by
  unfold Store.delete
  split
  · next missing =>
      split
      · next same => rw [same, Store.get?, missing]; rfl
      · rfl
  · next profile found =>
      by_cases plain : profile.finalizers = []
      · simp only [plain, if_true, Store.get?, found, Option.bind_some, deletedProfile]
        split
        · next same =>
            refine Option.eq_none_iff_forall_ne_some.mpr fun value lookup => ?_
            exact (SortedMap.lookup_erase_eq_some.mp lookup).1 same
        · next different => exact SortedMap.lookup_erase_ne _ different
      · simp only [plain, if_false, Store.get?, found, Option.bind_some, deletedProfile]
        split
        · next same => rw [same, SortedMap.lookup_insert_self]
        · next different => exact store.profiles.lookup_insert_ne _ different

theorem deletedProfile_twice (found : Option SeccompProfile) :
    (found.bind deletedProfile).bind deletedProfile = found.bind deletedProfile := by
  cases found with
  | none => rfl
  | some profile =>
    by_cases plain : profile.finalizers = [] <;> simp [deletedProfile, plain]

/-- The profiles that are told to be deleted are, unless that fails. -/
theorem get?_deleteRejected (rejected : List SeccompProfile) (store : Store) (name : Str) :
    (deleteRejected failing store rejected).1.get? name =
      if (rejected.any fun profile => profile.name = name) && !failing name then (store.get? name).bind
        deletedProfile
      else store.get? name := by
  induction rejected generalizing store with
  | nil => rfl
  | cons profile rest ih =>
    unfold deleteRejected
    split
    · next fails =>
        simp only [ih, any_cons]
        by_cases same : profile.name = name
        · rw [← same, fails]
          simp
        · simp [same]
    · next succeeds =>
        rw [ih, get?_delete, any_cons]
        by_cases same : name = profile.name
        · rw [same]
          simp [succeeds, deletedProfile_twice]
        · simp [same, Ne.symm same]

/-- Whether a profile is rejected is told by the store and the configuration. -/
def rejected (union : List Syscall → List Syscall → Except SeccompError (List Syscall)) (store : Store)
    (config : SPODSecurityConfig) (name : Str) : Bool :=
  config.allowedSyscalls ≠ [] && (checkedActions config.allowedSeccompActions).isOk &&
    (store.get? name).any (notAllowed union store config)

/-- The listed profiles are those of the store, in any order. -/
def Lists (store : Store) (listed : List SeccompProfile) : Prop :=
  ∀ profile, profile ∈ listed ↔ store.get? profile.name = some profile

theorem any_rejected {config : SPODSecurityConfig} {listed : List SeccompProfile} (lists : Lists store listed)
    (name : Str) : ((listed.filter (notAllowed union store config)).any fun profile => profile.name = name) =
      (store.get? name).any (notAllowed union store config) := by
  rw [Bool.eq_iff_iff, any_eq_true, Option.any_eq_true]
  constructor
  · rintro ⟨profile, member, named⟩
    obtain ⟨isListed, isRejected⟩ := mem_filter.mp member
    rw [decide_eq_true_eq] at named
    exact ⟨profile, named ▸ (lists profile).mp isListed, isRejected⟩
  · rintro ⟨profile, found, isRejected⟩
    have named : profile.name = name := store.named name profile found
    refine ⟨profile, mem_filter.mpr ⟨(lists profile).mpr (named ▸ found), isRejected⟩, decide_eq_true named⟩

theorem get?_reconcileAllowList (config : SPODSecurityConfig) {listed : List SeccompProfile}
    (lists : Lists store listed) (name : Str) :
    (reconcileAllowList union failing store (some config) (some listed)).1.get? name =
      if rejected union store config name && !failing name then (store.get? name).bind deletedProfile
      else store.get? name := by
  unfold reconcileAllowList rejected
  simp only
  by_cases unrestricted : config.allowedSyscalls = []
  · simp [unrestricted]
  · cases checked : checkedActions config.allowedSeccompActions with
    | error error => simp [unrestricted, Except.isOk, Except.toBool]
    | ok actions =>
      simp only [unrestricted, if_false, get?_deleteRejected, any_rejected lists]
      simp [unrestricted, Except.isOk, Except.toBool]

/-- The daemon rejects what the manager does. -/
theorem validateMerged_of_notAllowed {config : SPODSecurityConfig} {profile : SeccompProfile}
    (restricted : config.allowedSyscalls ≠ []) (isRejected : notAllowed union store config profile = true)
    (pullBaseProfile : Pull) :
    ∃ error, validateMerged union pullBaseProfile store config profile = .error (.notAllowed error) := by
  unfold notAllowed at isRejected
  split at isRejected
  · cases isRejected
  cases resolved : resolveLocalSyscalls union store profile with
  | error error =>
    rw [resolved] at isRejected
    cases isRejected
  | ok syscalls =>
    simp only [resolved] at isRejected
    have isLocal : Local union store profile := fun _ _ _ below reached => local_of_resolved resolved below reached
    rcases agree_of_local pullBaseProfile isLocal with ⟨error, _, failed, _⟩ | ⟨syscalls', done, done'⟩
    · rw [resolved] at failed
      cases failed
    · obtain rfl : syscalls = syscalls' := Except.ok.inj (resolved.symm.trans done)
      unfold validateMerged validateProfile
      simp only [done', if_pos restricted]
      cases allowed : allowProfile { profile with syscalls := syscalls } config with
      | ok _ =>
        rw [allowed] at isRejected
        cases isRejected
      | error error => exact ⟨error, rfl⟩

end deletions

/-- The manager deletes the profiles that are rejected on the store and the configuration it starts with, whatever
the order they are listed in and whatever becomes of the others, and each of them is rejected by the validation of
the daemons. Nothing is deleted for an invalid list of actions. -/
theorem deletes_only_rejected (union : List Syscall → List Syscall → Except SeccompError (List Syscall))
    (pullBaseProfile : Pull) (failing : Str → Bool) (store : Store) (config : SPODSecurityConfig)
    (listed : List SeccompProfile) (lists : Lists store listed) :
    (∀ name, (reconcileAllowList union failing store (some config) (some listed)).1.get? name =
      if rejected union store config name && !failing name then (store.get? name).bind deletedProfile
      else store.get? name) ∧
    (∀ name profile, store.get? name = some profile →
      (reconcileAllowList union failing store (some config) (some listed)).1.get? name ≠ some profile →
      ∃ error, validateMerged union pullBaseProfile store config profile = .error (.notAllowed error)) ∧
    ∀ error, checkedActions config.allowedSeccompActions = .error error →
      reconcileAllowList union failing store (some config) (some listed) = (store, []) := by
  refine ⟨get?_reconcileAllowList config lists, fun name profile found changed => ?_, fun error invalid => ?_⟩
  · rw [get?_reconcileAllowList config lists] at changed
    split at changed
    · next deleted =>
        simp only [rejected, found, Bool.and_eq_true, decide_eq_true_eq, Option.any_some] at deleted
        obtain ⟨⟨⟨restricted, _⟩, isRejected⟩, _⟩ := deleted
        exact validateMerged_of_notAllowed restricted isRejected pullBaseProfile
    · exact absurd found changed
  · unfold reconcileAllowList
    simp only [invalid]
    split <;> rfl

section config

/-- The syscalls of the base profile are not allowed. -/
def onlyRead : SPODSecurityConfig := ⟨["read"], []⟩

theorem chainStore_lists : Lists chainStore [derivedProfile, runtimeBase] := by
  intro profile
  constructor
  · intro member
    rcases mem_pair.mp member with rfl | rfl <;> decide
  · intro found
    have entry : ⟨profile.name, profile⟩ ∈ chainStore.profiles.entries := SortedMap.mem_entries.mpr found
    have entries : chainStore.profiles.entries =
        [⟨runtimeBase.name, runtimeBase⟩, ⟨derivedProfile.name, derivedProfile⟩] := by decide
    rw [entries] at entry
    rcases mem_pair.mp entry with same | same
    · exact mem_pair.mpr (Or.inr (eq_of_heq (Sigma.mk.inj same).2))
    · exact mem_pair.mpr (Or.inl (eq_of_heq (Sigma.mk.inj same).2))

/-- The profile is deleted because of its base profile, which is deleted as well, and the daemon rejects it. -/
theorem derivedProfile_deleted :
    (reconcileAllowList appendCalls (fun _ => false) chainStore (some onlyRead)
      (some [derivedProfile, runtimeBase])).1.get?
      derivedProfile.name = none ∧
    ∃ error, validateMerged appendCalls (fun _ reference => .error (.pulling reference)) chainStore onlyRead
      derivedProfile =
      .error (.notAllowed error) := by
  obtain ⟨deleted, rejects, _⟩ := deletes_only_rejected appendCalls (fun _ reference => .error (.pulling reference))
    (fun _ => false) chainStore onlyRead [derivedProfile, runtimeBase] chainStore_lists
  have gone := deleted derivedProfile.name
  rw [show (rejected appendCalls chainStore onlyRead derivedProfile.name && !false) = true by decide] at gone
  have found : chainStore.get? derivedProfile.name = some derivedProfile := by decide
  rw [found] at gone
  refine ⟨gone, rejects derivedProfile.name derivedProfile found fun kept => ?_⟩
  rw [gone] at kept
  cases kept

end config

end SecurityProfiles.Allowing
