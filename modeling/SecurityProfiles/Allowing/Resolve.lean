import SecurityProfiles.Library.SortedMap
import SecurityProfiles.Profiles.Name
import SecurityProfiles.Profiles.Seccomp

namespace SecurityProfiles.Allowing

structure SeccompProfile where
  name : Str
  baseProfileName : Str
  defaultAction : Action
  syscalls : List Syscall
  deleting : Bool
  finalizers : List Str
deriving DecidableEq

structure Store where
  profiles : SortedMap Str SeccompProfile
  named : ∀ name profile, profiles.lookup name = some profile → profile.name = name

def Store.get? (store : Store) (name : Str) : Option SeccompProfile := store.profiles.lookup name

def maxBaseProfileDepth : Nat := 15

def ociProfilePrefix : Str := "oci://".toList

section resolve

variable (union : List Syscall → List Syscall → Except SeccompError (List Syscall)) (store : Store)

inductive ResolveError where
  | ociBaseProfile (baseProfileName : Str)
  | gettingBaseProfile (baseProfileName : Str)
  | mergingSyscalls (baseProfileName : Str) (error : SeccompError)
  | maxDepth
deriving DecidableEq

/-- The loop over the base profiles, with the number of turns that are left. -/
def resolveLoop : Nat → SeccompProfile → List Syscall → Except ResolveError (List Syscall)
  | 0, _, _ => .error .maxDepth
  | left + 1, current, syscalls =>
    let baseProfileName := current.baseProfileName
    if baseProfileName = [] then .ok syscalls
    else if ociProfilePrefix.isPrefixOf baseProfileName then .error (.ociBaseProfile baseProfileName)
    else
      match store.get? baseProfileName with
      | none => .error (.gettingBaseProfile baseProfileName)
      | some base =>
        match union base.syscalls syscalls with
        | .error error => .error (.mergingSyscalls baseProfileName error)
        | .ok merged => resolveLoop left base merged

/-- `resolveLocalSyscalls` of the manager, which pulls no artifacts. -/
def resolveLocalSyscalls (profile : SeccompProfile) : Except ResolveError (List Syscall) :=
  resolveLoop union store maxBaseProfileDepth profile profile.syscalls

inductive DaemonError where
  | maxLevel
  | notFound (baseProfileName : Str)
  | pulling (reference : Str)
  | merging (error : SeccompError)

/-- How the daemon pulls a base profile from its registry, or finds it in its cache. -/
abbrev Pull := SeccompProfile → Str → Except DaemonError SeccompProfile

variable (pullBaseProfile : Pull)

/-- The base profile, and whether it is specific to the architecture of the node. -/
def baseProfile (profile : SeccompProfile) : Except DaemonError (SeccompProfile × Bool) :=
  match Text.cutPrefix ociProfilePrefix profile.baseProfileName with
  | some reference => (pullBaseProfile profile reference).map fun base => (base, true)
  | none =>
    match store.get? profile.baseProfileName with
    | none => .error (.notFound profile.baseProfileName)
    | some base => .ok (base, false)

/-- `resolveSyscallsForProfile` of the daemon calls itself for the base profile. -/
def resolveSyscallsForProfile (profile : SeccompProfile) (inputSyscalls : List Syscall) (level : Nat) :
    Except DaemonError (List Syscall × Bool) :=
  if level ≥ maxBaseProfileDepth then .error .maxLevel
  else if profile.baseProfileName = [] then .ok (inputSyscalls, false)
  else
    match baseProfile store pullBaseProfile profile with
    | .error error => .error error
    | .ok (base, archSpecific) =>
      match union base.syscalls inputSyscalls with
      | .error error => .error (.merging error)
      | .ok newSyscalls =>
        match resolveSyscallsForProfile base newSyscalls (level + 1) with
        | .error error => .error error
        | .ok (syscalls, baseArchSpecific) => .ok (syscalls, archSpecific || baseArchSpecific)
termination_by maxBaseProfileDepth - level

/-- The base profiles that are reached from a profile, with the syscalls merged on the way. -/
inductive Reached (profile : SeccompProfile) (syscalls : List Syscall) : Nat → SeccompProfile → List Syscall → Prop
  | start : Reached profile syscalls 0 profile syscalls
  | next {count : Nat} {current base : SeccompProfile} {collected merged : List Syscall} :
      Reached profile syscalls count current collected → current.baseProfileName ≠ [] →
      store.get? current.baseProfileName = some base → union base.syscalls collected = .ok merged →
      Reached profile syscalls (count + 1) base merged

/-- None of the profiles that are reached has a base profile in a registry. -/
def Local (profile : SeccompProfile) : Prop :=
  ∀ count current collected, count < maxBaseProfileDepth →
    Reached union store profile profile.syscalls count current collected →
    ociProfilePrefix.isPrefixOf current.baseProfileName = false

end resolve

section alike

variable {union : List Syscall → List Syscall → Except SeccompError (List Syscall)} {store : Store}
  {profile base : SeccompProfile} {syscalls merged : List Syscall}

variable {count left : Nat} {current : SeccompProfile} {collected : List Syscall}

theorem Reached.of_base (named : profile.baseProfileName ≠ [])
    (found : store.get? profile.baseProfileName = some base) (isMerged : union base.syscalls syscalls = .ok merged)
    (reached : Reached union store base merged count current collected) :
    Reached union store profile syscalls (count + 1) current collected := by
  induction reached with
  | start => exact .next .start named found isMerged
  | next _ named' found' isMerged' ih => exact .next ih named' found' isMerged'

theorem Reached.from_base (reached : Reached union store profile syscalls (count + 1) current collected) :
    ∃ base merged, profile.baseProfileName ≠ [] ∧ store.get? profile.baseProfileName = some base ∧
      union base.syscalls syscalls = .ok merged ∧ Reached union store base merged count current collected := by
  induction count generalizing current collected with
  | zero =>
    cases reached with
    | next before named found isMerged =>
      cases before
      exact ⟨_, _, named, found, isMerged, .start⟩
  | succ count ih =>
    cases reached with
    | next before named' found' isMerged' =>
      obtain ⟨base, merged, named, found, isMerged, rest⟩ := ih before
      exact ⟨base, merged, named, found, isMerged, .next rest named' found' isMerged'⟩

theorem local_of_resolved {resolved : List Syscall}
    (done : resolveLoop union store left profile syscalls = .ok resolved) (below : count < left)
    (reached : Reached union store profile syscalls count current collected) :
    ociProfilePrefix.isPrefixOf current.baseProfileName = false := by
  induction left generalizing profile syscalls count with
  | zero => omega
  | succ left ih =>
    simp only [resolveLoop] at done
    cases count with
    | zero =>
      cases reached
      by_contra isReference
      rw [Bool.not_eq_false] at isReference
      split at done
      · next empty =>
          rw [empty] at isReference
          cases isReference
      · cases done
    | succ count =>
      obtain ⟨base, merged, named, found, isMerged, rest⟩ := reached.from_base
      rw [if_neg named] at done
      split at done
      · cases done
      · simp only [found, isMerged] at done
        exact ih done (by omega) rest

/-- Both fail, or both succeed with the same syscalls, which are not specific to an architecture. -/
def Agree (manager : Except ResolveError (List Syscall)) (daemon : Except DaemonError (List Syscall × Bool)) :
    Prop :=
  (∃ error error', manager = .error error ∧ daemon = .error error') ∨
    ∃ syscalls, manager = .ok syscalls ∧ daemon = .ok (syscalls, false)

theorem baseProfile_of_local (pullBaseProfile : Pull)
    (isLocal : ociProfilePrefix.isPrefixOf profile.baseProfileName = false) :
    baseProfile store pullBaseProfile profile =
      match store.get? profile.baseProfileName with
      | none => .error (.notFound profile.baseProfileName)
      | some base => .ok (base, false) := by
  have notCut : Text.cutPrefix ociProfilePrefix profile.baseProfileName = none := by
    rw [Text.cutPrefix, isLocal]
    rfl
  rw [baseProfile, notCut]

/-- The loop of the manager and the recursion of the daemon agree at every depth, by induction on the levels
left. -/
theorem agree_at (pullBaseProfile : Pull) {level : Nat} (sum : left + level = maxBaseProfileDepth)
    (isLocal : ∀ count current collected, count < left →
      Reached union store profile syscalls count current collected →
      ociProfilePrefix.isPrefixOf current.baseProfileName = false) :
    Agree (resolveLoop union store left profile syscalls)
      (resolveSyscallsForProfile union store pullBaseProfile profile syscalls level) := by
  induction left generalizing profile syscalls level with
  | zero =>
    rw [resolveSyscallsForProfile, if_pos (by omega)]
    exact Or.inl ⟨_, _, rfl, rfl⟩
  | succ left ih =>
    have here := isLocal 0 profile syscalls (Nat.succ_pos left) .start
    have room : ¬level ≥ maxBaseProfileDepth := by omega
    rw [resolveLoop, resolveSyscallsForProfile, if_neg room]
    by_cases named : profile.baseProfileName = []
    · rw [if_pos named, if_pos named]
      exact Or.inr ⟨syscalls, rfl, rfl⟩
    rw [if_neg named, if_neg named, here, baseProfile_of_local pullBaseProfile here]
    simp only [Bool.false_eq_true, if_false]
    cases found : store.get? profile.baseProfileName with
    | none => exact Or.inl ⟨_, _, rfl, rfl⟩
    | some base =>
      simp only
      cases isMerged : union base.syscalls syscalls with
      | error error => exact Or.inl ⟨_, _, rfl, rfl⟩
      | ok merged =>
        have rest := @ih base merged (level + 1) (by omega) fun count current collected below reached =>
          isLocal (count + 1) current collected (by omega) (reached.of_base named found isMerged)
        rcases rest with ⟨error, error', failed, failed'⟩ | ⟨resolved, done, done'⟩
        · simp only [failed, failed']
          exact Or.inl ⟨_, _, rfl, rfl⟩
        · simp only [done, done', Bool.or_false]
          exact Or.inr ⟨resolved, rfl, rfl⟩

theorem agree_of_local (pullBaseProfile : Pull) (isLocal : Local union store profile) :
    Agree (resolveLocalSyscalls union store profile)
      (resolveSyscallsForProfile union store pullBaseProfile profile profile.syscalls 0) :=
  agree_at pullBaseProfile rfl isLocal

end alike

/-- Manager and daemon resolve the syscalls of a profile alike, as long as they come to no base profile in a
registry. -/
theorem resolve_alike (union : List Syscall → List Syscall → Except SeccompError (List Syscall)) (store : Store)
    (pullBaseProfile : Pull) (profile : SeccompProfile) (isLocal : Local union store profile) :
    Agree (resolveLocalSyscalls union store profile)
      (resolveSyscallsForProfile union store pullBaseProfile profile profile.syscalls 0) :=
  agree_of_local pullBaseProfile isLocal

section chain

def allowCalls (names : List String) : List Syscall := [⟨names, .allow, 0, []⟩]

def runtimeBase : SeccompProfile := ⟨"runtime".toList, [], .errno, allowCalls ["exit"], false, []⟩

def derivedProfile : SeccompProfile := ⟨"web".toList, "runtime".toList, .errno, allowCalls ["read"], false, []⟩

/-- A profile with its base profile. -/
def chainStore : Store where
  profiles := (SortedMap.empty.insert runtimeBase.name runtimeBase).insert derivedProfile.name derivedProfile
  named name profile found := by
    rw [SortedMap.lookup_insert, SortedMap.lookup_insert] at found
    split at found
    · next same => rw [← Option.some.inj found, same]
    split at found
    · next same => rw [← Option.some.inj found, same]
    · cases found

def appendCalls (base syscalls : List Syscall) : Except SeccompError (List Syscall) := .ok (base ++ syscalls)

theorem chainStore_local : Local appendCalls chainStore derivedProfile := by
  intro count current collected below reached
  have either : current = derivedProfile ∨ current = runtimeBase := by
    clear below
    induction reached with
    | start => exact Or.inl rfl
    | next _ named found _ ih =>
      rcases ih with rfl | rfl
      · exact Or.inr (Option.some.inj (found.symm.trans (by decide)))
      · exact absurd rfl named
  rcases either with rfl | rfl <;> decide

/-- The daemon resolves the profile as the manager does. -/
theorem derivedProfile_resolved :
    resolveSyscallsForProfile appendCalls chainStore (fun _ reference => .error (.pulling reference)) derivedProfile
      derivedProfile.syscalls 0 = .ok (allowCalls ["exit"] ++ allowCalls ["read"], false) := by
  have manager : resolveLocalSyscalls appendCalls chainStore derivedProfile =
      .ok (allowCalls ["exit"] ++ allowCalls ["read"]) := by decide
  have alike := resolve_alike appendCalls chainStore (fun _ reference => .error (.pulling reference)) derivedProfile
    chainStore_local
  rcases alike with ⟨error, _, failed, _⟩ | ⟨syscalls, done, done'⟩
  · rw [manager] at failed
    cases failed
  · rw [manager] at done
    rw [done', Except.ok.inj done]

end chain

end SecurityProfiles.Allowing
