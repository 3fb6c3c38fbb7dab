import SecurityProfiles.Annotator.Pods

namespace SecurityProfiles.Annotator

open List

inductive WatchEvent where
  | create (pod : Pod)
  | update (old new : Pod)
  | delete (pod : Pod)
  | generic (pod : Pod)

/-- `podProfilesChanged` compares the profiles of a pod, unless the new pod has none. A pod may have been replaced
by one with the same name. -/
def podProfilesChanged (old new : Pod) : Bool :=
  hasProfile new && (old.uid ≠ new.uid ||
    getSeccompProfilesFromPod old ≠ getSeccompProfilesFromPod new ||
    getSelinuxProfilesFromPod old ≠ getSelinuxProfilesFromPod new ||
    getAppArmorProfilesFromPod old ≠ getAppArmorProfilesFromPod new)

def podPredicate : WatchEvent → Bool
  | .create pod => hasProfile pod
  | .update old new => podProfilesChanged old new
  | .delete pod => hasProfile pod
  | .generic pod => hasProfile pod

/-- The pod or one of its containers has a security context with the property. -/
def Pod.InContext (pod : Pod) (has : SecurityContext → Prop) : Prop :=
  ∃ securityContext, some securityContext ∈ pod.securityContext :: pod.allContainers ∧ has securityContext

/-- A security context names a profile on the node. -/
def OnNode (profile : Option ContextProfile) (name : Str) : Prop := profile = some ⟨.localhost, some name⟩

/-- The profiles of the operator that a pod names, in a security context or in an annotation. -/
def Pod.Names (pod : Pod) (name : Str) : ProfileKind → Prop
  | .seccomp => isOperatorSeccompPath name = true ∧
      (pod.InContext (fun securityContext => OnNode securityContext.seccompProfile name) ∨
        pod.annotations.lookup seccompPodKey = some ("localhost/".toList ++ name))
  | .selinux => isOperatorSelinuxType name = true ∧
    pod.InContext fun securityContext => securityContext.seLinuxType = some name
  | .rawSelinux => isOperatorSelinuxType name = true ∧
      pod.InContext fun securityContext => securityContext.seLinuxType = some name
  | .appArmor => name ≠ [] ∧
      (pod.InContext (fun securityContext => OnNode securityContext.appArmorProfile name) ∨
        ∃ key, appArmorKeyStart <+: key ∧ (key, "localhost/".toList ++ name) ∈ pod.annotations)

section references

variable {pod : Pod} {name : Str}

theorem mem_contexts {α : Type} {read : SecurityContext → Option α} {value : α} :
    value ∈ pod.contexts read ↔ pod.InContext fun securityContext => read securityContext = some value := by
  unfold Pod.contexts Pod.InContext
  rw [mem_filterMap]
  constructor
  · rintro ⟨context, member, found⟩
    obtain ⟨securityContext, rfl, isValue⟩ := Option.bind_eq_some_iff.mp found
    exact ⟨securityContext, member, isValue⟩
  · rintro ⟨securityContext, member, isValue⟩
    exact ⟨some securityContext, member, isValue⟩

theorem localhost?_eq_some {profile : ContextProfile} :
    profile.localhost? = some name ↔ profile = ⟨.localhost, some name⟩ := by
  obtain ⟨type, localhostProfile⟩ := profile
  unfold ContextProfile.localhost?
  cases type with
  | localhost => simp
  | other => simp

theorem bind_localhost?_eq_some {profile : Option ContextProfile} :
    profile.bind ContextProfile.localhost? = some name ↔ OnNode profile name := by
  cases profile with
  | none => simp [OnNode]
  | some profile => rw [Option.bind_some, localhost?_eq_some, OnNode, Option.some.injEq]

theorem isOperatorSeccompProfile_eq_some {profile : Option ContextProfile} :
    profile.bind isOperatorSeccompProfile = some name ↔ isOperatorSeccompPath name = true ∧
      OnNode profile name := by
  rw [← bind_localhost?_eq_some]
  cases profile with
  | none => simp
  | some profile =>
    rw [Option.bind_some, Option.bind_some, isOperatorSeccompProfile, Option.filter_eq_some_iff, and_comm]

theorem bind_cutPrefix_eq_some {found : Option Str} {start : Str} :
    found.bind (Text.cutPrefix start) = some name ↔ found = some (start ++ name) := by
  cases found with
  | none => simp
  | some value => rw [Option.bind_some, Text.cutPrefix_eq_some, Option.some.injEq]

theorem mem_getSeccompProfilesFromPod : name ∈ getSeccompProfilesFromPod pod ↔ pod.Names name .seccomp := by
  have inContext :
      (name ∈ pod.contexts fun securityContext => securityContext.seccompProfile.bind isOperatorSeccompProfile) ↔
      isOperatorSeccompPath name = true ∧
      pod.InContext fun securityContext => OnNode securityContext.seccompProfile name := by
    rw [mem_contexts]
    constructor
    · rintro ⟨securityContext, member, found⟩
      obtain ⟨isPath, onNode⟩ := isOperatorSeccompProfile_eq_some.mp found
      exact ⟨isPath, securityContext, member, onNode⟩
    · rintro ⟨isPath, securityContext, member, onNode⟩
      exact ⟨securityContext, member, isOperatorSeccompProfile_eq_some.mpr ⟨isPath, onNode⟩⟩
  rw [getSeccompProfilesFromPod, mem_eraseDups, mem_append, inContext, Option.mem_toList,
    Option.filter_eq_some_iff, bind_cutPrefix_eq_some, Pod.Names, and_or_left]
  exact or_congr_right and_comm

theorem mem_getSelinuxProfilesFromPod : name ∈ getSelinuxProfilesFromPod pod ↔ pod.Names name .selinux := by
  unfold getSelinuxProfilesFromPod
  simp only [mem_eraseDups, mem_contexts, Option.filter_eq_some_iff, Pod.Names, Pod.InContext]
  constructor
  · rintro ⟨securityContext, member, isType, isOperator⟩
    exact ⟨isOperator, securityContext, member, isType⟩
  · rintro ⟨isOperator, securityContext, member, isType⟩
    exact ⟨securityContext, member, isType, isOperator⟩

theorem mem_getAppArmorProfilesFromPod : name ∈ getAppArmorProfilesFromPod pod ↔ pod.Names name .appArmor := by
  have annotated : ∀ key value : Str,
      (if appArmorKeyStart.isPrefixOf key then Text.cutPrefix "localhost/".toList value else none) = some name ↔
        value = "localhost/".toList ++ name ∧ appArmorKeyStart <+: key := by
    intro key value
    rw [← isPrefixOf_iff_prefix]
    split
    · next isPrefix => rw [Text.cutPrefix_eq_some, and_iff_left isPrefix]
    · next other => exact iff_of_false nofun fun both => other both.2
  unfold getAppArmorProfilesFromPod
  simp only [Text.mem_sort, mem_eraseDups, mem_filter, mem_append, mem_contexts, bind_localhost?_eq_some,
    mem_filterMap, Prod.exists, annotated, decide_eq_true_eq, Pod.Names]
  rw [and_comm]
  refine and_congr_right fun _ => or_congr_right (exists_congr fun key => ?_)
  constructor
  · rintro ⟨_, member, rfl, isPrefix⟩
    exact ⟨isPrefix, member⟩
  · rintro ⟨isPrefix, member⟩
    exact ⟨_, member, rfl, isPrefix⟩

theorem mem_references {kind : ProfileKind} : name ∈ kind.references pod ↔ pod.Names name kind := by
  cases kind with
  | seccomp => exact mem_getSeccompProfilesFromPod
  | selinux => exact mem_getSelinuxProfilesFromPod
  | rawSelinux => exact mem_getSelinuxProfilesFromPod
  | appArmor => exact mem_getAppArmorProfilesFromPod

theorem hasProfile_iff : hasProfile pod = true ↔ ∃ kind name, pod.Names name kind := by
  have some' : ∀ kind : ProfileKind, kind.references pod ≠ [] ↔ ∃ name, pod.Names name kind := by
    intro kind
    simp only [← mem_references]
    exact ⟨exists_mem_of_ne_nil _, fun ⟨name, member⟩ => ne_nil_of_mem member⟩
  unfold hasProfile
  simp only [Bool.or_eq_true, decide_eq_true_eq]
  constructor
  · rintro ((present | present) | present)
    · exact ⟨.seccomp, (some' .seccomp).mp present⟩
    · exact ⟨.selinux, (some' .selinux).mp present⟩
    · exact ⟨.appArmor, (some' .appArmor).mp present⟩
  · rintro ⟨kind, names⟩
    have present := (some' kind).mpr names
    cases kind with
    | seccomp => exact Or.inl (Or.inl present)
    | selinux => exact Or.inl (Or.inr present)
    | rawSelinux => exact Or.inl (Or.inr present)
    | appArmor => exact Or.inr present

end references

/-- The pods name different profiles of some kind. -/
def Differ (old new : Pod) : Prop := ∃ kind name, ¬(old.Names name kind ↔ new.Names name kind)

theorem Differ.references {old new : Pod} (differ : Differ old new) :
    getSeccompProfilesFromPod old ≠ getSeccompProfilesFromPod new ∨
      getSelinuxProfilesFromPod old ≠ getSelinuxProfilesFromPod new ∨
      getAppArmorProfilesFromPod old ≠ getAppArmorProfilesFromPod new := by
  obtain ⟨kind, name, different⟩ := differ
  have lists : kind.references old ≠ kind.references new := by
    intro same
    refine different ?_
    rw [← mem_references, ← mem_references, same]
  cases kind with
  | seccomp => exact Or.inl lists
  | selinux => exact Or.inr (Or.inl lists)
  | rawSelinux => exact Or.inr (Or.inl lists)
  | appArmor => exact Or.inr (Or.inr lists)

/-- An update that changes the profiles which a pod names passes if and only if the new pod names one. The creation
and the deletion of a pod that names a profile pass. -/
theorem changes_pass_iff (old new pod : Pod) :
    (Differ old new → (podPredicate (.update old new) = true ↔ ∃ kind name, new.Names name kind)) ∧
    ((∃ kind name, pod.Names name kind) → podPredicate (.create pod) = true ∧
      podPredicate (.delete pod) = true) := by
  refine ⟨fun differ => ?_, fun names => ?_⟩
  · rw [← hasProfile_iff]
    unfold podPredicate podProfilesChanged
    have changed := differ.references
    simp only [Bool.and_eq_true, Bool.or_eq_true, decide_eq_true_eq]
    refine and_iff_left ?_
    rcases changed with seccomp | selinux | appArmor
    · exact Or.inl (Or.inl (Or.inr seccomp))
    · exact Or.inl (Or.inr selinux)
    · exact Or.inr appArmor
  · have present : hasProfile pod = true := hasProfile_iff.mpr names
    exact ⟨present, present⟩

def webPod : Pod := ⟨1, some ⟨none, none, some ⟨.localhost, some "web".toList⟩⟩, [], [], [], []⟩

/-- The pod of the same name that replaced it. -/
def plainPod : Pod := ⟨2, none, [], [], [], []⟩

theorem webPod_names : webPod.Names "web".toList .appArmor :=
  ⟨by decide, Or.inl ⟨⟨none, none, some ⟨.localhost, some "web".toList⟩⟩, mem_cons_self, rfl⟩⟩

/-- The update to a pod without profiles is filtered out. -/
theorem replaced_filtered : Differ webPod plainPod ∧ podPredicate (.update webPod plainPod) = false := by
  refine ⟨⟨.appArmor, "web".toList, fun same => ?_⟩, by decide⟩
  have named := mem_references.mpr (same.mp webPod_names)
  exact absurd named (by decide)

/-- An update the other way round passes, and so does the creation of the pod. -/
theorem web_passes : podPredicate (.update plainPod webPod) = true ∧ podPredicate (.create webPod) = true := by
  have differ : Differ plainPod webPod := by
    refine ⟨.appArmor, "web".toList, fun same => ?_⟩
    have named := mem_references.mpr (same.mpr webPod_names)
    exact absurd named (by decide)
  obtain ⟨updates, creations⟩ := changes_pass_iff plainPod webPod webPod
  exact ⟨(updates differ).mpr ⟨_, _, webPod_names⟩, (creations ⟨_, _, webPod_names⟩).1⟩

end SecurityProfiles.Annotator
