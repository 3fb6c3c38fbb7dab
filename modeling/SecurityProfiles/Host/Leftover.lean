import SecurityProfiles.Host.Untouched

namespace SecurityProfiles.Host

open Faulty List

/-- No policy of the name is loaded, and there is no policy file of it. -/
def Clean (name : Str) (system : System) : Prop :=
  system.loaded.lookup name = none ∧ system.files.lookup (policyPath name) = none

/-- How the reads of a deletion went: whether the policy file could be looked for, whether it could be read for its
marker and for its content, and whether the status that was read is annotated. -/
structure Reads where
  stat : Bool
  marker : Bool
  content : Bool
  annotated : Bool

namespace Reads

variable (reads : Reads)

/-- An annotation is one of a version of the status. -/
def Possible (name : Str) (system : System) : Prop :=
  reads.annotated = true → ∃ status, (name, status) ∈ system.statuses ∧ status.installed = true

/-- The policy file, or the lack of one, is taken for a policy of the operator. -/
def recognises (policy : Str) : Option Str → Bool
  | none => reads.stat && reads.annotated
  | some text => reads.marker && managedByMarker.isPrefixOf text || reads.content && policy ≠ [] && text = policy

/-- The host after a deletion with these reads. -/
def removed (profile : AppArmorProfile) (system : System) : System :=
  if reads.recognises (profile.policy.toOption.getD []) (system.files.lookup (policyPath profile.name.value)) then
    (if (system.loaded.lookup profile.name.value).isSome then system.delete profile.name.value else system).remove
      (policyPath profile.name.value)
  else system

/-- The deletion has a policy to remove that it does not take for one of the operator: a policy without a file that
is not annotated or whose file could not be looked for, or a file that could not be read. -/
def Overlooks (name : Str) (system : System) : Prop :=
  (system.files.lookup (policyPath name) = none ∧ (system.loaded.lookup name).isSome = true ∧
    (reads.stat = false ∨ reads.annotated = false)) ∨
  ((system.files.lookup (policyPath name)).isSome = true ∧ reads.marker = false)

end Reads

section deletion

variable {path policy name : Str} {profile : AppArmorProfile} {system after : System}

theorem mem_fileManagedByUs {managed : Bool} : (some managed, after) ∈ fileManagedByUs path system ↔
    after = system ∧ ∃ readable : Bool,
      managed = (readable && ((system.files.lookup path).map (managedByMarker.isPrefixOf ·)).getD false) := by
  unfold fileManagedByUs readFile
  rw [mem_query_bind_iff, mem_pure_iff, mem_pure_iff, Bool.exists_bool, and_or_left]
  exact or_congr and_comm and_comm

theorem mem_fileHasContent {same : Bool} : (some same, after) ∈ fileHasContent path policy system ↔
    after = system ∧
      ∃ readable : Bool, same = (readable && policy ≠ [] && system.files.lookup path = some policy) := by
  unfold fileHasContent readFile
  split
  · next empty => simp [mem_pure_iff, empty, and_comm]
  · next named =>
      rw [mem_query_bind_iff, mem_pure_iff, mem_pure_iff, Bool.exists_bool, and_or_left]
      simp [named, and_comm]

theorem mem_evidence {isOurs : Bool} :
    (some isOurs, after) ∈ (do if ← fileManagedByUs path then return true else fileHasContent path policy :
      Faulty System Bool) system ↔
    after = system ∧ ∃ marker content : Bool, isOurs =
      (marker && ((system.files.lookup path).map (managedByMarker.isPrefixOf ·)).getD false ||
        content && policy ≠ [] && system.files.lookup path = some policy) := by
  have either :
      ∀ managed, (some isOurs, after) ∈ (if managed = true then pure true else fileHasContent path policy) system ↔
      after = system ∧ ∃ content : Bool,
        isOurs = (managed || content && policy ≠ [] && system.files.lookup path = some policy) := by
    intro managed
    cases managed with
    | true => simp [mem_pure_iff, and_comm]
    | false => simpa only [Bool.false_or, Bool.false_eq_true, if_false] using mem_fileHasContent
  simp only [mem_bind_iff, mem_fileManagedByUs]
  constructor
  · rintro ⟨_, _, ⟨rfl, marker, rfl⟩, isRest⟩
    obtain ⟨rfl, content, same⟩ := (either _).mp isRest
    exact ⟨rfl, marker, content, same⟩
  · rintro ⟨rfl, marker, content, same⟩
    exact ⟨_, _, ⟨rfl, marker, rfl⟩, (either _).mpr ⟨rfl, content, same⟩⟩

theorem mem_policyFileOwned {isOwned ownedByUs : Bool} :
    (some isOwned, after) ∈ policyFileOwned path policy ownedByUs system ↔ after = system ∧ ∃ reads : Reads,
      reads.annotated = ownedByUs ∧ isOwned = reads.recognises policy (system.files.lookup path) := by
  unfold policyFileOwned readFile
  rw [mem_query_bind_iff]
  constructor
  · rintro (isRest | isRest)
    · obtain ⟨rfl, marker, content, rfl⟩ := mem_evidence.mp isRest
      refine ⟨rfl, ⟨false, marker, content, ownedByUs⟩, rfl, ?_⟩
      cases stored : after.files.lookup path with
      | none => simp [Reads.recognises]
      | some text => simp [Reads.recognises]
    · cases stored : system.files.lookup path with
      | none =>
        rw [stored] at isRest
        obtain ⟨rfl, rfl⟩ := mem_pure_iff.mp isRest
        exact ⟨rfl, ⟨true, false, false, isOwned⟩, rfl, rfl⟩
      | some text =>
        rw [stored] at isRest
        obtain ⟨rfl, marker, content, rfl⟩ := mem_evidence.mp isRest
        refine ⟨rfl, ⟨true, marker, content, ownedByUs⟩, rfl, ?_⟩
        simp [Reads.recognises, stored]
  · rintro ⟨rfl, reads, rfl, rfl⟩
    cases stored : after.files.lookup path with
    | none =>
      cases looked : reads.stat with
      | false =>
        refine Or.inl (mem_evidence.mpr ⟨rfl, false, false, ?_⟩)
        simp [Reads.recognises, looked]
      | true =>
        refine Or.inr (mem_pure_iff.mpr ⟨?_, rfl⟩)
        simp [Reads.recognises, looked]
    | some text =>
      refine Or.inr (mem_evidence.mpr ⟨rfl, reads.marker, reads.content, ?_⟩)
      simp [Reads.recognises, stored]

theorem mem_unloadPolicy : (some (.ok ()), after) ∈ unloadPolicy name system ↔
    after = if (system.loaded.lookup name).isSome then system.delete name else system := by
  unfold unloadPolicy policyLoaded deletePolicy
  refine mem_query_bind_iff.trans ((or_iff_right fun failed => by cases (mem_pure_iff.mp failed).1).trans ?_)
  cases loaded : (system.loaded.lookup name).isSome with
  | false => exact mem_pure_iff.trans (and_iff_right rfl)
  | true =>
    exact (mem_ifDone_iff (by simp)).trans (mem_pure_iff.trans (and_iff_right rfl))

theorem mem_removeOwned : (some (.ok ()), after) ∈ removeOwned path name system ↔
    after = (if (system.loaded.lookup name).isSome then system.delete name else system).remove path := by
  unfold removeOwned removeFile
  rw [mem_bind_iff]
  constructor
  · rintro ⟨result, middle, isUnloaded, isRest⟩
    cases result with
    | error error => cases (mem_pure_iff.mp isRest).1
    | ok _ =>
      obtain rfl := mem_unloadPolicy.mp isUnloaded
      exact (mem_pure_iff.mp ((mem_ifDone_iff (by simp)).mp isRest)).2
  · intro same
    exact ⟨.ok (), _, mem_unloadPolicy.mpr rfl, (mem_ifDone_iff (by simp)).mpr (mem_pure_iff.mpr ⟨rfl, same⟩)⟩

theorem mem_removeProfile {ownedByUs : Bool} : (some (.ok ()), after) ∈ removeProfile profile ownedByUs system ↔
    ∃ reads : Reads, reads.annotated = ownedByUs ∧ after = reads.removed profile system := by
  have either : ∀ isOwned, (some (.ok ()), after) ∈ (if isOwned = true then
        removeOwned (policyPath profile.name.value) profile.name.value else pure (.ok ())) system ↔
      after = if isOwned = true then (if (system.loaded.lookup profile.name.value).isSome then
        system.delete profile.name.value else system).remove (policyPath profile.name.value) else system := by
    intro isOwned
    cases isOwned with
    | true => exact mem_removeOwned
    | false => simp [mem_pure_iff]
  unfold removeProfile enterHost call
  refine (mem_ifDone_iff (by simp)).trans (mem_bind_iff.trans ?_)
  constructor
  · rintro ⟨isOwned, owned, isFound, isRest⟩
    obtain ⟨rfl, reads, annotated, rfl⟩ := mem_policyFileOwned.mp isFound
    exact ⟨reads, annotated, (either _).mp isRest⟩
  · rintro ⟨reads, annotated, same⟩
    exact ⟨_, system, mem_policyFileOwned.mpr ⟨rfl, reads, annotated, rfl⟩, (either _).mpr same⟩

theorem mem_getAnnotation {installed : Bool} : (some (some installed), after) ∈ getAnnotation name system ↔
    after = system ∧ (installed = true → ∃ status, (name, status) ∈ system.statuses ∧ status.installed = true) := by
  unfold getAnnotation readStatus
  simp only [mem_bind_iff, mem_select_iff]
  constructor
  · rintro ⟨told, middle, ⟨rfl, isAnswer⟩, isRest⟩
    match told with
    | none => cases (mem_pure_iff.mp isRest).1
    | some none =>
      obtain ⟨same, rfl⟩ := mem_pure_iff.mp isRest
      obtain rfl := Option.some.inj same
      exact ⟨rfl, fun never => nomatch never⟩
    | some (some status) =>
      obtain ⟨same, rfl⟩ := mem_pure_iff.mp isRest
      obtain rfl := Option.some.inj same
      refine ⟨rfl, fun isInstalled => ⟨status, ?_, isInstalled⟩⟩
      simpa using isAnswer (some status) rfl
  · rintro ⟨rfl, isVersion⟩
    cases installed with
    | false =>
      refine ⟨some none, after, ⟨rfl, fun answer same => ?_⟩, mem_pure_iff.mpr ⟨rfl, rfl⟩⟩
      obtain rfl := Option.some.inj same
      exact mem_cons_self
    | true =>
      obtain ⟨status, member, isInstalled⟩ := isVersion rfl
      refine ⟨some (some status), after, ⟨rfl, fun answer same => ?_⟩, mem_pure_iff.mpr ⟨?_, rfl⟩⟩
      · obtain rfl := Option.some.inj same
        simpa using member
      · rw [isInstalled]

/-- The outcomes of a deletion that reports success. -/
theorem mem_finishDeletion (unused : profile.inUse = false) : (some true, after) ∈ finishDeletion profile system ↔
    ∃ reads : Reads, reads.Possible profile.name.value system ∧ after = reads.removed profile system := by
  have handled : (some true, after) ∈ handleDeletion profile system ↔
      ∃ reads : Reads, reads.Possible profile.name.value system ∧ after = reads.removed profile system := by
    unfold handleDeletion
    rw [mem_bind_iff]
    constructor
    · rintro ⟨told, middle, isTold, isRest⟩
      cases told with
      | none => cases (mem_pure_iff.mp isRest).1
      | some installed =>
        obtain ⟨rfl, isVersion⟩ := mem_getAnnotation.mp isTold
        obtain ⟨result, deleted, isRemoved, isReported⟩ := mem_bind_iff.mp isRest
        cases result with
        | error error => cases (mem_pure_iff.mp isReported).1
        | ok _ =>
          obtain ⟨reads, rfl, same⟩ := mem_removeProfile.mp isRemoved
          exact ⟨reads, isVersion, (mem_pure_iff.mp isReported).2.trans same⟩
    · rintro ⟨reads, isVersion, same⟩
      refine ⟨some reads.annotated, system, mem_getAnnotation.mpr ⟨rfl, isVersion⟩, ?_⟩
      exact mem_bind_iff.mpr ⟨.ok (), after, mem_removeProfile.mpr ⟨reads, rfl, same⟩, mem_pure _ _⟩
  unfold finishDeletion
  rw [unused, if_neg Bool.false_ne_true, mem_bind_iff, ← handled]
  constructor
  · rintro ⟨done, middle, isDone, isRest⟩
    cases done with
    | false => cases (mem_pure_iff.mp isRest).1
    | true =>
      obtain rfl := mem_change_true.mp ((mem_ifDone_iff (by simp)).mp isRest)
      exact isDone
  · exact fun isDone => ⟨true, after, isDone, (mem_ifDone_iff (by simp)).mpr (mem_change_true.mpr rfl)⟩

end deletion

section marked

/-- The policy file of the name is marked as one of the operator, and a policy of the name has its file, unless it
was stranded. -/
structure Evidenced (name : Str) (system : System) : Prop where
  marked : ∀ text, system.files.lookup (policyPath name) = some text → managedByMarker <+: text
  filed : (system.loaded.lookup name).isSome = true → system.files.lookup (policyPath name) = none →
    name ∈ system.stranded

variable {profile : AppArmorProfile} {start system : System} {profiles : List AppArmorProfile}

/-- The operator marks what it writes, and puts nothing back that it did not mark. It loads a policy from its file
and removes the file after the policy, except when it puts back that there was no file. -/
theorem evidenced_manages : Manages (Evidenced profile.name.value) (managedByMarker <+: ·) profile where
  read _ text kept := kept.marked text
  new content _ := prefix_append _ _
  write system text kept isMarked := by
    refine ⟨fun other found => ?_, fun _ none => ?_⟩
    · have same : some text = some other := (SortedMap.lookup_insert_self _ _ _).symm.trans found
      rw [← Option.some.inj same]
      exact isMarked
    · cases (SortedMap.lookup_insert_self _ _ _).symm.trans none
  remove system kept := by
    refine ⟨fun text found => kept.marked text (SortedMap.lookup_erase_eq_some.mp found).2, fun loaded _ => ?_⟩
    obtain ⟨text, found⟩ := Option.isSome_iff_exists.mp loaded
    refine mem_append_left _ (mem_filter.mpr ⟨?_, decide_eq_true rfl⟩)
    exact mem_map_of_mem (SortedMap.mem_entries.mpr found)
  load system text kept found := by
    refine ⟨kept.marked, fun _ none => ?_⟩
    cases found.symm.trans none
  delete system kept := by
    refine ⟨kept.marked, fun loaded => ?_⟩
    cases (congrArg Option.isSome (SortedMap.lookup_erase_self _ _)).symm.trans loaded
  status _ _ kept := ⟨kept.marked, kept.filed⟩
  removeLegacy _ kept := ⟨kept.marked, kept.filed⟩

theorem evidenced_frames {name : ObjectName} (other : name.value ≠ profile.name.value) :
    Frames (Evidenced name.value) profile := by
  have otherPath : policyPath name.value ≠ policyPath profile.name.value :=
    fun paths => other (policyPath_injective paths)
  refine ⟨fun _ _ _ _ => trivial, fun _ _ => trivial, fun system text kept _ => ?_, fun system kept => ?_,
    fun system text kept _ => ?_, fun system kept => ?_, fun _ _ kept => ⟨kept.marked, kept.filed⟩,
    fun _ kept => ⟨kept.marked, kept.filed⟩⟩
  · have same := SortedMap.lookup_insert_ne system.files text otherPath
    exact ⟨fun text found => kept.marked text (same.symm.trans found),
      fun loaded none => kept.filed loaded (same.symm.trans none)⟩
  · have same := SortedMap.lookup_erase_ne system.files otherPath
    exact ⟨fun text found => kept.marked text (same.symm.trans found),
      fun loaded none => mem_append_right _ (kept.filed loaded (same.symm.trans none))⟩
  · exact ⟨kept.marked, SortedMap.lookup_insert_ne system.loaded text other ▸ kept.filed⟩
  · exact ⟨kept.marked, SortedMap.lookup_erase_ne system.loaded other ▸ kept.filed⟩

theorem reconcile_evidenced (name : ObjectName) (profile : AppArmorProfile) :
    Keeps (Evidenced name.value) (reconcileAppArmorProfile profile) fun _ => True := by
  by_cases same : profile.name.value = name.value
  · rw [← same]
    exact evidenced_manages.handles.reconcile
  · exact (evidenced_frames (Ne.symm same)).handles.reconcile

theorem policy_not_marked {content : Str} (generated : profile.policy = .ok content) :
    ¬managedByMarker <+: content := by
  rintro ⟨rest, marked⟩
  have head := policy_head generated
  rw [← marked] at head
  have clash : some '#' = some '\n' := head
  exact absurd clash (by decide)

theorem recognises_marked {reads : Reads} {text : Str} (isMarked : managedByMarker <+: text) :
    reads.recognises (profile.policy.toOption.getD []) (some text) = reads.marker := by
  have other : ¬(profile.policy.toOption.getD [] ≠ [] ∧ text = profile.policy.toOption.getD []) := by
    rintro ⟨named, same⟩
    cases generated : profile.policy with
    | error error =>
      rw [generated] at named
      exact named rfl
    | ok content =>
      rw [generated] at same
      have isContent : text = content := same
      exact policy_not_marked generated (isContent ▸ isMarked)
  unfold Reads.recognises
  dsimp only
  rw [List.isPrefixOf_iff_prefix.mpr isMarked, Bool.and_assoc, ← Bool.decide_and, decide_eq_false other,
    Bool.and_true, Bool.and_false, Bool.or_false]

/-- A deletion of a profile with a marked file, or without one, leaves something behind if it overlooks it. -/
theorem clean_removed_iff (kept : Evidenced profile.name.value system) (reads : Reads) :
    Clean profile.name.value (reads.removed profile system) ↔ ¬reads.Overlooks profile.name.value system := by
  have gone : Clean profile.name.value
      ((if (system.loaded.lookup profile.name.value).isSome then system.delete profile.name.value
        else system).remove (policyPath profile.name.value)) := by
    refine ⟨?_, SortedMap.lookup_erase_self _ _⟩
    split
    · exact SortedMap.lookup_erase_self _ _
    next unloaded => exact Option.not_isSome_iff_eq_none.mp unloaded
  unfold Reads.removed Reads.Overlooks
  cases stored : system.files.lookup (policyPath profile.name.value) with
  | none =>
    cases recognised : reads.recognises (profile.policy.toOption.getD []) none with
    | false =>
      have unread : reads.stat = false ∨ reads.annotated = false := Bool.and_eq_false_iff.mp recognised
      rw [if_neg Bool.false_ne_true]
      simp [Clean, stored, unread]
    | true =>
      obtain ⟨looked, isAnnotated⟩ := Bool.and_eq_true_iff.mp recognised
      rw [if_pos rfl]
      simp [gone, looked, isAnnotated]
  | some text =>
    rw [recognises_marked (kept.marked text stored)]
    cases reads.marker with
    | false =>
      rw [if_neg Bool.false_ne_true]
      simp [Clean, stored]
    | true =>
      rw [if_pos rfl]
      simp [gone]

/-- From a host without a policy of the name, whatever is reconciled before and wherever that fails or is stopped: a
deletion that reports success has one outcome for each way its reads can go. It leaves nothing of the name behind if
no installation stranded the policy and the file can be read for its marker, and in general exactly if it does not
overlook what there is. -/
theorem nothing_left_behind (clean : Clean profile.name.value start)
    (run : Runs reconcileAppArmorProfile start profiles system) (unused : profile.inUse = false) :
    (∀ after, (some true, after) ∈ finishDeletion profile system ↔
      ∃ reads : Reads, reads.Possible profile.name.value system ∧ after = reads.removed profile system) ∧
    (profile.name.value ∉ system.stranded → ∀ reads : Reads, reads.marker = true →
      Clean profile.name.value (reads.removed profile system)) ∧
    ∀ reads : Reads, Clean profile.name.value (reads.removed profile system) ↔
      ¬reads.Overlooks profile.name.value system := by
  have kept : Evidenced profile.name.value system := by
    refine run.keeps (fun other _ => reconcile_evidenced profile.name other)
      ⟨fun text found => ?_, fun loaded => ?_⟩
    · cases clean.2.symm.trans found
    · rw [clean.1] at loaded
      cases loaded
  refine ⟨fun after => mem_finishDeletion unused, fun notStranded reads read => ?_, clean_removed_iff kept⟩
  refine (clean_removed_iff kept reads).mpr ?_
  rintro (⟨noFile, loaded, _⟩ | ⟨_, unread⟩)
  · exact notStranded (kept.filed loaded noFile)
  · rw [read] at unread
    cases unread

end marked

section web

def webProfile : AppArmorProfile := { crunProfile with name := ⟨"web".toList, by decide⟩ }

def webDeleted : AppArmorProfile := { webProfile with deleting := true }

def webName : Str := webProfile.name.value

def webPolicy : Str := webProfile.policy.toOption.getD []

def emptyHost : System := ⟨.empty, .empty, [], [], [], .empty⟩

/-- After the first reconcile the profile has a status. -/
def webPending : System := (emptyHost.putStatus webName ⟨none, false⟩).putStatus webName ⟨some .pending, false⟩

def webWritten : System := webPending.write (policyPath webName) (managedByMarker ++ webPolicy)

def webLoaded : System := webWritten.load (policyPath webName)

/-- The file was removed after the policy had been loaded. -/
def webRestored : System := webLoaded.remove (policyPath webName)

def webTerminating : System := webRestored.putStatus webName ⟨some .terminating, false⟩

theorem webPolicy_generated : webProfile.policy = .ok webPolicy := by
  have generated : webProfile.policy = .ok _ := generateProfile_valid rfl
  rw [webPolicy, generated]
  rfl

theorem webLoaded_eq : webLoaded =
    { webWritten with
      loaded := webWritten.loaded.insert webName (managedByMarker ++ webPolicy)
      touched := webName :: webWritten.touched } :=
  load_generated webPolicy_generated (SortedMap.lookup_insert_self _ _ _)

theorem web_created : (some true, webPending) ∈ reconcileAppArmorProfile webProfile emptyHost :=
  mem_created webProfile.name emptyHost rfl

theorem web_version : some ⟨some .pending, false⟩ ∈ (none :: (webPending.statuses.filter (·.1 = webName)).map
    fun status => some status.2 : List (Option NodeStatus)) := by
  decide

/-- The second reconcile gets to the installation. -/
theorem web_installing {outcome : Option (Except ManagerError Bool) × System} (replaced : outcome ∈
    replacePolicyFile (policyPath webName) webName (managedByMarker ++ webPolicy) none webPending) :
    outcome ∈ installProfile webProfile false webPending := by
  have absent : webPending.loaded.lookup webName = none := rfl
  have notLoaded : (some false, webPending) ∈ checkProfileExist webName webPending := by
    refine mem_bind (mem_change id webPending) (mem_bind (mem_query _ webPending) ?_)
    rw [absent]
    exact mem_pure false webPending
  have new : (some false, webPending) ∈ hostProfile webName false webPending :=
    mem_bind notLoaded (mem_pure false webPending)
  have noFile : (some (some none), webPending) ∈ readFile (policyPath webName) webPending := mem_query _ webPending
  rw [installProfile, if_neg (by decide)]
  refine mem_bind new ?_
  rw [webPolicy_generated]
  refine mem_bind (mem_change id webPending) (mem_bind noFile ?_)
  exact mem_bind (mem_pure (some false) webPending) replaced

/-- The policy is loaded, but the check of that fails. -/
theorem web_restored : (some false, webRestored) ∈ reconcileAppArmorProfile webProfile webPending := by
  have unchecked : (some none, webLoaded) ∈ policyLoaded webName webLoaded := mem_query_iff.mpr ⟨rfl, Or.inl rfl⟩
  have removed : (some true, webRestored) ∈ restore (policyPath webName) none webLoaded :=
    mem_change (fun system : System => system.remove (policyPath webName)) webLoaded
  have replaced : (some (.error .policyStatus), webRestored) ∈
      replacePolicyFile (policyPath webName) webName (managedByMarker ++ webPolicy) none webPending := by
    refine mem_bind (mem_change _ webPending) (mem_bind (mem_change _ webWritten) (mem_bind unchecked ?_))
    exact mem_bind removed (mem_pure _ webRestored)
  refine mem_bind (mem_select _ web_version) (mem_bind (mem_change id webPending) ?_)
  change (some false, webRestored) ∈ reconcileInstall webProfile webPending
  exact mem_bind (mem_select _ web_version) (mem_bind (web_installing replaced) (mem_pure false webRestored))

theorem web_stopped : (none, webLoaded) ∈ reconcileAppArmorProfile webProfile webPending := by
  have replaced : (none, webLoaded) ∈
      replacePolicyFile (policyPath webName) webName (managedByMarker ++ webPolicy) none webPending :=
    mem_bind (mem_change _ webPending) (mem_bind_stopped (mem_change_stopped _ webWritten))
  refine mem_bind (mem_select _ web_version) (mem_bind (mem_change id webPending) ?_)
  change (none, webLoaded) ∈ reconcileInstall webProfile webPending
  exact mem_bind (mem_select _ web_version) (mem_bind_stopped (web_installing replaced))

theorem web_terminating : (some true, webTerminating) ∈ reconcileAppArmorProfile webDeleted webRestored := by
  have version : some ⟨some .pending, false⟩ ∈ (none :: (webRestored.statuses.filter (·.1 = webName)).map
      fun status => some status.2 : List (Option NodeStatus)) := by
    rw [webRestored, webLoaded_eq]
    exact web_version
  refine mem_bind (mem_select _ version) ?_
  refine mem_bind (mem_select _ version) ?_
  refine mem_bind (mem_change id webRestored) ?_
  exact mem_change (fun system : System => system.putStatus webName ⟨some .terminating, false⟩) _

/-- The policy that was loaded has neither a file nor an annotation, so that the deletion leaves it in the
kernel. -/
theorem web_left_behind : Clean webName emptyHost ∧
    Runs reconcileAppArmorProfile emptyHost [webProfile, webProfile, webDeleted] webTerminating ∧
    (some true, webTerminating) ∈ reconcileAppArmorProfile webDeleted webTerminating ∧
    ¬Clean webName webTerminating := by
  have version : some ⟨some .terminating, false⟩ ∈ (none :: (webTerminating.statuses.filter (·.1 = webName)).map
      fun status => some status.2 : List (Option NodeStatus)) := by
    have named : (webName, (⟨some .terminating, false⟩ : NodeStatus)) ∈
        webTerminating.statuses.filter (·.1 = webName) :=
      mem_filter.mpr ⟨mem_cons_self, decide_eq_true rfl⟩
    exact mem_cons_of_mem _ (mem_map_of_mem named)
  have noFile : webTerminating.files.lookup (policyPath webName) = none := SortedMap.lookup_erase_self _ _
  have unannotated : Reads.Possible ⟨true, true, true, false⟩ webDeleted.name.value webTerminating := by
    intro never
    cases never
  have finished : (some true, webTerminating) ∈ finishDeletion webDeleted webTerminating := by
    refine (mem_finishDeletion rfl).mpr ⟨⟨true, true, true, false⟩, unannotated, ?_⟩
    rw [Reads.removed, show webDeleted.name.value = webName from rfl, noFile]
    rfl
  refine ⟨⟨rfl, rfl⟩, .next (.next (.next .start web_created) web_restored) web_terminating, ?_, fun clean => ?_⟩
  · exact mem_bind (mem_select _ version) finished
  · have loaded : webTerminating.loaded.lookup webName = some (managedByMarker ++ webPolicy) := by
      rw [webTerminating, webRestored, webLoaded_eq]
      exact SortedMap.lookup_insert_self _ _ _
    rw [Clean, loaded] at clean
    cases clean.1

/-- A deletion that can read the file of a policy whose installation was stopped removes both of them. -/
theorem web_nothing_left :
    (some true, Reads.removed ⟨true, true, true, false⟩ webDeleted webLoaded) ∈
      finishDeletion webDeleted webLoaded ∧
    Clean webName (Reads.removed ⟨true, true, true, false⟩ webDeleted webLoaded) := by
  have run : Runs reconcileAppArmorProfile emptyHost [webProfile, webProfile] webLoaded :=
    .next (.next .start web_created) web_stopped
  have clean : Clean webDeleted.name.value emptyHost := ⟨rfl, rfl⟩
  obtain ⟨outcomes, nothingLeft, _⟩ := nothing_left_behind clean run rfl
  have unannotated : Reads.Possible ⟨true, true, true, false⟩ webDeleted.name.value webLoaded := by
    intro never
    cases never
  refine ⟨(outcomes _).mpr ⟨_, unannotated, rfl⟩, nothingLeft ?_ _ rfl⟩
  rw [webLoaded_eq]
  exact not_mem_nil

end web

end SecurityProfiles.Host
