import SecurityProfiles.Host.Frames

namespace SecurityProfiles.Host

open Faulty List

/-- The file is neither marked as one of the operator, nor is it the policy that is generated for the profile. -/
def Foreign (profile : AppArmorProfile) (text : Str) : Prop :=
  ¬managedByMarker <+: text ∧ profile.policy ≠ .ok text

def NotInstalled (status : NodeStatus) : Prop := status.state ≠ some .installed ∧ status.installed = false

/-- No node status of the profile says that the operator installed it. -/
structure NeverInstalled (system : System) (name : Str) : Prop where
  statuses : ∀ status, (name, status) ∈ system.statuses → NotInstalled status
  legacy : system.legacy.lookup name ≠ some .installed

/-- The policy file and the policy of a profile are as they were at the start, and the profile was not installed. -/
structure Kept (start : System) (name : Str) (system : System) : Prop where
  file : system.files.lookup (policyPath name) = start.files.lookup (policyPath name)
  policy : system.loaded.lookup name = start.loaded.lookup name
  touched : system.touched.count name = start.touched.count name
  never : NeverInstalled system name

/-- The host has a file or a policy of its own in the place of the profile. -/
structure HostOwned (start : System) (profile : AppArmorProfile) : Prop where
  file : ∀ text, start.files.lookup (policyPath profile.name.value) = some text → Foreign profile text
  policy : start.files.lookup (policyPath profile.name.value) = none →
    (start.loaded.lookup profile.name.value).isSome = true

section others

variable {profile : AppArmorProfile} {first second : System → Prop}

theorem Frames.and (framesFirst : Frames first profile) (framesSecond : Frames second profile) :
    Frames (fun system => first system ∧ second system) profile where
  read _ _ _ _ := trivial
  new _ _ := trivial
  write system text kept _ :=
    ⟨framesFirst.write system text kept.1 trivial, framesSecond.write system text kept.2 trivial⟩
  remove system kept := ⟨framesFirst.remove system kept.1, framesSecond.remove system kept.2⟩
  load system text kept found :=
    ⟨framesFirst.load system text kept.1 found, framesSecond.load system text kept.2 found⟩
  delete system kept := ⟨framesFirst.delete system kept.1, framesSecond.delete system kept.2⟩
  status system status kept := ⟨framesFirst.status system status kept.1, framesSecond.status system status kept.2⟩
  removeLegacy system kept := ⟨framesFirst.removeLegacy system kept.1, framesSecond.removeLegacy system kept.2⟩

theorem frames_file {path : Str} (other : path ≠ policyPath profile.name.value) (content : Option Str) :
    Frames (fun system => system.files.lookup path = content) profile where
  read _ _ _ _ := trivial
  new _ _ := trivial
  write _ _ kept _ := (SortedMap.lookup_insert_ne _ _ other).trans kept
  remove _ kept := (SortedMap.lookup_erase_ne _ other).trans kept
  load _ _ kept _ := kept
  delete _ kept := kept
  status _ _ kept := kept
  removeLegacy _ kept := kept

theorem frames_policy {name : Str} (other : name ≠ profile.name.value) (policy : Option Str) (times : Nat) :
    Frames (fun system => system.loaded.lookup name = policy ∧ system.touched.count name = times) profile where
  read _ _ _ _ := trivial
  new _ _ := trivial
  write _ _ kept _ := kept
  remove _ kept := kept
  load _ _ kept _ :=
    ⟨(SortedMap.lookup_insert_ne _ _ other).trans kept.1, (count_cons_of_ne other.symm).trans kept.2⟩
  delete _ kept := ⟨(SortedMap.lookup_erase_ne _ other).trans kept.1, (count_cons_of_ne other.symm).trans kept.2⟩
  status _ _ kept := kept
  removeLegacy _ kept := kept

theorem frames_never {name : Str} (other : name ≠ profile.name.value) :
    Frames (fun system => NeverInstalled system name) profile where
  read _ _ _ _ := trivial
  new _ _ := trivial
  write _ _ kept _ := ⟨kept.statuses, kept.legacy⟩
  remove _ kept := ⟨kept.statuses, kept.legacy⟩
  load _ _ kept _ := ⟨kept.statuses, kept.legacy⟩
  delete _ kept := ⟨kept.statuses, kept.legacy⟩
  status system status kept := by
    refine ⟨fun version member => ?_, kept.legacy⟩
    rcases mem_cons.mp member with same | older
    · exact absurd (Prod.mk.inj same).1 other
    · exact kept.statuses version older
  removeLegacy _ kept := ⟨kept.statuses, (SortedMap.lookup_erase_ne _ other).trans_ne kept.legacy⟩

end others

section owned

variable {start : System} {profile : AppArmorProfile} (owned : HostOwned start profile)

include owned

/-- A file that is there cannot be one of the operator. -/
theorem HostOwned.notManaged {path : Str} (isPath : path = policyPath profile.name.value) :
    Keeps (Kept start profile.name.value) (fileManagedByUs path) fun managed => managed = false := by
  subst isPath
  have read : Keeps (Kept start profile.name.value) (readFile (policyPath profile.name.value)) fun content =>
      ∀ text, content.join = some text → ¬managedByMarker <+: text := by
    refine Keeps.query (fun text none => by cases none) fun system kept text found => ?_
    exact (owned.file text (kept.file.symm.trans found)).1
  refine Keeps.bind read fun content foreign => Keeps.pure ?_
  cases joined : content.join with
  | none => rfl
  | some text =>
    rw [Option.map_some, Option.getD_some, Bool.eq_false_iff]
    intro isPrefix
    exact foreign text joined (List.isPrefixOf_iff_prefix.mp isPrefix)

/-- The policy of the host is not replaced. -/
theorem HostOwned.installProfile :
    Keeps (Kept start profile.name.value) (installProfile profile false) fun result =>
    ∀ updated, result ≠ .ok updated := by
  have refused : ∀ {error : ManagerError} (updated : Bool), (.error error : Except ManagerError Bool) ≠
      .ok updated := by
    intro error updated same
    cases same
  unfold Host.installProfile
  split
  · exact Keeps.pure refused
  have existing : Keeps (Kept start profile.name.value) (checkProfileExist profile.name.value) fun exists' =>
      exists' = false → start.loaded.lookup profile.name.value = none := by
    refine Keeps.ifDone keeps_call (Keeps.pure fun never => by cases never) ?_
    have loaded : Keeps (Kept start profile.name.value) (policyLoaded profile.name.value) fun answer =>
        answer.getD true = false → start.loaded.lookup profile.name.value = none := by
      refine Keeps.query (fun never => by cases never) fun system kept isNot => ?_
      rw [kept.policy, Option.getD_some, Option.isSome_eq_false_iff, Option.isNone_iff_eq_none] at isNot
      exact isNot
    exact Keeps.bind loaded fun answer isNot => Keeps.pure isNot
  have ofHost : Keeps (Kept start profile.name.value) (hostProfile profile.name.value false) fun ofHost =>
      ofHost = false → start.loaded.lookup profile.name.value = none := by
    refine Keeps.bind existing fun exists' isNot => ?_
    cases exists' with
    | false => exact Keeps.pure fun _ => isNot rfl
    | true =>
      have managed : Keeps (Kept start profile.name.value) (profileManagedByUs profile.name.value) fun managed =>
          managed = false := by
        exact Keeps.ifDone keeps_call (Keeps.pure rfl) (owned.notManaged rfl)
      refine Keeps.bind managed fun isManaged isFalse => Keeps.pure fun never => ?_
      rw [isFalse] at never
      cases never
  refine Keeps.bind ofHost fun isOfHost isNot => ?_
  cases isOfHost with
  | true => exact Keeps.pure refused
  | false =>
    cases generated : profile.policy with
    | error error => exact Keeps.pure refused
    | ok content =>
      refine Keeps.ifDone keeps_call (Keeps.pure refused) ?_
      have read : Keeps (Kept start profile.name.value) (readFile (policyPath profile.name.value)) fun answer =>
          ∀ previous, answer = some previous → foreignFile content false previous = true := by
        refine Keeps.query (fun previous none => by cases none) fun system kept previous found => ?_
        obtain rfl := Option.some.inj found
        rw [kept.file]
        cases stored : start.files.lookup (policyPath profile.name.value) with
        | none =>
          have loaded := owned.policy stored
          rw [isNot rfl] at loaded
          cases loaded
        | some text =>
          obtain ⟨notMarked, notGenerated⟩ := owned.file text stored
          have different : text ≠ content := by
            rintro rfl
            exact notGenerated generated
          have notPrefix : managedByMarker.isPrefixOf text = false := by
            rw [Bool.eq_false_iff]
            exact fun isPrefix => notMarked (List.isPrefixOf_iff_prefix.mp isPrefix)
          simp [foreignFile, notPrefix, different]
      refine Keeps.ifSome read (Keeps.pure refused) fun previous isForeign => ?_
      simp only [isForeign previous rfl, if_true]
      exact Keeps.pure refused

/-- The policy and the file of the host are not removed. -/
theorem HostOwned.removeProfile : Keeps (Kept start profile.name.value) (removeProfile profile false)
    fun _ => True := by
  have content : Keeps (Kept start profile.name.value)
      (fileHasContent (policyPath profile.name.value) (profile.policy.toOption.getD [])) fun same =>
        same = false := by
    unfold fileHasContent
    split
    · exact Keeps.pure rfl
    · next named =>
        have read : Keeps (Kept start profile.name.value) (readFile (policyPath profile.name.value)) fun answer =>
            answer.join ≠ some (profile.policy.toOption.getD []) := by
          refine Keeps.query (fun none => by cases none) fun system kept same => ?_
          have foreign := (owned.file _ (kept.file.symm.trans same)).2
          cases generated : profile.policy with
          | error error => simp [generated, Except.toOption] at named
          | ok text =>
            rw [generated] at foreign
            exact foreign rfl
        refine Keeps.bind read fun answer different => Keeps.pure ?_
        exact decide_eq_false different
  have evidence : Keeps (Kept start profile.name.value)
      (do if ← fileManagedByUs (policyPath profile.name.value) then return true
          else fileHasContent (policyPath profile.name.value) (profile.policy.toOption.getD [])) fun same =>
            same = false := by
    refine Keeps.bind (owned.notManaged rfl) fun managed isFalse => ?_
    cases managed with
    | true => cases isFalse
    | false => exact content
  have notOwned : Keeps (Kept start profile.name.value)
      (policyFileOwned (policyPath profile.name.value) (profile.policy.toOption.getD []) false) fun same =>
        same = false := by
    exact Keeps.ifFound Keeps.ask evidence (Keeps.pure rfl) fun _ _ => evidence
  refine Keeps.ifDone keeps_call .done ?_
  refine Keeps.bind notOwned fun isOwned isFalse => ?_
  cases isOwned with
  | true => cases isFalse
  | false => exact .done

theorem HostOwned.handles : Handles (Kept start profile.name.value) NotInstalled profile where
  read _ kept := kept.never.statuses
  write system status kept isFine := by
    refine ⟨kept.file, kept.policy, kept.touched, fun version member => ?_, kept.never.legacy⟩
    rcases mem_cons.mp member with same | older
    · rw [(Prod.mk.inj same).2]
      exact isFine
    · exact kept.never.statuses version older
  readLegacy system kept state found status isFine := by
    refine ⟨fun installed => kept.never.legacy ?_, isFine.2⟩
    rw [found]
    exact installed
  removeLegacy system kept := by
    refine ⟨kept.file, kept.policy, kept.touched, kept.never.statuses, fun found => ?_⟩
    exact kept.never.legacy (SortedMap.lookup_erase_eq_some.mp found).2
  new := ⟨by decide, rfl⟩
  state status state isFine other := ⟨fun installed => other (Option.some.inj installed), isFine.2⟩
  clear _ isFine := ⟨isFine.1, rfl⟩
  install status isFine := by
    rw [decide_eq_false isFine.1]
    exact owned.installProfile.imp (fun _ _ holds => holds) fun result _ _ never updated same =>
      absurd same (never updated)
  remove status isFine := by
    rw [isFine.2]
    exact owned.removeProfile

end owned

section run

variable {start final : System} {profiles : List AppArmorProfile}

/-- A profile in whose place the host has something of its own is left alone by every reconcile. -/
theorem kept_of_runs (run : Runs reconcileAppArmorProfile start profiles final) {name : ObjectName}
    (owned : ∀ profile ∈ profiles, profile.name.value = name.value → HostOwned start profile)
    (never : NeverInstalled start name.value) : Kept start name.value final := by
  refine run.keeps (fun profile member => ?_) ⟨rfl, rfl, rfl, never⟩
  by_cases same : profile.name.value = name.value
  · rw [← same]
    exact (owned profile member same).handles.reconcile
  · have otherPath : policyPath name.value ≠ policyPath profile.name.value := fun paths =>
      same (policyPath_injective paths).symm
    have frames := ((frames_file otherPath (start.files.lookup (policyPath name.value))).and
      (frames_policy (Ne.symm same) (start.loaded.lookup name.value) (start.touched.count name.value))).and
      (frames_never (Ne.symm same))
    intro system kept _ outcome isOutcome
    have after :=
      frames.handles.reconcile system ⟨⟨kept.file, kept.policy, kept.touched⟩, kept.never⟩ trivial outcome
      isOutcome
    exact ⟨⟨after.1.1.1, after.1.1.2.1, after.1.1.2.2, after.1.2⟩, after.2⟩

/-- The generated text starts with an empty line. -/
theorem policy_head {profile : AppArmorProfile} {content : Str} (generated : profile.policy = .ok content) :
    content.head? = some '\n' := by
  rw [(generateProfile_ok.mp generated).2]
  exact congrArg List.head? (intercalate_cons_cons ..)

/-- A policy file of the host that is not marked and is not what is generated for its profile stays as it is. So
does a policy that was loaded without a policy file of the operator: it is neither replaced nor unloaded. -/
theorem host_profiles_untouched (run : Runs reconcileAppArmorProfile start profiles final)
    (never : ∀ profile ∈ profiles, NeverInstalled start profile.name.value) :
    (∀ path text, start.files.lookup path = some text →
      (∀ profile ∈ profiles, policyPath profile.name.value = path → Foreign profile text) →
      final.files.lookup path = some text) ∧
    ∀ name policy, start.loaded.lookup name = some policy →
      (∀ profile ∈ profiles, profile.name.value = name → ∀ text,
        start.files.lookup (policyPath name) = some text → Foreign profile text) →
      final.loaded.lookup name = some policy ∧ final.touched.count name = start.touched.count name := by
  constructor
  · intro path text stored foreign
    by_cases some' : ∃ profile ∈ profiles, policyPath profile.name.value = path
    · obtain ⟨profile, member, rfl⟩ := some'
      have owned : ∀ other ∈ profiles, other.name.value = profile.name.value → HostOwned start other := by
        intro other isOther same
        constructor
        · intro found isFound
          rw [same, stored] at isFound
          obtain rfl := Option.some.inj isFound
          exact foreign other isOther (by rw [same])
        · intro none
          rw [same, stored] at none
          cases none
      have kept := kept_of_runs run owned (never profile member)
      rw [kept.file]
      exact stored
    · have step : ∀ profile ∈ profiles, Keeps (fun system : System => system.files.lookup path = some text)
          (reconcileAppArmorProfile profile) fun _ => True := by
        intro profile member
        exact (frames_file (fun same => some' ⟨profile, member, same.symm⟩) _).handles.reconcile
      exact run.keeps step stored
  · intro name policy loaded foreign
    by_cases some' : ∃ profile ∈ profiles, profile.name.value = name
    · obtain ⟨profile, member, rfl⟩ := some'
      have owned : ∀ other ∈ profiles, other.name.value = profile.name.value → HostOwned start other := by
        intro other isOther same
        constructor
        · intro text isFound
          rw [same] at isFound
          exact foreign other isOther same text isFound
        · intro _
          rw [same, loaded]
          rfl
      have kept := kept_of_runs run owned (never profile member)
      exact ⟨kept.policy.trans loaded, kept.touched⟩
    · have step : ∀ profile ∈ profiles, Keeps (fun system : System => system.loaded.lookup name = some policy ∧
          system.touched.count name = start.touched.count name) (reconcileAppArmorProfile profile)
          fun _ => True := by
        intro profile member
        exact (frames_policy (fun same => some' ⟨profile, member, same.symm⟩) _ _).handles.reconcile
      exact run.keeps step ⟨loaded, rfl⟩

end run

section crun

def crunName : ObjectName := ⟨"crun".toList, by decide⟩

/-- A profile with the name of one of the host. -/
def crunProfile : AppArmorProfile where
  name := crunName
  mode := .enforce
  abstract := ⟨none, none, none, none, none⟩
  disabled := false
  isPartial := false
  deleting := false
  inUse := false
  hasFinalizer := true

def crunPolicy : Str := "profile crun \x7b\x7d\n".toList

/-- The policy of the host is loaded from its file. -/
def crunHost : System where
  files := SortedMap.empty.insert (policyPath crunName.value) crunPolicy
  loaded := SortedMap.empty.insert crunName.value crunPolicy
  touched := []
  stranded := []
  statuses := []
  legacy := .empty

/-- After the first reconcile the profile has a status. -/
def crunPending : System :=
  (crunHost.putStatus crunName.value ⟨none, false⟩).putStatus crunName.value ⟨some .pending, false⟩

/-- The first reconcile of a profile creates its status. -/
theorem mem_created (name : ObjectName) (system : System) (noLegacy : system.legacy.lookup name.value = none) :
    (some true, (system.putStatus name.value ⟨none, false⟩).putStatus name.value ⟨some .pending, false⟩) ∈
      reconcileAppArmorProfile { crunProfile with name } system := by
  have unrecorded : (some none, system) ∈ removeLegacyNodeStatus name.value system := by
    refine mem_bind (mem_query _ system) ?_
    rw [noLegacy]
    exact mem_pure none system
  refine mem_bind (mem_select none mem_cons_self) ?_
  refine mem_bind (mem_change id system) ?_
  refine mem_bind (mem_change id system) ?_
  refine mem_bind unrecorded ?_
  refine mem_bind (mem_select none mem_cons_self) ?_
  refine mem_bind (mem_change _ system) ?_
  rw [if_pos rfl]
  exact mem_change (fun system : System => system.putStatus name.value ⟨some .pending, false⟩) _

theorem crun_created : (some true, crunPending) ∈ reconcileAppArmorProfile crunProfile crunHost :=
  mem_created crunName crunHost rfl

/-- The second reconcile does not install it. -/
theorem crun_refused : (some false, crunPending) ∈ reconcileAppArmorProfile crunProfile crunPending := by
  have version : some ⟨some .pending, false⟩ ∈ (none :: (crunPending.statuses.filter (·.1 = crunName.value)).map
      fun status => some status.2 : List (Option NodeStatus)) := by
    decide
  have loaded : (crunPending.loaded.lookup crunName.value).isSome = true := rfl
  have exists' : (some true, crunPending) ∈ checkProfileExist crunName.value crunPending := by
    refine mem_bind (mem_change id crunPending) (mem_bind (mem_query _ crunPending) ?_)
    rw [loaded]
    exact mem_pure true crunPending
  have stored : crunPending.files.lookup (policyPath crunName.value) = some crunPolicy :=
    SortedMap.lookup_insert_self _ _ _
  have notManaged : (some false, crunPending) ∈ profileManagedByUs crunName.value crunPending := by
    refine mem_bind (mem_change id crunPending) (mem_bind (mem_query _ crunPending) ?_)
    rw [stored]
    exact mem_pure false crunPending
  have ofHost : (some true, crunPending) ∈ hostProfile crunName.value false crunPending :=
    mem_bind exists' (mem_bind notManaged (mem_pure true crunPending))
  have refused : (some (.error .profileExists), crunPending) ∈ installProfile crunProfile false crunPending := by
    rw [installProfile, if_neg (by decide)]
    exact mem_bind ofHost (mem_pure _ crunPending)
  refine mem_bind (mem_select _ version) (mem_bind (mem_change id crunPending) ?_)
  change (some false, crunPending) ∈ reconcileInstall crunProfile crunPending
  exact mem_bind (mem_select _ version) (mem_bind refused (mem_pure false crunPending))

/-- Two reconciles of the profile leave the file and the policy of the host as they are. -/
theorem crun_untouched : Runs reconcileAppArmorProfile crunHost [crunProfile, crunProfile] crunPending ∧
    crunPending.files.lookup (policyPath crunName.value) = some crunPolicy ∧
    crunPending.loaded.lookup crunName.value = some crunPolicy ∧ crunPending.touched.count crunName.value = 0 := by
  have run : Runs reconcileAppArmorProfile crunHost [crunProfile, crunProfile] crunPending :=
    .next (.next .start crun_created) crun_refused
  have never : ∀ profile ∈ [crunProfile, crunProfile], NeverInstalled crunHost profile.name.value := by
    intro profile _
    exact ⟨fun _ listed => absurd listed not_mem_nil, fun recorded => nomatch recorded⟩
  have foreign : ∀ profile ∈ [crunProfile, crunProfile], Foreign profile crunPolicy := by
    intro profile member
    have same : profile = crunProfile := by simpa using member
    rw [same]
    refine ⟨by decide, fun generated => ?_⟩
    have other : crunPolicy.head? = some 'p' := by decide
    have clash : some 'p' = some '\n' := other.symm.trans (policy_head generated)
    exact absurd clash (by decide)
  obtain ⟨files, policies⟩ := host_profiles_untouched run never
  refine ⟨run, files _ _ (SortedMap.lookup_insert_self _ _ _) fun profile member _ => foreign profile member, ?_⟩
  refine policies _ _ (SortedMap.lookup_insert_self _ _ _) fun profile member _ text stored => ?_
  have same : text = crunPolicy := Option.some.inj (stored.symm.trans (SortedMap.lookup_insert_self _ _ _))
  rw [same]
  exact foreign profile member

end crun

end SecurityProfiles.Host
