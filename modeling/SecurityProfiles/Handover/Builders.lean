import SecurityProfiles.Writers.NoLostUpdate

namespace SecurityProfiles.Handover

open List

inductive BuildError where
  | seccompArch
  | malformedContext
  | emptyContextOrClass
deriving DecidableEq

/-- How the recorder builds a profile from items of the enricher, each of which stands for a rule. -/
structure Collector (α : Type) where
  build : List α → Except BuildError Spec
  rule : α → Rule
  complete : ∀ {items spec}, build items = .ok spec → ∀ item ∈ items, spec.Contains (rule item)

section seccomp

def syscallRule (name : String) : Rule := .syscall ⟨name, .allow, none, []⟩

/-- The architecture is the one of the node, if it is known. -/
def buildSeccomp (arch : Option Arch) (names : List String) : Except BuildError Spec :=
  match arch with
  | none => .error .seccompArch
  | some arch => .ok (seccompAllowing [arch] names)

def seccompCollector (arch : Option Arch) : Collector String where
  build := buildSeccomp arch
  rule := syscallRule
  complete {names spec} built name member := by
    cases arch with
    | none => cases built
    | some arch =>
      cases built
      refine ⟨_, mem_singleton_self _, ?_⟩
      exact ⟨member, rfl, rfl, rfl⟩

end seccomp

section selinux

def seContextRequiredParts : Nat := 3
def selinuxPermissiveProfile : String := "selinuxrecording.process"
def allowSelf : String := "@self"

def splitText (separator : Char) (text : String) : List String := (text.toList.splitOn separator).map String.ofList

def ctxt2type (ctx : String) : Except BuildError String :=
  match (splitText ':' ctx)[seContextRequiredParts - 1]? with
  | none => .error .malformedContext
  | some ctxType => .ok ctxType

/-- An AVC as the kernel writes it: the class has no blank, and neither has the type, which is not a reference of a
profile to itself. -/
structure Avc where
  perm : String
  tclass : String
  tcontext : String
  plainClass : ' ' ∉ tclass.toList
  plainType : ∀ ctxType, ctxt2type tcontext = .ok ctxType → ' ' ∉ ctxType.toList ∧ ctxType ≠ allowSelf
deriving DecidableEq

/-- The permissions for each key, in the order in which the keys came. -/
abbrev PermMap := List (String × List String)

def insertPerm (perm : String) (perms : List String) : List String :=
  if perm ∈ perms then perms else perms ++ [perm]

def addPerm (key perm : String) : PermMap → PermMap
  | [] => [(key, [perm])]
  | entry :: rest =>
    if entry.1 = key then (key, insertPerm perm entry.2) :: rest else entry :: addPerm key perm rest

def addAvc (permMap : PermMap) (avc : Avc) : Except BuildError PermMap := do
  let ctxType ← ctxt2type avc.tcontext
  return addPerm (avc.tclass ++ " " ++ ctxType) avc.perm permMap

/-- Class and type of a key; the type of a recorded process refers to the profile itself. -/
def targetClassCtx (key : String) : String × String :=
  let splitkey := splitText ' ' key
  let tcontext := splitkey[1]?.getD ""
  (splitkey[0]?.getD "", if tcontext = selinuxPermissiveProfile then allowSelf else tcontext)

def writeLineFromKeyVal (allow : Allow) (entry : String × List String) : Except BuildError Allow :=
  let (tclass, setype) := targetClassCtx entry.1
  if tclass = "" ∨ setype = "" then .error .emptyContextOrClass
  else .ok (allow.insert setype ((allow.classes setype).insert tclass (Text.sort entry.2)))

def format (permMap : PermMap) : Except BuildError Allow :=
  (permMap.insertionSort fun first second => first.1 ≤ second.1).foldlM writeLineFromKeyVal .empty

def formatSelinuxProfile (avcs : List Avc) : Except BuildError Allow := do
  let permMap ← avcs.foldlM addAvc []
  format permMap

/-- The type that an AVC is about in the profile. -/
def Avc.label (avc : Avc) : String :=
  match ctxt2type avc.tcontext with
  | .error _ => ""
  | .ok ctxType => if ctxType = selinuxPermissiveProfile then allowSelf else ctxType

/-- The type of the target; there is none in a malformed context. -/
def Avc.ctxType (avc : Avc) : String := (ctxt2type avc.tcontext).toOption.getD ""

def Avc.key (avc : Avc) : String := avc.tclass ++ " " ++ avc.ctxType

variable {tclass ctxType key key' perm perm' label : String} {avc avc' : Avc} {permMap : PermMap} {avcs : List Avc}
  {allow : Allow} {entries : PermMap}

theorem splitText_key (plainClass : ' ' ∉ tclass.toList) (plainType : ' ' ∉ ctxType.toList) :
    splitText ' ' (tclass ++ " " ++ ctxType) = [tclass, ctxType] := by
  have joined : (tclass ++ " " ++ ctxType).toList = tclass.toList ++ ' ' :: ctxType.toList := by
    simp [String.toList_append]
  rw [splitText, joined, splitOn_append_cons_self_of_not_mem plainClass, splitOn_eq_singleton plainType]
  simp

theorem Avc.label_eq (avc : Avc) :
    avc.label = if avc.ctxType = selinuxPermissiveProfile then allowSelf else avc.ctxType := by
  unfold Avc.label Avc.ctxType
  cases ctxt2type avc.tcontext with
  | error _ => rfl
  | ok ctxType => rfl

theorem Avc.label_eq_empty (avc : Avc) : avc.label = "" ↔ avc.ctxType = "" := by
  rw [avc.label_eq]
  split
  · next isSelf =>
      rw [isSelf]
      decide
  · exact Iff.rfl

theorem Avc.plain_ctxType (avc : Avc) : ' ' ∉ avc.ctxType.toList ∧ avc.ctxType ≠ allowSelf := by
  unfold Avc.ctxType
  cases isType : ctxt2type avc.tcontext with
  | error error =>
    rw [show (Except.error error : Except BuildError String).toOption.getD "" = "" from rfl]
    decide
  | ok ctxType => exact avc.plainType ctxType isType

theorem target_key (avc : Avc) : targetClassCtx avc.key = (avc.tclass, avc.label) := by
  simp [targetClassCtx, Avc.key, splitText_key avc.plainClass avc.plain_ctxType.1, avc.label_eq]

/-- Different keys write different lines: only the type of a recorded process is replaced, by one that is no
type. -/
theorem key_eq_iff : avc.key = avc'.key ↔ avc.tclass = avc'.tclass ∧ avc.label = avc'.label := by
  constructor
  · intro same
    have targets := congrArg targetClassCtx same
    rwa [target_key, target_key, Prod.mk.injEq] at targets
  · rintro ⟨classes, labels⟩
    have types : avc.ctxType = avc'.ctxType := by
      rw [avc.label_eq, avc'.label_eq] at labels
      split at labels <;> split at labels
      · next first second => rw [first, second]
      · exact absurd labels.symm avc'.plain_ctxType.2
      · exact absurd labels avc.plain_ctxType.2
      · exact labels
    rw [Avc.key, Avc.key, classes, types]

structure Collects (permMap : PermMap) (avcs : List Avc) : Prop where
  nodup : (permMap.map (·.1)).Nodup
  perms : ∀ entry ∈ permMap, entry.2.Nodup ∧ entry.2 ≠ []
  listed : ∀ key perm, (∃ entry ∈ permMap, entry.1 = key ∧ perm ∈ entry.2) ↔ ∃ avc ∈ avcs, avc.key = key ∧
    avc.perm = perm

theorem mem_insertPerm {perms : List String} : perm' ∈ insertPerm perm perms ↔ perm' = perm ∨ perm' ∈ perms := by
  unfold insertPerm
  split <;> grind

theorem mem_keys_addPerm :
    key' ∈ (addPerm key perm permMap).map (·.1) ↔ key' = key ∨ key' ∈ permMap.map (·.1) := by
  induction permMap with
  | nil => simp [addPerm]
  | cons entry rest ih =>
    unfold addPerm
    split
    · next same => simp [same]
    · simp only [map_cons, mem_cons, ih]
      tauto

theorem nodup_addPerm (nodup : (permMap.map (·.1)).Nodup) :
    ((addPerm key perm permMap).map (·.1)).Nodup := by
  induction permMap with
  | nil => simp [addPerm]
  | cons entry rest ih =>
    obtain ⟨fresh, nodupRest⟩ := nodup_cons.mp nodup
    unfold addPerm
    split
    · next same =>
        exact nodup_cons.mpr ⟨same ▸ fresh, nodupRest⟩
    · next different =>
        refine nodup_cons.mpr ⟨fun member => ?_, ih nodupRest⟩
        rcases mem_keys_addPerm.mp member with same | member
        · exact different same
        · exact fresh member

theorem perms_addPerm (perms : ∀ entry ∈ permMap, entry.2.Nodup ∧ entry.2 ≠ []) :
    ∀ entry ∈ addPerm key perm permMap, entry.2.Nodup ∧ entry.2 ≠ [] := by
  induction permMap with
  | nil => simp [addPerm]
  | cons first rest ih =>
    obtain ⟨ofFirst, ofRest⟩ := forall_mem_cons.mp perms
    unfold addPerm
    split
    · refine forall_mem_cons.mpr ⟨?_, ofRest⟩
      unfold insertPerm
      split <;> grind
    · exact forall_mem_cons.mpr ⟨ofFirst, ih ofRest⟩

theorem listed_addPerm : (∃ entry ∈ addPerm key perm permMap, entry.1 = key' ∧ perm' ∈ entry.2) ↔
    key' = key ∧ perm' = perm ∨ ∃ entry ∈ permMap, entry.1 = key' ∧ perm' ∈ entry.2 := by
  induction permMap with
  | nil => simp [addPerm, eq_comm]
  | cons first rest ih =>
    unfold addPerm
    split
    · next same =>
        simp only [exists_mem_cons_iff, mem_insertPerm, same]
        tauto
    · simp only [exists_mem_cons_iff, ih]
      tauto

theorem collects_foldl (avcs : List Avc) :
    Collects (avcs.foldl (fun permMap avc => addPerm avc.key avc.perm permMap) []) avcs := by
  induction avcs using List.reverseRecOn with
  | nil => exact ⟨nodup_nil, by simp, by simp⟩
  | append_singleton avcs avc ih =>
    rw [foldl_append]
    refine ⟨nodup_addPerm ih.nodup, perms_addPerm ih.perms, fun key perm => ?_⟩
    rw [foldl_cons, foldl_nil, listed_addPerm, ih.listed]
    simp only [mem_append, mem_singleton, or_and_right, exists_or, exists_eq_left]
    grind

theorem Collects.avc_of_entry (collects : Collects permMap avcs) {entry : String × List String}
    (member : entry ∈ permMap) : ∃ avc ∈ avcs, avc.key = entry.1 := by
  obtain ⟨perm, listed⟩ := exists_mem_of_ne_nil _ (collects.perms entry member).2
  obtain ⟨avc, isAvc, same, -⟩ := (collects.listed entry.1 perm).mp ⟨entry, member, rfl, listed⟩
  exact ⟨avc, isAvc, same⟩

theorem Collects.nodup_targets (collects : Collects permMap avcs) :
    (permMap.map fun entry => targetClassCtx entry.1).Nodup := by
  have distinct : (permMap.map (·.1)).Pairwise (· ≠ ·) := collects.nodup
  rw [pairwise_map] at distinct
  refine pairwise_map.mpr (distinct.imp_of_mem fun isFirst isSecond different same => different ?_)
  obtain ⟨avc, -, first⟩ := collects.avc_of_entry isFirst
  obtain ⟨avc', -, second⟩ := collects.avc_of_entry isSecond
  rw [← first, ← second, target_key, target_key, Prod.mk.injEq] at same
  rw [← first, ← second, key_eq_iff.mpr same]

def writeLine (allow : Allow) (entry : String × List String) : Allow :=
  allow.insert (targetClassCtx entry.1).2
    ((allow.classes (targetClassCtx entry.1).2).insert (targetClassCtx entry.1).1 (Text.sort entry.2))

theorem lookup_writeLine (allow : Allow) (entry : String × List String) (label tclass : String) :
    ((writeLine allow entry).classes label).lookup tclass =
      if targetClassCtx entry.1 = (tclass, label) then some (Text.sort entry.2)
        else (allow.classes label).lookup tclass := by
  obtain ⟨key, perms⟩ := entry
  unfold writeLine
  generalize targetClassCtx key = target
  obtain ⟨tclass', label'⟩ := target
  by_cases sameLabel : label = label'
  · subst sameLabel
    rw [Allow.classes, SortedMap.lookup_insert_self, Option.getD_some, SortedMap.lookup_insert]
    simp [eq_comm]
  · rw [Allow.classes, SortedMap.lookup_insert_ne _ _ sameLabel, ← Allow.classes, if_neg]
    exact fun same => sameLabel (Prod.mk.inj same).2.symm

/-- No line is written twice, so that each stays as it is written. -/
theorem lookup_foldl_writeLine (nodup : (entries.map fun entry => targetClassCtx entry.1).Nodup) (allow : Allow)
    (label tclass : String) : ((entries.foldl writeLine allow).classes label).lookup tclass =
      match entries.find? fun entry => targetClassCtx entry.1 = (tclass, label) with
      | some entry => some (Text.sort entry.2)
      | none => (allow.classes label).lookup tclass := by
  induction entries generalizing allow with
  | nil => rfl
  | cons entry rest ih =>
    rw [map_cons, nodup_cons] at nodup
    rw [foldl_cons, ih nodup.2, find?_cons, lookup_writeLine]
    by_cases here : targetClassCtx entry.1 = (tclass, label)
    · have absent : rest.find? (fun entry => targetClassCtx entry.1 = (tclass, label)) = none := by
        rw [find?_eq_none]
        intro other member same
        refine nodup.1 (mem_map.mpr ⟨other, member, ?_⟩)
        rw [here, of_decide_eq_true same]
      simp [here, absent]
    · simp [here]

theorem lookup_foldl_writeLine_ne_none (entries : PermMap) (allow : Allow) (label : String) :
    (entries.foldl writeLine allow).lookup label ≠ none ↔
      allow.lookup label ≠ none ∨ ∃ entry ∈ entries, (targetClassCtx entry.1).2 = label := by
  induction entries generalizing allow with
  | nil => simp
  | cons entry rest ih =>
    rw [foldl_cons, ih, exists_mem_cons_iff, writeLine, SortedMap.lookup_insert]
    split <;> grind

/-- The sorted permissions of the AVCs with a type and a class. -/
def permsOf (avcs : List Avc) (label tclass : String) : PermissionSet :=
  Text.compact (Text.sort ((avcs.filter fun avc => avc.label = label ∧ avc.tclass = tclass).map Avc.perm))

def observed (avcs : List Avc) (label tclass : String) : Option PermissionSet :=
  if permsOf avcs label tclass = [] then none else some (permsOf avcs label tclass)

theorem mem_permsOf : perm ∈ permsOf avcs label tclass ↔
    ∃ avc ∈ avcs, avc.tclass = tclass ∧ avc.label = label ∧ avc.perm = perm := by
  rw [permsOf, Text.mem_compact_sort, mem_map]
  simp only [mem_filter, decide_eq_true_eq]
  grind

/-- The rules are those of the AVCs. -/
structure Observes (allow : Allow) (avcs : List Avc) : Prop where
  perms : ∀ label tclass, (allow.classes label).lookup tclass = observed avcs label tclass
  labels : ∀ label, allow.lookup label ≠ none ↔ ∃ avc ∈ avcs, avc.label = label

/-- There is only one profile with the observed rules. -/
theorem Observes.unique {allow' : Allow} {avcs' : List Avc} (first : Observes allow avcs)
    (second : Observes allow' avcs') (same : ∀ avc, avc ∈ avcs ↔ avc ∈ avcs') : allow = allow' := by
  refine SortedMap.ext_lookup fun label => ?_
  have labels : allow.lookup label ≠ none ↔ allow'.lookup label ≠ none := by
    rw [first.labels, second.labels]
    simp only [same]
  have classes : allow.classes label = allow'.classes label := by
    refine SortedMap.ext_lookup fun tclass => ?_
    have perms : permsOf avcs label tclass = permsOf avcs' label tclass := by
      refine Text.compact_sort_congr fun perm => ?_
      simp only [mem_map, mem_filter, same]
    rw [first.perms, second.perms, observed, observed, perms]
  unfold Allow.classes at classes
  cases before : allow.lookup label with
  | none => grind
  | some classes' =>
    cases after : allow'.lookup label with
    | none => grind
    | some _ =>
      rw [before, after] at classes
      exact congrArg some classes

/-- The lines for the collected permissions give the observed rules, in whatever order they are written. -/
theorem Collects.observes (collects : Collects permMap avcs) (sorted : entries.Perm permMap) :
    Observes (entries.foldl writeLine .empty) avcs := by
  have targets : (entries.map fun entry => targetClassCtx entry.1).Nodup :=
    (sorted.map _).nodup_iff.mpr collects.nodup_targets
  have ofEntry : ∀ entry ∈ entries, ∃ avc ∈ avcs, targetClassCtx entry.1 = (avc.tclass, avc.label) := by
    intro entry member
    obtain ⟨avc, isAvc, same⟩ := collects.avc_of_entry (sorted.mem_iff.mp member)
    exact ⟨avc, isAvc, same ▸ target_key avc⟩
  refine ⟨fun label tclass => ?_, fun label => ?_⟩
  · rw [lookup_foldl_writeLine targets, observed]
    cases found : entries.find? fun entry => targetClassCtx entry.1 = (tclass, label) with
    | none =>
      have nothing : permsOf avcs label tclass = [] := by
        refine eq_nil_iff_forall_not_mem.mpr fun perm isPerm => ?_
        obtain ⟨avc, isAvc, rfl, rfl, rfl⟩ := mem_permsOf.mp isPerm
        obtain ⟨entry, member, same, -⟩ := (collects.listed avc.key avc.perm).mpr ⟨avc, isAvc, rfl, rfl⟩
        refine find?_eq_none.mp found entry (sorted.mem_iff.mpr member) (decide_eq_true ?_)
        rw [same, target_key]
      rw [if_pos nothing]
      rfl
    | some entry =>
      have isEntry := sorted.mem_iff.mp (mem_of_find?_eq_some found)
      have isTarget := of_decide_eq_true (find?_some (p := fun entry : String × List String =>
        decide (targetClassCtx entry.1 = (tclass, label))) found)
      obtain ⟨nodup, nonempty⟩ := collects.perms entry isEntry
      obtain ⟨avc, -, isKey⟩ := collects.avc_of_entry isEntry
      rw [← isKey, target_key, Prod.mk.injEq] at isTarget
      have same : Text.sort entry.2 = permsOf avcs label tclass := by
        refine Text.eq_of_pairwise_lt (Text.pairwise_sort nodup) (Text.pairwise_compact_sort _) fun perm => ?_
        rw [mem_permsOf, Text.mem_sort]
        constructor
        · intro listed
          obtain ⟨other, isOther, sameKey, rfl⟩ := (collects.listed entry.1 perm).mp ⟨entry, isEntry, rfl, listed⟩
          obtain ⟨sameClass, sameLabel⟩ := key_eq_iff.mp (isKey.trans sameKey.symm)
          exact ⟨other, isOther, sameClass ▸ isTarget.1, sameLabel ▸ isTarget.2, rfl⟩
        · rintro ⟨other, isOther, sameClass, sameLabel, rfl⟩
          have sameKey : other.key = entry.1 := by
            rw [← isKey, key_eq_iff, sameClass, sameLabel, isTarget.1, isTarget.2]
            exact ⟨rfl, rfl⟩
          obtain ⟨found, isFound, isFoundKey, listed⟩ :=
            (collects.listed entry.1 other.perm).mpr ⟨other, isOther, sameKey, rfl⟩
          rwa [← inj_on_of_nodup_map collects.nodup isFound isEntry isFoundKey]
      obtain ⟨perm, listed⟩ := exists_mem_of_ne_nil _ nonempty
      have isPerm : perm ∈ permsOf avcs label tclass := same ▸ Text.mem_sort.mpr listed
      rw [if_neg (ne_nil_of_mem isPerm), ← same]
  · rw [lookup_foldl_writeLine_ne_none]
    constructor
    · rintro (absurd' | ⟨entry, member, rfl⟩)
      · exact absurd (SortedMap.lookup_empty label) absurd'
      · obtain ⟨avc, isAvc, target⟩ := ofEntry entry member
        exact ⟨avc, isAvc, by rw [target]⟩
    · rintro ⟨avc, isAvc, rfl⟩
      obtain ⟨entry, member, same, -⟩ := (collects.listed avc.key avc.perm).mpr ⟨avc, isAvc, rfl, rfl⟩
      exact .inr ⟨entry, sorted.mem_iff.mpr member, by rw [same, target_key]⟩

/-- A context with fewer than three parts, or without a type or a class. -/
def Avc.Malformed (avc : Avc) : Prop :=
  (splitText ':' avc.tcontext).length < seContextRequiredParts ∨ avc.ctxType = "" ∨ avc.tclass = ""

theorem addAvc_ok {permMap' : PermMap} : addAvc permMap avc = .ok permMap' ↔
    seContextRequiredParts ≤ (splitText ':' avc.tcontext).length ∧ addPerm avc.key avc.perm permMap = permMap' := by
  unfold addAvc Avc.key Avc.ctxType ctxt2type
  cases isPart : (splitText ':' avc.tcontext)[seContextRequiredParts - 1]? with
  | none =>
    have short := List.getElem?_eq_none_iff.mp isPart
    constructor
    · intro refused
      cases refused
    · rintro ⟨long, -⟩
      unfold seContextRequiredParts at short long
      omega
  | some ctxType =>
    obtain ⟨long, -⟩ := List.getElem?_eq_some_iff.mp isPart
    constructor
    · intro added
      exact ⟨long, Except.ok.inj added⟩
    · rintro ⟨-, rfl⟩
      rfl

theorem writeLineFromKeyVal_ok {entry : String × List String} {allow' : Allow} :
    writeLineFromKeyVal allow entry = .ok allow' ↔
      ((targetClassCtx entry.1).1 ≠ "" ∧ (targetClassCtx entry.1).2 ≠ "") ∧ writeLine allow entry = allow' := by
  unfold writeLineFromKeyVal writeLine
  dsimp only
  split <;> grind

/-- The builder fails exactly on a malformed message, and otherwise the rules are those of the messages, whatever
their order. -/
theorem formatSelinuxProfile_ok : formatSelinuxProfile avcs = .ok allow ↔
    (∀ avc ∈ avcs, ¬ avc.Malformed) ∧ Observes allow avcs := by
  have collects := collects_foldl avcs
  have sorted := perm_insertionSort (fun first second : String × List String => first.1 ≤ second.1)
    (avcs.foldl (fun permMap avc => addPerm avc.key avc.perm permMap) [])
  have observes := collects.observes sorted
  have collected : ∀ permMap, avcs.foldlM addAvc [] = .ok permMap ↔
      (∀ avc ∈ avcs, seContextRequiredParts ≤ (splitText ':' avc.tcontext).length) ∧
        avcs.foldl (fun permMap avc => addPerm avc.key avc.perm permMap) [] = permMap :=
    @Fallible.foldlM_ok _ _ _ avcs addAvc _
    (fun avc => seContextRequiredParts ≤ (splitText ':' avc.tcontext).length) (fun _ _ _ => addAvc_ok) []
  have wrote : ∀ permMap, format permMap = .ok allow ↔ _ := fun permMap =>
    @Fallible.foldlM_ok _ _ _ _ writeLineFromKeyVal writeLine
      (fun entry => (targetClassCtx entry.1).1 ≠ "" ∧ (targetClassCtx entry.1).2 ≠ "")
      (fun _ _ _ => writeLineFromKeyVal_ok) .empty allow
  unfold formatSelinuxProfile
  simp only [Fallible.bind_ok, collected, wrote]
  constructor
  · rintro ⟨_, ⟨long, rfl⟩, written, rfl⟩
    refine ⟨fun avc isAvc malformed => ?_, observes⟩
    obtain ⟨entry, member, same, -⟩ := (collects.listed avc.key avc.perm).mpr ⟨avc, isAvc, rfl, rfl⟩
    obtain ⟨hasClass, hasLabel⟩ := written entry (sorted.mem_iff.mpr member)
    rw [same, target_key] at hasClass hasLabel
    rcases malformed with short | noType | noClass
    · exact absurd (long avc isAvc) (not_le.mpr short)
    · exact hasLabel (avc.label_eq_empty.mpr noType)
    · exact hasClass noClass
  · rintro ⟨formed, isObserved⟩
    refine ⟨_, ⟨fun avc isAvc => ?_, rfl⟩, fun entry member => ?_, observes.unique isObserved fun _ => Iff.rfl⟩
    · exact not_lt.mp fun short => formed avc isAvc (.inl short)
    · obtain ⟨avc, isAvc, same⟩ := collects.avc_of_entry (sorted.mem_iff.mp member)
      rw [← same, target_key]
      refine ⟨fun noClass => formed avc isAvc (.inr (.inr noClass)), fun noLabel =>
        formed avc isAvc (.inr (.inl ?_))⟩
      exact avc.label_eq_empty.mp noLabel

theorem exists_of_formed (formed : ∀ avc ∈ avcs, ¬ avc.Malformed) :
    ∃ allow, formatSelinuxProfile avcs = .ok allow := by
  have sorted := perm_insertionSort (fun first second : String × List String => first.1 ≤ second.1)
    (avcs.foldl (fun permMap avc => addPerm avc.key avc.perm permMap) [])
  exact ⟨_, formatSelinuxProfile_ok.mpr ⟨formed, (collects_foldl avcs).observes sorted⟩⟩

/-- The rules of the profile are the observed ones, for any order and repetition of the AVCs, and the profile is
only refused for a malformed AVC. -/
theorem formatSelinuxProfile_exact (avcs : List Avc) :
    (∀ error, formatSelinuxProfile avcs = .error error → ∃ avc ∈ avcs, avc.Malformed) ∧
      ∀ allow, formatSelinuxProfile avcs = .ok allow → Observes allow avcs ∧
        ∀ avcs', (∀ avc, avc ∈ avcs ↔ avc ∈ avcs') → formatSelinuxProfile avcs' = .ok allow := by
  refine ⟨fun error failed => ?_, fun allow built => ?_⟩
  · by_contra formed
    push Not at formed
    obtain ⟨allow, built⟩ := exists_of_formed formed
    rw [built] at failed
    cases failed
  · obtain ⟨formed, isObserved⟩ := formatSelinuxProfile_ok.mp built
    refine ⟨isObserved, fun avcs' same => ?_⟩
    obtain ⟨allow', built'⟩ := exists_of_formed fun avc isAvc => formed avc ((same avc).mpr isAvc)
    rw [built', isObserved.unique (formatSelinuxProfile_ok.mp built').2 same]

end selinux

end SecurityProfiles.Handover
