import SecurityProfiles.Profiles.Seccomp
import SecurityProfiles.Library.SortedMap

namespace SecurityProfiles

open List

abbrev PermissionSet := List String

abbrev ObjectClassPermissions := SortedMap String PermissionSet

abbrev Allow := SortedMap String ObjectClassPermissions

structure SelinuxProfileSpec where
  state : SpecState
  allow : Allow
deriving DecidableEq

def ObjectClassPermissions.perms (classes : ObjectClassPermissions) (objClass : String) : PermissionSet :=
  (classes.lookup objClass).getD []

def Allow.classes (allow : Allow) (label : String) : ObjectClassPermissions := (allow.lookup label).getD .empty

/-- The permissions that an allow rule grants on a class of objects with a label. -/
def Allow.Permits (allow : Allow) (label objClass perm : String) : Prop :=
  perm ∈ (allow.classes label).perms objClass

/-- Append the permissions that are not there yet. -/
def addPerms (classes : ObjectClassPermissions) (objClass : String) (perms : PermissionSet) :
    ObjectClassPermissions :=
  let missing := perms.filter fun perm => perm ∉ classes.perms objClass
  if missing = [] then classes else classes.insert objClass (classes.perms objClass ++ missing)

def addClasses (classes additional : ObjectClassPermissions) : ObjectClassPermissions :=
  additional.entries.foldl (fun union entry => addPerms union entry.1 entry.2) classes

def addLabel (union : Allow) (label : String) (additional : ObjectClassPermissions) : Allow :=
  union.insert label (addClasses (union.classes label) additional)

/-- `addAllow` is given maps read from the API, which leaves an empty map nil, and writing to a nil map panics. -/
def addAllow (union additional : Allow) : Option Allow :=
  if union.entries = [] ∧ additional.entries ≠ [] then none
  else some (additional.entries.foldl (fun union entry => addLabel union entry.1 entry.2) union)

variable (classes : ObjectClassPermissions)

theorem perms_insert_self (objClass : String) (perms : PermissionSet) :
    ObjectClassPermissions.perms (classes.insert objClass perms) objClass = perms := by
  simp [ObjectClassPermissions.perms]

theorem perms_insert_ne {objClass objClass' : String} (perms : PermissionSet) (other : objClass' ≠ objClass) :
    ObjectClassPermissions.perms (classes.insert objClass perms) objClass' = classes.perms objClass' := by
  simp [ObjectClassPermissions.perms, SortedMap.lookup_insert_ne _ _ other]

theorem perms_addPerms (objClass objClass' perm : String) (perms : PermissionSet) :
    perm ∈ (addPerms classes objClass perms).perms objClass' ↔
      perm ∈ classes.perms objClass' ∨ (objClass' = objClass ∧ perm ∈ perms) := by
  unfold addPerms
  by_cases none : (perms.filter fun perm => perm ∉ classes.perms objClass) = []
  · have covered : ∀ perm ∈ perms, perm ∈ classes.perms objClass := by
      simpa [filter_eq_nil_iff] using none
    rw [if_pos none]
    refine ⟨Or.inl, ?_⟩
    rintro (old | ⟨rfl, new⟩)
    · exact old
    · exact covered perm new
  · rw [if_neg none]
    by_cases same : objClass' = objClass
    · subst same
      rw [perms_insert_self]
      simp only [mem_append, mem_filter, decide_eq_true_eq, true_and]
      tauto
    · rw [perms_insert_ne _ _ same]
      simp [same]

theorem perms_foldl_addPerms (entries : List (Sigma fun _ : String => PermissionSet)) (objClass perm : String)
    (classes : ObjectClassPermissions) :
    perm ∈ (entries.foldl (fun union entry => addPerms union entry.1 entry.2) classes).perms objClass ↔
      perm ∈ classes.perms objClass ∨ ∃ entry ∈ entries, objClass = entry.1 ∧ perm ∈ entry.2 := by
  induction entries generalizing classes with
  | nil => simp
  | cons entry entries ih =>
    rw [foldl_cons, ih, perms_addPerms, exists_mem_cons_iff, or_assoc]

theorem perms_iff_mem_entries {classes : ObjectClassPermissions} {objClass perm : String} :
    perm ∈ classes.perms objClass ↔ ∃ entry ∈ classes.entries, objClass = entry.1 ∧ perm ∈ entry.2 := by
  constructor
  · intro granted
    unfold ObjectClassPermissions.perms at granted
    cases found : classes.lookup objClass with
    | none => simp [found] at granted
    | some perms => exact ⟨⟨objClass, perms⟩, SortedMap.mem_entries.mpr found, rfl, by simpa [found] using granted⟩
  · rintro ⟨⟨key, perms⟩, member, rfl, granted⟩
    simpa [ObjectClassPermissions.perms, SortedMap.mem_entries.mp member] using granted

theorem perms_addClasses (classes additional : ObjectClassPermissions) (objClass perm : String) :
    perm ∈ (addClasses classes additional).perms objClass ↔
      perm ∈ classes.perms objClass ∨ perm ∈ additional.perms objClass := by
  rw [addClasses, perms_foldl_addPerms, ← perms_iff_mem_entries]

theorem permits_addLabel (union : Allow) (label label' objClass perm : String)
    (additional : ObjectClassPermissions) :
    (addLabel union label additional).Permits label' objClass perm ↔
      union.Permits label' objClass perm ∨ (label' = label ∧ perm ∈ additional.perms objClass) := by
  by_cases same : label' = label
  · subst same
    simp only [Allow.Permits, Allow.classes, addLabel, SortedMap.lookup_insert_self, Option.getD_some,
      perms_addClasses, true_and]
  · simp [Allow.Permits, Allow.classes, addLabel, SortedMap.lookup_insert_ne _ _ same, same]

theorem permits_foldl_addLabel (entries : List (Sigma fun _ : String => ObjectClassPermissions))
    (label objClass perm : String) (union : Allow) :
    (entries.foldl (fun union entry => addLabel union entry.1 entry.2) union).Permits label objClass perm ↔
      union.Permits label objClass perm ∨ ∃ entry ∈ entries, label = entry.1 ∧ perm ∈ entry.2.perms objClass := by
  induction entries generalizing union with
  | nil => simp
  | cons entry entries ih =>
    rw [foldl_cons, ih, permits_addLabel, exists_mem_cons_iff, or_assoc]

theorem permits_iff_mem_entries {allow : Allow} {label objClass perm : String} :
    allow.Permits label objClass perm ↔ ∃ entry ∈ allow.entries, label = entry.1 ∧
      perm ∈ entry.2.perms objClass := by
  constructor
  · intro granted
    unfold Allow.Permits Allow.classes at granted
    cases found : allow.lookup label with
    | none => simp [found, ObjectClassPermissions.perms] at granted
    | some classes => exact ⟨⟨label, classes⟩, SortedMap.mem_entries.mpr found, rfl, by simpa [found] using granted⟩
  · rintro ⟨⟨key, classes⟩, member, rfl, granted⟩
    simpa [Allow.Permits, Allow.classes, SortedMap.mem_entries.mp member] using granted

/-- The union permits what either profile permits, and nothing else. -/
theorem permits_addAllow {union additional merged : Allow} (ok : addAllow union additional = some merged)
    (label objClass perm : String) : merged.Permits label objClass perm ↔
      union.Permits label objClass perm ∨ additional.Permits label objClass perm := by
  unfold addAllow at ok
  split at ok
  · cases ok
  · cases ok
    rw [permits_foldl_addLabel, ← permits_iff_mem_entries]

end SecurityProfiles
