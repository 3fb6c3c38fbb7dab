import SecurityProfiles.AppArmor.Fieldwise
import SecurityProfiles.AppArmor.TextGrants

namespace SecurityProfiles

open List

/-- The entries that list a path for the access to it. -/
def AppArmorAbstract.fileEntries (abstract : AppArmorAbstract) : Permission → List Str
  | .read => abstract.readOnly ++ abstract.readWrite
  | .write => abstract.writeOnly ++ abstract.readWrite
  | .link => abstract.writeOnly ++ abstract.readWrite
  | .lock => abstract.writeOnly ++ abstract.readWrite
  | .exec => []
  | .mmap => []

/-- A path that the other profile lists for the opposite access only, and neither for the access itself, is about
no file that the profile grants the access to. -/
def NoClash (profile other : AppArmorAbstract) : Prop :=
  ∀ permission file, profile.grantsFile permission file = true → ∀ path ∈ other.denyEntries permission,
    ptraceRule path = none → path ∉ profile.fileEntries permission → path ∉ other.fileEntries permission →
    pathMatches path file = false

section union

variable {base additions merged : AppArmorAbstract}

theorem or_fileRead {path : Str} : (base.fileAccess path).or (additions.fileAccess path) = .fileRead ↔
    (path ∈ base.readOnly ∨ path ∈ additions.readOnly) ∧ path ∉ base.writeOnly ++ base.readWrite ∧
      path ∉ additions.writeOnly ++ additions.readWrite := by
  simp only [AppArmorAbstract.fileAccess, FileAccess.or, FileAccess.fileRead, FileAccess.mk.injEq, Bool.or_eq_true,
    Bool.or_eq_false_iff, decide_eq_true_eq, decide_eq_false_iff_not, mem_append]
  tauto

theorem or_fileWrite {path : Str} : (base.fileAccess path).or (additions.fileAccess path) = .fileWrite ↔
    (path ∈ base.writeOnly ∨ path ∈ additions.writeOnly) ∧ path ∉ base.readOnly ++ base.readWrite ∧
      path ∉ additions.readOnly ++ additions.readWrite := by
  simp only [AppArmorAbstract.fileAccess, FileAccess.or, FileAccess.fileWrite, FileAccess.mk.injEq, Bool.or_eq_true,
    Bool.or_eq_false_iff, decide_eq_true_eq, decide_eq_false_iff_not, mem_append]
  tauto

section

variable (fields : FieldwiseUnion base additions merged)
include fields

theorem mem_denyEntries_union {permission : Permission} {path : Str} :
    path ∈ merged.denyEntries permission ↔
      (path ∈ base.denyEntries permission ∨ path ∈ additions.denyEntries permission) ∧
        path ∉ base.fileEntries permission ∧ path ∉ additions.fileEntries permission := by
  cases permission with
  | read => exact (fields.writeOnly path).trans or_fileWrite
  | write => exact (fields.readOnly path).trans or_fileRead
  | link => exact (fields.readOnly path).trans or_fileRead
  | lock => exact (fields.readOnly path).trans or_fileRead
  | mmap => simp [AppArmorAbstract.denyEntries]
  | exec => simp [AppArmorAbstract.denyEntries]

theorem mem_read_union {path : Str}
    (listed : base.Grants (.read path) ∨ additions.Grants (.read path)) : merged.Grants (.read path) := by
  rw [← fileAccess_read, ← fileAccess_read, ← Bool.or_eq_true] at listed
  exact (FileAccess.eq_of_read listed).imp (fields.readOnly path).mpr (fields.readWrite path).mpr

theorem mem_write_union {path : Str}
    (listed : base.Grants (.write path) ∨ additions.Grants (.write path)) : merged.Grants (.write path) := by
  rw [← fileAccess_write, ← fileAccess_write, ← Bool.or_eq_true] at listed
  exact (FileAccess.eq_of_write listed).imp (fields.writeOnly path).mpr (fields.readWrite path).mpr

theorem mem_allowEntries_union {permission : Permission}
    {path : Str} (listed : path ∈ base.allowEntries permission ∨ path ∈ additions.allowEntries permission) :
    path ∈ merged.allowEntries permission := by
  have write : _ → merged.Grants (.write path) := mem_write_union fields
  have read : _ → merged.Grants (.read path) := mem_read_union fields
  simp only [AppArmorAbstract.Grants] at read write
  cases permission with
  | read =>
    simp only [AppArmorAbstract.allowEntries, mem_append, fields.executables, fields.libraries] at listed ⊢
    tauto
  | write | link | lock =>
    simp only [AppArmorAbstract.allowEntries, mem_append] at listed ⊢
    exact write listed
  | mmap => exact (fields.libraries path).mpr listed
  | exec => exact (fields.executables path).mpr listed

theorem mem_normalizeCapabilities_union {name : Str}
    (listed : name ∈ normalizeCapabilities base.capabilities ∨
      name ∈ normalizeCapabilities additions.capabilities) :
    name ∈ normalizeCapabilities merged.capabilities := by
  have spelled : ∀ {capabilities : List Str}, name ∈ normalizeCapabilities capabilities ↔
      ∃ lowered ∈ capabilities.map Text.toLower, Text.trimSpace lowered = name := by
    intro capabilities
    simp [normalizeCapabilities, normalizeCapability, Text.trimSpace_toLower]
  rw [spelled, spelled] at listed
  rw [spelled]
  rcases listed with ⟨lowered, member, same⟩ | ⟨lowered, member, same⟩
  · exact ⟨lowered, (fields.capabilities lowered).mpr (Or.inl member), same⟩
  · exact ⟨lowered, (fields.capabilities lowered).mpr (Or.inr member), same⟩

theorem allowMount_union
    (allowed : base.allowMount = true ∨ additions.allowMount = true) : merged.allowMount = true := by
  simp only [AppArmorAbstract.allowMount, decide_eq_true_eq] at allowed ⊢
  exact mem_normalizeCapabilities_union fields allowed

theorem mem_entries_union {entry : Str}
    (listed : entry ∈ base.entries ∨ entry ∈ additions.entries) : entry ∈ merged.entries := by
  have write : _ → merged.Grants (.write entry) := mem_write_union fields
  have read : _ → merged.Grants (.read entry) := mem_read_union fields
  simp only [AppArmorAbstract.Grants] at read write
  simp only [AppArmorAbstract.entries, mem_append, fields.executables, fields.libraries] at listed ⊢
  tauto

theorem FieldwiseUnion.symm : FieldwiseUnion additions base merged where
  executables path := (fields.executables path).trans or_comm
  libraries path := (fields.libraries path).trans or_comm
  readOnly path := (fields.readOnly path).trans (by rw [FileAccess.or_comm])
  writeOnly path := (fields.writeOnly path).trans (by rw [FileAccess.or_comm])
  readWrite path := (fields.readWrite path).trans (by rw [FileAccess.or_comm])
  capabilities name := (fields.capabilities name).trans or_comm
  network := fields.network.trans (Bool.or_comm _ _)
  allowRaw := fields.allowRaw.trans (Bool.or_comm _ _)
  allowTCP := fields.allowTCP.trans (Bool.or_comm _ _)
  allowUDP := fields.allowUDP.trans (Bool.or_comm _ _)

end

end union

/-- One profile of a union: the fields of all, and its ptrace rule in that of the union. -/
structure UnitedIn (profile other merged : AppArmorAbstract) : Prop where
  fields : FieldwiseUnion profile other merged
  ptrace : ∀ rules access, profile.ptrace = some rules → access ∈ rules.allowedAccess →
    ∃ union, merged.ptrace = some union ∧ access ∈ union.allowedAccess ∧ (union.peer = [] ∨ union.peer = rules.peer)

theorem unitedIn_of_union {union : MergerUnion} (fieldwise : UnionFieldwise union)
    {base additions merged : AppArmorAbstract} (ok : unionAppArmor union base additions = .ok merged) :
    UnitedIn base additions merged ∧ UnitedIn additions base merged := by
  have fields := unionAppArmor_fieldwise fieldwise ok
  obtain ⟨seen, _, done⟩ := Fallible.bind_ok.mp ok
  obtain rfl := Fallible.pure_ok.mp done
  refine ⟨⟨fields, ?_⟩, fields.symm, ?_⟩
  · intro rules access field listed
    exact unionPtrace_grants (Or.inl field) listed (Or.inr rfl)
  · intro rules access field listed
    exact unionPtrace_grants (Or.inr field) listed (Or.inr rfl)

namespace UnitedIn

variable {profile other merged : AppArmorAbstract}

section

variable (united : UnitedIn profile other merged)
include united

theorem grantsFile (noClash : NoClash profile other) {permission : Permission} {file : List Atom}
    (granted : profile.grantsFile permission file = true) : merged.grantsFile permission file = true := by
  have kept := noClash permission file granted
  simp only [AppArmorAbstract.grantsFile, Bool.and_eq_true, Bool.or_eq_true, Bool.not_eq_true',
    Bool.or_eq_false_iff] at granted ⊢
  obtain ⟨allowed, undenied, undeniedDefault⟩ := granted
  refine ⟨allowed.imp ?_ (And.imp_left fun mount => allowMount_union united.fields (Or.inl mount)), ?_,
    undeniedDefault⟩
  · intro matched
    obtain ⟨path, listed, isPath, matches'⟩ := anyMatches_iff.mp matched
    exact anyMatches_iff.mpr ⟨path, mem_allowEntries_union united.fields (Or.inl listed), isPath, matches'⟩
  · rw [← Bool.not_eq_true, anyMatches_iff] at undenied ⊢
    rintro ⟨path, listed, isPath, matches'⟩
    obtain ⟨inProfile | inOther, notListed, notListedOther⟩ := (mem_denyEntries_union united.fields).mp listed
    · exact undenied ⟨path, inProfile, isPath, matches'⟩
    · rw [kept path inOther isPath notListed notListedOther] at matches'
      cases matches'

/-- If the profiles do not clash, the text of the union grants all that the text of one of them grants, also other
accesses than those to files. -/
theorem grants (noClash : NoClash profile other)
    {name mergedName text mergedText : Str} (generated : generateProfile name .enforce (some profile) = .ok text)
    (generatedMerged : generateProfile mergedName .enforce (some merged) = .ok mergedText) {access : Access}
    (granted : grants (readProfile text) access = true) : grants (readProfile mergedText) access = true := by
  cases access with
  | file file permission =>
    rw [grants_file generated] at granted
    rw [grants_file generatedMerged]
    exact united.grantsFile noClash granted
  | network kind =>
    rw [grants_network generated] at granted
    rw [grants_network generatedMerged, united.fields.allowRaw, united.fields.allowTCP, united.fields.allowUDP]
    simp only [Bool.or_eq_true]
    tauto
  | capability capability =>
    rw [grants_capability generated] at granted
    rw [grants_capability generatedMerged]
    exact mem_normalizeCapabilities_union united.fields (Or.inl granted)
  | ptrace permission peer =>
    rw [grants_ptrace generated] at granted
    rw [grants_ptrace generatedMerged]
    obtain ⟨word, permitted, ⟨rules, field, listed, peers⟩ | ⟨entry, member, found⟩⟩ := granted
    · obtain ⟨union, unionField, unionListed, unionPeer⟩ := united.ptrace rules word field listed
      refine ⟨word, permitted, Or.inl ⟨union, unionField, unionListed, ?_⟩⟩
      rcases unionPeer with none | same
      · exact Or.inl none
      · rw [same]
        exact peers
    · exact ⟨word, permitted, Or.inr ⟨entry, mem_entries_union united.fields (Or.inl member), found⟩⟩
  | mount operation =>
    rw [grants_mount generated] at granted
    rw [grants_mount generatedMerged]
    exact ⟨allowMount_union united.fields (Or.inl granted.1), granted.2⟩

theorem noClash
    (kept : ∀ permission file, profile.grantsFile permission file = true →
      merged.grantsFile permission file = true) :
    NoClash profile other := by
  intro permission file granted path listed isPath notListed notListedOther
  by_contra matches'
  have denied : anyMatches (merged.denyEntries permission) file = true := by
    refine anyMatches_iff.mpr ⟨path, ?_, isPath, Bool.not_eq_false _ ▸ matches'⟩
    exact (mem_denyEntries_union united.fields).mpr ⟨Or.inr listed, notListed, notListedOther⟩
  have granted' := kept permission file granted
  simp [AppArmorAbstract.grantsFile, denied] at granted'

end

end UnitedIn

/-- The text of a union grants what the texts of both profiles grant, if and only if they do not clash: the files
that one of them grants match no path that the other one lists for the opposite access only. -/
theorem union_keeps_text_grants_iff {union : MergerUnion} (fieldwise : UnionFieldwise union)
    {base additions merged : AppArmorAbstract} (ok : unionAppArmor union base additions = .ok merged)
    {baseName additionsName mergedName baseText additionsText mergedText : Str}
    (generatedBase : generateProfile baseName .enforce (some base) = .ok baseText)
    (generatedAdditions : generateProfile additionsName .enforce (some additions) = .ok additionsText)
    (generatedMerged : generateProfile mergedName .enforce (some merged) = .ok mergedText) :
    (∀ access, grants (readProfile baseText) access = true ∨ grants (readProfile additionsText) access = true →
      grants (readProfile mergedText) access = true) ↔ NoClash base additions ∧ NoClash additions base := by
  obtain ⟨unitedBase, unitedAdditions⟩ := unitedIn_of_union fieldwise ok
  constructor
  · intro kept
    refine ⟨unitedBase.noClash fun permission file granted => ?_,
      unitedAdditions.noClash fun permission file granted => ?_⟩
    · rw [← grants_file generatedMerged]
      exact kept _ (Or.inl ((grants_file generatedBase permission file).trans granted))
    · rw [← grants_file generatedMerged]
      exact kept _ (Or.inr ((grants_file generatedAdditions permission file).trans granted))
  · rintro ⟨noClashBase, noClashAdditions⟩ access (granted | granted)
    · exact unitedBase.grants noClashBase generatedBase generatedMerged granted
    · exact unitedAdditions.grants noClashAdditions generatedAdditions generatedMerged granted

def filesOnly (readOnly writeOnly readWrite : List String) : AppArmorAbstract where
  executable := none
  filesystem := some
    { readOnlyPaths := readOnly.map String.toList
      writeOnlyPaths := writeOnly.map String.toList
      readWritePaths := readWrite.map String.toList }
  network := none
  capability := none
  ptrace := none

def fileNamed (name : String) : List Atom := name.toList.map .char

theorem noClash_of_plain {profile other : AppArmorAbstract} {path otherPath : Str}
    (plain : path.all isPlainChar = true) (plainOther : otherPath.all isPlainChar = true)
    (different : path ≠ otherPath) (noMount : profile.allowMount = false)
    (allowed : ∀ permission, profile.allowEntries permission ⊆ [path])
    (denied : ∀ permission, other.denyEntries permission ⊆ [otherPath]) : NoClash profile other := by
  intro permission file granted listedPath listed _ _ _
  obtain rfl := mem_singleton.mp (denied permission listed)
  simp only [AppArmorAbstract.grantsFile, noMount, Bool.false_and, Bool.or_false, Bool.and_eq_true] at granted
  obtain ⟨allowedPath, allowing, _, matched⟩ := anyMatches_iff.mp granted.1
  obtain rfl := mem_singleton.mp (allowed permission allowing)
  by_contra matchedOther
  have same := (pathMatches_plain plain matched).symm.trans
    (pathMatches_plain plainOther (Bool.not_eq_false _ ▸ matchedOther))
  exact different (map_injective_iff.mpr (fun _ _ => Atom.char.inj) same)

theorem hosts_log_noClash : NoClash (filesOnly ["/etc/hosts"] [] []) (filesOnly [] ["/data/log"] []) ∧
    NoClash (filesOnly [] ["/data/log"] []) (filesOnly ["/etc/hosts"] [] []) := by
  have entries : ∀ permission, (filesOnly ["/etc/hosts"] [] []).allowEntries permission ⊆ ["/etc/hosts".toList] ∧
      (filesOnly ["/etc/hosts"] [] []).denyEntries permission ⊆ ["/etc/hosts".toList] ∧
      (filesOnly [] ["/data/log"] []).allowEntries permission ⊆ ["/data/log".toList] ∧
      (filesOnly [] ["/data/log"] []).denyEntries permission ⊆ ["/data/log".toList] := by
    intro permission
    cases permission <;> decide
  constructor
  · exact noClash_of_plain (by decide) (by decide) (by decide) rfl (fun permission => (entries permission).1)
      fun permission => (entries permission).2.2.2
  · exact noClash_of_plain (by decide) (by decide) (by decide) rfl (fun permission => (entries permission).2.2.1)
      fun permission => (entries permission).2.1

theorem hosts_log_texts : ∃ merged baseText additionsText mergedText,
    unionAppArmor (fun left right => .ok (plainUnion left right)) (filesOnly ["/etc/hosts"] [] [])
      (filesOnly [] ["/data/log"] []) = .ok merged ∧
    generateProfile "hosts".toList .enforce (some (filesOnly ["/etc/hosts"] [] [])) = .ok baseText ∧
    generateProfile "log".toList .enforce (some (filesOnly [] ["/data/log"] [])) = .ok additionsText ∧
    generateProfile "both".toList .enforce (some merged) = .ok mergedText ∧
    ∀ access, grants (readProfile baseText) access = true ∨ grants (readProfile additionsText) access = true →
      grants (readProfile mergedText) access = true := by
  have base := @generateProfile_valid "hosts".toList .enforce (filesOnly ["/etc/hosts"] [] []) rfl
  have additions := @generateProfile_valid "log".toList .enforce (filesOnly [] ["/data/log"] []) rfl
  refine ⟨_, _, _, _, rfl, base, additions, generateProfile_valid rfl, ?_⟩
  exact (union_keeps_text_grants_iff plainUnion_fieldwise rfl base additions (generateProfile_valid rfl)).mpr
    hosts_log_noClash

/-- A directory that one profile reads and a file in it that the other one writes: the union denies the write. -/
theorem read_only_glob_denies_write : ∃ merged baseText additionsText mergedText,
    unionAppArmor (fun left right => .ok (plainUnion left right)) (filesOnly ["/data/*"] [] [])
      (filesOnly [] ["/data/log"] []) = .ok merged ∧
    generateProfile "reader".toList .enforce (some (filesOnly ["/data/*"] [] [])) = .ok baseText ∧
    generateProfile "writer".toList .enforce (some (filesOnly [] ["/data/log"] [])) = .ok additionsText ∧
    generateProfile "both".toList .enforce (some merged) = .ok mergedText ∧
    grants (readProfile additionsText) (.file (fileNamed "/data/log") .write) = true ∧
    grants (readProfile mergedText) (.file (fileNamed "/data/log") .write) = false := by
  have additions := @generateProfile_valid "writer".toList .enforce (filesOnly [] ["/data/log"] []) rfl
  refine ⟨_, _, _, _, rfl, generateProfile_valid rfl, additions, generateProfile_valid rfl, ?_, ?_⟩
  · rw [grants_file additions]
    decide
  · rw [grants_file (generateProfile_valid rfl)]
    decide

end SecurityProfiles
