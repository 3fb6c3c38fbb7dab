import SecurityProfiles.AppArmor.Rendered

namespace SecurityProfiles

open List

def pathsOnly (entries : List Str) : List Str := entries.filter fun entry => (ptraceRule entry).isNone

def anyMatches (entries : List Str) (file : List Atom) : Bool := (pathsOnly entries).any (pathMatches · file)

variable {file : List Atom} {access : Access} {name text : Str} {abstract : AppArmorAbstract} {rule : PtraceRule}

theorem anyMatches_iff {entries : List Str} : anyMatches entries file = true ↔
    ∃ path ∈ entries, ptraceRule path = none ∧ pathMatches path file = true := by
  simp [anyMatches, pathsOnly]

@[simp] theorem anyMatches_append (first second : List Str) (file : List Atom) :
    anyMatches (first ++ second) file = (anyMatches first file || anyMatches second file) := by
  simp [anyMatches, pathsOnly]

theorem splitPaths_getD (entries : List Str) : (splitPaths entries).getD [] = pathsOnly entries := by
  unfold splitPaths
  split
  · next none =>
      rw [none]
      rfl
  · rfl

section data

/-- The lists of an optional field, without the ptrace rules in them. -/
theorem getD_splitPaths {Rules Data : Type} (field : Option Rules) {data : Rules → Data}
    {entries : Data → Option (List Str)} {list : Rules → List Str}
    (split : ∀ rules, entries (data rules) = splitPaths (list rules)) :
    ((field.map data).bind entries).getD [] = pathsOnly ((field.map list).getD []) := by
  cases field with
  | none => rfl
  | some rules => exact (congrArg (·.getD []) (split rules)).trans (splitPaths_getD _)

variable (name : Str) (abstract : AppArmorAbstract)

theorem newApparmorData_executables :
    (newApparmorData name abstract).executables = pathsOnly abstract.executables :=
  getD_splitPaths abstract.executable fun _ => rfl

theorem newApparmorData_libraries : (newApparmorData name abstract).libraries = pathsOnly abstract.libraries :=
  getD_splitPaths abstract.executable fun _ => rfl

theorem newApparmorData_readOnly : (newApparmorData name abstract).readOnly = pathsOnly abstract.readOnly :=
  getD_splitPaths abstract.filesystem fun _ => rfl

theorem newApparmorData_writeOnly : (newApparmorData name abstract).writeOnly = pathsOnly abstract.writeOnly :=
  getD_splitPaths abstract.filesystem fun _ => rfl

theorem newApparmorData_readWrite : (newApparmorData name abstract).readWrite = pathsOnly abstract.readWrite :=
  getD_splitPaths abstract.filesystem fun _ => rfl

theorem newApparmorData_capabilities :
    (newApparmorData name abstract).capabilities = normalizeCapabilities abstract.capabilities := by
  unfold newApparmorData ApparmorData.capabilities AppArmorAbstract.capabilities
  cases abstract.capability with
  | none => rfl
  | some rules => rfl

end data

section pathRules

variable (deny : Bool) (permissions : List Permission) (paths : List Str) (file : List Atom)
  (permission : Permission)

@[simp] theorem allows_pathRules : allows (pathRules deny permissions paths) (.file file permission) =
    (!deny && (decide (permission ∈ permissions) && paths.any (pathMatches · file))) := by
  by_cases allowed : permission ∈ permissions <;> cases deny <;>
    simp [allows, pathRules, Subject.covers, Function.comp_def, allowed]

@[simp] theorem denies_pathRules : denies (pathRules deny permissions paths) (.file file permission) =
    (deny && (decide (permission ∈ permissions) && paths.any (pathMatches · file))) := by
  by_cases denied : permission ∈ permissions <;> cases deny <;>
    simp [denies, pathRules, Subject.covers, Function.comp_def, denied]

end pathRules

/-- Rules about something else neither allow nor deny an access. -/
theorem silent {rules : List ProfileRule} (uncovered : ∀ rule ∈ rules, rule.subject.covers access = false) :
    allows rules access = false ∧ denies rules access = false := by
  constructor
  · simp only [allows, any_eq_false, Bool.and_eq_true, not_and, Bool.not_eq_true]
    exact fun rule member _ => uncovered rule member
  · simp only [denies, any_eq_false, Bool.and_eq_true, not_and, Bool.not_eq_true]
    exact fun rule member _ => uncovered rule member

namespace AppArmorAbstract

variable (abstract : AppArmorAbstract)

/-- The entries whose rules allow the access. -/
def allowEntries : Permission → List Str
  | .exec => abstract.executables
  | .mmap => abstract.libraries
  | .read => abstract.executables ++ abstract.libraries ++ abstract.readOnly ++ abstract.readWrite
  | .write => abstract.writeOnly ++ abstract.readWrite
  | .link => abstract.writeOnly ++ abstract.readWrite
  | .lock => abstract.writeOnly ++ abstract.readWrite

/-- The entries whose rules deny the access. -/
def denyEntries : Permission → List Str
  | .read => abstract.writeOnly
  | .write => abstract.readOnly
  | .link => abstract.readOnly
  | .lock => abstract.readOnly
  | .exec => []
  | .mmap => []

/-- The access to the file is in the profile, and no entry for the opposite access matches the file. -/
def grantsFile (permission : Permission) (file : List Atom) : Bool :=
  (anyMatches (abstract.allowEntries permission) file ||
      (abstract.allowMount && allows fsckRules (.file file permission))) &&
    !(anyMatches (abstract.denyEntries permission) file || denies defaultDenyRules (.file file permission))

end AppArmorAbstract

/-- The default denials are about the files of the process file system and of the firmware. -/
theorem denies_defaultDenyRules {permission : Permission}
    (denied : denies defaultDenyRules (.file file permission) = true) :
    file.head? = some (.var ['P', 'R', 'O', 'C']) ∨ ∃ tail, file = "/sys/firmware/".toList.map .char ++ tail := by
  obtain ⟨rule, member, covered⟩ := any_eq_true.mp denied
  have shape : ∀ rule ∈ defaultDenyRules, ∃ path permissions, rule = ⟨true, .file path permissions⟩ ∧
      ((∃ rest, path = '@' :: '\x7b' :: (['P', 'R', 'O', 'C'] ++ '\x7d' :: rest)) ∨
        path = writeAtoms (("/sys/firmware/".toList ++ "efi/efivars/**".toList).map .char)) := by
    unfold defaultDenyRules pathRules
    simp only [map_cons, map_nil, cons_append, nil_append, forall_mem_cons, not_mem_nil,
      false_implies, implies_true, and_true]
    repeat rw [String.toList_ofList]
    exact ⟨⟨_, _, rfl, Or.inl ⟨_, rfl⟩⟩, ⟨_, _, rfl, Or.inl ⟨_, rfl⟩⟩, ⟨_, _, rfl, Or.inl ⟨_, rfl⟩⟩,
      ⟨_, _, rfl, Or.inl ⟨_, rfl⟩⟩, ⟨_, _, rfl, Or.inl ⟨_, rfl⟩⟩, ⟨_, _, rfl, Or.inl ⟨_, rfl⟩⟩,
      ⟨_, _, rfl, Or.inl ⟨_, rfl⟩⟩, ⟨_, _, rfl, Or.inl ⟨_, rfl⟩⟩, ⟨_, _, rfl, Or.inr rfl⟩⟩
  obtain ⟨path, permissions, rfl, ⟨rest, rfl⟩ | rfl⟩ := shape rule member
  · left
    exact pathMatches_var (by decide) (Bool.and_eq_true_iff.mp (Bool.and_eq_true_iff.mp covered).2).2
  · right
    have matched := (Bool.and_eq_true_iff.mp (Bool.and_eq_true_iff.mp covered).2).2
    rw [pathMatches_writeAtoms (by decide)] at matched
    have tokenized : tokens (("/sys/firmware/".toList ++ "efi/efivars/**".toList).map .char) =
        "/sys/firmware/".toList.map (fun c => .lit (.char c)) ++
          ("efi/efivars/".toList.map (fun c => .lit (.char c)) ++ [.all]) := by
      repeat rw [String.toList_ofList]
      rfl
    rw [tokenized] at matched
    obtain ⟨tail, same, _⟩ := accepts_chars matched
    exact ⟨tail, same⟩

section rules

variable (name : Str) (abstract : AppArmorAbstract) (permission : Permission) (file : List Atom)

theorem silent_otherRules : ∀ rules ∈ [(newApparmorData name abstract).ptrace.map ptraceRuleOf,
      networkRules (newApparmorData name abstract).network,
      (newApparmorData name abstract).capabilities.map (fun capability => ⟨false, .capability capability⟩),
      mountRules],
    allows rules (.file file permission) = false ∧ denies rules (.file file permission) = false := by
  simp only [forall_mem_cons, not_mem_nil, false_implies, implies_true, and_true]
  refine ⟨silent ?_, silent ?_, silent ?_, silent ?_⟩
  · simp [ptraceRuleOf, Subject.covers]
  · rcases (newApparmorData name abstract).network with _ | ⟨raw, tcp, udp⟩
    · simp [networkRules]
    · cases raw <;> cases tcp <;> cases udp <;> simp [networkRules, Subject.covers]
  · simp [Subject.covers]
  · simp [mountRules, Subject.covers]

theorem rulesOf_file :
    allows (rulesOf abstract.allowMount (newApparmorData name abstract)) (.file file permission) =
      (anyMatches (abstract.allowEntries permission) file ||
        (abstract.allowMount && allows fsckRules (.file file permission))) ∧
    denies (rulesOf abstract.allowMount (newApparmorData name abstract)) (.file file permission) =
      (anyMatches (abstract.denyEntries permission) file || denies defaultDenyRules (.file file permission)) := by
  have matching : ∀ entries, ((pathsOnly entries).any fun path => pathMatches path file) =
      anyMatches entries file :=
    fun _ => rfl
  have others := silent_otherRules name abstract permission file
  simp only [forall_mem_cons] at others
  have defaults : allows defaultDenyRules (.file file permission) = false := by simp [defaultDenyRules]
  have fsck : denies fsckRules (.file file permission) = false := denies_pathRules _ _ _ _ _
  have none : anyMatches [] file = false := rfl
  simp only [rulesOf, allows_append, denies_append, others, newApparmorData_executables, newApparmorData_libraries,
    newApparmorData_readOnly, newApparmorData_writeOnly, newApparmorData_readWrite, allows_pathRules,
    denies_pathRules, defaults, matching]
  generalize abstract.allowMount = mount
  cases mount <;> cases permission <;>
    simp [AppArmorAbstract.allowEntries, AppArmorAbstract.denyEntries, others, fsck, none, Bool.or_comm,
      Bool.or_left_comm, Bool.or_assoc]

end rules

theorem grants_file (generated : generateProfile name .enforce (some abstract) = .ok text) (permission : Permission)
    (file : List Atom) :
    grants (readProfile text) (.file file permission) = abstract.grantsFile permission file := by
  obtain ⟨allowed, denied⟩ := rulesOf_file name abstract permission file
  rw [readProfile_generateProfile generated, grants, allowed, denied, AppArmorAbstract.grantsFile]

theorem silent_pathRules (other : ∀ file permission, access ≠ .file file permission) (deny : Bool)
    (permissions : List Permission) (paths : List Str) :
    allows (pathRules deny permissions paths) access = false ∧
      denies (pathRules deny permissions paths) access = false := by
  apply silent
  simp only [pathRules, forall_mem_map]
  intro path _
  cases access with
  | file file permission => exact absurd rfl (other file permission)
  | network kind => rfl
  | capability name => rfl
  | ptrace permission peer => rfl
  | mount operation => rfl

theorem allows_networkRules_some (rules : Network) (access : Access) : allows (networkRules (some rules)) access =
    ((rules.allowRaw && (Subject.network "raw".toList).covers access) ||
      (rules.allowTCP && (Subject.network "tcp".toList).covers access) ||
      (rules.allowUDP && (Subject.network "udp".toList).covers access)) := by
  obtain ⟨raw, tcp, udp⟩ := rules
  cases raw <;> cases tcp <;> cases udp <;> simp [networkRules, allows, Bool.or_assoc]

theorem denies_networkRules_some (rules : Network) (access : Access) : denies (networkRules (some rules)) access =
    (!rules.allowRaw && (Subject.network "raw".toList).covers access) := by
  obtain ⟨raw, tcp, udp⟩ := rules
  cases raw <;> cases tcp <;> cases udp <;> simp [networkRules, denies]

theorem covers_network {kind : Str} :
    (Subject.network kind).covers access = true ↔ access = .network kind := by
  cases access with
  | network attempted =>
    simp only [Subject.covers, decide_eq_true_eq, Access.network.injEq]
    exact eq_comm
  | file file permission => simp [Subject.covers]
  | capability name => simp [Subject.covers]
  | ptrace permission peer => simp [Subject.covers]
  | mount operation => simp [Subject.covers]

/-- The network accesses of a profile. -/
theorem allows_networkRules :
    allows (networkRules (newApparmorData name abstract).network) access = true ↔
      (access = .network "raw".toList ∧ abstract.allowRaw = true) ∨
        (access = .network "tcp".toList ∧ abstract.allowTCP = true) ∨
        access = .network "udp".toList ∧ abstract.allowUDP = true := by
  unfold newApparmorData AppArmorAbstract.allowRaw AppArmorAbstract.allowTCP AppArmorAbstract.allowUDP
  cases abstract.network with
  | none => simp [networkRules]
  | some rules =>
    simp only [Option.map_some, allows_networkRules_some, Bool.or_eq_true, Bool.and_eq_true, covers_network]
    simp only [Option.bind_some, and_comm, or_assoc]

theorem denies_networkRules :
    denies (networkRules (newApparmorData name abstract).network) access = true ↔
      access = .network "raw".toList ∧ abstract.network.isSome = true ∧ abstract.allowRaw = false := by
  unfold newApparmorData AppArmorAbstract.allowRaw
  cases abstract.network with
  | none => simp [networkRules]
  | some rules =>
    simp only [Option.map_some, denies_networkRules_some, Bool.and_eq_true, Bool.not_eq_true', covers_network]
    simp only [Option.bind_some, Option.isSome_some, true_and, and_comm]

/-- Only the rules that are not about files tell whether another access is granted. -/
theorem grants_other (generated : generateProfile name .enforce (some abstract) = .ok text)
    (other : ∀ file permission, access ≠ .file file permission) : grants (readProfile text) access = true ↔
      (allows ((newApparmorData name abstract).ptrace.map ptraceRuleOf) access = true ∨
        allows (networkRules (newApparmorData name abstract).network) access = true ∨
        allows ((normalizeCapabilities abstract.capabilities).map fun name => ⟨false, .capability name⟩)
        access = true ∨
        abstract.allowMount = true ∧ allows mountRules access = true) ∧
      ¬denies (networkRules (newApparmorData name abstract).network) access = true := by
  have files := silent_pathRules other
  have fsck : allows fsckRules access = false ∧ denies fsckRules access = false := files _ _ _
  have defaults : allows defaultDenyRules access = false ∧ denies defaultDenyRules access = false := by
    simp [defaultDenyRules, files]
  have ptrace : denies ((newApparmorData name abstract).ptrace.map ptraceRuleOf) access = false := by
    simp [denies, ptraceRuleOf]
  have capability :
      denies ((normalizeCapabilities abstract.capabilities).map fun name => ⟨false, .capability name⟩) access =
      false := by simp [denies]
  have mount : denies mountRules access = false := by simp [denies, mountRules]
  simp only [readProfile_generateProfile generated, grants, rulesOf, newApparmorData_capabilities, allows_append,
    denies_append, files, defaults, ptrace, capability]
  cases abstract.allowMount <;> simp [fsck, mount, or_assoc]

/-- All lists of a profile in which ptrace rules may stand. -/
def AppArmorAbstract.entries (abstract : AppArmorAbstract) : List Str :=
  abstract.executables ++ abstract.libraries ++ (abstract.readOnly ++ abstract.writeOnly ++ abstract.readWrite)

/-- The ptrace rules of a profile: the one of the field, and one for each rule among the paths. -/
theorem mem_ptrace :
    rule ∈ (newApparmorData name abstract).ptrace ↔
      (∃ rules, abstract.ptrace = some rules ∧ (rules.allowedAccess ≠ [] ∨ rules.peer ≠ []) ∧
        rule = { access := Text.compact (Text.sort rules.allowedAccess), peer := rules.peer }) ∨
      ∃ entry ∈ abstract.entries, ∃ access, ptraceRule entry = some access ∧
      rule = { access := [access], peer := [] } := by
  have legacy : (newApparmorData name abstract).ptrace =
      newPtraceRules abstract.ptrace (abstract.entries.filterMap ptraceRule) := by
    simp [newApparmorData, splitPtraceRules, AppArmorAbstract.entries]
  rw [legacy, newPtraceRules, mem_append]
  refine or_congr ?_ ?_
  · cases abstract.ptrace with
    | none => simp
    | some rules =>
      by_cases kept : rules.allowedAccess ≠ [] ∨ rules.peer ≠ []
      · simp [Option.filter, kept]
      · simp [Option.filter, kept]
  · simp only [mem_map, Text.mem_compact_sort, mem_filterMap]
    constructor
    · rintro ⟨access, ⟨entry, member, found⟩, rfl⟩
      exact ⟨entry, member, access, found, rfl⟩
    · rintro ⟨entry, member, access, found, rfl⟩
      exact ⟨access, ⟨entry, member, found⟩, rfl⟩

theorem covers_ptraceRuleOf {permission : PtracePermission} {peer : List Atom} :
    (ptraceRuleOf rule).subject.covers (.ptrace permission peer) = true ↔
      (∃ word ∈ rule.access, permission ∈ PtracePermission.ofWord word) ∧
        (rule.peer = [] ∨ pathMatches rule.peer peer = true) := by
  by_cases none : rule.peer = [] <;> simp [ptraceRuleOf, Subject.covers, none]

section kinds

variable {name text : Str} {abstract : AppArmorAbstract}
  (generated : generateProfile name .enforce (some abstract) = .ok text)

include generated

theorem grants_network {kind : Str} : grants (readProfile text) (.network kind) = true ↔
    (kind = "raw".toList ∧ abstract.allowRaw = true) ∨ (kind = "tcp".toList ∧ abstract.allowTCP = true) ∨
      kind = "udp".toList ∧ abstract.allowUDP = true := by
  rw [grants_other generated (by simp), allows_networkRules, denies_networkRules]
  simp only [allows, ptraceRuleOf, mountRules, Subject.covers, any_eq_true, mem_map, exists_exists_and_eq_and,
    Bool.and_false, Bool.false_eq_true, and_false, exists_false, or_false, false_or, Access.network.injEq]
  -- Raw is denied where it is not allowed, the other kinds never.
  have different : "tcp".toList ≠ "raw".toList ∧ "udp".toList ≠ "raw".toList := by decide
  refine and_iff_left_of_imp ?_
  rintro allowed ⟨isRaw, _, refused⟩
  rcases allowed with ⟨_, raw⟩ | ⟨isTCP, _⟩ | ⟨isUDP, _⟩
  · rw [refused] at raw
    cases raw
  · exact different.1 (isTCP.symm.trans isRaw)
  · exact different.2 (isUDP.symm.trans isRaw)

theorem grants_capability {capability : Str} : grants (readProfile text) (.capability capability) = true ↔
    capability ∈ normalizeCapabilities abstract.capabilities := by
  rw [grants_other generated (by simp), allows_networkRules, denies_networkRules]
  simp [allows, ptraceRuleOf, mountRules, Subject.covers]

theorem grants_mount {operation : Str} : grants (readProfile text) (.mount operation) = true ↔
    abstract.allowMount = true ∧ allows mountRules (.mount operation) = true := by
  rw [grants_other generated (by simp), allows_networkRules, denies_networkRules]
  simp [allows, ptraceRuleOf, Subject.covers]

theorem grants_ptrace {permission : PtracePermission} {peer : List Atom} :
    grants (readProfile text) (.ptrace permission peer) = true ↔ ∃ word, permission ∈ PtracePermission.ofWord word ∧
      ((∃ rules, abstract.ptrace = some rules ∧ word ∈ rules.allowedAccess ∧
        (rules.peer = [] ∨ pathMatches rules.peer peer = true)) ∨
        ∃ entry ∈ abstract.entries, ptraceRule entry = some word) := by
  have covered : grants (readProfile text) (.ptrace permission peer) = true ↔
      ∃ rule ∈ (newApparmorData name abstract).ptrace,
      (ptraceRuleOf rule).subject.covers (.ptrace permission peer) := by
    rw [grants_other generated (by simp), allows_networkRules, denies_networkRules]
    simp [allows, ptraceRuleOf, mountRules, Subject.covers]
  simp only [covered, covers_ptraceRuleOf, mem_ptrace]
  constructor
  · rintro ⟨rule, ⟨rules, field, _, rfl⟩ | ⟨entry, member, access, found, rfl⟩, ⟨word, listed, permitted⟩, peers⟩
    · exact ⟨word, permitted, Or.inl ⟨rules, field, Text.mem_compact_sort.mp listed, peers⟩⟩
    · obtain rfl := mem_singleton.mp listed
      exact ⟨word, permitted, Or.inr ⟨entry, member, found⟩⟩
  · rintro ⟨word, permitted, ⟨rules, field, listed, peers⟩ | ⟨entry, member, found⟩⟩
    · exact ⟨_, Or.inl ⟨rules, field, Or.inl (ne_nil_of_mem listed), rfl⟩,
        ⟨word, Text.mem_compact_sort.mpr listed, permitted⟩, peers⟩
    · exact ⟨_, Or.inr ⟨entry, member, word, found, rfl⟩, ⟨word, mem_singleton_self word, permitted⟩, Or.inl rfl⟩

end kinds

end SecurityProfiles
