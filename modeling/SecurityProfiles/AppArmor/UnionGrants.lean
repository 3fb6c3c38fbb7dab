import SecurityProfiles.AppArmor.Union

namespace SecurityProfiles

/-- The union of the merger library drops no rule of either profile. -/
def UnionAppArmorAbove (union : MergerUnion) : Prop :=
  ∀ left right merged rule, union left right = .ok merged →
    (mergerProfileToAbstract left).Grants rule ∨ (mergerProfileToAbstract right).Grants rule →
    (mergerProfileToAbstract merged).Grants rule

/-- The part of a profile that the merger library gets to see. -/
def mergerView (profile : AppArmorAbstract) : AppArmorAbstract :=
  mergerProfileToAbstract (abstractToMergerProfile (splitVariablePaths profile).1)

section view

variable (profile : AppArmorAbstract)

theorem mergerView_executable : (mergerView profile).executables = dropVariables profile.executables ∧
    (mergerView profile).libraries = dropVariables profile.libraries := by
  unfold mergerView AppArmorAbstract.executables AppArmorAbstract.libraries
  cases executable : profile.executable <;>
    simp [executable, mergerProfileToAbstract, abstractToMergerProfile, splitVariablePaths, dropVariables]

theorem mergerView_filesystem : (mergerView profile).readOnly = dropVariables profile.readOnly ∧
    (mergerView profile).writeOnly = dropVariables profile.writeOnly ∧
    (mergerView profile).readWrite = dropVariables profile.readWrite := by
  unfold mergerView AppArmorAbstract.readOnly AppArmorAbstract.writeOnly AppArmorAbstract.readWrite
  cases filesystem : profile.filesystem <;>
    simp [filesystem, mergerProfileToAbstract, abstractToMergerProfile, splitVariablePaths, dropVariables]

end view

theorem mem_dropVariables {paths : List Str} {path : Str} :
    path ∈ dropVariables paths ↔ path ∈ paths ∧ hasVariable path = false := by
  simp [dropVariables]

/-- The rules the merger library gets to see, the others being handled by the text of their path. -/
def AppArmorRule.Plain : AppArmorRule → Prop
  | .executable path => hasVariable path = false
  | .library path => hasVariable path = false
  | .read path => hasVariable path = false
  | .write path => hasVariable path = false
  | .ptrace _ _ => False
  | _ => True

theorem mergerView_grants {profile : AppArmorAbstract} {rule : AppArmorRule} (plain : rule.Plain)
    (granted : profile.Grants rule) : (mergerView profile).Grants rule := by
  obtain ⟨executables, libraries⟩ := mergerView_executable profile
  obtain ⟨readOnly, writeOnly, readWrite⟩ := mergerView_filesystem profile
  cases rule with
  | executable path =>
    rw [AppArmorAbstract.Grants, executables, mem_dropVariables]
    exact ⟨granted, plain⟩
  | library path =>
    rw [AppArmorAbstract.Grants, libraries, mem_dropVariables]
    exact ⟨granted, plain⟩
  | read path =>
    rw [AppArmorAbstract.Grants, readOnly, readWrite, mem_dropVariables, mem_dropVariables]
    exact granted.imp (⟨·, plain⟩) (⟨·, plain⟩)
  | write path =>
    rw [AppArmorAbstract.Grants, writeOnly, readWrite, mem_dropVariables, mem_dropVariables]
    exact granted.imp (⟨·, plain⟩) (⟨·, plain⟩)
  | raw => exact granted
  | tcp => exact granted
  | udp => exact granted
  | capability name => exact granted
  | ptrace access peer => exact plain.elim

theorem completeUnion_grants (base additions : AppArmorAbstract) {merged : MergerProfile} {rule : AppArmorRule}
    (granted : (mergerProfileToAbstract merged).Grants rule) :
    (completeUnion base additions merged).Grants rule := by
  cases rule with
  | executable path => exact (mem_executables_completeUnion base additions merged path).mpr (Or.inl granted)
  | library path => exact (mem_libraries_completeUnion base additions merged path).mpr (Or.inl granted)
  | read path =>
    exact granted.imp (fun inList => (mem_readOnly_completeUnion base additions merged path).mpr (Or.inl inList))
      fun inList => (mem_readWrite_completeUnion base additions merged path).mpr (Or.inl inList)
  | write path =>
    exact granted.imp (fun inList => (mem_writeOnly_completeUnion base additions merged path).mpr (Or.inl inList))
      fun inList => (mem_readWrite_completeUnion base additions merged path).mpr (Or.inl inList)
  | raw => exact granted
  | tcp => exact granted
  | udp => exact granted
  | capability name =>
    obtain ⟨listed, member, same⟩ := List.mem_map.mp granted
    have inResult := (mem_capabilities_completeUnion base additions merged (Text.toLower listed)).mpr
      (List.mem_map_of_mem member)
    exact List.mem_map.mpr ⟨_, inResult, by rw [Text.toLower_toLower, same]⟩
  | ptrace access peer =>
    obtain ⟨_, found, _⟩ := granted
    cases found

theorem FileAccess.eq_of_read {access : FileAccess} (read : access.read = true) :
    access = .fileRead ∨ access = .or .fileRead .fileWrite := by
  obtain ⟨_, write⟩ := access
  cases write <;> simp_all [FileAccess.fileRead, FileAccess.fileWrite, FileAccess.or]

theorem FileAccess.eq_of_write {access : FileAccess} (write : access.write = true) :
    access = .fileWrite ∨ access = .or .fileRead .fileWrite := by
  obtain ⟨read, _⟩ := access
  cases read <;> simp_all [FileAccess.fileRead, FileAccess.fileWrite, FileAccess.or]

/-- Ptrace rules of either profile hold in the union, whose peer is none if theirs differ. -/
theorem unionPtrace_grants {left right : Option AppArmorPtraceRules} {rules : AppArmorPtraceRules}
    {access peer : Str} (side : left = some rules ∨ right = some rules) (listed : access ∈ rules.allowedAccess)
    (peers : rules.peer = [] ∨ rules.peer = peer) :
    ∃ union, unionPtrace left right = some union ∧ access ∈ union.allowedAccess ∧
      (union.peer = [] ∨ union.peer = peer) := by
  have nonempty : rules.allowedAccess ≠ [] := List.ne_nil_of_mem listed
  rcases side with rfl | rfl
  · refine ⟨_, if_neg (by simp [nonempty]), ?_, ?_⟩
    · simp [listed]
    · simp only [Option.getD_some, if_neg nonempty]
      split
      · exact peers
      split
      · exact Or.inl rfl
      · exact peers
  · refine ⟨_, if_neg (by simp [nonempty]), ?_, ?_⟩
    · simp [listed]
    · simp only [Option.getD_some, if_neg nonempty]
      split
      · exact peers
      split
      · exact Or.inl rfl
      · next same => exact not_ne_iff.mp same ▸ peers

theorem variableAccess_of_grants {base additions : AppArmorAbstract} {path : Str}
    (isVariable : hasVariable path = true) :
    (base.Grants (.read path) ∨ additions.Grants (.read path) → (variableAccess base additions path).read = true) ∧
    (base.Grants (.write path) ∨ additions.Grants (.write path) →
      (variableAccess base additions path).write = true) := by
  simp only [variableAccess, isVariable, if_true, FileAccess.or, AppArmorAbstract.fileAccess, Bool.or_eq_true,
    decide_eq_true_eq]
  exact ⟨id, id⟩

/-- The rules the merger library does not get to see are those of both profiles. -/
theorem completeUnion_variables {base additions : AppArmorAbstract} (merged : MergerProfile) {rule : AppArmorRule}
    (hidden : ¬ rule.Plain) (granted : base.Grants rule ∨ additions.Grants rule) :
    (completeUnion base additions merged).Grants rule := by
  cases rule with
  | executable path =>
    exact (mem_executables_completeUnion base additions merged path).mpr
      (Or.inr ⟨eq_true_of_ne_false hidden, granted⟩)
  | library path =>
    exact (mem_libraries_completeUnion base additions merged path).mpr
      (Or.inr ⟨eq_true_of_ne_false hidden, granted⟩)
  | read path =>
    exact (FileAccess.eq_of_read ((variableAccess_of_grants (eq_true_of_ne_false hidden)).1 granted)).imp
      (fun access => (mem_readOnly_completeUnion base additions merged path).mpr (Or.inr access))
      fun access => (mem_readWrite_completeUnion base additions merged path).mpr (Or.inr access)
  | write path =>
    exact (FileAccess.eq_of_write ((variableAccess_of_grants (eq_true_of_ne_false hidden)).2 granted)).imp
      (fun access => (mem_writeOnly_completeUnion base additions merged path).mpr (Or.inr access))
      fun access => (mem_readWrite_completeUnion base additions merged path).mpr (Or.inr access)
  | ptrace access peer =>
    rcases granted with ⟨rules, found, listed, peers⟩ | ⟨rules, found, listed, peers⟩
    · exact unionPtrace_grants (Or.inl found) listed peers
    · exact unionPtrace_grants (Or.inr found) listed peers
  | raw => exact absurd trivial hidden
  | tcp => exact absurd trivial hidden
  | udp => exact absurd trivial hidden
  | capability name => exact absurd trivial hidden

section

variable {union : MergerUnion} {base additions merged : AppArmorAbstract}

theorem unionAppArmor_grants (above : UnionAppArmorAbove union)
    (ok : unionAppArmor union base additions = .ok merged) {rule : AppArmorRule}
    (granted : base.Grants rule ∨ additions.Grants rule) : merged.Grants rule := by
  obtain ⟨seen, united, done⟩ := Fallible.bind_ok.mp ok
  obtain rfl := Fallible.pure_ok.mp done
  by_cases plain : rule.Plain
  · have seenGranted := granted.imp (mergerView_grants plain) (mergerView_grants plain)
    exact completeUnion_grants base additions (above _ _ seen rule united seenGranted)
  · exact completeUnion_variables seen plain granted

/-- The rule lets a program have the access. The path of a rule is a pattern and that of an access the name of a
file, and `covers` says which files a pattern stands for. -/
def AppArmorRule.Lets (covers : Str → Str → Prop) : AppArmorRule → AppArmorRule → Prop
  | .executable path, .executable file => covers path file
  | .library path, .library file => covers path file
  | .read path, .read file => covers path file
  | .write path, .write file => covers path file
  | rule, access => rule = access

def AppArmorAbstract.Permits (covers : Str → Str → Prop) (abstract : AppArmorAbstract)
    (access : AppArmorRule) : Prop :=
  ∃ rule, abstract.Grants rule ∧ rule.Lets covers access

/-- The union of the merger library permits what either profile permits. It may write the rules in another way: a
path is left out if a pattern of the other profile covers it. -/
def UnionAppArmorPermits (covers : Str → Str → Prop) (union : MergerUnion) : Prop :=
  ∀ left right merged access, union left right = .ok merged →
    (mergerProfileToAbstract left).Permits covers access ∨ (mergerProfileToAbstract right).Permits covers access →
    (mergerProfileToAbstract merged).Permits covers access

variable {covers : Str → Str → Prop}

theorem UnionAppArmorAbove.permits (above : UnionAppArmorAbove union) : UnionAppArmorPermits covers union := by
  rintro left right merged access ok (⟨rule, granted, lets⟩ | ⟨rule, granted, lets⟩)
  · exact ⟨rule, above left right merged rule ok (Or.inl granted), lets⟩
  · exact ⟨rule, above left right merged rule ok (Or.inr granted), lets⟩

/-- Paths with a variable keep their text, and the merger library answers for the others. -/
theorem unionAppArmor_permits (permits : UnionAppArmorPermits covers union)
    (ok : unionAppArmor union base additions = .ok merged) {access : AppArmorRule}
    (permitted : base.Permits covers access ∨ additions.Permits covers access) : merged.Permits covers access := by
  obtain ⟨seen, united, done⟩ := Fallible.bind_ok.mp ok
  obtain rfl := Fallible.pure_ok.mp done
  have either : ∀ {rule}, base.Grants rule ∨ additions.Grants rule → rule.Lets covers access →
      (completeUnion base additions seen).Permits covers access := by
    intro rule granted lets
    by_cases plain : rule.Plain
    · have view : (mergerView base).Permits covers access ∨ (mergerView additions).Permits covers access :=
        granted.imp (fun left => ⟨rule, mergerView_grants plain left, lets⟩)
          fun right => ⟨rule, mergerView_grants plain right, lets⟩
      obtain ⟨other, otherGranted, otherLets⟩ := permits _ _ seen access united view
      exact ⟨other, completeUnion_grants base additions otherGranted, otherLets⟩
    · exact ⟨rule, completeUnion_variables seen plain granted, lets⟩
  rcases permitted with ⟨rule, granted, lets⟩ | ⟨rule, granted, lets⟩
  · exact either (Or.inl granted) lets
  · exact either (Or.inr granted) lets

end

end SecurityProfiles
