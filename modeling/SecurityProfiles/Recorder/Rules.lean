import SecurityProfiles.Recorder.Process
import Mathlib.Algebra.Order.BigOperators.Group.Finset

namespace SecurityProfiles.Recorder

open List

/-- The accesses to a file, each by the rule that it needs alone. -/
def mergedRule (programName : Str) (accesses : List (Str × FileAccess)) (fileName : Str) : FileRule :=
  accesses.foldl (fun rule file =>
    if file.1 = fileName then rule.or (classifyFileAccess programName fileName file.2) else rule) .none

/-- The files that were accessed and not removed. -/
def presentNames (accesses : List (Str × FileAccess)) : Finset Str :=
  ((accesses.map (·.1)).filter fun fileName => !isDeleted fileName).toFinset

/-- The bytes of the paths of all files that were not removed. -/
def pathBytes (accesses : List (Str × FileAccess)) : Nat := ∑ fileName ∈ presentNames accesses, fileName.length

/-- The files that get a rule. They are taken in the order of the accesses, as long as their paths fit into one
profile together with those taken before. -/
def keptNames (accesses : List (Str × FileAccess)) : Finset Str :=
  accesses.foldl (fun kept file =>
    if isDeleted file.1 = false ∧ ∑ fileName ∈ insert file.1 kept, fileName.length ≤ maxProfilePathBytes then
      insert file.1 kept
    else kept) ∅

theorem mem_presentNames {accesses : List (Str × FileAccess)} {fileName : Str} :
    fileName ∈ presentNames accesses ↔ (∃ access, (fileName, access) ∈ accesses) ∧ isDeleted fileName = false := by
  simp [presentNames]

theorem mem_presentNames_append {accesses : List (Str × FileAccess)} {fileName : Str}
    {file : Str × FileAccess} : fileName ∈ presentNames (accesses ++ [file]) ↔
      fileName ∈ presentNames accesses ∨ fileName = file.1 ∧ isDeleted fileName = false := by
  obtain ⟨name, access⟩ := file
  simp only [mem_presentNames, mem_append, mem_singleton, Prod.mk.injEq, exists_or, exists_and_left,
    exists_eq, and_true]
  tauto

section kept

variable {accesses : List (Str × FileAccess)} {fileName : Str}

theorem keptNames_append (file : Str × FileAccess) : keptNames (accesses ++ [file]) =
    if isDeleted file.1 = false ∧
        ∑ fileName ∈ insert file.1 (keptNames accesses), fileName.length ≤ maxProfilePathBytes then
      insert file.1 (keptNames accesses)
    else keptNames accesses := by
  rw [keptNames, foldl_append]
  rfl

theorem keptNames_subset : keptNames accesses ⊆ presentNames accesses := by
  induction accesses using List.reverseRecOn with
  | nil => simp [keptNames]
  | append_singleton accesses file ih =>
    intro fileName member
    rw [mem_presentNames_append]
    rw [keptNames_append] at member
    split at member
    · next takes =>
        rcases Finset.mem_insert.mp member with rfl | member
        · exact Or.inr ⟨rfl, takes.1⟩
        · exact Or.inl (ih member)
    · exact Or.inl (ih member)

/-- A file that was left out did not fit, and will not fit any more. -/
theorem full_of_notMem_keptNames (present : fileName ∈ presentNames accesses)
    (out : fileName ∉ keptNames accesses) :
    maxProfilePathBytes < ∑ name ∈ insert fileName (keptNames accesses), name.length := by
  induction accesses using List.reverseRecOn with
  | nil => simp [presentNames] at present
  | append_singleton accesses file ih =>
    rw [keptNames_append] at out ⊢
    rw [mem_presentNames_append] at present
    split at out
    · next takes =>
        rw [if_pos takes]
        rw [Finset.mem_insert, not_or] at out
        rcases present with before | ⟨here, _⟩
        · refine (ih before out.2).trans_le (Finset.sum_le_sum_of_subset ?_)
          exact Finset.insert_subset_insert _ (Finset.subset_insert _ _)
        · exact absurd here out.1
    · next leaves =>
        rw [if_neg leaves]
        rcases present with before | ⟨rfl, here⟩
        · exact ih before out
        · exact Nat.lt_of_not_le fun fits => leaves ⟨here, fits⟩

/-- Below the limit, every file that was not removed gets its rule. -/
theorem mem_keptNames_of_small (small : pathBytes accesses ≤ maxProfilePathBytes)
    (present : fileName ∈ presentNames accesses) : fileName ∈ keptNames accesses := by
  by_contra out
  refine Nat.not_lt_of_le small ((full_of_notMem_keptNames present out).trans_le (Finset.sum_le_sum_of_subset ?_))
  exact Finset.insert_subset present keptNames_subset

end kept

theorem isDeleted_anonHugepage : isDeleted anonHugepage = true := by
  decide

section merge

variable {programName fileName : Str} {accesses : List (Str × FileAccess)}

theorem mergedRule_append (file : Str × FileAccess) : mergedRule programName (accesses ++ [file]) fileName =
    if file.1 = fileName then (mergedRule programName accesses fileName).or
      (classifyFileAccess programName fileName file.2)
    else mergedRule programName accesses fileName := by
  simp [mergedRule]

/-- Nothing is needed for a file without any access. -/
theorem mergedRule_of_notMem (absent : ∀ access, (fileName, access) ∉ accesses) :
    mergedRule programName accesses fileName = .none := by
  induction accesses using List.reverseRecOn with
  | nil => rfl
  | append_singleton accesses file ih =>
    rw [mergedRule_append, if_neg]
    · exact ih fun access member => absent access (mem_append_left _ member)
    · rintro rfl
      exact absent file.2 (mem_append_right _ (mem_singleton_self file))

theorem mergedRule_part {part : FileRule → Bool}
    (parts : ∀ first second, part (first.or second) = (part first || part second)) (empty : part .none = false) :
    part (mergedRule programName accesses fileName) = true ↔
      ∃ access, (fileName, access) ∈ accesses ∧ part (classifyFileAccess programName fileName access) = true := by
  induction accesses using List.reverseRecOn with
  | nil => simp [mergedRule, empty]
  | append_singleton accesses file ih =>
    obtain ⟨name, access⟩ := file
    rw [mergedRule_append]
    by_cases same : name = fileName
    · subst same
      simp only [if_true, parts, Bool.or_eq_true, ih, mem_append, mem_singleton, Prod.mk.injEq, true_and]
      constructor
      · rintro (⟨other, member, needed⟩ | needed)
        · exact ⟨other, Or.inl member, needed⟩
        · exact ⟨access, Or.inr rfl, needed⟩
      · rintro ⟨other, member | rfl, needed⟩
        · exact Or.inl ⟨other, member, needed⟩
        · exact Or.inr needed
    · simp [same, Ne.symm same, ih]

end merge

/-- Where the processing of some files has got to. -/
structure Processes (programName : Str) (accesses : List (Str × FileAccess)) (state : Processing) : Prop where
  rules : ∀ fileName, state.rules.lookup fileName =
    if fileName ∈ keptNames accesses then some (mergedRule programName accesses fileName) else none
  bytes : state.pathBytes = ∑ fileName ∈ keptNames accesses, fileName.length
  hugepages : ∀ path, path ∈ state.readWritePaths ↔ path = ['/'] ∧ ∃ access, (anonHugepage, access) ∈ accesses

section processing

variable {programName : Str} {accesses : List (Str × FileAccess)} {state : Processing}

theorem processes_start : Processes programName [] .start where
  rules := by simp [Processing.start, keptNames]
  bytes := by simp [Processing.start, keptNames]
  hugepages := by simp [Processing.start]

theorem hugepages_other {file : Str × FileAccess} (other : file.1 ≠ anonHugepage) :
    (∃ access, (anonHugepage, access) ∈ accesses ++ [file]) ↔ ∃ access, (anonHugepage, access) ∈ accesses := by
  obtain ⟨name, access⟩ := file
  simp [Ne.symm other]

/-- An access to a file that gets no rule changes nothing. -/
theorem Processes.skip (processes : Processes programName accesses state) {file : Str × FileAccess}
    (same : keptNames (accesses ++ [file]) = keptNames accesses) (out : file.1 ∉ keptNames accesses)
    {readWritePaths : List Str}
    (hugepages : ∀ path, path ∈ readWritePaths ↔
      path = ['/'] ∧ ∃ access, (anonHugepage, access) ∈ accesses ++ [file]) :
    Processes programName (accesses ++ [file]) { state with readWritePaths := readWritePaths } := by
  refine ⟨fun fileName => ?_, by rw [same]; exact processes.bytes, hugepages⟩
  rw [processes.rules, same]
  split
  · next member =>
      rw [mergedRule_append, if_neg]
      rintro rfl
      exact out member
  · rfl

theorem Processes.setRule (processes : Processes programName accesses state) {fileName : Str} (access : FileAccess)
    {bytes : Nat} (other : fileName ≠ anonHugepage)
    (kept : keptNames (accesses ++ [(fileName, access)]) = insert fileName (keptNames accesses))
    (same : bytes = ∑ name ∈ insert fileName (keptNames accesses), name.length) :
    Processes programName (accesses ++ [(fileName, access)])
      { state with
        rules := state.rules.insert fileName (mergedRule programName (accesses ++ [(fileName, access)]) fileName)
        pathBytes := bytes } := by
  refine ⟨fun name => ?_, same.trans (by rw [kept]),
    fun path => (processes.hugepages path).trans (and_congr_right' (hugepages_other other).symm)⟩
  rw [SortedMap.lookup_insert, kept]
  split
  · next here => rw [here, if_pos (Finset.mem_insert_self _ _)]
  · next elsewhere =>
      rw [processes.rules, mergedRule_append, if_neg (Ne.symm elsewhere)]
      simp [elsewhere]

/-- One more file keeps the description: the rules are the merged ones of the paths kept so far, and the bytes are
theirs. -/
theorem Processes.processFile (processes : Processes programName accesses state) (file : Str × FileAccess) :
    Processes programName (accesses ++ [file]) (processFile programName state file) := by
  obtain ⟨fileName, access⟩ := file
  have removed : isDeleted fileName = true → keptNames (accesses ++ [(fileName, access)]) = keptNames accesses ∧
      fileName ∉ keptNames accesses := by
    intro deleted
    refine ⟨by simp [keptNames_append, deleted], fun member => ?_⟩
    rw [(mem_presentNames.mp (keptNames_subset member)).2] at deleted
    cases deleted
  unfold Recorder.processFile
  dsimp only
  split
  · next hugepage =>
      obtain ⟨same, out⟩ := removed (by rw [hugepage, isDeleted_anonHugepage])
      apply processes.skip same out
      intro path
      rw [mem_append, mem_singleton, processes.hugepages]
      constructor
      · rintro (⟨root, _, member⟩ | root)
        · exact ⟨root, _, mem_append_left _ member⟩
        · exact ⟨root, access, by simp [hugepage]⟩
      · exact fun found => Or.inr found.1
  next notHugepage =>
  have hugepages := fun path => (processes.hugepages path).trans
    (and_congr_right' (@hugepages_other accesses (fileName, access) notHugepage).symm)
  split
  · next deleted =>
      obtain ⟨same, out⟩ := removed deleted
      exact processes.skip same out hugepages
  next present =>
  have present := Bool.of_not_eq_true present
  have ruled := processes.rules fileName
  by_cases member : fileName ∈ keptNames accesses
  · have kept : keptNames (accesses ++ [(fileName, access)]) = insert fileName (keptNames accesses) := by
      rw [keptNames_append, Finset.insert_eq_of_mem member, ite_self]
    rw [if_pos member] at ruled
    rw [ruled]
    dsimp only
    have rule := @mergedRule_append programName fileName accesses (fileName, access)
    rw [if_pos rfl] at rule
    rw [← rule]
    exact processes.setRule access notHugepage kept (by rw [Finset.insert_eq_of_mem member]; exact processes.bytes)
  · rw [if_neg member] at ruled
    rw [ruled]
    dsimp only
    have bytes : state.pathBytes + fileName.length = ∑ name ∈ insert fileName (keptNames accesses),
        name.length := by
      rw [Finset.sum_insert member, processes.bytes, Nat.add_comm]
    split
    · next full =>
        rw [bytes] at full
        refine processes.skip ?_ member hugepages
        rw [keptNames_append, if_neg fun takes => Nat.not_lt_of_le takes.2 full]
    · next fits =>
        rw [bytes] at fits
        -- A file that did not fit before would not fit now.
        have new : ∀ access, (fileName, access) ∉ accesses := fun access accessed =>
          fits (full_of_notMem_keptNames (mem_presentNames.mpr ⟨⟨access, accessed⟩, present⟩) member)
        have rule : classifyFileAccess programName fileName access =
            mergedRule programName (accesses ++ [(fileName, access)]) fileName := by
          rw [mergedRule_append, if_pos rfl, mergedRule_of_notMem new, FileRule.none_or]
        rw [rule]
        refine processes.setRule access notHugepage ?_ bytes
        rw [keptNames_append, if_pos ⟨present, Nat.le_of_not_lt fits⟩]

theorem processes_foldl (programName : Str) (accesses : List (Str × FileAccess)) :
    Processes programName accesses (accesses.foldl (Recorder.processFile programName) .start) := by
  induction accesses using List.reverseRecOn with
  | nil => exact processes_start
  | append_singleton accesses file ih =>
    rw [foldl_append]
    exact ih.processFile file

theorem Processes.lookup_iff (processes : Processes programName accesses state) {fileName : Str} {rule : FileRule} :
    state.rules.lookup fileName = some rule ↔
      fileName ∈ keptNames accesses ∧ rule = mergedRule programName accesses fileName := by
  rw [processes.rules]
  split
  · next member => simp [member, eq_comm]
  · next out => simp [out]

end processing

end SecurityProfiles.Recorder
