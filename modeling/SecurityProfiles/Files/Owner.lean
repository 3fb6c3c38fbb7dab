import SecurityProfiles.Library.Faulty
import SecurityProfiles.Naming.Statuses
import SecurityProfiles.Profiles.Path

namespace SecurityProfiles.Files

open List

open Naming (ProfileState)

/-- The name of the other profile that can share the file. -/
def siblingName (name : Str) : Str :=
  match Text.cutSuffix extJSON name with
  | some trimmed => trimmed
  | none => name ++ extJSON

section names

theorem profileFile_suffix (rest : Str) : profileFile (rest ++ extJSON) = rest ++ extJSON := by
  rw [profileFile, if_pos (by simp)]

theorem profileFile_plain {name : Str} (plain : ¬extJSON.isSuffixOf name = true) :
    profileFile name = name ++ extJSON := by
  rw [profileFile, if_neg plain]

theorem siblingName_suffix (rest : Str) : siblingName (rest ++ extJSON) = rest := by
  rw [siblingName, Text.cutSuffix_eq_some.mpr rfl]

theorem siblingName_plain {name : Str} (plain : ¬extJSON.isSuffixOf name = true) :
    siblingName name = name ++ extJSON := by
  rw [siblingName, Text.cutSuffix, if_neg plain]

theorem suffix_or_plain (name : Str) : (∃ rest, name = rest ++ extJSON) ∨ ¬extJSON.isSuffixOf name = true := by
  by_cases isSuffix : extJSON.isSuffixOf name = true
  · obtain ⟨rest, same⟩ := isSuffixOf_iff_suffix.mp isSuffix
    exact Or.inl ⟨rest, same.symm⟩
  · exact Or.inr isSuffix

/-- Two names share a file if each is the sibling of the other. -/
theorem profileFile_eq_iff {first second : Str} (different : first ≠ second) :
    profileFile first = profileFile second ↔ siblingName first = second ∧ siblingName second = first := by
  rcases suffix_or_plain first with ⟨rest, rfl⟩ | plain <;> rcases suffix_or_plain second with ⟨rest', rfl⟩ | plain'
  · rw [profileFile_suffix, profileFile_suffix, siblingName_suffix, siblingName_suffix]
    refine iff_of_false different fun ⟨same, same'⟩ => ?_
    have lengths := congrArg List.length (same.trans (congrArg (· ++ extJSON) same'))
    have some : extJSON.length = 5 := by decide
    simp only [length_append] at lengths
    omega
  · rw [profileFile_suffix, profileFile_plain plain', siblingName_suffix, siblingName_plain plain',
      append_left_inj, append_left_inj]
    exact ⟨fun same => ⟨same, same.symm⟩, fun both => both.1⟩
  · rw [profileFile_suffix, profileFile_plain plain, siblingName_suffix, siblingName_plain plain, append_left_inj]
    exact ⟨fun same => ⟨same, same.symm⟩, fun both => both.1⟩
  · rw [profileFile_plain plain, profileFile_plain plain', siblingName_plain plain, siblingName_plain plain',
      append_left_inj]
    refine iff_of_false different fun ⟨same, _⟩ => plain' ?_
    rw [← same]
    simp

theorem siblingName_ne (name : Str) : siblingName name ≠ name := by
  have some : extJSON.length = 5 := by decide
  intro same
  have lengths := congrArg List.length same
  rcases suffix_or_plain name with ⟨rest, rfl⟩ | plain
  · rw [siblingName_suffix, length_append] at lengths
    omega
  · rw [siblingName_plain plain, length_append] at lengths
    omega

end names

structure Profile where
  name : ObjectName
  creationTimestamp : Nat
  disabled : Bool
  isPartial : Bool
  deleting : Bool
  inUse : Bool
  hasFinalizer : Bool

structure Profiles where
  entries : SortedMap Str Profile
  named : ∀ name profile, entries.lookup name = some profile → profile.name.value = name

def Profiles.get? (profiles : Profiles) (name : Str) : Option Profile := profiles.entries.lookup name

def Profile.isReconcilable (profile : Profile) : Bool := !profile.disabled && !profile.isPartial

/-- The profile is installed and not being deleted. -/
def Profile.isActive (profile : Profile) : Bool := profile.isReconcilable && !profile.deleting

/-- The profile created first goes before the other, and the name decides on a tie. -/
def ownsFileBefore (first second : Profile) : Bool :=
  if first.creationTimestamp ≠ second.creationTimestamp then first.creationTimestamp < second.creationTimestamp
  else first.name.value < second.name.value

/-- The profile with the sibling name, if it has the same file. -/
def siblingOf (profile : Profile) (found : Option Profile) : Option Profile :=
  if siblingName profile.name.value = [] then none
  else found.filter fun other => profileFile other.name.value = profileFile profile.name.value

/-- The other profile, if it owns the file. -/
def ownerOf (profile : Profile) (found : Option Profile) : Option Profile :=
  match siblingOf profile found with
  | none => none
  | some other =>
    if other.deleting || !other.isReconcilable then none
    else if profile.isReconcilable && !profile.deleting && !ownsFileBefore other profile then none
    else some other

/-- An active profile owns its file if it goes before all other active ones with the file. -/
def Profiles.Owns (profiles : Profiles) (owner : Profile) : Prop :=
  profiles.get? owner.name.value = some owner ∧ owner.isActive = true ∧
    ∀ other, profiles.get? other.name.value = some other → other.name ≠ owner.name →
      profileFile other.name.value = profileFile owner.name.value → other.isActive = true →
      ownsFileBefore owner other = true

section owners

variable {profiles : Profiles} {first second profile other : Profile}

theorem ObjectName.value_injective {first second : ObjectName} (same : first.value = second.value) :
    first = second := by
  cases first
  cases second
  cases same
  rfl

/-- Of two profiles with different names one goes before the other. -/
theorem ownsFileBefore_total (different : first.name ≠ second.name) :
    (ownsFileBefore first second = true ∧ ownsFileBefore second first = false) ∨
      (ownsFileBefore first second = false ∧ ownsFileBefore second first = true) := by
  unfold ownsFileBefore
  by_cases tie : first.creationTimestamp = second.creationTimestamp
  · have names : first.name.value ≠ second.name.value := fun same => different (ObjectName.value_injective same)
    simp only [tie, ne_eq, not_true, if_false, decide_eq_true_eq, decide_eq_false_iff_not]
    rcases lt_or_gt_of_ne names with before | after
    · exact Or.inl ⟨before, not_lt.mpr before.le⟩
    · exact Or.inr ⟨not_lt.mpr after.le, after⟩
  · simp only [ne_eq, tie, Ne.symm tie, not_false_eq_true, if_true, decide_eq_true_eq, decide_eq_false_iff_not]
    omega

theorem name_of_shared (different : second.name ≠ first.name)
    (shares : profileFile second.name.value = profileFile first.name.value) :
    siblingName first.name.value = second.name.value :=
  ((profileFile_eq_iff fun same => different (ObjectName.value_injective same)).mp shares).2

/-- Of two active profiles with one file, one owns it and the other one does not. -/
theorem owns_exclusive (isFirst : profiles.get? first.name.value = some first)
    (isSecond : profiles.get? second.name.value = some second) (different : first.name ≠ second.name)
    (shares : profileFile first.name.value = profileFile second.name.value) (activeFirst : first.isActive = true)
    (activeSecond : second.isActive = true) :
    (profiles.Owns first ∧ ¬profiles.Owns second) ∨ (¬profiles.Owns first ∧ profiles.Owns second) := by
  have owns : ∀ {owner other : Profile}, profiles.get? owner.name.value = some owner →
      profiles.get? other.name.value = some other → other.name ≠ owner.name →
      profileFile other.name.value = profileFile owner.name.value → owner.isActive = true →
      ownsFileBefore owner other = true → profiles.Owns owner := by
    intro owner other isOwner isOther different shares active before
    refine ⟨isOwner, active, fun third isThird different' shares' _ => ?_⟩
    have same := (name_of_shared different shares).symm.trans (name_of_shared different' shares')
    rw [← same, isOther] at isThird
    rw [← Option.some.inj isThird]
    exact before
  rcases ownsFileBefore_total different with ⟨before, notAfter⟩ | ⟨notBefore, after⟩
  · refine Or.inl ⟨owns isFirst isSecond different.symm shares.symm activeFirst before, fun owned => ?_⟩
    have after := owned.2.2 first isFirst different shares activeFirst
    rw [notAfter] at after
    cases after
  · refine Or.inr ⟨fun owned => ?_, owns isSecond isFirst different shares activeSecond after⟩
    have before := owned.2.2 second isSecond different.symm shares.symm activeSecond
    rw [notBefore] at before
    cases before

theorem siblingOf_eq_some_iff : siblingOf profile (profiles.get? (siblingName profile.name.value)) = some other ↔
    profiles.get? other.name.value = some other ∧ other.name ≠ profile.name ∧
      profileFile other.name.value = profileFile profile.name.value := by
  constructor
  · intro found
    unfold siblingOf at found
    split at found
    · cases found
    · obtain ⟨isFound, shares⟩ := Option.filter_eq_some_iff.mp found
      have named := profiles.named _ _ isFound
      rw [← named] at isFound
      refine ⟨isFound, fun same => siblingName_ne profile.name.value ?_, of_decide_eq_true shares⟩
      rw [← named, same]
  · rintro ⟨isOther, different, shares⟩
    have isSibling := name_of_shared different shares
    have named : siblingName profile.name.value ≠ [] := by
      rw [isSibling]
      exact other.name.ne_nil
    rw [siblingOf, if_neg named, isSibling, isOther]
    simp [shares]

/-- The owner that is found for a profile is the other profile that has the same file and owns it. -/
theorem ownerOf_eq_some_iff (isProfile : profiles.get? profile.name.value = some profile) :
    ownerOf profile (profiles.get? (siblingName profile.name.value)) = some other ↔
      other.name ≠ profile.name ∧ profileFile other.name.value = profileFile profile.name.value ∧
      profiles.Owns other := by
  constructor
  · intro found
    unfold ownerOf at found
    split at found
    · cases found
    · next sibling isSibling =>
        split at found
        · cases found
        · next active =>
            split at found
            · cases found
            · next loses =>
                cases found
                obtain ⟨isOther, different, shares⟩ := siblingOf_eq_some_iff.mp isSibling
                refine ⟨different, shares, isOther, by simpa [Profile.isActive, and_comm] using active, ?_⟩
                -- The only other profile with the file is the one that asks.
                intro third isThird different' shares' activeThird
                have same := (name_of_shared different' shares').symm.trans
                  (name_of_shared different.symm shares.symm)
                rw [same, isProfile] at isThird
                cases isThird
                by_contra lost
                refine loses ?_
                simp only [Profile.isActive] at activeThird
                simpa [activeThird] using lost
  · rintro ⟨different, shares, isOther, active, before⟩
    simp only [ownerOf, siblingOf_eq_some_iff.mpr ⟨isOther, different, shares⟩]
    simp only [Profile.isActive, Bool.and_eq_true, Bool.not_eq_true'] at active
    have loses : ¬(profile.isReconcilable && !profile.deleting && !ownsFileBefore other profile) = true := by
      intro wins
      simp only [Bool.and_eq_true, Bool.not_eq_true'] at wins
      have goesBefore := before profile isProfile different.symm shares.symm (by simp [Profile.isActive, wins])
      rw [wins.2] at goesBefore
      cases goesBefore
    rw [if_neg (by simp [active]), if_neg loses]

end owners

end SecurityProfiles.Files
