import SecurityProfiles.Host.Handles

namespace SecurityProfiles.Host

open Faulty List

section names

variable (name : ObjectName)

theorem profileFilename_objectName : profileFilename name.value = name.value := by
  have slashless : name.value.map (fun char => if char = '/' then '.' else char) = name.value := by
    refine (map_congr_left fun char member => if_neg ?_).trans (map_id' _)
    rintro rfl
    exact name.notMem (Or.inl rfl) member
  have front : name.value.dropWhile (· = '.') = name.value := by
    have head := name.head_ne
    cases shape : name.value with
    | nil => rfl
    | cons first rest =>
      rw [shape] at head
      exact dropWhile_cons_of_neg (by simpa using head)
  have back : name.value.rdropWhile (· = '.') = name.value := by
    rw [rdropWhile_eq_self_iff]
    intro nonempty
    have last := name.getLast_ne
    rw [getLast?_eq_some_getLast nonempty] at last
    simpa using last
  rw [profileFilename, slashless, front, back]

/-- The names of objects have no separators, so that the policy file is in the directory of the policies under this
name. -/
theorem policyPath_objectName : policyPath name.value = FilePath.folder ["etc".toList, "apparmor.d".toList] ++
    name.value := by
  have proper : FilePath.Proper name.value := by
    refine ⟨name.ne_nil, ?_, ?_, name.notMem (Or.inl rfl)⟩ <;>
      · intro dots
        have head := name.head_ne
        rw [dots] at head
        exact head rfl
  have joined : ['/'].intercalate [targetProfileDir, name.value] =
      '/' :: ['/'].intercalate ["etc".toList, "apparmor.d".toList, [], name.value] := by
    have dir : targetProfileDir = '/' :: ("etc".toList ++ '/' :: ("apparmor.d".toList ++ ['/'])) := by decide
    rw [dir]
    simp [intercalate_cons_cons]
  have single : ∀ element ∈ ["etc".toList, "apparmor.d".toList, [], name.value], '/' ∉ element := by
    have fixed : ∀ element ∈ ["etc".toList, "apparmor.d".toList, []], '/' ∉ element := by decide
    intro element member
    rcases mem_append.mp (show element ∈ ["etc".toList, "apparmor.d".toList, []] ++ [name.value] from member) with
      isFixed | isName
    · exact fixed element isFixed
    · rw [mem_singleton.mp isName]
      exact proper.single
  have cleaned : (["etc".toList, "apparmor.d".toList, [], name.value].foldl (FilePath.cleanStep true) []).reverse =
      ["etc".toList, "apparmor.d".toList] ++ [name.value] := by
    have fixed : ["etc".toList, "apparmor.d".toList, []].foldl (FilePath.cleanStep true) [] =
        ["apparmor.d".toList, "etc".toList] := by
      decide
    have step : ∀ before, FilePath.cleanStep true before name.value = name.value :: before := by
      intro before
      simp [FilePath.cleanStep, proper.named, proper.notDot, proper.notDots]
    change ([name.value].foldl (FilePath.cleanStep true)
      (["etc".toList, "apparmor.d".toList, []].foldl (FilePath.cleanStep true) [])).reverse = _
    rw [fixed, foldl_cons, step]
    rfl
  have kept : [targetProfileDir, name.value].dropWhile (· = []) = [targetProfileDir, name.value] :=
    dropWhile_cons_of_neg (by decide)
  rw [policyPath, profileFilename_objectName, FilePath.join, kept]
  change FilePath.clean (['/'].intercalate [targetProfileDir, name.value]) = _
  rw [joined, FilePath.clean_intercalate (cons_ne_nil _ _) single, cleaned, FilePath.folder_append]

theorem policyPath_injective {first second : ObjectName} (same : policyPath first.value = policyPath second.value) :
    first.value = second.value := by
  rw [policyPath_objectName, policyPath_objectName] at same
  exact append_cancel_left same

end names

/-- The policies that are loaded from a file that the operator wrote. -/
theorem load_generated {profile : AppArmorProfile} {system : System} {content : Str}
    (generated : profile.policy = .ok content)
    (written : system.files.lookup (policyPath profile.name.value) = some (managedByMarker ++ content)) :
    system.load (policyPath profile.name.value) =
      { system with
        loaded := system.loaded.insert profile.name.value (managedByMarker ++ content)
        touched := profile.name.value :: system.touched } := by
  have quiet : Quiet [managedByLine] := by
    unfold Quiet
    decide
  have defined : definedPolicies (managedByMarker ++ content) = [profile.name.value] := by
    rw [managedByMarker, append_assoc]
    exact definedPolicies_generated generated (profile.name.notMem (Or.inr rfl)) quiet
  rw [System.load, written]
  simp only [defined, foldl_cons, foldl_nil, singleton_append]

section frames

variable {inv : System → Prop} {profile : AppArmorProfile}

/-- What the operations on the policy of a profile keep if the texts that are written to its file are all alike. -/
structure Manages (inv : System → Prop) (ours : Str → Prop) (profile : AppArmorProfile) : Prop where
  read : ∀ system text, inv system → system.files.lookup (policyPath profile.name.value) = some text → ours text
  new : ∀ content, profile.policy = .ok content → ours (managedByMarker ++ content)
  write : ∀ system text, inv system → ours text → inv (system.write (policyPath profile.name.value) text)
  remove : ∀ system, inv system → inv (system.remove (policyPath profile.name.value))
  load : ∀ system text, inv system → system.files.lookup (policyPath profile.name.value) = some text →
    inv { system with
    loaded := system.loaded.insert profile.name.value text
    touched := profile.name.value :: system.touched }
  delete : ∀ system, inv system → inv (system.delete profile.name.value)
  status : ∀ system status, inv system → inv (system.putStatus profile.name.value status)
  removeLegacy : ∀ system, inv system → inv (system.removeLegacy profile.name.value)

/-- What every operation on the policy of a profile keeps, whoever the owner of the policy is. -/
abbrev Frames (inv : System → Prop) (profile : AppArmorProfile) : Prop := Manages inv (fun _ => True) profile

theorem keeps_fileManagedByUs (path : Str) : Keeps inv (fileManagedByUs path) fun _ => True :=
  Keeps.bind Keeps.ask fun _ _ => Keeps.pure trivial

theorem keeps_hostProfile (name : Str) (ownedByUs : Bool) :
    Keeps inv (hostProfile name ownedByUs) fun _ => True := by
  have exist : Keeps inv (checkProfileExist name) fun _ => True := by
    refine Keeps.ifDone keeps_call .done ?_
    refine Keeps.bind Keeps.ask fun loaded _ => ?_
    exact .done
  refine Keeps.ifDone exist .done ?_
  cases ownedByUs with
  | true => exact .done
  | false =>
    have managed : Keeps inv (profileManagedByUs name) fun _ => True := by
      exact Keeps.ifDone keeps_call .done (keeps_fileManagedByUs _)
    exact Keeps.bind managed fun _ _ => Keeps.pure trivial

theorem keeps_loadedAlready (name : Str) (same : Bool) : Keeps inv (loadedAlready name same) fun _ => True := by
  unfold loadedAlready
  split
  · exact Keeps.ask
  · exact .done

theorem keeps_policyFileOwned (path policy : Str) (ownedByUs : Bool) :
    Keeps inv (policyFileOwned path policy ownedByUs) fun _ => True := by
  have content : Keeps inv (fileHasContent path policy) fun _ => True := by
    unfold fileHasContent
    split
    · exact .done
    · exact Keeps.bind Keeps.ask fun _ _ => Keeps.pure trivial
  have evidence : Keeps inv (do if ← fileManagedByUs path then return true else fileHasContent path policy)
      fun _ => True := by
    exact Keeps.ifDone (keeps_fileManagedByUs path) content .done
  exact Keeps.ifFound Keeps.ask evidence .done fun _ _ => evidence

namespace Manages

variable {ours : Str → Prop} (manages : Manages inv ours profile)

include manages

theorem restore {previous : Option Str} (isOurs : ∀ text, previous = some text → ours text) :
    Keeps inv (restore (policyPath profile.name.value) previous) fun _ => True := by
  cases previous with
  | none => exact Keeps.change manages.remove
  | some previous => exact Keeps.change fun system kept => manages.write system previous kept (isOurs previous rfl)

/-- The policy file is written, the policy is loaded, and the previous file is put back if that fails. All of it
keeps the invariant. -/
theorem replacePolicyFile {content : Str} (generated : profile.policy = .ok content) {previous : Option Str}
    (isOurs : ∀ text, previous = some text → ours text) :
    Keeps inv (replacePolicyFile (policyPath profile.name.value) profile.name.value
      (managedByMarker ++ content) previous)
      fun _ => True := by
  have failed : ∀ {pre : System → Prop} (error : ManagerError), Triple inv pre
      (do
        let _ ← Host.restore (policyPath profile.name.value) previous
        return (.error error : Except ManagerError Bool)) fun _ _ => True := by
    intro pre error
    refine Keeps.weaken ?_
    exact Keeps.bind (manages.restore isOurs) fun _ _ => Keeps.pure trivial
  have written :
      Triple inv (fun _ => True) (writeFileAtomic (policyPath profile.name.value) (managedByMarker ++ content))
      fun done system => done = true →
        system.files.lookup (policyPath profile.name.value) = some (managedByMarker ++ content) := by
    apply Triple.change
    · intro system kept _
      exact manages.write system _ kept (manages.new content generated)
    · intro system _ _ _
      exact SortedMap.lookup_insert_self _ _ _
    · intro system _ _
      constructor <;>
        · intro never
          cases never
  refine Triple.bind written fun done => ?_
  cases done with
  | false => exact Triple.pure fun _ _ _ => trivial
  | true =>
    have loading : Triple inv (fun system => true = true →
        system.files.lookup (policyPath profile.name.value) = some (managedByMarker ++ content))
        (loadPolicy (policyPath profile.name.value)) fun _ _ => True := by
      apply Triple.change
      · intro system kept isWritten
        rw [load_generated generated (isWritten rfl)]
        exact manages.load system _ kept (isWritten rfl)
      · exact fun _ _ _ => trivial
      · exact fun _ _ _ => ⟨trivial, trivial⟩
    refine Triple.bind loading fun loaded => ?_
    cases loaded with
    | false => exact failed .loadPolicy
    | true =>
      refine Keeps.bind Keeps.ask fun answer _ => ?_
      match answer with
      | some true => exact .done
      | some false => exact failed .notLoaded
      | none => exact failed .policyStatus

theorem installProfile (ownedByUs : Bool) : Keeps inv (installProfile profile ownedByUs) fun _ => True := by
  unfold Host.installProfile
  split
  · exact .done
  refine Keeps.bind (keeps_hostProfile _ _) fun ofHost _ => ?_
  cases ofHost with
  | true => exact .done
  | false =>
    cases generated : profile.policy with
    | error error => exact .done
    | ok content =>
      refine Keeps.ifDone keeps_call .done ?_
      have reading : Keeps inv (readFile (policyPath profile.name.value)) fun answer =>
          ∀ previous, answer = some previous → ∀ text, previous = some text → ours text := by
        refine Keeps.query (fun _ failed => nomatch failed) fun system kept previous same text found => ?_
        refine manages.read system text kept ?_
        rw [← found]
        exact Option.some.inj same
      refine Keeps.ifSome reading .done fun previous isOurs => ?_
      simp only
      split
      · exact .done
      · refine Keeps.bind (keeps_loadedAlready _ _) fun answer _ => ?_
        match answer with
        | none => exact .done
        | some true => exact .done
        | some false => exact manages.replacePolicyFile generated (isOurs previous rfl)

theorem removeOwned : Keeps inv (removeOwned (policyPath profile.name.value) profile.name.value) fun _ => True := by
  have unloaded : Keeps inv (unloadPolicy profile.name.value) fun _ => True := by
    refine Keeps.bind Keeps.ask fun answer _ => ?_
    match answer with
    | none => exact .done
    | some false => exact .done
    | some true =>
      refine Keeps.bind (Keeps.change manages.delete) fun deleted _ => ?_
      cases deleted <;> exact .done
  refine Keeps.bind unloaded fun result _ => ?_
  cases result with
  | error error => exact .done
  | ok _ =>
    refine Keeps.bind (Keeps.change manages.remove) fun removed _ => ?_
    cases removed <;> exact .done

theorem removeProfile (ownedByUs : Bool) : Keeps inv (removeProfile profile ownedByUs) fun _ => True := by
  refine Keeps.ifDone keeps_call .done ?_
  exact Keeps.ifDone (keeps_policyFileOwned _ _ _) .done manages.removeOwned

theorem handles : Handles inv (fun _ => True) profile where
  read _ _ _ _ := trivial
  write system status kept _ := manages.status system status kept
  readLegacy _ _ _ _ _ _ := trivial
  removeLegacy := manages.removeLegacy
  new := trivial
  state _ _ _ _ := trivial
  clear _ _ := trivial
  install _ _ := (manages.installProfile _).imp (fun _ _ holds => holds) fun _ _ _ _ _ _ _ _ =>
    ⟨trivial, trivial⟩
  remove _ _ := manages.removeProfile _

end Manages

end frames

end SecurityProfiles.Host
