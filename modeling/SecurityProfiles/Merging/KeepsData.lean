import SecurityProfiles.Merging.MergeTyped
import SecurityProfiles.Profiles.Permits
import SecurityProfiles.Writers.NoLostUpdate

namespace SecurityProfiles

open VersionedStore

/-- The object with the identity is stored and is not being deleted. -/
def Live (key : Key) (uid : Nat) (server : Server Key Object) : Prop :=
  ∃ current, server.Holds key current ∧ current.uid = uid ∧ current.deleting = false

/-- What is merged: the profiles of one kind that were recorded for the containers, where a relation tells which
files a pattern covers. -/
structure MergeScope where
  covers : Str → Str → Prop
  recording : Recording
  kind : ProfileRecordingKind
  containers : String → Prop

namespace MergeScope

variable (scope : MergeScope)

/-- Where the profiles of a container are merged. -/
def mergedKey (container : String) : Key := .profile scope.kind (scope.recording.name ++ "-" ++ container)

def IsMergedKey (key : Key) : Prop := ∃ container, scope.containers container ∧ key = scope.mergedKey container

/-- A partial profile of the recording with a container label. -/
structure PartialOf (container : String) (key : Key) (object : Object) : Prop where
  selected : selectsPartial scope.recording scope.kind key object = true
  labelled : object.labels.container = some container
  named : container ≠ ""

/-- A partial profile is of one of the containers and does not have the name of a merged profile. -/
def Apart (key : Key) (object : Object) : Prop :=
  selectsPartial scope.recording scope.kind key object = true → ¬ scope.IsMergedKey key ∧
    ∀ container, object.labels.container = some container → container ≠ "" → scope.containers container

abbrev ForeignTo (object : Object) : Prop :=
  object.labels.Foreign scope.recording.name scope.recording.namespaceName

/-- The merged profile of the container belongs to the recording and permits all that the rules permit. -/
def Merged (container : String) (spec : Spec) (server : Server Key Object) : Prop :=
  ∃ target, server.Holds (scope.mergedKey container) target ∧ ¬ scope.ForeignTo target.body ∧
    spec.Permits scope.covers ≤ target.body.spec.Permits scope.covers

/-- Merged profiles grow in what they permit, and one that belongs to the recording stays with it. -/
def growth : Growth Key Object (Prop × (ProfileAccess → Prop)) where
  keys := scope.IsMergedKey
  content object := (¬ scope.ForeignTo object, object.spec.Permits scope.covers)
  since := scope.recording.created
  good stored := scope.ForeignTo stored.body ∨ scope.recording.created ≤ stored.created

structure KeepsData (server : Server Key Object) : Prop where
  growth : scope.growth.Inv server
  apart : ∀ {key stored}, server.Seen key stored → scope.Apart key stored.body
  /-- A partial profile is not changed in place. -/
  same : ∀ {key stored stored'}, ¬ scope.IsMergedKey key → server.Seen key stored →
    server.Seen key stored' → stored.uid = stored'.uid →
    stored.body.labels = stored'.body.labels ∧ stored.body.spec = stored'.body.spec
  /-- A profile of somebody else is not taken over. -/
  foreign : ∀ {key stored current}, scope.IsMergedKey key → server.Seen key stored →
    scope.ForeignTo stored.body → server.Holds key current → scope.ForeignTo current.body
  kept : ∀ {key stored container}, server.Seen key stored → scope.PartialOf container key stored.body →
    stored.deleting = false → Live key stored.uid server ∨ scope.Merged container stored.body.spec server

variable {scope} {container : String} {spec : Spec} {server : Server Key Object} {key : Key}
  {object object' : Object}

theorem merged_iff_contains :
    scope.Merged container spec server ↔
      scope.growth.Contains (scope.mergedKey container) (True, spec.Permits scope.covers) server := by
  simp only [Merged, Growth.Contains, growth, Prod.mk_le_mk, le_Prop_eq, true_implies]

theorem Merged.later {first second : Server Key Object} (merged : scope.Merged container spec first)
    (isContainer : scope.containers container) (grows : scope.growth.Grows first second) :
    scope.Merged container spec second :=
  merged_iff_contains.mpr ((merged_iff_contains.mp merged).later ⟨container, isContainer, rfl⟩ grows)

theorem PartialOf.selects_container (isPartial : scope.PartialOf container key object)
    (apart : scope.Apart key object) : ¬ scope.IsMergedKey key ∧ scope.containers container :=
  ⟨(apart isPartial.selected).1, (apart isPartial.selected).2 container isPartial.labelled isPartial.named⟩

theorem PartialOf.of_labels (isPartial : scope.PartialOf container key object)
    (same : object.labels = object'.labels) : scope.PartialOf container key object' where
  selected := by
    have selected := isPartial.selected
    cases key <;> simpa only [selectsPartial, same] using selected
  labelled := same ▸ isPartial.labelled
  named := isPartial.named

theorem Apart.of_labels (apart : scope.Apart key object)
    (same : object.labels = object'.labels) : scope.Apart key object' := by
  intro selected
  rw [← same]
  apply apart
  cases key <;> simpa only [selectsPartial, same] using selected

/-- A write keeps the data if the merged profiles only grow by it. A partial profile may end by it once it is
merged. -/
theorem KeepsData.put (keeps : scope.KeepsData server) {stored : Stored Object}
    {known : stored.uid ≤ server.revision + 1}
    (grows : scope.growth.Grows server (server.put key stored known) ∧
      scope.growth.Inv (server.put key stored known))
    (apart : scope.Apart key stored.body)
    (same : ∀ {earlier}, ¬ scope.IsMergedKey key → server.Seen key earlier → earlier.uid = stored.uid →
      earlier.body.labels = stored.body.labels ∧ earlier.body.spec = stored.body.spec)
    (foreign : ∀ {current}, scope.IsMergedKey key → server.Holds key current → scope.ForeignTo current.body →
      scope.ForeignTo stored.body)
    (ends : ∀ {current container}, server.Holds key current → current.deleting = false →
      scope.PartialOf container key current.body → (current.uid = stored.uid ∧ stored.deleting = false) ∨
      scope.Merged container current.body.spec server) :
    scope.KeepsData (server.put key stored known) := by
  refine ⟨grows.2, ?_, ?_, ?_, ?_⟩
  · intro key' stored' seen
    rcases Server.seen_put.mp seen with older | ⟨rfl, rfl⟩
    · exact keeps.apart older
    · exact apart
  · intro key' first second elsewhere seenFirst seenSecond sameUid
    rcases Server.seen_put.mp seenFirst with olderFirst | ⟨rfl, rfl⟩ <;>
      rcases Server.seen_put.mp seenSecond with olderSecond | ⟨atKey, rfl⟩
    · exact keeps.same elsewhere olderFirst olderSecond sameUid
    · subst atKey
      exact same elsewhere olderFirst sameUid
    · obtain ⟨labels, spec⟩ := same elsewhere olderSecond sameUid.symm
      exact ⟨labels.symm, spec.symm⟩
    · exact ⟨rfl, rfl⟩
  · intro key' stored' current isKey seen isForeign held
    rcases Server.seen_put.mp seen with older | ⟨rfl, rfl⟩
    · rcases Server.holds_put.mp held with ⟨rfl, rfl⟩ | ⟨_, held⟩
      · obtain ⟨before, heldBefore, _⟩ := keeps.growth.kept isKey older
        exact foreign isKey heldBefore (keeps.foreign isKey older isForeign heldBefore)
      · exact keeps.foreign isKey older isForeign held
    · rw [held.unique Server.holds_put_self]
      exact isForeign
  · intro key' stored' container seen isPartial live
    rcases Server.seen_put.mp seen with older | ⟨rfl, rfl⟩
    · obtain ⟨elsewhere, isContainer⟩ := isPartial.selects_container (keeps.apart older)
      rcases keeps.kept older isPartial live with ⟨current, held, sameUid, alive⟩ | merged
      · by_cases atKey : key' = key
        · subst atKey
          -- the write replaces the partial profile itself
          obtain ⟨labels, spec⟩ := keeps.same elsewhere older held.seen sameUid.symm
          rcases ends held alive (isPartial.of_labels labels) with ⟨uid, alive'⟩ | merged
          · exact Or.inl ⟨_, Server.holds_put_self, uid.symm.trans sameUid, alive'⟩
          · exact Or.inr (spec ▸ merged.later isContainer grows.1)
        · exact Or.inl ⟨current, (Server.holds_put_ne atKey).mpr held, sameUid, alive⟩
      · exact Or.inr (merged.later isContainer grows.1)
    · exact Or.inl ⟨_, Server.holds_put_self, rfl, live⟩

/-- The end of a deletion. -/
theorem KeepsData.drop (keeps : scope.KeepsData server) {current : Stored Object}
    (elsewhere : ¬ scope.IsMergedKey key) (held : server.Holds key current) (deleting : current.deleting = true)
    (grows : scope.growth.Grows server (server.drop key) ∧ scope.growth.Inv (server.drop key)) :
    scope.KeepsData (server.drop key) := by
  refine ⟨grows.2, fun seen => keeps.apart (Server.seen_drop.mp seen), ?_, ?_, ?_⟩
  · intro key' first second elsewhere seenFirst seenSecond sameUid
    exact keeps.same elsewhere (Server.seen_drop.mp seenFirst) (Server.seen_drop.mp seenSecond) sameUid
  · intro key' stored latest isKey seen isForeign heldLatest
    exact keeps.foreign isKey (Server.seen_drop.mp seen) isForeign (Server.holds_drop.mp heldLatest).2
  · intro key' stored container seen isPartial live
    have older := Server.seen_drop.mp seen
    rcases keeps.kept older isPartial live with ⟨latest, heldLatest, sameUid, alive⟩ | merged
    · refine Or.inl ⟨latest, Server.holds_drop.mpr ⟨?_, heldLatest⟩, sameUid, alive⟩
      intro atKey
      subst atKey
      rw [held.unique heldLatest, alive] at deleting
      cases deleting
    · exact Or.inr (merged.later (isPartial.selects_container (keeps.apart older)).2 grows.1)

end MergeScope

end SecurityProfiles
