import SecurityProfiles.Annotator.Pods
import SecurityProfiles.Library.SortedMap
import SecurityProfiles.Naming.Hashed

namespace SecurityProfiles.Naming

open List

open Annotator (ProfileKind)

def kindName : ProfileKind → Str
  | .seccomp => "SeccompProfile".toList
  | .selinux => "SelinuxProfile".toList
  | .rawSelinux => "RawSelinuxProfile".toList
  | .appArmor => "AppArmorProfile".toList

/-- What a daemon keeps the status of: its node and a profile. -/
structure StatusClient where
  kind : ProfileKind
  profile : ObjectName
  nodeName : ObjectName
deriving DecidableEq

inductive ProfileState where
  | pending
  | disabled
  | inProgress
  | installed
  | terminating
  | error
  | isPartial
deriving DecidableEq

/-- A status object: the profile that owns it, the labels for profile and node, and the state once it was set. -/
structure StatusObject where
  ownerKind : ProfileKind
  ownerName : Str
  profileLabel : Str
  nodeLabel : Str
  nodeName : Str
  state : Option ProfileState
deriving DecidableEq

abbrev Statuses := SortedMap Str StatusObject

section

variable (sha256 : Sha256)

def profileID (client : StatusClient) : Str :=
  dnsLengthName sha256 (kindName client.kind) (kindName client.kind ++ '-' :: client.profile.value)

/-- Kind, profile and node, joined by dashes. -/
def friendlyName (client : StatusClient) : Str :=
  Text.toLower (kindName client.kind) ++ '-' :: (client.profile.value ++ '-' :: client.nodeName.value)

def perNodeStatusName (client : StatusClient) : Str :=
  dnsLengthName sha256 (Text.toLower (kindName client.kind)) (friendlyName client)

/-- The name that earlier releases gave to the status, without the kind. -/
def legacyName (client : StatusClient) : Str := client.profile.value ++ '-' :: client.nodeName.value

/-- The object as it is created, which leaves out its state. -/
def statusObj (client : StatusClient) : StatusObject where
  ownerKind := client.kind
  ownerName := client.profile.value
  profileLabel := profileID sha256 client
  nodeLabel := client.nodeName.value
  nodeName := client.nodeName.value
  state := none

/-- The state of a status that is created anew, unless a legacy status tells another one. -/
def initialState (disabled isPartial : Bool) (legacyState : Option ProfileState) : ProfileState :=
  if disabled then .disabled else if isPartial then .isPartial else legacyState.getD .pending

/-- How the calls for the legacy status end: they fail, its deletion is not confirmed, or they succeed. -/
inductive Migration where
  | failed
  | unconfirmed
  | succeeded

inductive Progress where
  | nothing
  | created
  | finished

structure Creation where
  client : StatusClient
  disabled : Bool
  isPartial : Bool
  migration : Migration
  progress : Progress

/-- Remove the status of an earlier release, if it belongs to the profile, and tell its state. -/
def removeLegacyNodeStatus (statuses : Statuses) (creation : Creation) : Statuses × Option ProfileState :=
  if legacyName creation.client = perNodeStatusName sha256 creation.client then (statuses, none)
  else
    match statuses.lookup (legacyName creation.client) with
    | none => (statuses, none)
    | some old =>
      if old.profileLabel ≠ profileID sha256 creation.client then (statuses, none)
      else
        match creation.migration with
        | .failed => (statuses, none)
        | .unconfirmed => (statuses.erase (legacyName creation.client), none)
        | .succeeded => (statuses.erase (legacyName creation.client), old.state)

/-- Create the status, or set the state of the one that exists already. -/
def createNodeStatus (statuses : Statuses) (creation : Creation) (legacyState : Option ProfileState) : Statuses :=
  let name := perNodeStatusName sha256 creation.client
  let state := some (initialState creation.disabled creation.isPartial legacyState)
  match creation.progress, statuses.lookup name with
  | .nothing, _ => statuses
  | .created, none => statuses.insert name (statusObj sha256 creation.client)
  | .created, some _ => statuses
  | .finished, none => statuses.insert name { statusObj sha256 creation.client with state }
  | .finished, some existing => statuses.insert name { existing with state }

def create (statuses : Statuses) (creation : Creation) : Statuses :=
  let (statuses, legacyState) := removeLegacyNodeStatus sha256 statuses creation
  createNodeStatus sha256 statuses creation legacyState

def createAll (statuses : Statuses) (creations : List Creation) : Statuses :=
  creations.foldl (create sha256) statuses

end

def StatusObject.OwnedBy (object : StatusObject) (client : StatusClient) : Prop :=
  object.ownerKind = client.kind ∧ object.ownerName = client.profile.value ∧ object.nodeName = client.nodeName.value

/-- All statuses are those that an earlier release left for the clients. -/
def Legacy (clients : StatusClient → Prop) (statuses : Statuses) : Prop :=
  ∀ name object, statuses.lookup name = some object →
    ∃ client, clients client ∧ name = legacyName client ∧ object.OwnedBy client

/-- A status that exists already when a client creates its own is the one of the client. -/
def NoTakeover (sha256 : Sha256) (statuses : Statuses) (creations : List Creation) : Prop :=
  ∀ before creation after existing, creations = before ++ creation :: after →
    (removeLegacyNodeStatus sha256 (createAll sha256 statuses before) creation).1.lookup
      (perNodeStatusName sha256 creation.client) = some existing →
    existing.OwnedBy creation.client

/-- The name of the first profile goes on in that of the second one, with a part that the first node name starts
with. -/
def Overlaps (first second : StatusClient) : Prop :=
  first.kind = second.kind ∧ ∃ part, second.profile.value = first.profile.value ++ '-' :: part ∧
    first.nodeName.value = part ++ '-' :: second.nodeName.value

section names

variable {sha256 : Sha256} {first second : StatusClient}

theorem lowerKind_plain (kind : ProfileKind) :
    '-' ∉ Text.toLower (kindName kind) ∧ (Text.toLower (kindName kind)).length ≤ 17 := by
  cases kind <;> decide

theorem lowerKind_injective {kind kind' : ProfileKind}
    (same : Text.toLower (kindName kind) = Text.toLower (kindName kind')) : kind = kind' := by
  revert same
  cases kind <;> cases kind' <;> decide

/-- What comes before the first dash is the kind. -/
theorem kind_append_inj {kind kind' : ProfileKind} {rest rest' : Str}
    (same : Text.toLower (kindName kind) ++ '-' :: rest = Text.toLower (kindName kind') ++ '-' :: rest') :
    kind = kind' ∧ rest = rest' := by
  have cuts := congrArg (Text.cut '-') same
  rw [Text.cut_append (lowerKind_plain kind).1, Text.cut_append (lowerKind_plain kind').1] at cuts
  obtain ⟨kinds, rests⟩ := Prod.mk.inj (Option.some.inj cuts)
  exact ⟨lowerKind_injective kinds, rests⟩

theorem friendlyName_eq_iff : friendlyName first = friendlyName second ↔
    first = second ∨ Overlaps first second ∨ Overlaps second first := by
  constructor
  · intro same
    obtain ⟨kinds, rests⟩ := kind_append_inj same
    rcases append_dash_eq_iff.mp rests with ⟨profiles, nodes⟩ | overlap | overlap
    · left
      obtain ⟨kind, ⟨profile, _⟩, ⟨node, _⟩⟩ := first
      obtain ⟨kind', ⟨profile', _⟩, ⟨node', _⟩⟩ := second
      obtain rfl : kind = kind' := kinds
      obtain rfl : profile = profile' := profiles
      obtain rfl : node = node' := nodes
      rfl
    · exact Or.inr (Or.inl ⟨kinds, overlap⟩)
    · exact Or.inr (Or.inr ⟨kinds.symm, overlap⟩)
  · rintro (rfl | ⟨kinds, overlap⟩ | ⟨kinds, overlap⟩)
    · rfl
    · rw [friendlyName, friendlyName, kinds, append_dash_eq_iff.mpr (Or.inr (Or.inl overlap))]
    · rw [friendlyName, friendlyName, kinds, append_dash_eq_iff.mpr (Or.inr (Or.inr overlap))]

theorem perNodeStatusName_of_short (short : (friendlyName first).length < 63) :
    perNodeStatusName sha256 first = friendlyName first := by
  rw [perNodeStatusName, dnsLengthName, lengthName, maxLabelLength, if_pos short]
  rfl

theorem perNodeStatusName_of_long (long : ¬(friendlyName first).length < 63) :
    perNodeStatusName sha256 first = Text.toLower (kindName first.kind) ++
      '-' :: (sha256.hex (friendlyName first)).take (62 - (Text.toLower (kindName first.kind)).length) := by
  have bound := (lowerKind_plain first.kind).2
  have size : maxLabelLength - (Text.toLower (kindName first.kind)).length - 1 =
      62 - (Text.toLower (kindName first.kind)).length := by
    rw [maxLabelLength]
    omega
  rw [perNodeStatusName, dnsLengthName, lengthName, if_neg (show ¬_ < maxLabelLength from long), hashedName, size,
    if_pos (by rw [maxLabelLength]; omega)]
  rfl

theorem length_of_long (long : ¬(friendlyName first).length < 63) :
    (perNodeStatusName sha256 first).length = 63 := by
  have bound := (lowerKind_plain first.kind).2
  have hash := sha256.length (friendlyName first)
  rw [perNodeStatusName_of_long long]
  simp only [length_append, length_cons, length_take]
  omega

/-- Names agree where the joined names do. -/
theorem perNodeStatusName_eq_iff
    (collisionFree : (sha256.hex (friendlyName first)).take 45 = (sha256.hex (friendlyName second)).take 45 →
      friendlyName first = friendlyName second) :
    perNodeStatusName sha256 first = perNodeStatusName sha256 second ↔
      first = second ∨ Overlaps first second ∨ Overlaps second first := by
  rw [← friendlyName_eq_iff]
  constructor
  · intro same
    by_cases shortFirst : (friendlyName first).length < 63 <;> by_cases shortSecond :
      (friendlyName second).length < 63
    · rwa [perNodeStatusName_of_short shortFirst, perNodeStatusName_of_short shortSecond] at same
    · have lengths := congrArg List.length same
      rw [perNodeStatusName_of_short shortFirst, length_of_long shortSecond] at lengths
      omega
    · have lengths := congrArg List.length same
      rw [perNodeStatusName_of_short shortSecond, length_of_long shortFirst] at lengths
      omega
    · rw [perNodeStatusName_of_long shortFirst, perNodeStatusName_of_long shortSecond] at same
      obtain ⟨kinds, hashes⟩ := kind_append_inj same
      have bound := (lowerKind_plain second.kind).2
      rw [kinds] at hashes
      have fewer := congrArg (List.take 45) hashes
      rw [take_take, take_take, Nat.min_eq_left (by omega)] at fewer
      exact collisionFree fewer
  · intro same
    have kinds := (kind_append_inj same).1
    rw [perNodeStatusName, perNodeStatusName, same, kinds]

end names

section creations

variable {sha256 : Sha256}

/-- The object is the status of a client, under its own name or under the one of earlier releases. -/
def StatusOf (sha256 : Sha256) (clients : StatusClient → Prop) (name : Str) (object : StatusObject) : Prop :=
  ∃ client, clients client ∧ (name = perNodeStatusName sha256 client ∨ name = legacyName client) ∧
    object.OwnedBy client

theorem lookup_removeLegacyNodeStatus {statuses : Statuses} {creation : Creation} {name : Str}
    {object : StatusObject} (found : (removeLegacyNodeStatus sha256 statuses creation).1.lookup name =
      some object) :
    statuses.lookup name = some object := by
  unfold removeLegacyNodeStatus at found
  split at found
  · exact found
  split at found
  · exact found
  split at found
  · exact found
  split at found
  · exact found
  · exact (SortedMap.lookup_erase_eq_some.mp found).2
  · exact (SortedMap.lookup_erase_eq_some.mp found).2

/-- The removal leaves the status alone that is created next. -/
theorem lookup_removeLegacyNodeStatus_own (statuses : Statuses) (creation : Creation) :
    (removeLegacyNodeStatus sha256 statuses creation).1.lookup (perNodeStatusName sha256 creation.client) =
      statuses.lookup (perNodeStatusName sha256 creation.client) := by
  unfold removeLegacyNodeStatus
  split
  · rfl
  next other =>
  split
  · rfl
  split
  · rfl
  split
  · rfl
  · exact SortedMap.lookup_erase_ne _ (Ne.symm other)
  · exact SortedMap.lookup_erase_ne _ (Ne.symm other)

variable {clients : StatusClient → Prop}

/-- Every stored status stays one of a client, under its own or its legacy name. -/
theorem statusOf_create {statuses : Statuses} {creation : Creation} (isClient : clients creation.client)
    (all : ∀ name object, statuses.lookup name = some object → StatusOf sha256 clients name object) :
    ∀ name object, (create sha256 statuses creation).lookup name = some object →
      StatusOf sha256 clients name object := by
  intro name object found
  have earlier :=
    fun name object found => all name object (@lookup_removeLegacyNodeStatus sha256 _ creation name object found)
  unfold create at found
  dsimp only at found
  generalize removeLegacyNodeStatus sha256 statuses creation = removed at earlier found
  unfold createNodeStatus at found
  dsimp only at found
  by_cases same : name = perNodeStatusName sha256 creation.client
  · split at found
    · exact earlier name object found
    · rw [← same, SortedMap.lookup_insert_self] at found
      cases found
      exact ⟨creation.client, isClient, Or.inl same, rfl, rfl, rfl⟩
    · exact earlier name object found
    · rw [← same, SortedMap.lookup_insert_self] at found
      cases found
      exact ⟨creation.client, isClient, Or.inl same, rfl, rfl, rfl⟩
    · next existing _ isThere =>
        rw [← same] at isThere found
        rw [SortedMap.lookup_insert_self] at found
        cases found
        exact earlier name existing isThere
  · split at found <;>
      first
      | exact earlier name object found
      | (rw [SortedMap.lookup_insert_ne _ _ same] at found; exact earlier name object found)

/-- Every status is one of a client, after any creations from the statuses of an earlier release. -/
theorem statusOf_createAll {statuses : Statuses} (legacy : Legacy clients statuses) {creations : List Creation}
    (areClients : ∀ creation ∈ creations, clients creation.client) :
    ∀ name object, (createAll sha256 statuses creations).lookup name = some object →
      StatusOf sha256 clients name object := by
  induction creations using List.reverseRecOn with
  | nil =>
    intro name object found
    obtain ⟨client, isClient, isName, owned⟩ := legacy name object found
    exact ⟨client, isClient, Or.inr isName, owned⟩
  | append_singleton creations creation ih =>
    rw [createAll, foldl_append, foldl_cons, foldl_nil, ← createAll]
    exact statusOf_create (areClients creation (by simp))
      (ih fun other member => areClients other (by simp [member]))

theorem StatusObject.OwnedBy.unique {object : StatusObject} {first second : StatusClient}
    (owned : object.OwnedBy first) (owned' : object.OwnedBy second) : first = second := by
  obtain ⟨kind, ⟨profile, _⟩, ⟨node, _⟩⟩ := first
  obtain ⟨kind', ⟨profile', _⟩, ⟨node', _⟩⟩ := second
  obtain ⟨rfl, profiles, nodes⟩ := owned
  obtain ⟨rfl, profiles', nodes'⟩ := owned'
  obtain rfl : profile = profile' := profiles.symm.trans profiles'
  obtain rfl : node = node' := nodes.symm.trans nodes'
  rfl

theorem statusObj_owned (sha256 : Sha256) (first : StatusClient) : (statusObj sha256 first).OwnedBy first :=
  ⟨rfl, rfl, rfl⟩

theorem legacy_single (sha256 : Sha256) {client : StatusClient} (isClient : clients client) :
    Legacy clients (SortedMap.empty.insert (legacyName client) (statusObj sha256 client)) := by
  intro name object found
  rw [SortedMap.lookup_insert] at found
  split at found
  · next isName =>
      obtain rfl := Option.some.inj found
      exact ⟨client, isClient, isName, statusObj_owned sha256 client⟩
  · cases found

theorem lookup_created (sha256 : Sha256) (client : StatusClient) :
    (createAll sha256 .empty [⟨client, false, false, .failed, .finished⟩]).lookup
      (perNodeStatusName sha256 client) =
      some { statusObj sha256 client with state := some .pending } := by
  have removed : removeLegacyNodeStatus sha256 .empty ⟨client, false, false, .failed, .finished⟩ =
      (.empty, none) := by
    unfold removeLegacyNodeStatus
    split <;> rfl
  rw [createAll, foldl_cons, foldl_nil, create, removed]
  exact SortedMap.lookup_insert_self _ _ _

/-- Without takeovers, a client that finds a status when it creates its own is the owner of that status. -/
theorem owner_eq_finder
    (kept : ∀ statuses creations, Legacy clients statuses → (∀ creation ∈ creations, clients creation.client) →
      NoTakeover sha256 statuses creations)
    {statuses : Statuses} (legacy : Legacy clients statuses) {before : List Creation}
    (areClients : ∀ creation ∈ before, clients creation.client) {owner finder : StatusClient}
    (isFinder : clients finder) {object : StatusObject} (owned : object.OwnedBy owner)
    (found : (createAll sha256 statuses before).lookup (perNodeStatusName sha256 finder) = some object) :
    owner = finder := by
  have all : ∀ creation ∈ before ++ [⟨finder, false, false, .failed, .finished⟩], clients creation.client := by
    intro creation member
    rcases mem_append.mp member with earlier | last
    · exact areClients creation earlier
    · rw [mem_singleton.mp last]
      exact isFinder
  refine owned.unique (kept statuses _ legacy all before _ [] object rfl ?_)
  rw [lookup_removeLegacyNodeStatus_own]
  exact found

end creations

/-- The statuses of two clients have different names exactly if the names of profile and node do not overlap. No
client takes over the status of another one, whichever statuses an earlier release left, exactly if this is so for
all clients and no client has the name of its status from another one's legacy name. -/
theorem status_names_differ_iff (sha256 : Sha256) (clients : StatusClient → Prop)
    (collisionFree : sha256.CollisionFree 45 fun text => ∃ client, clients client ∧ text = friendlyName client) :
    (∀ first second, clients first → clients second → first ≠ second →
      (perNodeStatusName sha256 first ≠ perNodeStatusName sha256 second ↔
        ¬Overlaps first second ∧ ¬Overlaps second first)) ∧
    ((∀ statuses creations, Legacy clients statuses → (∀ creation ∈ creations, clients creation.client) →
      NoTakeover sha256 statuses creations) ↔
      ∀ first second, clients first → clients second → ¬Overlaps first second ∧
        (legacyName first = perNodeStatusName sha256 second → first = second)) := by
  have names : ∀ first second, clients first → clients second →
      (perNodeStatusName sha256 first = perNodeStatusName sha256 second ↔
        first = second ∨ Overlaps first second ∨ Overlaps second first) := by
    intro first second isFirst isSecond
    exact perNodeStatusName_eq_iff (collisionFree _ _ ⟨first, isFirst, rfl⟩ ⟨second, isSecond, rfl⟩)
  refine ⟨fun first second isFirst isSecond different => ?_, fun kept first second isFirst isSecond => ⟨?_, ?_⟩,
    fun apart statuses creations legacy areClients before creation after existing same found => ?_⟩
  · rw [← not_or, not_iff_not, names first second isFirst isSecond, or_iff_right different]
  · -- The second client finds the status that the first one created.
    intro overlap
    have sameName := (names first second isFirst isSecond).mpr (Or.inr (Or.inl overlap))
    have found := lookup_created sha256 first
    rw [sameName] at found
    have isFirst' : ∀ creation ∈ [Creation.mk first false false .failed .finished], clients creation.client := by
      simpa using isFirst
    have none : Legacy clients .empty := fun _ _ found => by cases found
    obtain rfl := owner_eq_finder kept none isFirst' isSecond ⟨rfl, rfl, rfl⟩ found
    obtain ⟨_, part, longer, _⟩ := overlap
    have lengths := congrArg List.length longer
    simp at lengths
  · -- The second client finds the status that an earlier release left for the first one.
    intro sameName
    refine owner_eq_finder kept (legacy_single sha256 isFirst) (forall_mem_nil _) isSecond
      (statusObj_owned sha256 first) ?_
    rw [← sameName]
    exact SortedMap.lookup_insert_self _ _ _
  · obtain ⟨owner, isOwner, isName, owned⟩ := statusOf_createAll legacy (fun other member =>
      areClients other (by rw [same]; simp [member])) _ _ (lookup_removeLegacyNodeStatus found)
    have isClient : clients creation.client := areClients creation (by rw [same]; simp)
    rcases isName with own | old
    · rcases (names _ _ isOwner isClient).mp own.symm with sameClient | overlap | overlap
      · exact sameClient ▸ owned
      · exact absurd overlap (apart _ _ isOwner isClient).1
      · exact absurd overlap (apart _ _ isClient isOwner).1
    · exact (apart _ _ isOwner isClient).2 old.symm ▸ owned

section clients

/-- Clients for profiles and nodes; the names of the first two overlap. -/
def longNodeClient : StatusClient := ⟨.seccomp, ⟨"a".toList, by decide⟩, ⟨"b-c".toList, by decide⟩⟩
def longProfileClient : StatusClient := ⟨.seccomp, ⟨"a-b".toList, by decide⟩, ⟨"c".toList, by decide⟩⟩
def sameNodeClient : StatusClient := ⟨.seccomp, ⟨"a".toList, by decide⟩, ⟨"c".toList, by decide⟩⟩

/-- Two profiles on one node do not overlap and keep their own statuses, whatever earlier releases left. -/
theorem same_node_statuses :
    perNodeStatusName plainHash longProfileClient ≠ perNodeStatusName plainHash sameNodeClient ∧
    ∀ statuses creations, Legacy (· ∈ [longProfileClient, sameNodeClient]) statuses →
      (∀ creation ∈ creations, creation.client ∈ [longProfileClient, sameNodeClient]) →
      NoTakeover plainHash statuses creations := by
  have collisionFree : plainHash.CollisionFree 45 fun text =>
      ∃ client, client ∈ [longProfileClient, sameNodeClient] ∧ text = friendlyName client := by
    rintro _ _ ⟨first, isFirst, rfl⟩ ⟨second, isSecond, rfl⟩ same
    simp only [mem_cons, not_mem_nil, or_false] at isFirst isSecond
    rcases isFirst with rfl | rfl <;> rcases isSecond with rfl | rfl
    · rfl
    · exact absurd same (by decide)
    · exact absurd same (by decide)
    · rfl
  have apart : ∀ first second, first ∈ [longProfileClient, sameNodeClient] →
      second ∈ [longProfileClient, sameNodeClient] → ¬Overlaps first second := by
    -- The names of the nodes are the same, so that none is left over.
    rintro first second isFirst isSecond ⟨_, part, _, nodes⟩
    have lengths := congrArg List.length nodes
    have one : ∀ client ∈ [longProfileClient, sameNodeClient], client.nodeName.value.length = 1 := by decide
    rw [one first isFirst, length_append, length_cons, one second isSecond] at lengths
    omega
  have names := status_names_differ_iff plainHash (· ∈ [longProfileClient, sameNodeClient]) collisionFree
  have migrated : ∀ first ∈ [longProfileClient, sameNodeClient], ∀ second ∈ [longProfileClient, sameNodeClient],
      legacyName first ≠ perNodeStatusName plainHash second := by decide
  refine ⟨(names.1 _ _ (by decide) (by decide) (by decide)).mpr ⟨?_, ?_⟩,
    names.2.mpr fun first second isFirst isSecond =>
    ⟨apart first second isFirst isSecond, fun same => absurd same (migrated first isFirst second isSecond)⟩⟩
  · exact apart _ _ (by decide) (by decide)
  · exact apart _ _ (by decide) (by decide)

/-- The second client writes its state into the status of the first one. -/
theorem status_taken_over : longNodeClient ≠ longProfileClient ∧
    perNodeStatusName plainHash longNodeClient = perNodeStatusName plainHash longProfileClient ∧
    (createAll plainHash .empty [⟨longNodeClient, false, false, .succeeded, .finished⟩,
      ⟨longProfileClient, true, false, .succeeded, .finished⟩]).lookup
      (perNodeStatusName plainHash longNodeClient) =
        some { statusObj plainHash longNodeClient with state := some .disabled } := by
  decide

end clients

end SecurityProfiles.Naming
