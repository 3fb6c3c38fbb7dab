import SecurityProfiles.Library.Threads

namespace SecurityProfiles.Bpf

open Threads List Function

/-- The handling of one event: the key that was reported, the container that it was found to belong to, and the
generation of the recording that it was reported in. -/
structure Handler where
  number : Nat
  key : Nat
  containerID : Option String
  generation : Nat
deriving DecidableEq

/-- A key of a container, and every handler whose insertion of it succeeded, be it that the key was there already.
The handlers are for the proofs only, the code does not store them. -/
structure KeyEntry where
  key : Nat
  containerID : String
  inserters : List Handler

structure ProfileEntry where
  containerID : String
  profile : String
  inserters : List Handler

/-- The entry, if it is the one that a handler inserts once more. -/
def KeyEntry.mark (containerID : String) (inserter : Handler) (entry : KeyEntry) : KeyEntry :=
  if entry.key = inserter.key ∧ entry.containerID = containerID then
    { entry with inserters := inserter :: entry.inserters }
  else entry

def ProfileEntry.mark (containerID profile : String) (inserter : Handler) (entry : ProfileEntry) : ProfileEntry :=
  if entry.containerID = containerID ∧ entry.profile = profile then
    { entry with inserters := inserter :: entry.inserters }
  else entry

structure Session where
  recordingGeneration : Nat
  containerKeys : List KeyEntry
  containerIDToProfileMap : List ProfileEntry
  containersWithoutProfile : List String
  containersNotFound : List String

def Session.initial : Session := ⟨0, [], [], [], []⟩

def maxKeysPerContainer : Nat := 256

inductive LookupError where
  | noProfileForContainer
  | containerNotInCluster
  | other
deriving DecidableEq

/-- The profiles that the annotations of a pod tell for its containers. -/
abbrev PodProfiles := List (String × String)

/-- How a lookup goes: another handler looks up the container already and shares its result, a pod is found, or
none. -/
inductive Lookup where
  | shared (result : Except LookupError String)
  | found (pod : PodProfiles)
  | failed

namespace Session

inductive Op where
  | getKey (key : Nat)
  | getProfile (containerID : String)
  | loadGeneration
  | insertKey (containerID : String) (inserter : Handler)
  | getWithoutProfile (containerID : String)
  | getNotFound (containerID : String)
  | lookup (containerID : String)
  | insertProfile (containerID profile : String) (inserter : Handler)
  | setWithoutProfile (containerID : String)
  | setNotFound (containerID : String)
  | deleteKey (key : Nat)
  | deleteProfiles (containerID : String)
  | endGeneration
  | clearKeys
  | clearProfiles
  | clearLookups

abbrev Answer : Op → Type
  | .getKey _ => Option String
  | .getProfile _ => Option String
  | .loadGeneration => Nat
  | .insertKey _ _ => Bool
  | .getWithoutProfile _ => Bool
  | .getNotFound _ => Bool
  | .lookup _ => Lookup
  | _ => Unit

/-- A key belongs to one container only, and a container has a bounded number of keys. -/
def insertKey (session : Session) (containerID : String) (inserter : Handler) : Bool × Session :=
  if session.containerKeys.any fun entry => entry.key = inserter.key && entry.containerID = containerID then
    (true, { session with containerKeys := session.containerKeys.map (KeyEntry.mark containerID inserter) })
  else if (session.containerKeys.filter (·.containerID = containerID)).length ≥ maxKeysPerContainer then
    (false, session)
  else (true, { session with
    containerKeys := session.containerKeys.filter (fun entry => entry.key ≠ inserter.key) ++
      [⟨inserter.key, containerID, [inserter]⟩] })

def insertProfile (session : Session) (containerID profile : String) (inserter : Handler) : Session :=
  if session.containerIDToProfileMap.any fun entry => entry.containerID = containerID &&
    entry.profile = profile then
    { session with
      containerIDToProfileMap :=
        session.containerIDToProfileMap.map (ProfileEntry.mark containerID profile inserter) }
  else { session with
    containerIDToProfileMap := session.containerIDToProfileMap ++ [⟨containerID, profile, [inserter]⟩] }

/-- One operation; the choice tells how a lookup goes. -/
def perform : (op : Op) → Lookup → Session → Option (Answer op × Session)
  | .getKey key, _, session =>
    some ((session.containerKeys.find? fun entry => entry.key = key).map (·.containerID), session)
  | .getProfile containerID, _, session =>
    some ((session.containerIDToProfileMap.find? fun entry => entry.containerID = containerID).map (·.profile),
      session)
  | .loadGeneration, _, session => some (session.recordingGeneration, session)
  | .insertKey containerID inserter, _, session => some (session.insertKey containerID inserter)
  | .getWithoutProfile containerID, _, session =>
    some (decide (containerID ∈ session.containersWithoutProfile), session)
  | .getNotFound containerID, _, session => some (decide (containerID ∈ session.containersNotFound), session)
  | .lookup _, lookup, session => some (lookup, session)
  | .insertProfile containerID profile inserter, _, session =>
    some ((), session.insertProfile containerID profile inserter)
  | .setWithoutProfile containerID, _, session =>
    some ((), { session with containersWithoutProfile := containerID :: session.containersWithoutProfile })
  | .setNotFound containerID, _, session =>
    some ((), { session with containersNotFound := containerID :: session.containersNotFound })
  | .deleteKey key, _, session =>
    some ((), { session with containerKeys := session.containerKeys.filter fun entry => entry.key ≠ key })
  | .deleteProfiles containerID, _, session =>
    some ((), { session with containerIDToProfileMap :=
      session.containerIDToProfileMap.filter fun entry => entry.containerID ≠ containerID })
  | .endGeneration, _, session => some ((), { session with recordingGeneration := session.recordingGeneration + 1 })
  | .clearKeys, _, session => some ((), { session with containerKeys := [] })
  | .clearProfiles, _, session => some ((), { session with containerIDToProfileMap := [] })
  | .clearLookups, _, session =>
    some ((), { session with containersWithoutProfile := [], containersNotFound := [] })

end Session

open Session

def sessions : Interface where
  State := Session
  Op := Session.Op
  Answer := Session.Answer
  Choice := Lookup
  Event := Empty
  perform := Session.perform
  occur event _ := nomatch event

def cacheProfilesOfPod (inserter : Handler) : PodProfiles → Prog sessions Unit
  | [] => .ret ()
  | (containerID, profile) :: rest =>
    .call (Op.insertProfile containerID profile inserter) fun _ => cacheProfilesOfPod inserter rest

def lookupProfileForContainerID (containerID : String) (inserter : Handler) :
    Prog sessions (Except LookupError String) :=
  .call (Op.lookup containerID) fun (lookup : Lookup) =>
    match lookup with
    | .shared result => .ret result
    | .failed => .call (Op.setNotFound containerID) fun _ => .ret (.error .containerNotInCluster)
    | .found pod => do
        cacheProfilesOfPod inserter pod
        .call (Op.getProfile containerID) fun (profile : Option String) =>
          match profile with
          | some profile => .ret (.ok profile)
          | none => .call (Op.setWithoutProfile containerID) fun _ => .ret (.error .noProfileForContainer)

def findProfileForContainerID (containerID : String) (inserter : Handler) :
    Prog sessions (Except LookupError String) :=
  .call (Op.getWithoutProfile containerID) fun (without : Bool) =>
    if without then .ret (.error .noProfileForContainer)
    else .call (Op.getProfile containerID) fun (profile : Option String) =>
      match profile with
      | some profile => .ret (.ok profile)
      | none => .call (Op.getNotFound containerID) fun (notFound : Bool) =>
        if notFound then .ret (.error .containerNotInCluster)
        else lookupProfileForContainerID containerID inserter

/-- The generation may have ended meanwhile, so that the entries would linger into the next recording. -/
def finishRecording (containerID : String) (handler : Handler) : Except LookupError String → Prog sessions Unit
  | .error .noProfileForContainer => .call (Op.deleteKey handler.key) .ret
  | .error _ => .ret ()
  | .ok _ => .call Op.loadGeneration fun (generation : Nat) =>
    if generation ≠ handler.generation then
      .call (Op.deleteKey handler.key) fun _ => .call (Op.deleteProfiles containerID) .ret
    else .ret ()

def recordKey (handler : Handler) : Prog sessions Unit :=
  match handler.containerID with
  | none => .ret ()
  | some containerID =>
    .call Op.loadGeneration fun (generation : Nat) =>
      if generation ≠ handler.generation then .ret ()
      else .call (Op.insertKey containerID handler) fun (inserted : Bool) =>
        if inserted then findProfileForContainerID containerID handler >>= finishRecording containerID handler
        else .ret ()

def handleNewPidEvent (handler : Handler) : Prog sessions Unit :=
  .call (Op.getKey handler.key) fun (containerID : Option String) =>
    match containerID with
    | none => recordKey handler
    | some containerID => .call (Op.getProfile containerID) fun (profile : Option String) =>
      match profile with
      | some _ => .ret ()
      | none => recordKey handler

/-- The end of a recording, as far as the tables are concerned. -/
def stopSession : Prog sessions Unit :=
  .call Op.endGeneration fun _ => .call Op.clearKeys fun _ => .call Op.clearProfiles fun _ =>
    .call Op.clearLookups .ret

/-- Any number of handlers, and one end of a recording after the other. -/
inductive Worker where
  | handler (event : Handler)
  | stop
deriving DecidableEq

def Worker.code : Worker → Prog sessions Unit
  | .handler event => handleNewPidEvent event
  | .stop => stopSession

/-- The lookup tells whether the container is recorded. -/
def Lookup.tells : Lookup → Bool
  | .failed => false
  | .shared (.error error) => error = .noProfileForContainer
  | _ => true

/-- What the handler of an event of an ended recording may meet: no entry of the current recording where it inserts
or deletes, no profile of another container to be cached, and no failing lookup. -/
def Session.Separate (session : Session) (handler : Handler) : Op → Lookup → Prop
  | .insertKey _ inserter, _ => ∀ entry ∈ session.containerKeys, entry.key = inserter.key →
      ∀ other ∈ entry.inserters, other.generation ≠ session.recordingGeneration
  | .deleteKey key, _ => ∀ entry ∈ session.containerKeys, entry.key = key →
      ∀ other ∈ entry.inserters, other.generation ≠ session.recordingGeneration
  | .deleteProfiles containerID, _ => ∀ entry ∈ session.containerIDToProfileMap, entry.containerID = containerID →
      ∀ other ∈ entry.inserters, other.generation ≠ session.recordingGeneration
  | .insertProfile containerID _ _, _ => handler.containerID = some containerID
  | .getNotFound containerID, _ => containerID ∉ session.containersNotFound
  | .lookup _, lookup => lookup.tells = true
  | _, _ => True

instance (session : Session) (handler : Handler) (op : Op) (lookup : Lookup) :
    Decidable (session.Separate handler op lookup) := by
  cases op <;> unfold Session.Separate <;> infer_instance

inductive Owing where
  | nothing
  | key
  | both
  | profiles
  | allKeys
  | allProfiles

namespace Owing

def owesKey : Owing → Prop
  | .key => True
  | .both => True
  | _ => False

def owesProfiles : Owing → Prop
  | .both => True
  | .profiles => True
  | _ => False

def clears : Owing → Prop
  | .allKeys => True
  | .allProfiles => True
  | _ => False

end Owing

/-- An entry that handlers of an ended recording inserted is one that each of them still removes, or one of the
recording that is just being stopped. -/
structure Owed (session : Session) (owing : Worker → Owing) : Prop where
  ownKey : ∀ entry ∈ session.containerKeys, ∀ inserter ∈ entry.inserters, entry.key = inserter.key
  keys : ∀ entry ∈ session.containerKeys, ∀ inserter ∈ entry.inserters,
    inserter.generation < session.recordingGeneration →
    (owing .stop = .allKeys ∧ inserter.generation + 1 = session.recordingGeneration) ∨
      (owing (.handler inserter)).owesKey
  profiles : ∀ entry ∈ session.containerIDToProfileMap, ∀ inserter ∈ entry.inserters,
    inserter.generation < session.recordingGeneration →
    ((owing .stop).clears ∧ inserter.generation + 1 = session.recordingGeneration) ∨
      ((owing (.handler inserter)).owesProfiles ∧ inserter.containerID = some entry.containerID)
  handlers : ∀ handler, ¬(owing (.handler handler)).clears

def sessionDiscipline : Discipline sessions Worker Owing where
  inv := Owed
  agrees op owing :=
    match op with
    | .clearKeys => owing.clears
    | .clearProfiles => owing.clears
    | _ => True
  idle := .nothing
  allows session _ worker op lookup :=
    match worker with
    | .handler handler => handler.generation ≠ session.recordingGeneration → session.Separate handler op lookup
    | .stop => True

section mark

variable {containerID profile : String} {inserter handler : Handler}

@[simp] theorem KeyEntry.key_mark (entry : KeyEntry) : (entry.mark containerID inserter).key = entry.key := by
  unfold KeyEntry.mark
  split <;> rfl

theorem KeyEntry.mem_mark {entry : KeyEntry} (member : handler ∈ (entry.mark containerID inserter).inserters) :
    handler ∈ entry.inserters ∨ handler = inserter ∧ entry.key = inserter.key := by
  unfold KeyEntry.mark at member
  split at member
  · next same => exact (mem_cons.mp member).symm.imp_right fun isNew => ⟨isNew, same.1⟩
  · exact Or.inl member

theorem ProfileEntry.mem_mark {entry : ProfileEntry}
    (member : handler ∈ (entry.mark containerID profile inserter).inserters) :
    handler ∈ entry.inserters ∨ handler = inserter ∧ entry.containerID = containerID := by
  unfold ProfileEntry.mark at member
  split at member
  · next same => exact (mem_cons.mp member).symm.imp_right fun isNew => ⟨isNew, same.1⟩
  · exact Or.inl member

theorem ProfileEntry.mark_keeps (entry : ProfileEntry) :
    (entry.mark containerID profile inserter).containerID = entry.containerID ∧
    (entry.mark containerID profile inserter).profile = entry.profile ∧
    entry.inserters ⊆ (entry.mark containerID profile inserter).inserters := by
  unfold ProfileEntry.mark
  split
  · exact ⟨rfl, rfl, subset_cons_self _ _⟩
  · exact ⟨rfl, rfl, fun _ => id⟩

end mark

section owed

variable {session : Session} {owing : Worker → Owing} {handler : Handler} {note : Owing}

section

variable (owed : Owed session owing)
include owed

theorem Owed.keep {worker : Worker} (here : owing worker = note) :
    Owed session (update owing worker note) := by
  rw [← here, update_eq_self]
  exact owed

/-- A handler may note that it owes less if it has removed its entries, or if they are of the current recording. -/
theorem Owed.renote (plain : ¬note.clears)
    (keys : (owing (.handler handler)).owesKey → note.owesKey ∨ session.recordingGeneration ≤ handler.generation ∨
      ∀ entry ∈ session.containerKeys, entry.key ≠ handler.key)
    (profiles : (owing (.handler handler)).owesProfiles → note.owesProfiles ∨
      session.recordingGeneration ≤ handler.generation ∨ ∀ entry ∈ session.containerIDToProfileMap,
      handler.containerID ≠ some entry.containerID) :
    Owed session (update owing (.handler handler) note) where
  ownKey := owed.ownKey
  keys entry member inserter isInserter ended := by
    rw [update_of_ne (by simp)]
    rcases owed.keys entry member inserter isInserter ended with stopped | owes
    · exact Or.inl stopped
    by_cases here : inserter = handler
    · rw [here] at owes ended isInserter ⊢
      rw [update_self]
      rcases keys owes with kept | current | absent
      · exact Or.inr kept
      · omega
      · exact absurd (owed.ownKey entry member handler isInserter) (absent entry member)
    · rw [update_of_ne (by simpa using here)]
      exact Or.inr owes
  profiles entry member inserter isInserter ended := by
    rw [update_of_ne (by simp)]
    rcases owed.profiles entry member inserter isInserter ended with stopped | ⟨owes, own⟩
    · exact Or.inl stopped
    by_cases here : inserter = handler
    · rw [here] at owes ended own ⊢
      rw [update_self]
      rcases profiles owes with kept | current | absent
      · exact Or.inr ⟨kept, own⟩
      · omega
      · exact absurd own (absent entry member)
    · rw [update_of_ne (by simpa using here)]
      exact Or.inr ⟨owes, own⟩
  handlers other := by
    by_cases here : other = handler
    · rw [here, update_self]
      exact plain
    · rw [update_of_ne (by simpa using here)]
      exact owed.handlers other

theorem Owed.release (current : handler.generation = session.recordingGeneration) :
    Owed session (update owing (.handler handler) .nothing) :=
  owed.renote id (fun _ => Or.inr (Or.inl (by omega))) fun _ => Or.inr (Or.inl (by omega))

/-- No entry is added. -/
theorem Owed.sub {after : Session} (generation : after.recordingGeneration = session.recordingGeneration)
    (keys : after.containerKeys ⊆ session.containerKeys)
    (profiles : after.containerIDToProfileMap ⊆ session.containerIDToProfileMap) : Owed after owing := by
  refine ⟨fun entry member => owed.ownKey entry (keys member), fun entry member => ?_, fun entry member => ?_,
    owed.handlers⟩ <;> rw [generation]
  · exact owed.keys entry (keys member)
  · exact owed.profiles entry (profiles member)

/-- A handler that inserts its key owes it from then on, also if the key was there already. -/
theorem Owed.insertKey (idle : owing (.handler handler) = .nothing) (containerID : String) :
    Owed (session.insertKey containerID handler).2 (update owing (.handler handler) .key) := by
  have noted : Owed session (update owing (.handler handler) .key) :=
    owed.renote id (by simp [idle, Owing.owesKey]) (by simp [idle, Owing.owesProfiles])
  have owes : (update owing (.handler handler) .key (.handler handler)).owesKey := by
    simp [Owing.owesKey]
  unfold Session.insertKey
  split
  · refine ⟨fun entry member => ?_, fun entry member => ?_, noted.profiles, noted.handlers⟩
    all_goals
      obtain ⟨unmarked, listed, rfl⟩ := mem_map.mp member
      intro inserter isInserter
      rcases KeyEntry.mem_mark isInserter with older | ⟨rfl, own⟩
    · exact (unmarked.key_mark).trans (noted.ownKey unmarked listed inserter older)
    · exact (unmarked.key_mark).trans own
    · exact noted.keys unmarked listed inserter older
    · exact fun _ => Or.inr owes
  split
  · exact noted
  refine ⟨fun entry member inserter isInserter => ?_, fun entry member inserter isInserter ended => ?_,
    noted.profiles, noted.handlers⟩
  · rcases mem_append.mp member with older | newest
    · exact noted.ownKey entry (mem_filter.mp older).1 inserter isInserter
    · obtain rfl := mem_singleton.mp newest
      rw [mem_singleton.mp isInserter]
  · rcases mem_append.mp member with older | newest
    · exact noted.keys entry (mem_filter.mp older).1 inserter isInserter ended
    · obtain rfl := mem_singleton.mp newest
      rw [mem_singleton.mp isInserter]
      exact Or.inr owes

theorem Owed.insertProfile {containerID : String} (profile : String)
    (own : handler.generation ≠ session.recordingGeneration → handler.containerID = some containerID) :
    Owed (session.insertProfile containerID profile handler) (update owing (.handler handler) .both) := by
  have noted : Owed session (update owing (.handler handler) .both) :=
    owed.renote id (fun _ => Or.inl trivial) fun _ => Or.inl trivial
  have owes : (update owing (.handler handler) .both (.handler handler)).owesProfiles := by
    simp [Owing.owesProfiles]
  unfold Session.insertProfile
  split
  · refine ⟨noted.ownKey, noted.keys, fun entry member inserter isInserter ended => ?_, noted.handlers⟩
    obtain ⟨unmarked, listed, rfl⟩ := mem_map.mp member
    rw [unmarked.mark_keeps.1]
    rcases ProfileEntry.mem_mark isInserter with older | ⟨rfl, same⟩
    · exact noted.profiles unmarked listed inserter older ended
    · exact Or.inr ⟨owes, same ▸ own (Nat.ne_of_lt ended)⟩
  refine ⟨noted.ownKey, noted.keys, fun entry member inserter isInserter ended => ?_, noted.handlers⟩
  rcases mem_append.mp member with older | newest
  · exact noted.profiles entry older inserter isInserter ended
  · obtain rfl := mem_singleton.mp newest
    obtain rfl := mem_singleton.mp isInserter
    exact Or.inr ⟨owes, own (Nat.ne_of_lt ended)⟩

theorem Owed.deleteKey (plain : ¬note.clears)
    (profiles : (owing (.handler handler)).owesProfiles → note.owesProfiles) :
    Owed { session with containerKeys := session.containerKeys.filter fun entry => entry.key ≠ handler.key }
      (update owing (.handler handler) note) := by
  refine Owed.renote (owed.sub rfl filter_sublist.subset fun _ => id) plain
    (fun _ => Or.inr (Or.inr fun entry member => ?_)) fun owes => Or.inl (profiles owes)
  exact of_decide_eq_true (mem_filter.mp member).2

theorem Owed.deleteProfiles {containerID : String} (own : handler.containerID = some containerID)
    (keys : ¬(owing (.handler handler)).owesKey) :
    Owed { session with containerIDToProfileMap :=
        session.containerIDToProfileMap.filter fun entry => entry.containerID ≠ containerID }
      (update owing (.handler handler) .nothing) := by
  refine Owed.renote (owed.sub rfl (fun _ => id) filter_sublist.subset) id (fun owes => absurd owes keys)
    fun _ => Or.inr (Or.inr fun entry member same => ?_)
  have other : entry.containerID ≠ containerID := of_decide_eq_true (mem_filter.mp member).2
  exact other (Option.some.inj (same.symm.trans own))

theorem Owed.endGeneration (idle : owing .stop = .nothing) :
    Owed { session with recordingGeneration := session.recordingGeneration + 1 }
      (update owing .stop .allKeys) where
  ownKey := owed.ownKey
  keys entry member inserter isInserter ended := by
    rw [update_self, update_of_ne (by simp)]
    simp only at ended ⊢
    by_cases earlier : inserter.generation < session.recordingGeneration
    · rcases owed.keys entry member inserter isInserter earlier with ⟨stopped, _⟩ | owes
      · rw [idle] at stopped
        cases stopped
      · exact Or.inr owes
    · exact Or.inl ⟨trivial, by omega⟩
  profiles entry member inserter isInserter ended := by
    rw [update_self, update_of_ne (by simp)]
    simp only at ended ⊢
    by_cases earlier : inserter.generation < session.recordingGeneration
    · rcases owed.profiles entry member inserter isInserter earlier with ⟨stopped, _⟩ | owes
      · rw [idle] at stopped
        cases stopped
      · exact Or.inr owes
    · exact Or.inl ⟨trivial, by omega⟩
  handlers other := by
    rw [update_of_ne (by simp)]
    exact owed.handlers other

theorem Owed.clearKeys :
    Owed { session with containerKeys := [] } (update owing .stop .allProfiles) where
  ownKey _ member := nomatch member
  keys _ member := nomatch member
  profiles entry member inserter isInserter ended := by
    rw [update_self, update_of_ne (by simp)]
    rcases owed.profiles entry member inserter isInserter ended with ⟨_, next⟩ | owes
    · exact Or.inl ⟨trivial, next⟩
    · exact Or.inr owes
  handlers other := by
    rw [update_of_ne (by simp)]
    exact owed.handlers other

theorem Owed.clearProfiles (stops : owing .stop = .allProfiles) :
    Owed { session with containerIDToProfileMap := [] } (update owing .stop .nothing) where
  ownKey := owed.ownKey
  keys entry member inserter isInserter ended := by
    rcases owed.keys entry member inserter isInserter ended with ⟨stopped, _⟩ | owes
    · rw [stops] at stopped
      cases stopped
    · right
      rw [update_of_ne (by simp)]
      exact owes
  profiles _ member := nomatch member
  handlers other := by
    rw [update_of_ne (by simp)]
    exact owed.handlers other

end

end owed

section safe

variable {handler : Handler} {containerID : String}

section

variable (own : handler.containerID = some containerID)
include own

end

end safe

/-- The profile is still there, inserted by the same handlers and maybe by one more. -/
def ProfileEntry.KeptIn (entry : ProfileEntry) (session : Session) : Prop :=
  ∃ kept ∈ session.containerIDToProfileMap, kept.containerID = entry.containerID ∧ kept.profile = entry.profile ∧
    entry.inserters ⊆ kept.inserters

/-- A handler that keeps apart removes no entry of the current recording, whichever operation it performs. -/
theorem Session.Separate.keeps {session after : Session} {handler : Handler} {op : Op} {lookup : Lookup}
    {answer : Answer op} (separate : session.Separate handler op lookup)
    (plain : sessionDiscipline.agrees op .nothing)
    (performed : Session.perform op lookup session = some (answer, after)) :
    (∀ entry ∈ session.containerKeys, ∀ inserter ∈ entry.inserters,
      inserter.generation = session.recordingGeneration → entry ∈ after.containerKeys) ∧
    ∀ entry ∈ session.containerIDToProfileMap, ∀ inserter ∈ entry.inserters,
      inserter.generation = session.recordingGeneration → entry.KeptIn after := by
  have same : ∀ entry ∈ session.containerIDToProfileMap, ∀ inserter ∈ entry.inserters,
      inserter.generation = session.recordingGeneration → entry.KeptIn session :=
    fun entry member _ _ _ => ⟨entry, member, rfl, rfl, fun _ => id⟩
  cases op with
  | clearKeys => exact absurd plain id
  | clearProfiles => exact absurd plain id
  | insertKey containerID inserter =>
    have made : session.insertKey containerID inserter = (answer, after) := Option.some.inj performed
    unfold Session.insertKey at made
    split at made
    · cases made
      refine ⟨fun entry member other isInserter current => mem_map.mpr ⟨entry, member, ?_⟩, same⟩
      rw [KeyEntry.mark, if_neg fun marked => separate entry member marked.1 other isInserter current]
    split at made
    · cases made
      exact ⟨fun _ member _ _ _ => member, same⟩
    cases made
    refine ⟨fun entry member other isInserter current => mem_append_left _ (mem_filter.mpr ⟨member, ?_⟩), same⟩
    exact decide_eq_true fun own => separate entry member own other isInserter current
  | deleteKey key =>
    cases performed
    refine ⟨fun entry member other isInserter current => mem_filter.mpr ⟨member, ?_⟩, same⟩
    exact decide_eq_true fun own => separate entry member own other isInserter current
  | deleteProfiles containerID =>
    cases performed
    refine ⟨fun _ member _ _ _ => member, fun entry member other isInserter current => ?_⟩
    refine ⟨entry, mem_filter.mpr ⟨member, ?_⟩, rfl, rfl, fun _ => id⟩
    exact decide_eq_true fun own => separate entry member own other isInserter current
  | insertProfile containerID profile inserter =>
    cases performed
    refine ⟨fun _ member _ _ _ => ?_, fun entry member _ _ _ => ?_⟩ <;> unfold Session.insertProfile <;> split
    · exact member
    · exact member
    · exact ⟨_, mem_map_of_mem member, entry.mark_keeps⟩
    · exact ⟨entry, mem_append_left _ member, rfl, rfl, fun _ => id⟩
  | _ =>
    cases performed
    exact ⟨fun _ member _ _ _ => member, same⟩

section runs

end runs

end SecurityProfiles.Bpf
