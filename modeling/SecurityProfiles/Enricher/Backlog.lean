import Mathlib.Data.String.Basic
import SecurityProfiles.Enricher.Buckets
import SecurityProfiles.Library.Lru

namespace SecurityProfiles.Enricher

open List

/-- A pod: its containers with names and the IDs that were reported, and its annotations. -/
structure Pod where
  name : String
  podNamespace : String
  containers : List (String × String)
  annotations : List (String × String)
deriving DecidableEq

def seccompProfileRecordLogsKey : String := "io.containers.trace-logs/"

def selinuxProfileRecordLogsKey : String := "io.containers.trace-avcs/"

def Pod.has (pod : Pod) (containerID : String) : Bool := pod.containers.any (·.2 = containerID)

def containerInfoOf (pod : Pod) (containerID : String) : ContainerInfo :=
  let containerName := ((pod.containers.find? (·.2 = containerID)).map (·.1)).getD ""
  { podName := pod.name
    containerName
    podNamespace := pod.podNamespace
    containerID
    recordProfile := ((pod.annotations.lookup (seccompProfileRecordLogsKey ++ containerName)).or
      (pod.annotations.lookup (selinuxProfileRecordLogsKey ++ containerName))).getD "" }

/-- The lines that wait, what they are without their time and process, and how many lines did not fit. -/
structure AuditBacklog where
  lines : List AuditLine
  seen : List AuditLine
  dropped : UInt64

def AuditBacklog.new : AuditBacklog := ⟨[], [], 0⟩

def auditBacklogMax : Nat := 1024

def auditBacklogDistinctMax : Nat := 4 * 1024

/-- The line without what the recording does not use. -/
def AuditLine.key (line : AuditLine) : AuditLine :=
  { line with timestampID := "", processID := 0, uid := none, gid := none }

def AuditBacklog.isFull (backlog : AuditBacklog) (line : AuditLine) : Bool :=
  auditBacklogMax ≤ backlog.lines.length &&
    (line.key ∈ backlog.seen || auditBacklogDistinctMax ≤ backlog.lines.length)

def AuditBacklog.add (backlog : AuditBacklog) (line : AuditLine) : AuditBacklog :=
  if backlog.isFull line then { backlog with dropped := backlog.dropped + 1 }
  else { backlog with lines := backlog.lines ++ [line], seen := line.key :: backlog.seen }

namespace AuditBacklog

/-- What the lines say, without what the recording does not use. -/
def contents (lines : List AuditLine) : Finset AuditLine := (lines.map AuditLine.key).toFinset

theorem mem_contents {lines : List AuditLine} {key : AuditLine} :
    key ∈ contents lines ↔ ∃ line ∈ lines, line.key = key := by
  simp only [contents, mem_toFinset, mem_map]

theorem contents_append (lines : List AuditLine) (line : AuditLine) :
    contents (lines ++ [line]) = insert line.key (contents lines) := by
  rw [contents, map_append, toFinset_append, Finset.union_comm, Finset.insert_eq]
  rfl

/-- What a backlog is after lines were added to it. Past `auditBacklogMax` every kept line has a content of its own,
so the number of kept lines stays below the number of contents and that limit together. -/
structure Keeps (backlog : AuditBacklog) (added : List AuditLine) : Prop where
  sublist : backlog.lines.Sublist added
  count : ∃ dropped, backlog.lines.length + dropped = added.length ∧ backlog.dropped = UInt64.ofNat dropped
  bounded : backlog.lines.length ≤ auditBacklogDistinctMax
  seen : ∀ key, key ∈ backlog.seen ↔ key ∈ contents backlog.lines
  few : backlog.lines.length < auditBacklogMax + (contents backlog.lines).card
  whole : (contents added).card ≤ auditBacklogDistinctMax - auditBacklogMax + 1 →
    contents added ⊆ contents backlog.lines

variable {backlog : AuditBacklog} {added : List AuditLine} {line : AuditLine}

section

variable (keeps : backlog.Keeps added)
include keeps

/-- A line is dropped only if its content is kept or the backlog is at its maximum. -/
theorem Keeps.of_isFull (full : backlog.isFull line = true) :
    line.key ∈ contents backlog.lines ∨ backlog.lines.length = auditBacklogDistinctMax := by
  simp only [isFull, Bool.and_eq_true, Bool.or_eq_true, decide_eq_true_eq] at full
  rcases full.2 with known | atMaximum
  · exact Or.inl ((keeps.seen _).mp known)
  · exact Or.inr (le_antisymm keeps.bounded atMaximum)

theorem Keeps.drop (full : backlog.isFull line = true) :
    Keeps { backlog with dropped := backlog.dropped + 1 } (added ++ [line]) where
  sublist := keeps.sublist.trans (sublist_append_left _ _)
  count := by
    obtain ⟨dropped, count, counted⟩ := keeps.count
    refine ⟨dropped + 1, ?_, ?_⟩
    · simp only [length_append, length_singleton]
      omega
    · rw [UInt64.ofNat_add, ← counted]
      rfl
  bounded := keeps.bounded
  seen := keeps.seen
  few := keeps.few
  whole distinct := by
    rw [contents_append] at distinct ⊢
    have earlier := keeps.whole ((Finset.card_le_card (Finset.subset_insert _ _)).trans distinct)
    refine Finset.insert_subset ?_ earlier
    rcases keeps.of_isFull full with known | atMaximum
    · exact known
    -- A new content would make the kept ones too few for the maximum.
    · by_contra new
      rw [Finset.card_insert_of_notMem fun known => new (earlier known)] at distinct
      have fewer : (contents backlog.lines).card ≤ (contents added).card := Finset.card_le_card fun key known => by
        obtain ⟨kept, isKept, same⟩ := mem_contents.mp known
        exact mem_contents.mpr ⟨kept, keeps.sublist.subset isKept, same⟩
      have few := keeps.few
      have limits : auditBacklogMax ≤ auditBacklogDistinctMax := by decide
      omega

theorem Keeps.keep (fits : backlog.isFull line = false) :
    Keeps { backlog with lines := backlog.lines ++ [line], seen := line.key :: backlog.seen }
      (added ++ [line]) := by
  have fits : backlog.lines.length < auditBacklogMax ∨
      line.key ∉ contents backlog.lines ∧ backlog.lines.length < auditBacklogDistinctMax := by
    simp only [isFull, Bool.and_eq_false_iff, Bool.or_eq_false_iff, decide_eq_false_iff_not, not_le,
      keeps.seen] at fits
    exact fits
  have limits : auditBacklogMax ≤ auditBacklogDistinctMax := by decide
  obtain ⟨dropped, count, counted⟩ := keeps.count
  have few := keeps.few
  refine ⟨keeps.sublist.append (.refl _), ⟨dropped, ?_, counted⟩, ?_, fun key => ?_, ?_, fun distinct => ?_⟩
  · simp only [length_append, length_singleton]
    omega
  · simp only [length_append, length_singleton]
    omega
  · simp only [mem_cons, keeps.seen, contents_append, Finset.mem_insert]
  · simp only [length_append, length_singleton, contents_append]
    rcases fits with below | ⟨new, -⟩
    · have some : 0 < (insert line.key (contents backlog.lines)).card :=
        Finset.card_pos.mpr (Finset.insert_nonempty _ _)
      omega
    · rw [Finset.card_insert_of_notMem new]
      omega
  · rw [contents_append] at distinct ⊢
    rw [contents_append]
    exact Finset.insert_subset_insert _
      (keeps.whole ((Finset.card_le_card (Finset.subset_insert _ _)).trans distinct))

theorem Keeps.add (line : AuditLine) : (backlog.add line).Keeps (added ++ [line]) := by
  unfold AuditBacklog.add
  split
  · next full => exact keeps.drop full
  · next fits => exact keeps.keep (Bool.not_eq_true _ ▸ fits)

end

theorem keeps_foldl (added : List AuditLine) : (added.foldl AuditBacklog.add .new).Keeps added := by
  induction added using List.reverseRecOn with
  | nil => exact ⟨.refl _, ⟨0, rfl, rfl⟩, by decide, fun _ => Iff.rfl, by decide, fun _ => subset_rfl⟩
  | append_singleton added line ih =>
    rw [foldl_append]
    exact ih.add line

/-- However many lines are added, those kept and those dropped, which are counted with 64 bits, are all, the kept
ones are within the maximum, a line is dropped only if its content is kept or the maximum is reached, and few enough
contents are all kept. -/
theorem backlog_keeps_contents (added : List AuditLine) :
    (added.foldl AuditBacklog.add .new).lines.Sublist added ∧
      (∃ dropped, (added.foldl AuditBacklog.add .new).lines.length + dropped = added.length ∧
        (added.foldl AuditBacklog.add .new).dropped = UInt64.ofNat dropped) ∧
      (added.foldl AuditBacklog.add .new).lines.length ≤ auditBacklogDistinctMax ∧
      (∀ before line after, added = before ++ line :: after →
        (before.foldl AuditBacklog.add .new).isFull line = true →
        (∃ kept ∈ (before.foldl AuditBacklog.add .new).lines, kept.key = line.key) ∨
          (before.foldl AuditBacklog.add .new).lines.length = auditBacklogDistinctMax) ∧
      ((contents added).card ≤ auditBacklogDistinctMax - auditBacklogMax + 1 →
        ∀ line ∈ added, ∃ kept ∈ (added.foldl AuditBacklog.add .new).lines, kept.key = line.key) := by
  have keeps := keeps_foldl added
  refine ⟨keeps.sublist, keeps.count, keeps.bounded, fun before line after _ full => ?_,
    fun distinct line isAdded => ?_⟩
  · exact ((keeps_foldl before).of_isFull full).imp_left mem_contents.mp
  · exact mem_contents.mp (keeps.whole distinct (mem_contents.mpr ⟨line, isAdded, rfl⟩))

end AuditBacklog

/-- What the files of a process tell about its container. -/
inductive ProcessLookup where
  | found (containerID : String)
  | gone
  | noContainer
  | failed

/-- The state of the log enricher: the containers of processes and the infos of containers that are kept, the pods
of the node, whether a change of them is to be handled, the backlogs, and for the record the lines that were
dispatched with the info of a container and those that arrived with the container of their process. -/
structure LogEnricher where
  processContainers : SortedMap Nat String
  infoCache : SortedMap String ContainerInfo
  pods : List Pod
  changed : Bool
  auditLineCache : Lru String AuditBacklog maxCacheItems
  dispatched : List (AuditLine × ContainerInfo)
  arrived : List (AuditLine × String)

namespace LogEnricher

def initial : LogEnricher := ⟨.empty, .empty, [], false, .empty, [], []⟩

def known? (state : LogEnricher) (containerID : String) : Option ContainerInfo :=
  (state.infoCache.lookup containerID).or
    ((state.pods.find? (·.has containerID)).map fun pod => containerInfoOf pod containerID)

/-- Look up the info, which is kept from then on. -/
def getInfo (state : LogEnricher) (containerID : String) : Option ContainerInfo × LogEnricher :=
  match state.infoCache.lookup containerID with
  | some info => (some info, state)
  | none =>
    match state.pods.find? (·.has containerID) with
    | none => (none, state)
    | some pod =>
      let info := containerInfoOf pod containerID
      (some info, { state with infoCache := state.infoCache.insert containerID info })

/-- The container of a process that exited is the one it had before. -/
def containerIDForProcess (state : LogEnricher) (pid : Nat) : ProcessLookup → Option String × LogEnricher
  | .found containerID =>
    (some containerID, { state with processContainers := state.processContainers.insert pid containerID })
  | .gone => (state.processContainers.lookup pid, state)
  | .noContainer => (none, { state with processContainers := state.processContainers.erase pid })
  | .failed => (none, state)

/-- A backlog that is used comes to the front of the cache, whether or not it takes the line. -/
def addToBacklog (state : LogEnricher) (containerID : String) (line : AuditLine) : LogEnricher :=
  { state with auditLineCache :=
      state.auditLineCache.set containerID (((state.auditLineCache.lookup containerID).getD .new).add line) }

def dispatchAuditLine (state : LogEnricher) (line : AuditLine) (info : ContainerInfo) : LogEnricher :=
  { state with dispatched := state.dispatched ++ [(line, info)] }

def dispatchBacklog (state : LogEnricher) (info : ContainerInfo) : LogEnricher :=
  match state.auditLineCache.lookup info.containerID with
  | none => state
  | some backlog =>
    backlog.lines.foldl (fun state line => state.dispatchAuditLine line info)
      { state with auditLineCache := state.auditLineCache.delete info.containerID }

/-- Dispatch the backlogs of the containers that are known now. -/
def dispatchListedBacklogs (state : LogEnricher) : List String → LogEnricher
  | [] => state
  | containerID :: rest =>
    match state.getInfo containerID with
    | (none, state) => state.dispatchListedBacklogs rest
    | (some info, state) => (state.dispatchBacklog info).dispatchListedBacklogs rest

/-- A line whose container is told. -/
def processContainerLine (state : LogEnricher) (containerID : String) (line : AuditLine) : LogEnricher :=
  match { state with arrived := state.arrived ++ [(line, containerID)] }.getInfo containerID with
  | (none, state) => state.addToBacklog containerID line
  | (some info, state) => (state.dispatchBacklog info).dispatchAuditLine line info

def processAuditLine (state : LogEnricher) (line : AuditLine) (lookup : ProcessLookup) : LogEnricher :=
  match state.containerIDForProcess line.processID lookup with
  | (none, state) => state
  | (some containerID, state) => state.processContainerLine containerID line

/-- What can happen: a line, pods that are added or updated, a pod that is deleted, the handling of a change with
the backlogs in any order, and infos and processes that are no longer kept. -/
inductive Input where
  | line (line : AuditLine) (lookup : ProcessLookup)
  | podsUpdated (pods : List Pod)
  | podDeleted (pod : Pod)
  | podsChanged (keys : List String)
  | infoEvicted (containerID : String)
  | processEvicted (pid : Nat)

def step (state : LogEnricher) : Input → Option LogEnricher
  | .line line lookup => some (state.processAuditLine line lookup)
  | .podsUpdated pods => some { state with pods, changed := true }
  | .podDeleted pod => some { state with pods := state.pods.erase pod }
  | .podsChanged keys =>
    if state.changed = true ∧ keys.Perm state.auditLineCache.keys then
      some ({ state with changed := false }.dispatchListedBacklogs keys)
    else none
  | .infoEvicted containerID => some { state with infoCache := state.infoCache.erase containerID }
  | .processEvicted pid => some { state with processContainers := state.processContainers.erase pid }

/-- One input that is permitted. -/
def Step (permits : LogEnricher → Input → Prop) (before after : LogEnricher) : Prop :=
  ∃ input, permits before input ∧ before.step input = some after

/-- The states that permitted inputs lead to. -/
def Reach (permits : LogEnricher → Input → Prop) : LogEnricher → Prop :=
  Relation.ReflTransGen (Step permits) initial

def Waits (state : LogEnricher) (line : AuditLine) (lookup : ProcessLookup) (containerID : String) : Prop :=
  (state.containerIDForProcess line.processID lookup).1 = some containerID ∧ state.known? containerID = none

/-- Every backlog is below its limits. -/
def BelowLimits (state : LogEnricher) : Input → Prop
  | .line line lookup => ∀ containerID, state.Waits line lookup containerID →
      ((state.auditLineCache.lookup containerID).getD .new).isFull line = false
  | _ => True

/-- There is room for the backlog of another container. -/
def HasRoom (state : LogEnricher) : Input → Prop
  | .line line lookup => ∀ containerID, state.Waits line lookup containerID →
    state.auditLineCache.HasRoom containerID
  | _ => True

/-- The lines that were dispatched with the info of the container. -/
def dispatchedFor (state : LogEnricher) (containerID : String) : List AuditLine :=
  (state.dispatched.filter (·.2.containerID = containerID)).map (·.1)

def backlogOf (state : LogEnricher) (containerID : String) : List AuditLine :=
  ((state.auditLineCache.lookup containerID).getD .new).lines

def arrivedFrom (state : LogEnricher) (containerID : String) : List AuditLine :=
  (state.arrived.filter (·.2 = containerID)).map (·.1)

/-- Every line of a container was dispatched or waits, in the order of arrival, and none waits for a known container
unless a change is still to be handled. -/
structure Orderly (state : LogEnricher) : Prop where
  infos : ∀ containerID info, state.infoCache.lookup containerID = some info → info.containerID = containerID
  order : ∀ containerID, state.dispatchedFor containerID ++ state.backlogOf containerID =
    state.arrivedFrom containerID
  flushed : state.changed = false → ∀ containerID, state.known? containerID ≠ none →
    state.backlogOf containerID = []

section steps

variable {state after : LogEnricher} {containerID : String} {info : ContainerInfo} {line : AuditLine}

/-- A line arrives from the container. -/
abbrev arrive (state : LogEnricher) (line : AuditLine) (containerID : String) : LogEnricher :=
  { state with arrived := state.arrived ++ [(line, containerID)] }

/-- Infos are kept and backlogs dispatched, and nothing else happens. -/
structure Flushes (state after : LogEnricher) : Prop where
  infos : (∀ other info, state.infoCache.lookup other = some info → info.containerID = other) →
    ∀ other info, after.infoCache.lookup other = some info → info.containerID = other
  known : ∀ other, after.known? other = state.known? other
  changed : after.changed = state.changed
  arrived : after.arrived = state.arrived
  order : ∀ other, after.dispatchedFor other ++ after.backlogOf other = state.dispatchedFor other ++
    state.backlogOf other
  emptied : ∀ other, state.backlogOf other = [] → after.backlogOf other = []

theorem Flushes.refl (state : LogEnricher) : Flushes state state :=
  ⟨id, fun _ => rfl, rfl, rfl, fun _ => rfl, fun _ => id⟩

theorem Flushes.trans {last : LogEnricher} (first : Flushes state after) (second : Flushes after last) :
    Flushes state last where
  infos own := second.infos (first.infos own)
  known other := (second.known other).trans (first.known other)
  changed := second.changed.trans first.changed
  arrived := second.arrived.trans first.arrived
  order other := (second.order other).trans (first.order other)
  emptied other gone := second.emptied other (first.emptied other gone)

/-- Looking up an info changes nothing but the infos that are kept. -/
theorem getInfo_spec (state : LogEnricher) (containerID : String) :
    (state.getInfo containerID).1 = state.known? containerID ∧ Flushes state (state.getInfo containerID).2 ∧
      (state.getInfo containerID).2.dispatched = state.dispatched ∧
      (state.getInfo containerID).2.auditLineCache = state.auditLineCache := by
  unfold getInfo
  cases kept : state.infoCache.lookup containerID with
  | some info => exact ⟨by rw [known?, kept]; rfl, .refl _, rfl, rfl⟩
  | none =>
    cases listed : state.pods.find? (·.has containerID) with
    | none => exact ⟨by rw [known?, kept, listed]; rfl, .refl _, rfl, rfl⟩
    | some pod =>
      refine ⟨by rw [known?, kept, listed]; rfl,
        ⟨fun own other info isInfo => ?_, fun other => ?_, rfl, rfl, fun _ => rfl, fun _ => id⟩, rfl, rfl⟩
      · by_cases same : other = containerID
        · rw [same, SortedMap.lookup_insert_self] at isInfo
          cases isInfo
          exact same.symm
        · rw [SortedMap.lookup_insert_ne _ _ same] at isInfo
          exact own other info isInfo
      · by_cases same : other = containerID
        · simp only [known?, same, SortedMap.lookup_insert_self, kept, listed]
          rfl
        · simp only [known?, SortedMap.lookup_insert_ne _ _ same]

theorem containerIDForProcess_state (state : LogEnricher) (pid : Nat) (lookup : ProcessLookup) :
    ∃ processContainers, (state.containerIDForProcess pid lookup).2 = { state with processContainers } := by
  cases lookup <;> exact ⟨_, rfl⟩

theorem processContainerLine_unknown (unknown : state.known? containerID = none) :
    state.processContainerLine containerID line =
      (state.arrive line containerID).addToBacklog containerID line := by
  obtain ⟨noInfo, noPod⟩ := Option.or_eq_none_iff.mp unknown
  have looked : (state.arrive line containerID).getInfo containerID = (none, state.arrive line containerID) := by
    simp only [getInfo, noInfo, Option.map_eq_none_iff.mp noPod]
  rw [processContainerLine, looked]

theorem known_containerID
    (infos : ∀ other info, state.infoCache.lookup other = some info → info.containerID = other)
    (isKnown : state.known? containerID = some info) : info.containerID = containerID := by
  unfold known? at isKnown
  cases kept : state.infoCache.lookup containerID with
  | some found =>
    rw [kept] at isKnown
    cases isKnown
    exact infos containerID info kept
  | none =>
    rw [kept] at isKnown
    obtain ⟨pod, _, rfl⟩ := Option.map_eq_some_iff.mp isKnown
    rfl

theorem foldl_dispatchAuditLine (lines : List AuditLine) (state : LogEnricher) :
    lines.foldl (fun state line => state.dispatchAuditLine line info) state =
      { state with dispatched := state.dispatched ++ lines.map fun line => (line, info) } := by
  induction lines generalizing state with
  | nil => simp
  | cons line lines ih =>
    rw [foldl_cons, ih]
    simp [dispatchAuditLine]

theorem dispatchBacklog_eq (state : LogEnricher) (info : ContainerInfo) :
    ∃ auditLineCache, state.dispatchBacklog info =
        { state with
          auditLineCache
          dispatched := state.dispatched ++ (state.backlogOf info.containerID).map fun line => (line, info) } ∧
      auditLineCache.lookup info.containerID = none ∧
      ∀ other, other ≠ info.containerID → auditLineCache.lookup other = state.auditLineCache.lookup other := by
  unfold dispatchBacklog backlogOf
  cases found : state.auditLineCache.lookup info.containerID with
  | none => exact ⟨state.auditLineCache, by simp [AuditBacklog.new], found, fun _ _ => rfl⟩
  | some backlog =>
    refine ⟨_, foldl_dispatchAuditLine _ _, Lru.lookup_delete_self _ _, fun other different => ?_⟩
    exact Lru.lookup_delete_ne _ different

theorem backlogOf_of_none (noBacklog : state.auditLineCache.lookup containerID = none) :
    state.backlogOf containerID = [] := by
  rw [backlogOf, noBacklog]
  rfl

theorem backlogOf_congr (same : after.auditLineCache.lookup containerID = state.auditLineCache.lookup containerID) :
    after.backlogOf containerID = state.backlogOf containerID := by
  rw [backlogOf, backlogOf, same]

theorem dispatchedFor_append (lines : List AuditLine) (other : String)
    (dispatched : List (AuditLine × ContainerInfo)) :
    ((dispatched ++ lines.map fun line => (line, info)).filter (·.2.containerID = other)).map (·.1) =
      (dispatched.filter (·.2.containerID = other)).map (·.1) ++
      if info.containerID = other then lines else [] := by
  rw [filter_append, map_append]
  congr 1
  by_cases same : info.containerID = other
  · simp [same, filter_map, Function.comp_def]
  · simp [same, filter_map, Function.comp_def]

theorem flushes_dispatchBacklog (state : LogEnricher) (info : ContainerInfo) :
    Flushes state (state.dispatchBacklog info) ∧ (state.dispatchBacklog info).backlogOf info.containerID = [] := by
  obtain ⟨auditLineCache, same, gone, others⟩ := dispatchBacklog_eq state info
  rw [same]
  have noBacklog := @backlogOf_of_none { state with auditLineCache } _ gone
  have sameBacklog := fun other different => @backlogOf_congr state { state with
    auditLineCache } other (others other different)
  refine ⟨⟨id, fun _ => rfl, rfl, rfl, fun other => ?_, fun other empty => ?_⟩, noBacklog⟩
  · rw [dispatchedFor, dispatchedFor_append]
    by_cases here : other = info.containerID
    · rw [if_pos here.symm, here]
      exact (congrArg (_ ++ ·) noBacklog).trans (append_nil _)
    · rw [if_neg (Ne.symm here), append_nil]
      exact congrArg (_ ++ ·) (sameBacklog other here)
  · by_cases here : other = info.containerID
    · rw [here]
      exact noBacklog
    · exact (sameBacklog other here).trans empty

theorem add_lines {backlog : AuditBacklog} (fits : backlog.isFull line = false) :
    (backlog.add line).lines = backlog.lines ++ [line] := by
  rw [AuditBacklog.add, if_neg (by simp [fits])]

theorem arrivedFrom_append (line : AuditLine) (containerID other : String) (arrived : List (AuditLine × String)) :
    ((arrived ++ [(line, containerID)]).filter (·.2 = other)).map (·.1) =
      (arrived.filter (·.2 = other)).map (·.1) ++ if containerID = other then [line] else [] := by
  rw [filter_append, map_append]
  congr 1
  by_cases same : containerID = other <;> simp [same]

section

variable (orderly : Orderly state)
include orderly

/-- The line that arrived is dispatched, or it waits for a container that is not known. -/
theorem Orderly.handle {last : LogEnricher} (flushes : Flushes (state.arrive line containerID) after)
    (infoCache : last.infoCache = after.infoCache) (pods : last.pods = after.pods)
    (changed : last.changed = after.changed) (arrived : last.arrived = after.arrived)
    (order : ∀ other, last.dispatchedFor other ++ last.backlogOf other = after.dispatchedFor other ++
      after.backlogOf other ++ if containerID = other then [line] else [])
    (waits : ∀ other, state.known? other ≠ none → after.backlogOf other = [] → last.backlogOf other = []) :
    Orderly last := by
  refine ⟨?_, fun other => ?_, fun unchanged other isKnown => ?_⟩
  · rw [infoCache]
    exact flushes.infos orderly.infos
  · rw [order, flushes.order, arrivedFrom, arrived, flushes.arrived, arrivedFrom_append]
    exact congrArg (· ++ _) (orderly.order other)
  · rw [known?, infoCache, pods] at isKnown
    have isKnown := (flushes.known other).symm.trans_ne isKnown
    refine waits other isKnown (flushes.emptied other (orderly.flushed ?_ other isKnown))
    exact (changed.trans flushes.changed).symm.trans unchanged

theorem Orderly.processContainerLine
    (fits : state.known? containerID = none → ((state.auditLineCache.lookup containerID).getD .new).isFull line =
      false ∧ state.auditLineCache.HasRoom containerID) :
    Orderly (state.processContainerLine containerID line) := by
  obtain ⟨isKnown, looks, _, cache⟩ := getInfo_spec (state.arrive line containerID) containerID
  unfold LogEnricher.processContainerLine
  generalize (state.arrive line containerID).getInfo containerID = looked at *
  obtain ⟨found, after⟩ := looked
  cases found with
  | none =>
    have unknown : state.known? containerID = none := isKnown.symm
    obtain ⟨notFull, room⟩ := fits unknown
    have backlog : ∀ other, (after.addToBacklog containerID line).backlogOf other =
        after.backlogOf other ++ if containerID = other then [line] else [] := by
      intro other
      rw [← show after.auditLineCache = state.auditLineCache from cache] at notFull room
      by_cases same : containerID = other
      · rw [if_pos same, ← same, backlogOf, LogEnricher.addToBacklog, Lru.lookup_set_self _ (by decide)]
        exact add_lines notFull
      · rw [if_neg same, append_nil]
        exact backlogOf_congr (Lru.lookup_set_ne _ room (Ne.symm same))
    refine orderly.handle looks rfl rfl rfl rfl (fun other => ?_) fun other known empty => ?_
    · rw [backlog, ← append_assoc]
      rfl
    · have different : containerID ≠ other := by
        rintro rfl
        exact known unknown
      rw [backlog, if_neg different, empty]
      rfl
  | some info =>
    have own : info.containerID = containerID := known_containerID orderly.infos isKnown.symm
    obtain ⟨flushes, gone⟩ := flushes_dispatchBacklog after info
    refine orderly.handle (looks.trans flushes) rfl rfl rfl rfl (fun other => ?_) fun _ _ empty => empty
    change (((after.dispatchBacklog info).dispatched ++ [line].map fun line => (line, info)).filter
      (·.2.containerID = other)).map (·.1) ++ (after.dispatchBacklog info).backlogOf other = _
    rw [dispatchedFor_append, own]
    by_cases same : containerID = other
    · rw [own, same] at gone
      rw [gone, append_nil, append_nil]
      rfl
    · rw [if_neg same, append_nil, append_nil]
      rfl

theorem Orderly.processAuditLine {lookup : ProcessLookup} (below : BelowLimits state (.line line lookup))
    (room : HasRoom state (.line line lookup)) : Orderly (state.processAuditLine line lookup) := by
  obtain ⟨processContainers, same⟩ := containerIDForProcess_state state line.processID lookup
  have kept : Orderly { state with processContainers } := ⟨orderly.infos, orderly.order, orderly.flushed⟩
  unfold LogEnricher.processAuditLine
  cases looked : state.containerIDForProcess line.processID lookup with
  | mk found after =>
    rw [looked] at same
    obtain rfl : after = _ := same
    cases found with
    | none => exact kept
    | some containerID =>
      have isFound : (state.containerIDForProcess line.processID lookup).1 = some containerID := by rw [looked]
      exact kept.processContainerLine fun unknown =>
        ⟨below containerID ⟨isFound, unknown⟩, room containerID ⟨isFound, unknown⟩⟩

end

/-- Flushing dispatches the backlogs of all listed containers that are known, in their order, and touches no
others. -/
theorem dispatchListedBacklogs_spec (keys : List String)
    (infos : ∀ other info, state.infoCache.lookup other = some info → info.containerID = other) :
    Flushes state (state.dispatchListedBacklogs keys) ∧
      ∀ other ∈ keys, state.known? other ≠ none → (state.dispatchListedBacklogs keys).backlogOf other = [] := by
  induction keys generalizing state with
  | nil => exact ⟨.refl state, fun _ member => nomatch member⟩
  | cons containerID rest ih =>
    obtain ⟨isKnown, looks, _⟩ := getInfo_spec state containerID
    dsimp only [LogEnricher.dispatchListedBacklogs]
    generalize state.getInfo containerID = looked at *
    obtain ⟨found, after⟩ := looked
    cases found with
    | none =>
      obtain ⟨flushes, emptied⟩ := ih (looks.infos infos)
      refine ⟨looks.trans flushes, fun other member known => ?_⟩
      rcases mem_cons.mp member with rfl | member
      · exact absurd isKnown.symm known
      · exact emptied other member ((looks.known other).trans_ne known)
    | some info =>
      obtain ⟨dispatches, gone⟩ := flushes_dispatchBacklog after info
      have both := looks.trans dispatches
      obtain ⟨flushes, emptied⟩ := ih (both.infos infos)
      refine ⟨both.trans flushes, fun other member known => ?_⟩
      rcases mem_cons.mp member with rfl | member
      · rw [known_containerID infos isKnown.symm] at gone
        exact flushes.emptied other gone
      · exact emptied other member ((both.known other).trans_ne known)

theorem Orderly.podsChanged (orderly : Orderly state) {keys : List String}
    (all : keys.Perm state.auditLineCache.keys) :
    Orderly ({ state with changed := false }.dispatchListedBacklogs keys) := by
  obtain ⟨flushes, emptied⟩ := @dispatchListedBacklogs_spec { state with changed := false } keys orderly.infos
  refine ⟨flushes.infos orderly.infos, fun other => ?_, fun _ other isKnown => ?_⟩
  · rw [flushes.order other, arrivedFrom, flushes.arrived]
    exact orderly.order other
  · by_cases listed : other ∈ keys
    · exact emptied other listed ((flushes.known other).symm.trans_ne isKnown)
    · refine flushes.emptied other (backlogOf_of_none ?_)
      have absent : other ∉ state.auditLineCache.keys := fun member => listed (all.mem_iff.mpr member)
      rw [Lru.mem_keys] at absent
      simpa using absent

/-- Each input keeps the order of lines: what was dispatched for a container and what waits are what arrived from
it. -/
theorem Orderly.step (orderly : Orderly state) {input : Input} (below : BelowLimits state input)
    (room : HasRoom state input) (stepped : state.step input = some after) : Orderly after := by
  cases input with
  | line line lookup =>
    cases stepped
    exact orderly.processAuditLine below room
  | podsUpdated pods =>
    cases stepped
    exact ⟨orderly.infos, orderly.order, fun unchanged => nomatch unchanged⟩
  | podDeleted pod =>
    cases stepped
    refine ⟨orderly.infos, orderly.order, fun unchanged other isKnown => orderly.flushed unchanged other
      fun unknown => ?_⟩
    -- What is known without the pod was known with it.
    refine isKnown ?_
    unfold known? at unknown ⊢
    obtain ⟨noInfo, noPod⟩ := Option.or_eq_none_iff.mp unknown
    refine Option.or_eq_none_iff.mpr ⟨noInfo, Option.map_eq_none_iff.mpr (find?_eq_none.mpr fun pod' member => ?_)⟩
    exact find?_eq_none.mp (Option.map_eq_none_iff.mp noPod) pod' (mem_of_mem_erase member)
  | podsChanged keys =>
    simp only [LogEnricher.step] at stepped
    split at stepped
    · next handled =>
        cases stepped
        exact orderly.podsChanged handled.2
    · cases stepped
  | infoEvicted containerID =>
    cases stepped
    refine ⟨fun other info isInfo => ?_, orderly.order, fun unchanged other isKnown => ?_⟩
    · exact orderly.infos other info (SortedMap.lookup_erase_eq_some.mp isInfo).2
    · refine orderly.flushed unchanged other fun unknown => isKnown ?_
      unfold known? at unknown ⊢
      obtain ⟨noInfo, noPod⟩ := Option.or_eq_none_iff.mp unknown
      refine Option.or_eq_none_iff.mpr ⟨?_, noPod⟩
      cases found : (state.infoCache.erase containerID).lookup other with
      | none => rfl
      | some info =>
        rw [(SortedMap.lookup_erase_eq_some.mp found).2] at noInfo
        cases noInfo
  | processEvicted pid =>
    cases stepped
    exact ⟨orderly.infos, orderly.order, orderly.flushed⟩

theorem orderly_initial : Orderly initial where
  infos _ _ isInfo := by cases isInfo
  order _ := rfl
  flushed _ _ _ := rfl

theorem processAuditLine_known (orderly : Orderly state) {lookup : ProcessLookup}
    (isFound : (state.containerIDForProcess line.processID lookup).1 = some containerID)
    (isKnown : state.known? containerID = some info) : info.containerID = containerID ∧
      (state.processAuditLine line lookup).dispatched =
        state.dispatched ++ (state.backlogOf containerID ++ [line]).map fun line => (line, info) := by
  have own := known_containerID orderly.infos isKnown
  refine ⟨own, ?_⟩
  obtain ⟨processContainers, same⟩ := containerIDForProcess_state state line.processID lookup
  unfold processAuditLine
  generalize state.containerIDForProcess line.processID lookup = looked at *
  obtain ⟨found, after⟩ := looked
  obtain rfl : found = some containerID := isFound
  obtain rfl : after = _ := same
  obtain ⟨isKnown', _, dispatched, cache⟩ :=
    getInfo_spec (arrive { state with processContainers } line containerID) containerID
  dsimp only [processContainerLine]
  generalize (arrive { state with processContainers } line containerID).getInfo containerID = looked at *
  obtain ⟨found, after⟩ := looked
  obtain rfl : found = some info := isKnown'.trans isKnown
  obtain ⟨_, same, _⟩ := dispatchBacklog_eq after info
  dsimp only [dispatchAuditLine]
  rw [same, own, dispatched, backlogOf, cache, map_append, ← append_assoc]
  rfl

end steps

/-- As long as the backlogs and their number are below the limits, every line of a container was dispatched with the
info of the container or waits, once and in the order of arrival. None waits for a known container once all changes
of the pods were handled, and a line that finds its container known is dispatched at once, after the backlog of the
container. -/
theorem lines_dispatched_in_order {state : LogEnricher}
    (reach : Reach (fun state input => BelowLimits state input ∧ HasRoom state input) state) :
    (∀ containerID, state.dispatchedFor containerID ++ state.backlogOf containerID =
      state.arrivedFrom containerID) ∧
    (state.changed = false → ∀ containerID, state.known? containerID ≠ none →
      state.dispatchedFor containerID = state.arrivedFrom containerID) ∧
    ∀ line lookup containerID info, (state.containerIDForProcess line.processID lookup).1 = some containerID →
      state.known? containerID = some info → info.containerID = containerID ∧
        (state.processAuditLine line lookup).dispatched =
          state.dispatched ++ (state.backlogOf containerID ++ [line]).map fun line => (line, info) := by
  have orderly : Orderly state := by
    induction reach with
    | refl => exact orderly_initial
    | tail _ stepped ih =>
      obtain ⟨input, ⟨below, room⟩, after⟩ := stepped
      exact ih.step below room after
  refine ⟨orderly.order, fun unchanged containerID isKnown => ?_, fun _ _ _ _ => processAuditLine_known orderly⟩
  have order := orderly.order containerID
  rw [orderly.flushed unchanged containerID isKnown, append_nil] at order
  exact order

section flood

def openLine : AuditLine :=
  ⟨.seccomp, 7, "", 2, "/bin/sh", "c000003e", none, none, "", "", "", "", "", "", "", "", ""⟩

variable {permits : LogEnricher → Input → Prop}

theorem Reach.next {state after : LogEnricher} (reach : Reach permits state) (input : Input)
    (permitted : permits state input) (stepped : state.step input = some after) : Reach permits after :=
  reach.tail ⟨input, permitted, stepped⟩

theorem Reach.handle {state : LogEnricher} (reach : Reach permits state) (isChanged : state.changed = true)
    (permitted : permits state (.podsChanged state.auditLineCache.keys)) :
    Reach permits ({ state with changed := false }.dispatchListedBacklogs state.auditLineCache.keys) := by
  refine reach.next _ permitted ?_
  simp only [step]
  rw [if_pos ⟨isChanged, List.Perm.refl _⟩]

def podOf (containerID : String) : Pod := ⟨"pod", "default", [("app", containerID)], []⟩

def readLine : AuditLine := { openLine with processID := 8, systemCallID := 0 }

def opened : LogEnricher := initial.processAuditLine openLine (.found "c")

def openedAndRead : LogEnricher := opened.processAuditLine readLine (.found "c")

/-- Both lines wait, and then their container gets known. -/
theorem openLine_dispatched :
    ∃ state, Reach (fun state input => BelowLimits state input ∧ HasRoom state input) state ∧
    openedAndRead.backlogOf "c" = [openLine, readLine] ∧ state.changed = false ∧ state.known? "c" ≠ none ∧
    state.arrivedFrom "c" = [openLine, readLine] ∧ state.dispatchedFor "c" = [openLine, readLine] := by
  have first : Reach (fun state input => BelowLimits state input ∧ HasRoom state input) opened := by
    refine Reach.next .refl (.line openLine (.found "c")) ⟨?_, ?_⟩ rfl <;> rintro containerID ⟨isFound, _⟩
    · cases isFound
      rfl
    · exact Or.inr (by decide)
  have second : Reach (fun state input => BelowLimits state input ∧ HasRoom state input) openedAndRead := by
    refine first.next (.line readLine (.found "c")) ⟨?_, ?_⟩ rfl <;> rintro containerID ⟨isFound, _⟩
    · cases isFound
      decide
    · exact Or.inr (by decide)
  have handled := (second.next (.podsUpdated [podOf "c"]) ⟨trivial, trivial⟩ rfl).handle rfl ⟨trivial, trivial⟩
  have isKnown : (({ openedAndRead with pods := [podOf "c"], changed := false } :
      LogEnricher).dispatchListedBacklogs ["c"]).known? "c" ≠ none := by decide
  have arrived : (({ openedAndRead with pods := [podOf "c"], changed := false } :
      LogEnricher).dispatchListedBacklogs ["c"]).arrivedFrom "c" = [openLine, readLine] := by decide
  exact ⟨_, handled, by decide, rfl, isKnown, arrived,
    ((lines_dispatched_in_order handled).2.1 rfl "c" isKnown).trans arrived⟩

/-- The ID of one of many containers. -/
def containerIDAt (number : Nat) : String := String.ofList (List.replicate number 'a')

theorem containerIDAt_injective {first second : Nat} (same : containerIDAt first = containerIDAt second) :
    first = second := by
  have lists := congrArg String.toList same
  simp only [containerIDAt, String.toList_ofList] at lists
  simpa using congrArg List.length lists

/-- A line of each of many containers that no pod tells. -/
def flood : Nat → LogEnricher
  | 0 => initial
  | number + 1 => (flood number).processAuditLine openLine (.found (containerIDAt number))

/-- The containers of the lines wait, as long as there is room. -/
structure Flooded (number : Nat) : Prop where
  reach : Reach BelowLimits (flood number)
  infoCache : (flood number).infoCache = .empty
  pods : (flood number).pods = []
  dispatched : (flood number).dispatched = []
  keys : (flood number).auditLineCache.keys = ((List.range number).reverse.map containerIDAt).take maxCacheItems
  arrived : ∀ earlier < number, (openLine, containerIDAt earlier) ∈ (flood number).arrived

/-- By induction on the number of lines: no container is known, so that all wait, and the oldest gives way once the
cache is full. -/
theorem flooded (number : Nat) : Flooded number := by
  induction number with
  | zero => exact ⟨.refl, rfl, rfl, rfl, by simp [flood, initial, Lru.keys, Lru.empty], fun _ less => by omega⟩
  | succ number ih =>
    have unknown : (flood number).known? (containerIDAt number) = none := by
      rw [known?, ih.infoCache, ih.pods]
      rfl
    have absent : containerIDAt number ∉ (flood number).auditLineCache.keys := by
      rw [ih.keys]
      intro member
      obtain ⟨earlier, isEarlier, same⟩ := mem_map.mp (mem_of_mem_take member)
      have less := mem_range.mp (mem_reverse.mp isEarlier)
      have same := containerIDAt_injective same
      omega
    have noBacklog : (flood number).auditLineCache.lookup (containerIDAt number) = none := by
      rw [Lru.mem_keys] at absent
      simpa using absent
    obtain ⟨processContainers, after⟩ : ∃ processContainers, flood (number + 1) =
        (arrive { flood number with processContainers } openLine (containerIDAt number)).addToBacklog
          (containerIDAt number) openLine :=
      ⟨_, processContainerLine_unknown unknown⟩
    have keys : (flood (number + 1)).auditLineCache.keys =
        (containerIDAt number :: (flood number).auditLineCache.keys).take maxCacheItems := by
      rw [after]
      have same := kerase_of_notMem_keys absent
      change ((List.kinsert _ _ (flood number).auditLineCache.entries).take maxCacheItems).keys = _
      rw [kinsert_def, same]
      exact map_take
    refine ⟨ih.reach.next (.line openLine (.found (containerIDAt number))) ?_ rfl, ?_, ?_, ?_, ?_,
      fun earlier less => ?_⟩
    · rintro containerID ⟨isFound, _⟩
      cases isFound
      rw [noBacklog]
      rfl
    · rw [after]
      exact ih.infoCache
    · rw [after]
      exact ih.pods
    · rw [after]
      exact ih.dispatched
    · rw [keys, ih.keys, range_succ, reverse_append]
      simp only [reverse_cons, reverse_nil, nil_append, singleton_append, map_cons]
      rw [show maxCacheItems = 999 + 1 from rfl, take_succ_cons, take_succ_cons, take_take]
      rfl
    · rw [after]
      rcases Nat.lt_succ_iff_lt_or_eq.mp less with before | rfl
      · exact mem_append_left _ (ih.arrived earlier before)
      · exact mem_append_right _ mem_cons_self

theorem not_dispatched_when_told {state : LogEnricher} {containerID : String} {line : AuditLine}
    (reach : Reach BelowLimits state) (noInfos : state.infoCache = .empty) (noneDispatched : state.dispatched = [])
    (noBacklog : state.auditLineCache.lookup containerID = none) (arrived : (line, containerID) ∈ state.arrived) :
    ∃ after, Reach BelowLimits after ∧ after.changed = false ∧ after.known? containerID ≠ none ∧
      line ∈ after.arrivedFrom containerID ∧ after.dispatchedFor containerID = [] ∧
      after.backlogOf containerID = [] := by
  have told := reach.next (.podsUpdated [podOf containerID]) trivial rfl
  have handled := told.handle rfl trivial
  have infos : ∀ other info, state.infoCache.lookup other = some info → info.containerID = other := by
    intro other info isInfo
    rw [noInfos] at isInfo
    cases isInfo
  let listed : LogEnricher := { state with pods := [podOf containerID], changed := false }
  obtain ⟨flushes, _⟩ := @dispatchListedBacklogs_spec listed state.auditLineCache.keys infos
  have nothing : listed.dispatchedFor containerID ++ listed.backlogOf containerID = [] := by
    rw [@backlogOf_of_none listed containerID noBacklog, dispatchedFor, noneDispatched]
    rfl
  have order := (flushes.order containerID).trans nothing
  refine ⟨_, handled, flushes.changed, fun unknown => ?_, ?_, (append_eq_nil_iff.mp order).1,
    (append_eq_nil_iff.mp order).2⟩
  · have listed : (podOf containerID).has containerID = true := by simp [podOf, Pod.has]
    obtain ⟨_, noPod⟩ := Option.or_eq_none_iff.mp ((flushes.known containerID).symm.trans unknown)
    exact find?_eq_none.mp (Option.map_eq_none_iff.mp noPod) (podOf containerID) mem_cons_self listed
  · refine mem_map.mpr ⟨(line, containerID), mem_filter.mpr ⟨?_, by simp⟩, rfl⟩
    exact (congrArg (fun arrived => (line, containerID) ∈ arrived) flushes.arrived).mpr arrived

/-- If lines of more containers wait than there is room for, the first one of them is lost, although no backlog is
full. -/
theorem first_backlog_lost : ∃ state, Reach BelowLimits state ∧ state.changed = false ∧
    state.known? (containerIDAt 0) ≠ none ∧ openLine ∈ state.arrivedFrom (containerIDAt 0) ∧
    state.dispatchedFor (containerIDAt 0) = [] ∧ state.backlogOf (containerIDAt 0) = [] := by
  obtain ⟨reach, noInfos, _, noneDispatched, keys, arrived⟩ := flooded (maxCacheItems + 1)
  refine not_dispatched_when_told reach noInfos noneDispatched ?_ (arrived 0 (Nat.succ_pos _))
  have absent : containerIDAt 0 ∉ (flood (maxCacheItems + 1)).auditLineCache.keys := by
    rw [keys, range_succ_eq_map, reverse_cons, map_append]
    rw [take_append_of_le_length (by simp), take_of_length_le (by simp)]
    intro member
    obtain ⟨later, isLater, same⟩ := mem_map.mp member
    obtain ⟨number, _, rfl⟩ := mem_map.mp (mem_reverse.mp isLater)
    cases containerIDAt_injective same
  rw [Lru.mem_keys] at absent
  simpa using absent

end flood

end LogEnricher

end SecurityProfiles.Enricher
