import Mathlib.Data.List.MinMax
import SecurityProfiles.Enricher.Buckets
import SecurityProfiles.Profiles.Name

namespace SecurityProfiles.Enricher

open List

/-- A value of a record. Maps of texts are of another type than maps of any values. -/
inductive LogValue where
  | text (text : Str)
  | texts (texts : List Str)
  | int (value : Int)
  | textMap (entries : List (Str × Str))
  | map (entries : List (Str × LogValue))

abbrev LogMap := List (Str × LogValue)

structure EnricherFilterOptions where
  priority : Int
  level : Str
  matchKeys : List Str
  matchValues : Option (List Str)

def metadataLevel : Str := "Metadata".toList

section filters

/-- The filters of the configuration, in the order of their priorities. -/
def getEnricherFilters (filters : List EnricherFilterOptions) : List EnricherFilterOptions :=
  filters.insertionSort fun first second => first.priority ≤ second.priority

def convertToInt : LogValue → Option Int
  | .int value => some value
  | _ => none

def equalsValue (logValue : LogValue) (value : Str) : Bool :=
  (match logValue with
    | .text text => value = text
    | _ => false) ||
  match Text.parseInt value, convertToInt logValue with
  | some valueInt, some retrievedInt => valueInt = retrievedInt
  | _, _ => false

def matchAnyFilterValue (logValue : LogValue) (filter : EnricherFilterOptions) : Bool :=
  filter.matchValues.getD [] = [] || (filter.matchValues.getD []).any (equalsValue logValue)

def matchPathFilterLabel (label : Str) (filter : EnricherFilterOptions) (logMap : LogMap) : Bool :=
  match _isCut : Text.cut '/' label with
  | some (first, rest) =>
    match logMap.lookup first with
    | some (.map subMap) => matchPathFilterLabel rest filter subMap
    | _ => false
  | none => (logMap.lookup label).any (matchAnyFilterValue · filter)
termination_by label.length
decreasing_by exact Text.length_cut _isCut

def matchAnyFilterLabel (filter : EnricherFilterOptions) (logMap : LogMap) : Bool :=
  filter.matchKeys.any fun label => matchPathFilterLabel label filter logMap

def applyEnricherFilters (logMap : LogMap) (filters : List EnricherFilterOptions) : Str :=
  ((filters.find? fun filter => matchAnyFilterLabel filter logMap).map EnricherFilterOptions.level).getD
    metadataLevel

end filters

section records

/-- What the record takes from elsewhere: the names of syscalls, the time of an audit record, an identifier and the
node. -/
structure RecordSource where
  syscallName : SyscallKey → Option Str
  auditTimeToIso : String → Option Str
  auditID : Str
  nodeName : Str

variable (source : RecordSource)

/-- The record of a bucket. There is none without its process or its time. -/
def auditMap (bucket : LogBucket) : Option LogMap := do
  let process ← bucket.processInfo
  let isoTimestamp ← source.auditTimeToIso bucket.timestampID
  let resource := match bucket.containerInfo with
    | none => []
    | some info => [("pod".toList, info.podName.toList), ("namespace".toList, info.podNamespace.toList),
        ("container".toList, info.containerName.toList)]
  return [("version".toList, .text "spo/v1_alpha".toList), ("auditID".toList, .text source.auditID),
    ("executable".toList, .text process.executable.toList), ("cmdLine".toList, .text process.cmdLine.toList),
    ("resource".toList, .textMap resource), ("pid".toList, .int process.pid),
    ("node".toList, .textMap [("name".toList, source.nodeName)]),
    ("syscalls".toList, .texts (bucket.syscallIds.filterMap source.syscallName)),
    ("timestamp".toList, .text isoTimestamp)] ++ (process.uid.map fun uid => ("uid".toList, .int uid)).toList ++
    (process.gid.map fun gid => ("gid".toList, .int gid)).toList ++
    (process.execRequestId.map fun id => ("requestUID".toList, .text id.toList)).toList

/-- The log level of the record of a bucket. -/
def logLevel (bucket : LogBucket) (filters : List EnricherFilterOptions) : Option Str :=
  (auditMap source bucket).map fun record => applyEnricherFilters record (getEnricherFilters filters)

end records

section specified

/-- The value that is found by following a path through nested maps. -/
def follow : List Str → LogMap → Option LogValue
  | [], _ => none
  | [key], logMap => logMap.lookup key
  | key :: rest, logMap =>
    match logMap.lookup key with
    | some (.map entries) => follow rest entries
    | some (.textMap entries) => follow rest (entries.map fun entry => (entry.1, .text entry.2))
    | _ => none

/-- The filter matches the value of one of the keys. -/
def Matches (keys : List Str) (logMap : LogMap) (filter : EnricherFilterOptions) : Prop :=
  ∃ key ∈ keys, ∃ value, follow (key.splitOn '/') logMap = some value ∧
    (filter.matchValues.getD [] = [] ∨ ∃ expected ∈ filter.matchValues.getD [],
      value = .text expected ∨ ∃ number, value = .int number ∧ Text.parseInt expected = some number)

/-- The first one of the elements with the least key. -/
def firstLeast {α β : Type} [LinearOrder β] (key : α → β) (elements : List α) : Option α := elements.argmin key

open Classical in
/-- The matching filter with the lowest priority number, the first one among equals. -/
noncomputable def decides (matching : EnricherFilterOptions → Prop) (filters : List EnricherFilterOptions) :
    Option EnricherFilterOptions :=
  firstLeast EnricherFilterOptions.priority (filters.filter fun filter => matching filter)

noncomputable def levelOf (matching : EnricherFilterOptions → Prop) (filters : List EnricherFilterOptions) : Str :=
  ((decides matching filters).map EnricherFilterOptions.level).getD metadataLevel

end specified

section applied

variable {α : Type} {key : α → Int} {holds : α → Bool}

theorem find?_orderedInsert (first : α) {elements : List α}
    (sorted : elements.Pairwise fun one other => key one ≤ key other) :
    (elements.orderedInsert (fun one other => key one ≤ key other) first).find? holds =
      if holds first then
        some (((elements.find? holds).filter fun found => key found < key first).getD first)
      else elements.find? holds := by
  induction elements with
  | nil => cases holdsFirst : holds first <;> simp [holdsFirst]
  | cons head rest ih =>
    obtain ⟨least, sortedRest⟩ := pairwise_cons.mp sorted
    rw [orderedInsert_cons]
    split
    · next below =>
        rw [find?_cons]
        cases holdsFirst : holds first with
        | false => rfl
        | true =>
          -- What is found in the rest has no lower key.
          have later : (((head :: rest).find? holds).filter fun found => key found < key first) = none := by
            refine Option.filter_eq_none_iff.mpr fun found isFound => ?_
            have above : key head ≤ key found := by
              rcases mem_cons.mp (mem_of_find?_eq_some isFound) with rfl | isLater
              · exact Int.le_refl _
              · exact least found isLater
            simp only [decide_eq_true_eq]
            omega
          simp [later]
    · next above =>
        rw [find?_cons, find?_cons, ih sortedRest]
        cases holds head with
        | false => rfl
        | true =>
          have lower : key head < key first := by omega
          rw [Option.filter_some, if_pos (decide_eq_true lower)]
          simp

/-- The first element of a list that is sorted by its keys. -/
theorem find?_insertionSort (elements : List α) :
    (elements.insertionSort fun one other => key one ≤ key other).find? holds =
      firstLeast key (elements.filter holds) := by
  unfold firstLeast
  induction elements with
  | nil => rfl
  | cons first rest ih =>
    have total : Std.Total fun one other : α => key one ≤ key other := ⟨fun _ _ => Int.le_total _ _⟩
    have trans : IsTrans α fun one other => key one ≤ key other := ⟨fun _ _ _ => Int.le_trans⟩
    rw [insertionSort_cons, find?_orderedInsert first (pairwise_insertionSort _ _), ih, filter_cons]
    split
    · rw [argmin_cons]
      cases (rest.filter holds).argmin key with
      | none => rfl
      | some found =>
        rw [Option.filter_some]
        by_cases lower : key found < key first <;> simp [lower]
    · rfl

theorem equalsValue_iff {value : LogValue} {expected : Str} : equalsValue value expected = true ↔
    value = .text expected ∨ ∃ number, value = .int number ∧ Text.parseInt expected = some number := by
  unfold equalsValue convertToInt
  cases value with
  | text text => simp [eq_comm]
  | int number => cases Text.parseInt expected <;> simp [eq_comm]
  | _ => simp

variable {record : LogMap} {filter : EnricherFilterOptions} {source : RecordSource} {bucket : LogBucket}

/-- The record of a bucket has no maps of any values. -/
theorem auditMap_flat (built : auditMap source bucket = some record) (label : Str) (entries : LogMap) :
    record.lookup label ≠ some (.map entries) := by
  intro found
  obtain ⟨before, after, isRecord, -⟩ := lookup_eq_some_iff.mp found
  have member : (label, LogValue.map entries) ∈ record := isRecord ▸ mem_append_right _ (mem_cons_self ..)
  unfold auditMap at built
  obtain ⟨process, -, built⟩ := Option.bind_eq_some_iff.mp built
  obtain ⟨isoTimestamp, -, built⟩ := Option.bind_eq_some_iff.mp built
  obtain rfl := Option.some.inj built
  simp at member

/-- In a record without maps of any values only its own entries are found. -/
theorem matchAnyFilterLabel_iff (flat : ∀ label entries, record.lookup label ≠ some (.map entries)) :
    matchAnyFilterLabel filter record = true ↔ Matches (filter.matchKeys.filter ('/' ∉ ·)) record filter := by
  have path : ∀ label, matchPathFilterLabel label filter record = true ↔ '/' ∉ label ∧
      ∃ value, record.lookup label = some value ∧ matchAnyFilterValue value filter = true := by
    intro label
    rw [matchPathFilterLabel]
    split
    · next first rest isCut =>
        have slashed : '/' ∈ label := by
          by_contra absent
          rw [Text.cut_eq_none.mpr absent] at isCut
          cases isCut
        split
        · next entries found => exact absurd found (flat first entries)
        · simp [slashed]
    · next notCut => simp [Text.cut_eq_none.mp notCut, Option.any_eq_true]
  unfold matchAnyFilterLabel Matches
  simp only [any_eq_true, path, mem_filter, decide_eq_true_eq]
  constructor
  · rintro ⟨label, isKey, single, value, found, isValue⟩
    refine ⟨label, ⟨isKey, single⟩, value, ?_, ?_⟩
    · rw [splitOn_eq_singleton single]
      exact found
    · simpa [matchAnyFilterValue, equalsValue_iff] using isValue
  · rintro ⟨label, ⟨isKey, single⟩, value, found, isValue⟩
    rw [splitOn_eq_singleton single] at found
    refine ⟨label, isKey, single, value, found, ?_⟩
    simpa [matchAnyFilterValue, equalsValue_iff] using isValue

theorem applyEnricherFilters_eq (built : auditMap source bucket = some record)
    (filters : List EnricherFilterOptions) :
    applyEnricherFilters record (getEnricherFilters filters) =
      levelOf (fun filter => Matches (filter.matchKeys.filter ('/' ∉ ·)) record filter) filters := by
  classical
  have same : ∀ filter, matchAnyFilterLabel filter record =
      decide (Matches (filter.matchKeys.filter ('/' ∉ ·)) record filter) := fun filter => by
    rw [Bool.eq_iff_iff, matchAnyFilterLabel_iff (auditMap_flat built), decide_eq_true_eq]
  rw [applyEnricherFilters, getEnricherFilters, find?_insertionSort, levelOf, decides]
  simp only [same]

/-- A filter that decides among many decides among fewer too, as long as it is one of them. -/
theorem decides_of_fewer {fewer more : EnricherFilterOptions → Prop} (sub : ∀ filter, fewer filter → more filter)
    {filters : List EnricherFilterOptions} {winner : EnricherFilterOptions}
    (won : decides more filters = some winner) (matches_ : fewer winner) : decides fewer filters = some winner := by
  classical
  unfold decides at won ⊢
  rw [← find?_insertionSort, find?_eq_some_iff_append] at won ⊢
  obtain ⟨_, before, after, isList, earlier⟩ := won
  refine ⟨decide_eq_true matches_, before, after, isList, fun filter isEarlier => ?_⟩
  have notMore := earlier filter isEarlier
  simp only [Bool.not_eq_true', decide_eq_false_iff_not] at notMore ⊢
  exact fun isFewer => notMore (sub filter isFewer)

end applied

/-- The level is that of the filter that decides among all that match, unless this filter is lost: it matches by
keys with a slash only, which are not found since the maps that the record nests are maps of texts. Then the level
is right only if the filter that decides in its place has the same one. -/
theorem logLevel_specified_iff (source : RecordSource) (bucket : LogBucket) (filters : List EnricherFilterOptions) :
    logLevel source bucket filters = (auditMap source bucket).map (fun record =>
        levelOf (fun filter => Matches filter.matchKeys record filter) filters) ↔
      ∀ record ∈ auditMap source bucket, ∀ lost,
        decides (fun filter => Matches filter.matchKeys record filter) filters = some lost →
        ¬Matches (lost.matchKeys.filter ('/' ∉ ·)) record lost →
        levelOf (fun filter => Matches (filter.matchKeys.filter ('/' ∉ ·)) record filter) filters = lost.level := by
  unfold logLevel
  cases built : auditMap source bucket with
  | none => simp
  | some record =>
    have sub : ∀ filter : EnricherFilterOptions, Matches (filter.matchKeys.filter ('/' ∉ ·)) record filter →
        Matches filter.matchKeys record filter := by
      rintro filter ⟨key, isKey, found⟩
      exact ⟨key, mem_of_mem_filter isKey, found⟩
    simp only [Option.map_some, applyEnricherFilters_eq built, Option.some.injEq, Option.mem_def, forall_eq']
    constructor
    · intro same lost won _
      rw [same, levelOf, won]
      rfl
    · intro kept
      cases won : decides (fun filter => Matches filter.matchKeys record filter) filters with
      | none =>
        have none' : decides (fun filter => Matches (filter.matchKeys.filter ('/' ∉ ·)) record filter)
            filters = none := by
          unfold decides firstLeast at won ⊢
          rw [argmin_eq_none, filter_eq_nil_iff] at won ⊢
          exact fun filter listed isDirect =>
            won filter listed (by simpa using sub filter (by simpa using isDirect))
        rw [levelOf, levelOf, won, none']
      | some winner =>
        by_cases direct : Matches (winner.matchKeys.filter ('/' ∉ ·)) record winner
        · rw [levelOf, levelOf, won, decides_of_fewer sub won direct]
        · rw [kept winner won direct, levelOf, won]
          rfl

section pod

def podFilter : EnricherFilterOptions := ⟨0, "None".toList, ["resource/pod".toList], none⟩

def podSource : RecordSource := ⟨fun _ => none, fun _ => some "2025".toList, "1".toList, "node".toList⟩

def podBucket : LogBucket :=
  { LogBucket.blank with
    processInfo := some ⟨7, "", none, none, "/bin/sh", none⟩
    containerInfo := some ⟨"web", "app", "default", "1", ""⟩ }

/-- The record has the pod, but is logged. -/
theorem pod_filter_ignored : logLevel podSource podBucket [podFilter] = some metadataLevel ∧
    ((auditMap podSource podBucket).map fun record =>
      levelOf (fun filter => Matches filter.matchKeys record filter) [podFilter]) = some "None".toList := by
  obtain ⟨record, built⟩ : ∃ record, auditMap podSource podBucket = some record := ⟨_, rfl⟩
  have byPod : Matches podFilter.matchKeys record podFilter := by
    refine ⟨_, mem_cons_self .., .text "web".toList, ?_, .inl rfl⟩
    obtain rfl := Option.some.inj built
    rfl
  have direct : ¬Matches (podFilter.matchKeys.filter ('/' ∉ ·)) record podFilter := by
    rintro ⟨key, isKey, -⟩
    have none' : podFilter.matchKeys.filter ('/' ∉ ·) = [] := by decide
    rw [none'] at isKey
    cases isKey
  have single : ∀ matching : EnricherFilterOptions → Prop,
      (matching podFilter → levelOf matching [podFilter] = "None".toList) ∧
      (¬matching podFilter → levelOf matching [podFilter] = metadataLevel) := by
    refine fun matching => ⟨fun holds => ?_, fun fails => ?_⟩
    · rw [levelOf, decides, filter_cons_of_pos (by simpa using holds)]
      rfl
    · rw [levelOf, decides, filter_cons_of_neg (by simpa using fails)]
      rfl
  rw [logLevel, built, Option.map_some, Option.map_some, applyEnricherFilters_eq built]
  exact ⟨congrArg some ((single _).2 direct), congrArg some ((single _).1 byPod)⟩

end pod

end SecurityProfiles.Enricher
