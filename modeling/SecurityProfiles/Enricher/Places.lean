import SecurityProfiles.Enricher.Buckets

namespace SecurityProfiles.Enricher

open Threads Buckets List Function

def putLines (log : List Event) : List AuditLine := log.filterMap fun event =>
  match event with
  | .put line _ => some line
  | _ => none

def emissions (bucket : Nat) (log : List Event) : List LogBucket := log.filterMap fun event =>
  match event with
  | .emitted other content => if other = bucket then some content else none
  | _ => none

/-- The bucket is one of the process and the executable of the line. -/
def LogBucket.Fits (bucket : LogBucket) (line : AuditLine) : Prop :=
  ∃ info, bucket.processInfo = some info ∧ info.pid = line.processID ∧ info.executable = line.executable

/-- The bucket was only filled or locked. -/
structure LogBucket.Refined (old new : LogBucket) : Prop where
  syscallIds : new.syscallIds = old.syscallIds
  emitted : new.emitted = old.emitted
  info : ∀ info, old.processInfo = some info →
    ∃ info', new.processInfo = some info' ∧ info'.pid = info.pid ∧ info'.executable = info.executable
  final : old.emitted = true → new.processInfo = old.processInfo

/-- Nothing is put into a bucket that was emitted before. -/
def NoLatePut (log : List Event) : Prop :=
  ∀ before after line bucket, log = before ++ .put line bucket :: after →
    ∀ content, .emitted bucket content ∉ before

section log

variable {log : List Event} {line : AuditLine} {bucket other : Nat} {content : LogBucket}

theorem putLines_append (log log' : List Event) : putLines (log ++ log') = putLines log ++ putLines log' :=
  filterMap_append

theorem emissions_append (bucket : Nat) (log log' : List Event) :
    emissions bucket (log ++ log') = emissions bucket log ++ emissions bucket log' :=
  filterMap_append

theorem mem_emissions : content ∈ emissions bucket log ↔ .emitted bucket content ∈ log := by
  simp only [emissions, mem_filterMap]
  constructor
  · rintro ⟨event, member, isContent⟩
    cases event with
    | put _ _ => cases isContent
    | cached _ => cases isContent
    | emitted other content' =>
      dsimp only at isContent
      split at isContent
      · next same =>
          cases isContent
          rw [← same]
          exact member
      · cases isContent
  · intro member
    exact ⟨_, member, by simp⟩

theorem NoLatePut.concat (ordered : NoLatePut log) {event : Event}
    (early : ∀ line bucket, event = .put line bucket → ∀ content, .emitted bucket content ∉ log) :
    NoLatePut (log ++ [event]) := by
  intro before after line bucket split content
  rcases eq_nil_or_concat after with rfl | ⟨after', last, rfl⟩
  · obtain ⟨rfl, same⟩ := append_inj' split rfl
    exact early line bucket (by simpa using same) content
  · rw [concat_eq_append, ← cons_append, ← append_assoc] at split
    exact ordered before after' line bucket (append_inj' split rfl).1 content

end log

inductive Place where
  | unborn
  | fresh
  | cached (pid : Nat)
  | removed
  | emitting (callback : Nat)
  | emitted

/-- How far a goroutine is with a line, the end of the log, or the callback of a bucket. -/
inductive Stage where
  | idle
  | read (line : AuditLine)
  | found (line : AuditLine) (bucket : Nat)
  | leaving (line : AuditLine) (bucket : Nat) (gone : Bool)
  | absent (line : AuditLine)
  | filling (line : AuditLine) (bucket : Nat) (cached : Bool)
  | filled (line : AuditLine) (bucket : Nat) (cached : Bool)
  | stored (line : AuditLine) (bucket : Nat) (cached : Bool)
  | storing (line : AuditLine) (bucket : Nat)
  | stopping
  | emptied
  | taken (bucket : Nat)
  | locked (bucket : Nat)
  | released (bucket : Nat)
  | finishing

namespace Stage

def holds : Stage → Option Nat
  | .leaving _ bucket _ => some bucket
  | .filling _ bucket _ => some bucket
  | .filled _ bucket _ => some bucket
  | .stored _ bucket _ => some bucket
  | .locked bucket => some bucket
  | .released bucket => some bucket
  | _ => none

/-- The line that is still to be put into a bucket. -/
def unput : Stage → Option AuditLine
  | .read line => some line
  | .found line _ => some line
  | .leaving line _ _ => some line
  | .absent line => some line
  | .filling line _ _ => some line
  | .filled line _ _ => some line
  | _ => none

/-- The bucket that is still to be put into the cache. -/
def fresh : Stage → Option Nat
  | .filling _ bucket false => some bucket
  | .filled _ bucket false => some bucket
  | .stored _ bucket false => some bucket
  | .storing _ bucket => some bucket
  | _ => none

def emitting : Stage → Option Nat
  | .taken bucket => some bucket
  | .locked bucket => some bucket
  | _ => none

/-- No line is being processed. -/
def Resting : Stage → Prop
  | .idle => True
  | .stopping => True
  | .emptied => True
  | _ => False

/-- The log has ended, and the buckets are to be emitted. -/
def Ended : Stage → Prop
  | .stopping => True
  | .emptied => True
  | _ => False

/-- What the goroutine for the lines knows. -/
def Knows (state : Buckets) : Stage → Prop
  | .found line bucket => (∃ info, (state.buckets bucket).processInfo = some info ∧ info.pid = line.processID) ∧
      (state.logLinesCache.lookup line.processID = some bucket ∨ state.logLinesCache.lookup line.processID = none)
  | .leaving line _ gone => gone = true → state.logLinesCache.lookup line.processID = none
  | .absent line => state.logLinesCache.lookup line.processID = none
  | .filling line bucket cached => (state.buckets bucket).emitted = false ∧
      ((state.buckets bucket).processInfo = none ∨ (state.buckets bucket).Fits line) ∧
      (cached = false → state.logLinesCache.lookup line.processID = none)
  | .filled line bucket cached => (state.buckets bucket).emitted = false ∧ (state.buckets bucket).Fits line ∧
      (cached = false → state.logLinesCache.lookup line.processID = none)
  | .stored line bucket cached => (state.buckets bucket).Fits line ∧
      (cached = false → state.logLinesCache.lookup line.processID = none)
  | .storing line bucket => (state.buckets bucket).Fits line ∧ state.logLinesCache.lookup line.processID = none
  | .emptied => ∀ pid, state.logLinesCache.lookup pid = none
  | _ => True

end Stage

/-- What tells that a bucket is in a place. -/
def IsAt (state : Buckets) (fresh : Option Nat) (emitting : Nat → Option Nat) (bucket : Nat) : Place → Prop
  | .unborn => state.created ≤ bucket
  | .fresh => fresh = some bucket
  | .cached pid => state.logLinesCache.lookup pid = some bucket
  | .removed => bucket ∈ state.removed
  | .emitting callback => emitting callback = some bucket
  | .emitted => (state.buckets bucket).emitted = true

/-- Every bucket is in one place. -/
structure Placed (state : Buckets) (fresh : Option Nat) (emitting : Nat → Option Nat) : Prop where
  somewhere : ∀ bucket, ∃ place, IsAt state fresh emitting bucket place
  unique : ∀ {bucket} place place', IsAt state fresh emitting bucket place →
    IsAt state fresh emitting bucket place' →
    place = place'
  distinct : state.removed.Nodup

/-- A bucket that a goroutine holds is locked, and no other one holds it. -/
structure Held (state : Buckets) (holds : Goroutine → Option Nat) : Prop where
  locked : ∀ {goroutine bucket}, holds goroutine = some bucket → (state.buckets bucket).locked = true
  alone : ∀ {goroutine goroutine' bucket}, holds goroutine = some bucket → holds goroutine' = some bucket →
    goroutine = goroutine'

structure Tells (log : List Event) (bucket : Nat) (content : LogBucket) : Prop where
  fits : ∀ line, .put line bucket ∈ log → content.Fits line
  keys : ∀ key, key ∈ content.syscallIds ↔ ∃ line, .put line bucket ∈ log ∧ line.syscallKey = key
  once : (emissions bucket log).length = content.emitted.toNat
  content : ∀ emitted, .emitted bucket emitted ∈ log →
    emitted.syscallIds = content.syscallIds ∧ emitted.processInfo = content.processInfo

/-- What the log tells about the buckets. -/
structure Logged (state : Buckets) (unput : Option AuditLine) (fresh : Option Nat) : Prop where
  blank : ∀ bucket, state.created ≤ bucket → state.buckets bucket = .blank
  lines : putLines state.log ++ unput.toList = state.accepted
  tells : ∀ bucket, Tells state.log bucket (state.buckets bucket)
  ordered : NoLatePut state.log
  cached : ∀ bucket, .cached bucket ∈ state.log ↔ bucket < state.created ∧ fresh ≠ some bucket
  known : ∀ pid bucket, state.logLinesCache.lookup pid = some bucket →
    ∃ info, (state.buckets bucket).processInfo = some info ∧ info.pid = pid

/-- At the end nothing is left to be emitted. -/
structure Ending (state : Buckets) (stage : Stage) : Prop where
  stopped : state.stopped = true → stage.Resting
  ended : stage.Ended → state.stopped = true
  closed : state.closed = true → stage = .idle ∧ state.stopped = true ∧ state.removed = [] ∧ state.running = [] ∧
    ∀ pid, state.logLinesCache.lookup pid = none

/-- The state fits to the stages of the goroutines. -/
structure Fitting (state : Buckets) (stages : Goroutine → Stage) : Prop where
  placed : Placed state (stages .lines).fresh fun callback => (stages (.callback callback)).emitting
  held : Held state fun goroutine => (stages goroutine).holds
  logged : Logged state (stages .lines).unput (stages .lines).fresh
  ending : Ending state (stages .lines)
  knows : (stages .lines).Knows state
  running : ∀ callback, (stages (.callback callback)).emitting ≠ none → callback ∈ state.running

/-- Lines are read by an idle goroutine, and a callback goes on until its bucket is emitted. -/
def Agrees : Op → Stage → Prop
  | .nextLine, stage => stage = .idle
  | op, .taken bucket => op = .lock bucket
  | op, .locked bucket => op = .emit bucket
  | _, _ => True

def discipline : Discipline enricher Goroutine Stage where
  inv := Fitting
  agrees := Agrees
  idle := .idle
  allows _ _ _ _ _ := True

section states

variable {state after : Buckets} {bucket other pid : Nat} {change : LogBucket → LogBucket}

section

variable (state : Buckets)

theorem modify_buckets (bucket other : Nat) (change : LogBucket → LogBucket) :
    (state.modify bucket change).buckets other =
      if other = bucket then change (state.buckets bucket) else state.buckets other := by
  exact update_apply _ _ _ _

theorem evict_cases (pid : Nat) :
    (state.logLinesCache.lookup pid = none ∧ state.evict pid = state) ∨
      ∃ bucket, state.logLinesCache.lookup pid = some bucket ∧ state.evict pid =
        { state with logLinesCache := state.logLinesCache.erase pid, removed := state.removed ++ [bucket] } := by
  unfold evict
  cases found : state.logLinesCache.lookup pid with
  | none => exact Or.inl ⟨rfl, rfl⟩
  | some bucket => exact Or.inr ⟨bucket, rfl, rfl⟩

theorem lookup_evict (pid other bucket : Nat) :
    (state.evict pid).logLinesCache.lookup other = some bucket ↔
      state.logLinesCache.lookup other = some bucket ∧ other ≠ pid := by
  rcases evict_cases state pid with ⟨absent, same⟩ | ⟨found, isFound, same⟩
  · rw [same]
    refine ⟨fun isOther => ⟨isOther, fun here => ?_⟩, And.left⟩
    rw [here, absent] at isOther
    cases isOther
  · rw [same, SortedMap.lookup_erase_eq_some]
    exact and_comm

theorem lookup_evict_none (pid : Nat) : (state.evict pid).logLinesCache.lookup pid = none := by
  cases found : (state.evict pid).logLinesCache.lookup pid with
  | none => rfl
  | some bucket => exact absurd rfl ((lookup_evict state pid pid bucket).mp found).2

end

/-- What is not in the cache does not come back. -/
theorem lookup_evict_of_none (absent : state.logLinesCache.lookup other = none) (pid : Nat) :
    (state.evict pid).logLinesCache.lookup other = none := by
  cases found : (state.evict pid).logLinesCache.lookup other with
  | none => rfl
  | some bucket =>
    have present := ((lookup_evict state pid other bucket).mp found).1
    rw [absent] at present
    cases present

end states

section kept

variable {state after : Buckets} {bucket : Nat} {fresh : Option Nat} {emitting : Nat → Option Nat}
  {holds : Goroutine → Option Nat} {unput : Option AuditLine} {goroutine : Goroutine} {stage : Stage}

theorem Held.setLock (held : Held state holds) (locked : Bool)
    (alone : ∀ other, holds other = some bucket → other = goroutine)
    (locks : ∀ other, (after.buckets other).locked =
      if other = bucket then locked else (state.buckets other).locked) :
    Held after (update holds goroutine (if locked then some bucket else none)) := by
  have owned : ∀ {other bucket'}, update holds goroutine (if locked then some bucket else none) other =
      some bucket' → other = goroutine ∧ locked = true ∧ bucket' = bucket ∨
        other ≠ goroutine ∧ bucket' ≠ bucket ∧ holds other = some bucket' := by
    intro other bucket' isHeld
    by_cases own : other = goroutine
    · rw [own, update_self] at isHeld
      cases locked with
      | false => cases isHeld
      | true => exact Or.inl ⟨own, rfl, (Option.some.inj isHeld).symm⟩
    · rw [update_of_ne own] at isHeld
      exact Or.inr ⟨own, fun same => own (alone other (same ▸ isHeld)), isHeld⟩
  refine ⟨fun isHeld => ?_, fun isHeld isHeld' => ?_⟩
  · rw [locks]
    rcases owned isHeld with ⟨_, isLocked, same⟩ | ⟨_, different, isHeld⟩
    · rw [if_pos same, isLocked]
    · rw [if_neg different]
      exact held.locked isHeld
  · rcases owned isHeld with ⟨own, _, same⟩ | ⟨_, different, isHeld⟩ <;>
      rcases owned isHeld' with ⟨own', _, same'⟩ | ⟨_, different', isHeld'⟩
    · exact own.trans own'.symm
    · exact absurd same different'
    · exact absurd same' different
    · exact held.alone isHeld isHeld'

theorem Held.congr (held : Held state holds)
    (locks : ∀ other, (after.buckets other).locked = (state.buckets other).locked) : Held after holds :=
  ⟨fun isHeld => (locks _).trans (held.locked isHeld), held.alone⟩

/-- Nothing that tells the places has changed. -/
theorem Placed.congr (placed : Placed state fresh emitting) (created : after.created = state.created)
    (cache : after.logLinesCache = state.logLinesCache) (removed : after.removed = state.removed)
    (emitted : ∀ other, (after.buckets other).emitted = (state.buckets other).emitted) :
    Placed after fresh emitting := by
  have same : IsAt after fresh emitting = IsAt state fresh emitting := by
    funext bucket place
    cases place <;> simp only [IsAt, created, cache, removed, emitted]
  refine ⟨?_, ?_, by rw [removed]; exact placed.distinct⟩
  · rw [same]
    exact placed.somewhere
  · rw [same]
    exact placed.unique

section

variable (placed : Placed state fresh emitting)
include placed

/-- A bucket moves from one place to another, and nothing changes about a third one. -/
theorem Placed.move {fresh' : Option Nat} {emitting' : Nat → Option Nat} (old new : Place)
    (isOld : IsAt state fresh emitting bucket old) (distinct : after.removed.Nodup)
    (left : ∀ other, IsAt after fresh' emitting' other old ↔ IsAt state fresh emitting other old ∧ other ≠ bucket)
    (arrived : ∀ other, IsAt after fresh' emitting' other new ↔ IsAt state fresh emitting other new ∨
      other = bucket)
    (others : ∀ third, third ≠ old → third ≠ new → ∀ other, IsAt after fresh' emitting' other third ↔
      IsAt state fresh emitting other third) :
    Placed after fresh' emitting' := by
  have here : ∀ third, IsAt after fresh' emitting' bucket third ↔ third = new := by
    intro third
    by_cases isThirdNew : third = new
    · simp [isThirdNew, arrived]
    refine iff_of_false (fun isThird => ?_) isThirdNew
    by_cases isThirdOld : third = old
    · rw [isThirdOld, left] at isThird
      exact isThird.2 rfl
    · exact isThirdOld (placed.unique _ _ ((others third isThirdOld isThirdNew bucket).mp isThird) isOld)
  have elsewhere : ∀ other, other ≠ bucket → ∀ third,
      IsAt after fresh' emitting' other third ↔ IsAt state fresh emitting other third := by
    intro other different third
    by_cases isThirdOld : third = old
    · simp [isThirdOld, left, different]
    by_cases isThirdNew : third = new
    · simp [isThirdNew, arrived, different]
    exact others third isThirdOld isThirdNew other
  refine ⟨fun other => ?_, fun {other} _ _ isThird isFourth => ?_, distinct⟩
  · by_cases same : other = bucket
    · rw [same]
      exact ⟨new, (here new).mpr rfl⟩
    · obtain ⟨place, isPlace⟩ := placed.somewhere other
      exact ⟨place, (elsewhere other same place).mpr isPlace⟩
  · by_cases same : other = bucket
    · rw [same, here] at isThird isFourth
      exact isThird.trans isFourth.symm
    · rw [elsewhere other same] at isThird isFourth
      exact placed.unique _ _ isThird isFourth

/-- A cached bucket is removed. -/
theorem Placed.evict (pid : Nat) : Placed (state.evict pid) fresh emitting := by
  rcases evict_cases state pid with ⟨_, same⟩ | ⟨bucket, isCached, same⟩
  · rw [same]
    exact placed
  · have notRemoved : bucket ∉ state.removed := fun isRemoved =>
      nomatch placed.unique (.cached pid) .removed isCached isRemoved
    have lookups := lookup_evict state pid
    rw [same] at lookups ⊢
    refine placed.move (.cached pid) .removed isCached
      (placed.distinct.append (nodup_singleton bucket) (by simpa using notRemoved)) ?_ ?_ ?_
    · intro other
      refine (lookups pid other).trans ?_
      simp [IsAt, isCached, eq_comm]
    · exact fun other => by simp [IsAt]
    · intro third notOld notNew other
      cases third with
      | cached pid' => exact (lookups pid' other).trans (and_iff_left (by simpa using notOld))
      | removed => exact absurd rfl notNew
      | _ => exact Iff.rfl

end

theorem Placed.create (placed : Placed state none emitting) (line : AuditLine)
    (blank : (state.buckets state.created).emitted = false) :
    Placed { state with
        buckets := update state.buckets state.created (newBucket line)
        created := state.created + 1 }
      (some state.created) emitting := by
  refine placed.move .unborn .fresh (Nat.le_refl state.created) placed.distinct ?_ ?_ ?_
  · intro other
    simp only [IsAt]
    omega
  · exact fun other => by simp [IsAt, eq_comm]
  · intro third notOld notNew other
    cases third with
    | unborn => exact absurd rfl notOld
    | fresh => exact absurd rfl notNew
    | emitted =>
      simp only [IsAt, update_apply]
      split
      · next here => simp [here, blank, newBucket, LogBucket.blank]
      · rfl
    | _ => exact Iff.rfl

theorem Placed.insert {pid : Nat} (placed : Placed state (some bucket) emitting)
    (absent : state.logLinesCache.lookup pid = none) (log : List Event) :
    Placed { state with logLinesCache := state.logLinesCache.insert pid bucket, log }
      none emitting := by
  refine placed.move .fresh (.cached pid) rfl placed.distinct ?_ ?_ ?_
  · exact fun other => by simp [IsAt, eq_comm]
  · exact fun other => by simp [IsAt, absent, eq_comm]
  · intro third notOld notNew other
    cases third with
    | fresh => exact absurd rfl notOld
    | cached pid' =>
      simp only [IsAt]
      rw [SortedMap.lookup_insert_ne _ _ (by simpa using notNew)]
    | _ => exact Iff.rfl

theorem Placed.take {callback index : Nat} (placed : Placed state fresh emitting)
    (idle : emitting callback = none) (taken : state.removed[index]? = some bucket) (running : List Nat) :
    Placed { state with removed := state.removed.eraseIdx index, running }
      fresh (update emitting callback (some bucket)) := by
  have erased : state.removed.eraseIdx index = state.removed.erase bucket := by
    obtain ⟨inside, same⟩ := List.getElem?_eq_some_iff.mp taken
    rw [← same]
    exact (List.Nodup.erase_getElem placed.distinct index inside).symm
  rw [erased]
  refine placed.move .removed (.emitting callback) (mem_of_getElem? taken)
    (placed.distinct.erase bucket) ?_ ?_ ?_
  · exact fun other => placed.distinct.mem_erase_iff.trans and_comm
  · exact fun other => by simp [IsAt, idle, eq_comm]
  · intro third notOld notNew other
    cases third with
    | removed => exact absurd rfl notOld
    | emitting callback' =>
      simp only [IsAt]
      rw [update_of_ne (by simpa using notNew)]
    | _ => exact Iff.rfl

theorem Placed.emit {callback : Nat} (placed : Placed state fresh emitting) (own : emitting callback = some bucket)
    (info : Option ContainerInfo) (log : List Event) :
    Placed { state with buckets := update state.buckets bucket (markEmitted info (state.buckets bucket)), log }
      fresh (update emitting callback none) := by
  refine placed.move (.emitting callback) .emitted own placed.distinct ?_ ?_ ?_
  · exact fun other => by simp [IsAt, own, eq_comm]
  · intro other
    simp only [IsAt, update_apply]
    split
    · next here => simp [here, markEmitted]
    · next elsewhere => simp [elsewhere]
  · intro third notOld notNew other
    cases third with
    | emitting callback' =>
      simp only [IsAt]
      rw [update_of_ne (by simpa using notOld)]
    | emitted => exact absurd rfl notNew
    | _ => exact Iff.rfl

theorem LogBucket.Refined.refl (bucket : LogBucket) : bucket.Refined bucket :=
  ⟨rfl, rfl, fun info isInfo => ⟨info, isInfo, rfl, rfl⟩, fun _ => rfl⟩

theorem LogBucket.Refined.fits {old new : LogBucket} (refined : old.Refined new) {line : AuditLine}
    (fits : old.Fits line) : new.Fits line := by
  obtain ⟨info, isInfo, samePid, sameExecutable⟩ := fits
  obtain ⟨info', isInfo', pids, executables⟩ := refined.info info isInfo
  exact ⟨info', isInfo', pids.trans samePid, executables.trans sameExecutable⟩

section tells

variable {log : List Event} {content : LogBucket} {line : AuditLine}

section

variable (tells : Tells log bucket content)
include tells

theorem Tells.notEmitted (pending : content.emitted = false) (emitted : LogBucket) :
    .emitted bucket emitted ∉ log := by
  intro isEmitted
  have once := tells.once
  rw [pending, Bool.toNat_false, length_eq_zero_iff] at once
  have member := mem_emissions.mpr isEmitted
  rw [once] at member
  cases member

theorem Tells.refine {new : LogBucket} (refined : content.Refined new) : Tells log bucket new where
  fits line isPut := refined.fits (tells.fits line isPut)
  keys key := by rw [refined.syscallIds]; exact tells.keys key
  once := by rw [refined.emitted]; exact tells.once
  content emitted isEmitted := by
    have flagged : content.emitted = true := by
      by_contra pending
      exact tells.notEmitted (by simpa using pending) emitted isEmitted
    rw [refined.syscallIds, refined.final flagged]
    exact tells.content emitted isEmitted

/-- The event is about another bucket, or one that gets into the cache. -/
theorem Tells.other {event : Event} (notPut : ∀ line, event ≠ .put line bucket)
    (notEmitted : ∀ emitted, event ≠ .emitted bucket emitted) : Tells (log ++ [event]) bucket content where
  fits line isPut := by
    rcases mem_append.mp isPut with isPut | isLast
    · exact tells.fits line isPut
    · exact absurd (mem_singleton.mp isLast).symm (notPut line)
  keys key := by
    rw [tells.keys key]
    simp [Ne.symm (notPut _)]
  once := by
    have nothing : emissions bucket [event] = [] := by
      refine eq_nil_iff_forall_not_mem.mpr fun emitted member => ?_
      exact notEmitted emitted (mem_singleton.mp (mem_emissions.mp member)).symm
    rw [emissions_append, nothing, append_nil]
    exact tells.once
  content emitted isEmitted := by
    rcases mem_append.mp isEmitted with isEmitted | isLast
    · exact tells.content emitted isEmitted
    · exact absurd (mem_singleton.mp isLast).symm (notEmitted emitted)

end

theorem mem_addSyscall {key other : SyscallKey} {bucket : LogBucket} :
    other ∈ (addSyscall key bucket).syscallIds ↔ other ∈ bucket.syscallIds ∨ other = key := by
  unfold addSyscall
  split
  · next present =>
      refine ⟨Or.inl, fun either => ?_⟩
      rcases either with older | rfl
      · exact older
      · exact present
  · simp

theorem addSyscall_same (key : SyscallKey) (bucket : LogBucket) :
    (addSyscall key bucket).emitted = bucket.emitted ∧ (addSyscall key bucket).locked = bucket.locked ∧
      (addSyscall key bucket).processInfo = bucket.processInfo := by
  unfold addSyscall
  split <;> exact ⟨rfl, rfl, rfl⟩

theorem LogBucket.Fits.congr {old new : LogBucket} (fits : old.Fits line)
    (info : new.processInfo = old.processInfo) :
    new.Fits line := by
  obtain ⟨found, isInfo, same⟩ := fits
  exact ⟨found, info.trans isInfo, same⟩

theorem Tells.put (tells : Tells log bucket content) (pending : content.emitted = false)
    (fits : content.Fits line) :
    Tells (log ++ [.put line bucket]) bucket (addSyscall line.syscallKey content) where
  fits line' isPut := by
    refine LogBucket.Fits.congr ?_ (addSyscall_same _ _).2.2
    rcases mem_append.mp isPut with isPut | isLast
    · exact tells.fits line' isPut
    · cases mem_singleton.mp isLast
      exact fits
  keys key := by
    rw [mem_addSyscall, tells.keys key]
    simp [or_and_right, exists_or, eq_comm]
  once := by
    rw [emissions_append, (addSyscall_same _ _).1]
    simpa [emissions] using tells.once
  content emitted isEmitted := absurd (by simpa using isEmitted) (tells.notEmitted pending emitted)

theorem Tells.emit (tells : Tells log bucket content) (pending : content.emitted = false)
    (info : Option ContainerInfo) :
    Tells (log ++ [.emitted bucket (markEmitted info content)]) bucket (markEmitted info content) where
  fits line isPut := (tells.fits line (by simpa using isPut)).congr rfl
  keys key := by
    refine (tells.keys key).trans ?_
    simp
  once := by
    rw [emissions_append, length_append, tells.once, pending]
    simp [emissions, markEmitted]
  content emitted isEmitted := by
    rcases mem_append.mp isEmitted with isEmitted | isLast
    · exact tells.content emitted isEmitted
    · cases mem_singleton.mp isLast
      exact ⟨rfl, rfl⟩

end tells

section

variable (logged : Logged state unput fresh)
include logged

theorem Logged.refine {fresh' : Option Nat}
    (cache : after.logLinesCache = state.logLinesCache) (accepted : after.accepted = state.accepted)
    (log : after.log = state.log) (unborn : ∀ other, after.created ≤ other → after.buckets other = .blank)
    (refined : ∀ other, (state.buckets other).Refined (after.buckets other))
    (cached : ∀ other, other < state.created ∧ fresh ≠ some other ↔ other < after.created ∧ fresh' ≠ some other) :
    Logged after unput fresh' where
  blank := unborn
  lines := by rw [log, accepted]; exact logged.lines
  tells other := by rw [log]; exact (logged.tells other).refine (refined other)
  ordered := by rw [log]; exact logged.ordered
  cached other := by rw [log, ← cached]; exact logged.cached other
  known pid other isCached := by
    rw [cache] at isCached
    obtain ⟨info, isInfo, samePid⟩ := logged.known pid other isCached
    obtain ⟨info', isInfo', pids, _⟩ := (refined other).info info isInfo
    exact ⟨info', isInfo', pids.trans samePid⟩

theorem Logged.born (some : state.buckets bucket ≠ .blank) : bucket < state.created := by
  by_contra unborn
  exact some (logged.blank bucket (Nat.le_of_not_lt unborn))

theorem Logged.modify {change : LogBucket → LogBucket} (born : bucket < state.created)
    (refined : (state.buckets bucket).Refined (change (state.buckets bucket))) :
    Logged (state.modify bucket change) unput fresh := by
  refine logged.refine rfl rfl rfl (fun other isUnborn => ?_) (fun other => ?_) fun _ => Iff.rfl
  · change state.created ≤ other at isUnborn
    rw [modify_buckets, if_neg (by omega)]
    exact logged.blank other isUnborn
  · rw [modify_buckets]
    split
    · next here =>
        rw [here]
        exact refined
    · exact .refl _

theorem Logged.evict (pid : Nat) : Logged (state.evict pid) unput fresh := by
  have known : ∀ pid' other, (state.evict pid).logLinesCache.lookup pid' = some other →
      ∃ info, (state.buckets other).processInfo = some info ∧ info.pid = pid' :=
    fun pid' other isCached => logged.known pid' other ((lookup_evict state pid pid' other).mp isCached).1
  rcases evict_cases state pid with ⟨_, same⟩ | ⟨bucket, _, same⟩
  · rw [same]
    exact logged
  · rw [same] at known ⊢
    exact { logged with known := known }

end

theorem Logged.accept (logged : Logged state none fresh) (lines : List AuditLine) (line : Option AuditLine)
    (isLine : lines = line.toList) (stopped : Bool) :
    Logged { state with accepted := state.accepted ++ lines, stopped } line fresh := by
  have joined : putLines state.log ++ line.toList = state.accepted ++ lines := by
    rw [← logged.lines, isLine]
    simp
  exact { logged with lines := joined }

theorem Logged.create (logged : Logged state unput none) (line : AuditLine) :
    Logged { state with
        buckets := update state.buckets state.created (newBucket line)
        created := state.created + 1 }
      unput (some state.created) := by
  refine logged.refine rfl rfl rfl (fun other isUnborn => ?_) (fun other => ?_) fun other => ?_
  · dsimp only at isUnborn ⊢
    rw [update_of_ne (by omega)]
    exact logged.blank other (by omega)
  · dsimp only
    rw [update_apply]
    split
    · next here =>
        rw [here, logged.blank state.created (Nat.le_refl _)]
        exact ⟨rfl, rfl, fun _ isInfo => (nomatch isInfo), fun isEmitted => (nomatch isEmitted)⟩
    · exact .refl _
  · simp only [ne_eq, reduceCtorEq, not_false_eq_true, and_true, Option.some.injEq]
    omega

/-- Something happens to a bucket. -/
theorem Logged.event {unput' : Option AuditLine} {event : Event} (logged : Logged state unput fresh)
    (log : after.log = state.log ++ [event]) (accepted : after.accepted = state.accepted)
    (created : after.created = state.created) (cache : after.logLinesCache = state.logLinesCache)
    (born : bucket < state.created)
    (elsewhere : ∀ other, other ≠ bucket → after.buckets other = state.buckets other ∧
      (∀ line, event ≠ .put line other) ∧ ∀ emitted, event ≠ .emitted other emitted)
    (here : Tells (state.log ++ [event]) bucket (after.buckets bucket))
    (info : (after.buckets bucket).processInfo = (state.buckets bucket).processInfo)
    (lines : putLines [event] ++ unput'.toList = unput.toList) (notCached : ∀ other, event ≠ .cached other)
    (early : ∀ line other, event = .put line other → ∀ content, .emitted other content ∉ state.log) :
    Logged after unput' fresh where
  blank other isUnborn := by
    rw [created] at isUnborn
    rw [(elsewhere other (by omega)).1]
    exact logged.blank other isUnborn
  lines := by
    rw [log, accepted, putLines_append, append_assoc, lines]
    exact logged.lines
  tells other := by
    rw [log]
    by_cases same : other = bucket
    · rw [same]
      exact here
    · obtain ⟨unchanged, notPut, notEmitted⟩ := elsewhere other same
      rw [unchanged]
      exact (logged.tells other).other notPut notEmitted
  ordered := by
    rw [log]
    exact logged.ordered.concat early
  cached other := by
    rw [log, created, mem_append, logged.cached other]
    simp [Ne.symm (notCached other)]
  known pid other isCached := by
    rw [cache] at isCached
    obtain ⟨found, isFound, samePid⟩ := logged.known pid other isCached
    refine ⟨found, ?_, samePid⟩
    by_cases same : other = bucket
    · rw [same] at isFound ⊢
      exact info.trans isFound
    · rw [(elsewhere other same).1]
      exact isFound

theorem Logged.put {line : AuditLine} (logged : Logged state (some line) fresh) (born : bucket < state.created)
    (pending : (state.buckets bucket).emitted = false) (fits : (state.buckets bucket).Fits line) :
    Logged { state.modify bucket (addSyscall line.syscallKey) with
      log := state.log ++ [.put line bucket] } none fresh := by
  have here : (state.modify bucket (addSyscall line.syscallKey)).buckets bucket =
      addSyscall line.syscallKey (state.buckets bucket) := update_self ..
  refine logged.event rfl rfl rfl rfl born (fun other different => ⟨?_, ?_, by simp⟩) ?_ ?_ rfl (by simp) ?_
  · exact update_of_ne different _ _
  · exact fun _ same => different (Event.put.inj same).2.symm
  · dsimp only
    rw [here]
    exact (logged.tells bucket).put pending fits
  · dsimp only
    rw [here]
    exact (addSyscall_same _ _).2.2
  · rintro _ _ ⟨⟩
    exact (logged.tells bucket).notEmitted pending

theorem Logged.insert {line : AuditLine} (logged : Logged state unput (some bucket)) (born : bucket < state.created)
    (fits : (state.buckets bucket).Fits line) :
    Logged { state with
        logLinesCache := state.logLinesCache.insert line.processID bucket
        log := state.log ++ [.cached bucket] }
      unput none where
  blank := logged.blank
  lines := by
    dsimp only
    rw [putLines_append]
    simpa [putLines] using logged.lines
  tells other := (logged.tells other).other (by simp) (by simp)
  ordered := logged.ordered.concat fun _ _ isPut => nomatch isPut
  cached other := by
    dsimp only
    rw [mem_append, logged.cached other]
    simp only [ne_eq, Option.some.injEq, mem_singleton, Event.cached.injEq, reduceCtorEq,
      not_false_eq_true, and_true]
    constructor
    · rintro (⟨isBorn, _⟩ | rfl)
      · exact isBorn
      · exact born
    · intro isBorn
      by_cases here : other = bucket
      · exact Or.inr here
      · exact Or.inl ⟨isBorn, Ne.symm here⟩
  known pid other isCached := by
    dsimp only at isCached ⊢
    by_cases same : pid = line.processID
    · rw [same, SortedMap.lookup_insert_self] at isCached
      cases isCached
      obtain ⟨info, isInfo, samePid, _⟩ := fits
      exact ⟨info, isInfo, samePid.trans same.symm⟩
    · rw [SortedMap.lookup_insert_ne _ _ same] at isCached
      exact logged.known pid other isCached

theorem Logged.emit (logged : Logged state unput fresh) (born : bucket < state.created)
    (pending : (state.buckets bucket).emitted = false) (info : Option ContainerInfo) :
    Logged { state with
        buckets := update state.buckets bucket (markEmitted info (state.buckets bucket))
        log := state.log ++ [.emitted bucket (markEmitted info (state.buckets bucket))] }
      unput fresh := by
  refine logged.event rfl rfl rfl rfl born (fun other different => ⟨?_, by simp, ?_⟩) ?_ ?_ rfl (by simp) (by simp)
  · exact update_of_ne different _ _
  · exact fun _ same => different (Event.emitted.inj same).1.symm
  · dsimp only
    rw [update_self]
    exact (logged.tells bucket).emit pending info
  · dsimp only
    rw [update_self]
    rfl

end kept

end SecurityProfiles.Enricher
