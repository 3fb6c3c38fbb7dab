import Mathlib.Data.List.Chain
import SecurityProfiles.Locking.Tracker

namespace SecurityProfiles.Locking

open Threads Function
open VersionedStore (ApiError isNotFoundOrConflict ignoreNotFound)

/-- The finalizer goes only from a version without active workloads. -/
def Unlocks (finalizer : Str) (before after : Tracked) : Prop :=
  finalizer ∈ before.finalizers → finalizer ∉ after.finalizers → before.activeWorkloads = []

/-- Each version and the one written on its base. -/
def NeverUnlocked (finalizer : Str) (server : Server) : Prop := server.versions.IsChain (Unlocks finalizer)

/-- A cached read shows the finalizer only while the object carries it or has no active workload. -/
def ShowsLock (finalizer : Str) (server : Server) : Op → Choice → Prop
  | .getCached, .serve version => ∀ object, server.versions[version]? = some object →
    finalizer ∈ object.finalizers → finalizer ∈ server.current.finalizers ∨ server.current.activeWorkloads = []
  | _, _ => True

def CacheShowsLock (finalizer : Str) (world : World api Run) : Act api Run → Prop
  | .step run choice => ∀ op, (world.threads run).next? = some op → ShowsLock finalizer world.state op choice
  | _ => True

/-- A run remembers the version it works on, and whether it has to bring the finalizer. -/
structure Note where
  read : Option Read
  adding : Bool

def Note.free : Note := ⟨none, false⟩

section inv

variable {finalizer : Str} {strict : Prop} {server : Server} {notes : Run → Note} {run : Run} {note note' : Note}

/-- The locks of all versions are in order, and if the finalizer is missing some run brings it. -/
structure Inv (finalizer : Str) (strict : Prop) (server : Server) (notes : Run → Note) : Prop where
  chain : NeverUnlocked finalizer server
  known : ∀ run read, (notes run).read = some read → server.versions[read.version]? = some read.object
  owed : strict → server.gone = false → server.current.activeWorkloads ≠ [] →
    finalizer ∉ server.current.finalizers →
    (∃ run, (notes run).adding = true) ∨ 0 < server.failures

theorem adding_update (some' : ∃ run, (notes run).adding = true)
    (kept : (notes run).adding = true → note.adding = true) :
    ∃ other, (Function.update notes run note other).adding = true := by
  obtain ⟨other, adds⟩ := some'
  by_cases same : other = run
  · subst same
    exact ⟨other, by simpa using kept adds⟩
  · exact ⟨other, by simpa [update_of_ne same] using adds⟩

theorem Inv.update (inv : Inv finalizer strict server notes)
    (known : ∀ read, note.read = some read → server.versions[read.version]? = some read.object)
    (kept : strict → server.gone = false → server.current.activeWorkloads ≠ [] →
      finalizer ∉ server.current.finalizers → (notes run).adding = true → note.adding = true ∨
      0 < server.failures) :
    Inv finalizer strict server (Function.update notes run note) where
  chain := inv.chain
  known other read noted := by
    by_cases same : other = run
    · subst same
      exact known read (by simpa using noted)
    · exact inv.known other read (by simpa [update_of_ne same] using noted)
  owed holds present active missing := by
    rcases inv.owed holds present active missing with some' | failed
    · by_cases adds : (notes run).adding = true
      · rcases kept holds present active missing adds with adding | failed
        · exact Or.inl ⟨run, by simpa using adding⟩
        · exact Or.inr failed
      · exact Or.inl (adding_update some' fun adding => absurd adding adds)
    · exact Or.inr failed

theorem current_of_known {read : Read} (known : server.versions[read.version]? = some read.object)
    (same : server.version = read.version) : server.current = read.object := by
  rw [← same] at known
  simpa [Server.versions, Server.version] using known

theorem getElem?_versions_put {object old : Tracked} {version : Nat}
    (known : server.versions[version]? = some old) :
    (server.put object).versions[version]? = some old := by
  have bound := (List.getElem?_eq_some_iff.mp known).1
  exact (List.getElem?_append_left bound).trans known

theorem neverUnlocked_put {object : Tracked} (chain : NeverUnlocked finalizer server)
    (unlocks : Unlocks finalizer server.current object) : NeverUnlocked finalizer (server.put object) := by
  refine chain.append (List.isChain_singleton object) fun last isLast first isFirst => ?_
  have lastIs : server.current = last := by simpa [Server.versions] using isLast
  have firstIs : object = first := Option.some.inj isFirst
  rw [← lastIs, ← firstIs]
  exact unlocks

theorem Inv.put {object : Tracked} (inv : Inv finalizer strict server notes)
    (unlocks : Unlocks finalizer server.current object) (done : note.read = none)
    (owed : strict → object.activeWorkloads ≠ [] → finalizer ∉ object.finalizers → note.adding = true ∨
      ((notes run).adding = false ∧ server.current.activeWorkloads ≠ [] ∧ finalizer ∉ server.current.finalizers)) :
    Inv finalizer strict (server.put object) (Function.update notes run note) where
  chain := neverUnlocked_put inv.chain unlocks
  known other read noted := by
    by_cases same : other = run
    · subst same
      rw [update_self, done] at noted
      cases noted
    · exact getElem?_versions_put (inv.known other read (by simpa [update_of_ne same] using noted))
  owed holds present active missing := by
    rcases owed holds active missing with adding | ⟨notAdding, wasActive, wasMissing⟩
    · exact Or.inl ⟨run, by simpa using adding⟩
    · rcases inv.owed holds present wasActive wasMissing with some' | failed
      · exact Or.inl (adding_update some' fun adding => absurd adding (by simp [notAdding]))
      · exact Or.inr failed

end inv

section steps

variable {server after : Server} {choice : Choice}

theorem get_cases {answer : Except ApiError Read}
    (performed : Server.perform .get choice server = some (answer, after)) :
    after = server ∧ ((∃ error, answer = .error error ∧ (error = .notFound → server.gone = true)) ∨
      answer = .ok ⟨server.version, server.current⟩) := by
  cases choice with
  | refuse | lose => cases performed; exact ⟨rfl, Or.inl ⟨_, rfl, by simp⟩⟩
  | serve version =>
    cases performed
    refine ⟨rfl, ?_⟩
    by_cases gone : server.gone = true
    · exact Or.inl ⟨.notFound, by rw [if_pos gone], fun _ => gone⟩
    · exact Or.inr (by rw [if_neg gone])

theorem getCached_cases {answer : Except ApiError Read}
    (performed : Server.perform .getCached choice server = some (answer, after)) :
    after = server ∧ ((∃ error, answer = .error error ∧ (error = .notFound → server.gone = true)) ∨
      ∃ version object, choice = .serve version ∧ server.versions[version]? = some object ∧
      answer = .ok ⟨version, object⟩) := by
  cases choice with
  | refuse | lose => cases performed; exact ⟨rfl, Or.inl ⟨_, rfl, by simp⟩⟩
  | serve version =>
    obtain ⟨object, found, same⟩ := Option.map_eq_some_iff.mp performed
    cases same
    refine ⟨rfl, ?_⟩
    by_cases gone : server.gone = true
    · exact Or.inl ⟨.notFound, by rw [if_pos gone], fun _ => gone⟩
    · exact Or.inr ⟨version, object, rfl, found, by rw [if_neg gone]⟩

/-- A write has no effect, or is the next version of the one it is based on. -/
theorem write_cases {version : Nat} {change : Tracked → Tracked} {answer : Except ApiError Unit}
    (written : server.write version change choice = (answer, after)) :
    (after = server ∧ ∃ error, answer = .error error ∧ (error = .notFound → server.gone = true)) ∨
      (server.version = version ∧ after = server.put (change server.current) ∧
        (answer = .ok () ∨ answer = .error .other)) := by
  cases choice with
  | refuse => cases written; exact Or.inl ⟨rfl, _, rfl, by simp⟩
  | _ =>
    simp only [Server.write] at written
    split at written
    · next gone => cases written; exact Or.inl ⟨rfl, _, rfl, fun _ => gone⟩
    · split at written
      · next same => cases written; exact Or.inr ⟨same, rfl, by simp⟩
      · cases written; exact Or.inl ⟨rfl, _, rfl, by simp⟩

end steps

section safe

variable {finalizer : Str} {strict : Prop} {run : Run}

def discipline (finalizer : Str) (strict : Prop) : Discipline api Run Note where
  inv := Inv finalizer strict
  agrees _ _ := True
  idle := .free
  allows server _ _ op choice := strict → ShowsLock finalizer server op choice

/-- The run is where it started if the call is to be repeated. -/
def Repeats (start : Note) (result : Except ApiError Unit) (note : Note) : Prop :=
  ∀ error, result = .error error → isNotFoundOrConflict error = true → note = start

theorem Inv.forget {server : Server} {notes : Run → Note} {adding : Bool} (inv : Inv finalizer strict server notes)
    (kept : strict → server.gone = false → server.current.activeWorkloads ≠ [] →
      finalizer ∉ server.current.finalizers → (notes run).adding = true → adding = true) :
    Inv finalizer strict server (Function.update notes run ⟨none, adding⟩) :=
  inv.update (fun _ noted => nomatch noted) fun holds present active missing adds =>
    Or.inl (kept holds present active missing adds)

/-- A run starts over from where it was, or it is done. -/
abbrev Ends (adds : Bool) (result : Except ApiError Unit) (note : Note) : Prop :=
  (result = .ok () → note = ⟨none, adds⟩) ∧ Repeats .free result note

/-- The object is read, and left as it is or edited. -/
theorem safe_get {adds : Bool} (skips : Tracked → Prop) [DecidablePred skips]
    {edit : Read → Prog api (Except ApiError Unit)}
    (edits : ∀ read, ¬skips read.object →
      (discipline finalizer strict).Safe run (Ends adds) (edit read) ⟨some read, false⟩) :
    (discipline finalizer strict).Safe run (Ends adds) (.call Op.get fun
      | .error .notFound => .ret (.ok ())
      | .error error => .ret (.error error)
      | .ok read => if skips read.object then .ret (.ok ()) else edit read) .free := by
  refine ⟨trivial, fun server notes inv noted choice answer after _ performed => ?_⟩
  obtain ⟨rfl, ⟨error, rfl, _⟩ | rfl⟩ := get_cases performed
  · cases error with
    | notFound => exact ⟨⟨none, adds⟩, inv.forget (by simp [noted, Note.free]), fun _ => rfl, by simp [Repeats]⟩
    | _ => exact ⟨.free, inv.forget (by simp [noted, Note.free]), by simp, fun _ _ _ => rfl⟩
  by_cases skipped : skips after.current
  · refine ⟨⟨none, adds⟩, inv.forget (by simp [noted, Note.free]), ?_⟩
    simp only [if_pos skipped]
    exact ⟨fun _ => rfl, by simp [Repeats]⟩
  refine ⟨⟨some ⟨after.version, after.current⟩, false⟩, inv.update ?_ (by simp [noted, Note.free]), ?_⟩
  · intro read isRead
    cases isRead
    simp [Server.versions, Server.version]
  · simp only [if_neg skipped]
    exact edits _ skipped

theorem safe_updateWorkloads {change : List Str → List Str} (adds : Bool)
    (shrinks : adds = true ∨ ∀ workloads, change workloads ≠ [] → workloads ≠ []) :
    (discipline finalizer strict).Safe run (Ends adds) (updateWorkloads change) .free := by
  refine safe_get (fun object => (change object.activeWorkloads).length = object.activeWorkloads.length)
    fun read _ => ?_
  refine ⟨trivial, fun server notes inv noted choice answer after _ performed => ?_⟩
  rcases write_cases (Option.some.inj performed) with ⟨rfl, error, rfl, _⟩ | ⟨base, rfl, result⟩
  · exact ⟨.free, inv.forget (by simp [noted]), by simp, fun _ _ _ => rfl⟩
  have current := current_of_known (inv.known run read (by rw [noted])) base
  refine ⟨⟨none, adds⟩, inv.put (fun present missing => absurd present missing) rfl fun _ active missing => ?_, ?_⟩
  · rcases shrinks with isAdding | shrinks
    · exact Or.inl isAdding
    · exact Or.inr ⟨by rw [noted], current ▸ shrinks _ active, missing⟩
  · rcases result with rfl | rfl
    · exact ⟨fun _ => rfl, by simp [Repeats]⟩
    · exact ⟨by simp, fun error same repeats => by cases same; cases repeats⟩

/-- A call that is to be repeated leaves the run where it started. A success or a missing object sets it free. -/
theorem safe_addFinalizer : (discipline finalizer strict).Safe run
    (fun result note => (result = .ok () ∨ result = .error .notFound → note = .free) ∧
      Repeats ⟨none, true⟩ (ignoreNotFound result) note)
    (addFinalizer finalizer) ⟨none, true⟩ := by
  refine ⟨trivial, fun server notes inv noted choice answer after allowed performed => ?_⟩
  obtain ⟨rfl, ⟨error, rfl, gone⟩ | ⟨version, object, rfl, found, rfl⟩⟩ := getCached_cases performed
  · cases error with
    | notFound =>
      refine ⟨.free, inv.forget fun _ present => ?_, fun _ => rfl, by simp [Repeats, ignoreNotFound]⟩
      rw [gone rfl] at present
      cases present
    | _ => exact ⟨⟨none, true⟩, inv.forget (by simp), by simp, fun _ _ _ => rfl⟩
  by_cases carries : finalizer ∈ object.finalizers
  · refine ⟨.free, inv.forget fun holds _ active missing _ => ?_, ?_⟩
    · rcases allowed holds object found carries with locked | inactive
      · exact absurd locked missing
      · exact absurd inactive active
    · simp only [if_pos carries]
      exact ⟨fun _ => rfl, by simp [Repeats, ignoreNotFound]⟩
  refine ⟨⟨some ⟨version, object⟩, true⟩, inv.update ?_ (by simp), ?_⟩
  · intro read isRead
    cases isRead
    exact found
  simp only [if_neg carries]
  refine ⟨trivial, fun server' notes' inv' noted' choice' answer' after' _ performed' => ?_⟩
  rcases write_cases (Option.some.inj performed') with ⟨rfl, error, rfl, gone⟩ | ⟨base, rfl, result⟩
  · cases error with
    | notFound =>
      refine ⟨.free, inv'.forget fun _ present => ?_, fun _ => rfl, by simp [Repeats, ignoreNotFound]⟩
      rw [gone rfl] at present
      cases present
    | _ => exact ⟨⟨none, true⟩, inv'.forget (by simp), by simp, fun _ _ _ => rfl⟩
  · have added : finalizer ∈ object.finalizers ++ [finalizer] := by simp
    refine ⟨.free, inv'.put (fun _ missing => absurd added missing) rfl fun _ _ missing => absurd added missing, ?_⟩
    rcases result with rfl | rfl
    · exact ⟨fun _ => rfl, by simp [Repeats, ignoreNotFound]⟩
    · exact ⟨by simp, fun error same repeats => by cases same; cases repeats⟩

theorem safe_removeFinalizer :
    (discipline finalizer strict).Safe run (Ends false) (removeFinalizer finalizer) .free := by
  refine safe_get (fun object => (object.activeWorkloads.length > 0 || finalizer ∉ object.finalizers) = true)
    fun read edits => ?_
  refine ⟨trivial, fun server notes inv noted choice answer after _ performed => ?_⟩
  rcases write_cases (Option.some.inj performed) with ⟨rfl, error, rfl, _⟩ | ⟨base, rfl, result⟩
  · exact ⟨.free, inv.forget (by simp [noted]), fun _ => rfl, fun _ _ _ => rfl⟩
  have inactive : server.current.activeWorkloads = [] := by
    rw [current_of_known (inv.known run read (by rw [noted])) base]
    by_contra active
    exact edits (by simp [List.length_pos_iff.mpr active])
  refine ⟨.free, inv.put (fun _ _ => inactive) rfl fun _ active _ => absurd inactive active, ?_⟩
  exact ⟨fun _ => rfl, fun _ _ _ => rfl⟩

theorem safe_retry {attempt : Prog api (Except ApiError Unit)} {start : Note}
    {post : Except ApiError Unit → Note → Prop}
    (once : (discipline finalizer strict).Safe run (fun result note => post result note ∧ Repeats start result note)
      attempt start) :
    (discipline finalizer strict).Safe run post (retry attempt) start := by
  refine Discipline.Safe.retry (· = start) (fun note starts => ?_) 4 rfl
  rw [starts]
  exact once

theorem safe_trackPod (podID : Str) : (discipline finalizer strict).Safe run
    (fun result note => result = .ok () → note = .free) (trackPod finalizer podID) .free := by
  refine .bind ((safe_retry (safe_updateWorkloads true (Or.inl rfl))).imp fun result note tracked => ?_)
  cases result with
  | error error => exact fun same => by cases same
  | ok _ =>
    rw [tracked rfl]
    refine safe_retry (.bind (safe_addFinalizer.imp fun result note ended => ⟨fun same => ended.1 ?_, ended.2⟩))
    cases result with
    | ok _ => exact Or.inl rfl
    | error error =>
      cases error with
      | notFound => exact Or.inr rfl
      | _ => cases same

theorem safe_untrackPod (podID : Str) : (discipline finalizer strict).Safe run
    (fun result note => result = .ok () → note = .free) (untrackPod finalizer podID) .free := by
  have shrinks : ∀ workloads : List Str, removeIfExists workloads podID ≠ [] → workloads ≠ [] := by
    intro workloads some' none'
    rw [none'] at some'
    exact some' rfl
  refine .bind ((safe_retry (safe_updateWorkloads false (Or.inr shrinks))).imp fun result note untracked => ?_)
  cases result with
  | error error => exact fun same => by cases same
  | ok _ =>
    rw [untracked rfl]
    exact safe_retry safe_removeFinalizer

theorem safe_fail {note : Note} : (discipline finalizer strict).Safe run (fun _ note => note = .free)
    (.call Op.fail .ret : Prog api Unit) note := by
  refine ⟨trivial, fun server notes inv noted choice answer after _ performed => ?_⟩
  cases performed
  refine ⟨.free, ⟨inv.chain, fun other read isRead => ?_, fun _ _ _ _ => Or.inr (Nat.succ_pos _)⟩, rfl⟩
  by_cases same : other = run
  · subst same
    rw [update_self] at isRead
    cases isRead
  · rw [update_of_ne same] at isRead
    exact inv.known other read isRead

theorem safe_code (tracker : Tracker) (run : Run) : (discipline tracker.finalizer strict).Safe run
    (fun _ note => note = .free) (tracker.code run) .free := by
  have pod : (discipline tracker.finalizer strict).Safe run (fun result note => result = .ok () → note = .free)
      (tracker.update run) .free := by
    unfold Tracker.update
    split
    · exact safe_trackPod run.podID
    · exact safe_untrackPod run.podID
  refine .bind (pod.imp fun result note ended => ?_)
  cases result with
  | ok _ => exact ended rfl
  | error error => exact safe_fail

end safe

theorem inv_of_reach {tracker : Tracker} (strict : Prop) {object : Tracked}
    (locked : strict → object.activeWorkloads ≠ [] → tracker.finalizer ∈ object.finalizers)
    {permits : World api Run → Act api Run → Prop}
    (fresh : strict → ∀ world act, permits world act → CacheShowsLock tracker.finalizer world act)
    {world : World api Run} (reach : World.Reach tracker.code permits (.idle (.create object)) world) :
    ∃ notes, (discipline tracker.finalizer strict).Noted world notes := by
  refine Discipline.noted_of_reach reach ?_ (fun run => safe_code tracker run) ?_ ?_
  · refine ⟨List.isChain_singleton _, fun _ _ noted => (nomatch noted), fun holds _ active missing => ?_⟩
    exact absurd (locked holds active) missing
  · intro world _ run choice op permitted _ comes holds
    exact fresh holds world _ permitted op comes
  · intro world notes _ after _ noted occurred
    cases Option.some.inj occurred
    exact ⟨noted.inv.chain, noted.inv.known, fun _ present => nomatch present⟩

/-- The finalizer goes only with a write based on a version without active workloads. If in addition no cached read
shows a finalizer that an object with active workloads has lost, an object with active workloads carries it once all
runs ended without an error. -/
theorem active_workloads_locked (tracker : Tracker) (object : Tracked) :
    (∀ world, World.Reach tracker.code (fun _ _ => True) (.idle (.create object)) world →
      NeverUnlocked tracker.finalizer world.state) ∧
    ((object.activeWorkloads ≠ [] → tracker.finalizer ∈ object.finalizers) →
      ∀ world, World.Reach tracker.code (CacheShowsLock tracker.finalizer) (.idle (.create object)) world →
        world.Done → world.state.failures = 0 → world.state.gone = false →
        world.state.current.activeWorkloads ≠ [] →
        tracker.finalizer ∈ world.state.current.finalizers) := by
  constructor
  · intro world reach
    obtain ⟨notes, noted⟩ := inv_of_reach False (fun no => no.elim) (fun no => no.elim) reach
    exact noted.inv.chain
  · intro locked world reach done succeeded present active
    obtain ⟨notes, noted⟩ := inv_of_reach True (fun _ => locked) (fun _ _ _ fresh => fresh) reach
    by_contra missing
    rcases noted.inv.owed trivial present active missing with ⟨run, adding⟩ | failed
    · rw [noted.idle (done run)] at adding
      cases adding
    · omega

/-- Cached reads of the current version. -/
def readsCurrent (world : World api Run) : Act api Run → Bool
  | .step run (.serve version) => (world.threads run).next? != some .getCached || version == world.state.version
  | _ => true

theorem cacheShowsLock_of_readsCurrent {finalizer : Str} {world : World api Run} {act : Act api Run}
    (current : readsCurrent world act = true) : CacheShowsLock finalizer world act := by
  cases act with
  | start run => trivial
  | event event => trivial
  | step run choice =>
    intro op comes
    cases op <;> cases choice <;> try trivial
    next version =>
      intro object found carries
      have same : version = world.state.version := by simpa [readsCurrent, comes] using current
      rw [same] at found
      have isCurrent : world.state.current = object := by simpa [Server.versions, Server.version] using found
      exact Or.inl (isCurrent ▸ carries)

section runs

def webPod : Run := ⟨true, "n/web".toList, 0⟩
def oldPod : Run := ⟨false, "n/old".toList, 0⟩

/-- The pod is added to the active workloads, and the cached read shows no finalizer yet. -/
def trackActs : List (Act api Run) :=
  [.start webPod, .step webPod (.serve 0), .step webPod (.serve 0), .step webPod (.serve 1),
    .step webPod (.serve 0)]

/-- A binding in use by a pod is locked. -/
theorem tracked_binding_locked :
    ∃ world, World.Reach Tracker.binding.code (CacheShowsLock Tracker.binding.finalizer)
    (.idle (.create ⟨[], []⟩)) world ∧ world.state.current.activeWorkloads ≠ [] ∧
      Tracker.binding.finalizer ∈ world.state.current.finalizers := by
  have ran : World.endsIn Tracker.binding.code readsCurrent (.create ⟨[], []⟩) trackActs (fun server =>
      server.failures = 0 ∧ server.gone = false ∧ server.current.activeWorkloads ≠ []) = true := by decide
  obtain ⟨world, reach, done, ended⟩ := World.exists_of_endsIn ran fun _ _ => cacheShowsLock_of_readsCurrent
  obtain ⟨succeeded, present, active⟩ := of_decide_eq_true ended
  have locked :=
    (active_workloads_locked .binding ⟨[], []⟩).2 (fun some' => absurd rfl some') world reach done succeeded
    present active
  exact ⟨world, reach, active, locked⟩

/-- The finalizer is removed with the last pod. For the next one a cached read still shows it. -/
def staleActs : List (Act api Run) :=
  [.start oldPod, .step oldPod (.serve 0), .step oldPod (.serve 0), .step oldPod (.serve 0),
    .step oldPod (.serve 0), .start webPod, .step webPod (.serve 0), .step webPod (.serve 0),
    .step webPod (.serve 1)]

/-- All runs end without an error, a pod is active, and the binding is not locked. -/
theorem stale_cache_unlocks_binding :
    ∃ world, World.Reach Tracker.binding.code (fun _ _ => True)
      (.idle (.create ⟨[Tracker.binding.finalizer], ["n/old".toList]⟩)) world ∧ world.Done ∧
        world.state.failures = 0 ∧
      world.state.gone = false ∧ world.state.current = ⟨[], ["n/web".toList]⟩ := by
  have ran : World.endsIn Tracker.binding.code (fun _ _ => true)
      (.create ⟨[Tracker.binding.finalizer], ["n/old".toList]⟩) staleActs (fun server =>
      server.failures = 0 ∧ server.gone = false ∧ server.current = ⟨[], ["n/web".toList]⟩) = true := by decide
  obtain ⟨world, reach, done, ended⟩ := World.exists_of_endsIn ran fun _ _ _ => trivial
  obtain ⟨succeeded, present, unlocked⟩ := of_decide_eq_true ended
  exact ⟨world, reach, done, succeeded, present, unlocked⟩

end runs

end SecurityProfiles.Locking
