import SecurityProfiles.Selinux.Cil
import SecurityProfiles.Library.Worklist
import Mathlib.Data.List.ReduceOption
import Mathlib.Data.List.Chain

namespace SecurityProfiles.Selinux

open List

inductive PolicyRefKind where
  | unset
  | system
  | selinuxProfile
  | other (kind : String)
deriving DecidableEq

structure PolicyRef where
  kind : PolicyRefKind
  name : String

structure SelinuxProfile extends Profile where
  inherit : List PolicyRef

inductive Lookup where
  | found (profile : SelinuxProfile)
  | missing
  | failed

/-- The profiles that the API server has, if it answers. -/
structure Api where
  stored : String → Option SelinuxProfile
  named : ∀ {name profile}, stored name = some profile → profile.name = name
  answers : String → Bool

def Api.get (api : Api) (name : String) : Lookup :=
  if api.answers name then
    match api.stored name with
    | some profile => .found profile
    | none => .missing
  else .failed

inductive ValidationError where
  | temporary
  | systemInheritNotAllowed (name : String)
  | unknownKindForEntry (ref : PolicyRef)
  | inheritNotFound (name : String)
  | inheritCycle (name : String)
  | inheritTooDeep
  | invalidLabelKey (key : String)
  | invalidObjClass (objClass : String)
  | invalidPermission (perm : String)

def maxInheritDepth : Nat := 32

/-- A profile in the chain of inherited profiles, with its distance from the profile which gets checked. -/
structure InheritEntry where
  profile : SelinuxProfile
  depth : Nat

/-- What a reference adds to the queue. A profile that is missing is reported by the reconcile of the ancestor. -/
def nextEntry (api : Api) (own : String) (depth : Nat) (ref : PolicyRef) :
    Except ValidationError (Option InheritEntry) :=
  if ref.kind ≠ .selinuxProfile then .ok none
  else if ref.name = own then .error (.inheritCycle own)
  else
    match api.get ref.name with
    | .missing => .ok none
    | .failed => .error .temporary
    | .found next => .ok (some ⟨next, depth⟩)

def nextEntries (api : Api) (own : String) (depth : Nat) (refs : List PolicyRef) :
    Except ValidationError (List InheritEntry) :=
  (refs.mapM (nextEntry api own depth)).map List.reduceOption

/-- The body of the loop of `checkInheritCycle`. -/
def visitEntry (api : Api) (own : String) (visited : List String) (current : InheritEntry) :
    Except ValidationError (List String × List InheritEntry) :=
  if current.profile.name = own then .error (.inheritCycle own)
  else if current.depth > maxInheritDepth then .error .inheritTooDeep
  else if current.profile.name ∈ visited then .ok (visited, [])
  else (nextEntries api own (current.depth + 1) current.profile.inherit).map (current.profile.name :: visited, ·)

section entries

variable {api : Api} {own name : String} {profile : SelinuxProfile} {depth : Nat} {refs : List PolicyRef}
  {visited : List String}

theorem Api.get_found (found : api.get name = .found profile) : api.stored name = some profile := by
  unfold Api.get at found
  split at found
  · split at found
    · next stored =>
        cases found
        exact stored
    · cases found
  · cases found

theorem Api.get_missing (missing : api.get name = .missing) : api.stored name = none := by
  unfold Api.get at missing
  split at missing
  · split at missing
    · cases missing
    · next none => exact none
  · cases missing

theorem nextEntry_ok {ref : PolicyRef} {added : Option InheritEntry}
    (isOk : nextEntry api own depth ref = .ok added) :
    ref ≠ ⟨.selinuxProfile, own⟩ ∧
      added = if ref.kind = .selinuxProfile then (api.stored ref.name).map (⟨·, depth⟩) else none := by
  unfold nextEntry at isOk
  split at isOk
  · next other =>
      cases isOk
      exact ⟨fun isOwn => other (isOwn ▸ rfl), (if_neg other).symm⟩
  next isProfile =>
  rw [if_pos (not_not.mp isProfile)]
  split at isOk
  · cases isOk
  next different =>
  refine ⟨fun isOwn => different (isOwn ▸ rfl), ?_⟩
  split at isOk
  · next missing =>
      cases isOk
      rw [Api.get_missing missing, Option.map_none]
  · cases isOk
  · next found =>
      cases isOk
      rw [Api.get_found found, Option.map_some]

theorem nextEntry_error {ref : PolicyRef} {error : ValidationError}
    (isError : nextEntry api own depth ref = .error error) :
    error = .temporary ∨ error = .inheritCycle own ∧ ref = ⟨.selinuxProfile, own⟩ := by
  obtain ⟨kind, name⟩ := ref
  unfold nextEntry at isError
  split at isError
  · cases isError
  · next isProfile =>
      split at isError
      · next isSelf =>
          cases isError
          dsimp only at isSelf isProfile
          rw [isSelf, not_not.mp isProfile]
          exact .inr ⟨rfl, rfl⟩
      · split at isError
        · cases isError
        · cases isError
          exact .inl rfl
        · cases isError

theorem nextEntries_ok {entries : List InheritEntry} (isOk : nextEntries api own depth refs = .ok entries) :
    ⟨.selinuxProfile, own⟩ ∉ refs ∧
      ∀ entry, entry ∈ entries ↔ entry.depth = depth ∧ ⟨.selinuxProfile, entry.profile.name⟩ ∈ refs ∧
        api.stored entry.profile.name = some entry.profile := by
  obtain ⟨added, mapped, rfl⟩ := Fallible.map_ok.mp isOk
  have each := Fallible.mapM_mem mapped
  refine ⟨fun listed => ?_, fun entry => ⟨fun member => ?_, ?_⟩⟩
  · obtain ⟨one, _, isAdded⟩ := each.1 _ listed
    exact (nextEntry_ok isAdded).1 rfl
  · obtain ⟨⟨kind, name⟩, listed, isAdded⟩ := each.2 _ (reduceOption_mem_iff.mp member)
    obtain ⟨rfl, found⟩ := Option.ite_none_right_eq_some.mp (nextEntry_ok isAdded).2.symm
    obtain ⟨profile, stored, rfl⟩ := Option.map_eq_some_iff.mp found
    obtain rfl := api.named stored
    exact ⟨rfl, listed, stored⟩
  · rintro ⟨rfl, listed, stored⟩
    obtain ⟨one, member, isAdded⟩ := each.1 _ listed
    rw [(nextEntry_ok isAdded).2, if_pos rfl, stored] at member
    exact reduceOption_mem_iff.mpr member

theorem nextEntries_error {error : ValidationError} (isError : nextEntries api own depth refs = .error error) :
    error = .temporary ∨ error = .inheritCycle own ∧ ⟨.selinuxProfile, own⟩ ∈ refs := by
  obtain ⟨ref, listed, failed⟩ := Fallible.mapM_error (Fallible.map_error.mp isError)
  rcases nextEntry_error failed with isTemporary | ⟨isCycle, rfl⟩
  · exact .inl isTemporary
  · exact .inr ⟨isCycle, listed⟩

theorem visitEntry_ok {current : InheritEntry} {next : List String} {more : List InheritEntry}
    (isOk : visitEntry api own visited current = .ok (next, more)) :
    current.profile.name ≠ own ∧ current.depth ≤ maxInheritDepth ∧
      (∀ name, name ∈ next ↔ name = current.profile.name ∨ name ∈ visited) ∧
      (current.profile.name ∈ visited ∧ more = [] ∨
        current.profile.name ∉ visited ∧ nextEntries api own (current.depth + 1) current.profile.inherit =
        .ok more) := by
  unfold visitEntry at isOk
  split at isOk
  · cases isOk
  next different =>
  split at isOk
  · cases isOk
  next shallow =>
  refine ⟨different, not_lt.mp shallow, ?_⟩
  split at isOk
  · next known =>
      cases isOk
      exact ⟨fun name => (or_iff_right_of_imp fun same => same ▸ known).symm, .inl ⟨known, rfl⟩⟩
  · next fresh =>
      obtain ⟨entries, isEntries, isPair⟩ := Fallible.map_ok.mp isOk
      cases isPair
      exact ⟨fun name => mem_cons, .inr ⟨fresh, isEntries⟩⟩

theorem visitEntry_ends (api : Api) (own : String) : WellFounded (Worklist.Turn (visitEntry api own)) := by
  -- An entry is at most one level deeper than allowed.
  refine @Worklist.ends_of_rank _ _ _ _ (fun entry => maxInheritDepth + 1 - entry.depth) ?_
  intro visited current next more isOk entry added
  obtain ⟨-, shallow, -, ⟨-, rfl⟩ | ⟨-, isEntries⟩⟩ := visitEntry_ok isOk
  · exact absurd added not_mem_nil
  · have isDepth := (((nextEntries_ok isEntries).2 entry).mp added).1
    omega

end entries

def checkInheritCycle (api : Api) (own : String) (ancestor : SelinuxProfile) :
    Except ValidationError (List String) :=
  Worklist.run (visitEntry api own) (visitEntry_ends api own) [] [⟨ancestor, 1⟩]

/-- The configuration of the daemon for SELinux. -/
structure SpodSelinux where
  allowedSystemProfiles : List String
  options : Options

/-- What the validation tracks for the translation. -/
structure Inherits where
  systemInherits : List String
  objInherits : List SelinuxProfile

def handleInheritSystemPolicy (spod : SpodSelinux) (ref : PolicyRef) (inherits : Inherits) :
    Except ValidationError Inherits :=
  if ref.name ∈ spod.allowedSystemProfiles then
    .ok { inherits with systemInherits := inherits.systemInherits ++ [ref.name] }
  else .error (.systemInheritNotAllowed ref.name)

def handleInheritSPOPolicy (api : Api) (own : String) (ref : PolicyRef) (inherits : Inherits) :
    Except ValidationError Inherits :=
  match api.get ref.name with
  | .missing => .error (.inheritNotFound ref.name)
  | .failed => .error .temporary
  | .found ancestor => (checkInheritCycle api own ancestor).map fun _ =>
    { inherits with objInherits := inherits.objInherits ++ [ancestor] }

def validateAndTrackInherit (api : Api) (spod : SpodSelinux) (own : String) (ref : PolicyRef)
    (inherits : Inherits) :
    Except ValidationError Inherits :=
  match ref.kind with
  | .unset | .system => handleInheritSystemPolicy spod ref inherits
  | .selinuxProfile => handleInheritSPOPolicy api own ref inherits
  | .other _ => .error (.unknownKindForEntry ref)

def trackInherits (api : Api) (spod : SpodSelinux) (own : String) :
    List PolicyRef → Inherits → Except ValidationError Inherits
  | [], inherits => .ok inherits
  | ref :: refs, inherits => do
    trackInherits api spod own refs (← validateAndTrackInherit api spod own ref inherits)

def validateLabelKey (key : String) : Except ValidationError Unit :=
  Fallible.require (isIdentifier key.toList || key = allowSelf) (.invalidLabelKey key)

def validateObjClass (objClass : String) : Except ValidationError Unit :=
  Fallible.require (isIdentifier objClass.toList) (.invalidObjClass objClass)

def validatePermission (perm : String) : Except ValidationError Unit :=
  Fallible.require (isIdentifier perm.toList) (.invalidPermission perm)

def validateAllow (allow : Allow) : Except ValidationError Unit :=
  allow.entries.forM fun label => do
    validateLabelKey label.1
    label.2.entries.forM fun objClass => do
      validateObjClass objClass.1
      objClass.2.forM validatePermission

def validate (api : Api) (spod : Option SpodSelinux) (profile : SelinuxProfile) : Except ValidationError Inherits :=
  match spod with
  | none => .error .temporary
  | some spod => do
    let inherits ← trackInherits api spod profile.name profile.inherit ⟨[], []⟩
    validateAllow profile.allow
    return inherits

/-- A profile that exists inherits from another one that exists. -/
def Api.Refers (api : Api) (name next : String) : Prop :=
  ∃ profile, api.stored name = some profile ∧ ⟨.selinuxProfile, next⟩ ∈ profile.inherit ∧
    (api.stored next).isSome = true

section search

variable {api : Api} {own : String} {ancestor : SelinuxProfile} {visited : List String} {queue : List InheritEntry}

/-- How the search got to an entry: back through different profiles that were visited. -/
structure Reached (api : Api) (own : String) (visited : List String) (entry : InheritEntry) (trail : List String) :
    Prop where
  chain : (entry.profile.name :: (trail ++ [own])).IsChain fun name before => api.Refers before name
  depth : trail.length + 1 = entry.depth
  distinct : (trail ++ [own]).Nodup
  expanded : ∀ name ∈ trail, name ∈ visited

def Covered (visited : List String) (queue : List InheritEntry) (name : String) : Prop :=
  name ∈ visited ∨ ∃ entry ∈ queue, entry.profile.name = name

/-- What the loop keeps. -/
structure Searching (api : Api) (own : String) (ancestor : SelinuxProfile) (visited : List String)
    (queue : List InheritEntry) : Prop where
  stored : ∀ entry ∈ queue, api.stored entry.profile.name = some entry.profile
  reached : ∀ entry ∈ queue, ∃ trail, Reached api own visited entry trail
  closed : ∀ name ∈ visited, name ≠ own ∧ ∀ next, api.Refers name next → next ≠ own ∧ Covered visited queue next
  covered : Covered visited queue ancestor.name

theorem Covered.mono {visited' : List String} {queue' : List InheritEntry} {name : String}
    (covered : Covered visited queue name) (more : ∀ name ∈ visited, name ∈ visited')
    (entries : ∀ entry ∈ queue, Covered visited' queue' entry.profile.name) : Covered visited' queue' name := by
  rcases covered with isVisited | ⟨entry, queued, rfl⟩
  · exact .inl (more name isVisited)
  · exact entries entry queued

theorem Reached.mono {visited' : List String} {entry : InheritEntry} {trail : List String}
    (reached : Reached api own visited entry trail) (more : ∀ name ∈ visited, name ∈ visited') :
    Reached api own visited' entry trail :=
  { reached with expanded := fun name member => more name (reached.expanded name member) }

theorem Reached.next {entry next : InheritEntry} {trail : List String}
    (reached : Reached api own visited entry trail) (fresh : entry.profile.name ∉ visited)
    (different : entry.profile.name ≠ own) (refers : api.Refers entry.profile.name next.profile.name)
    (isDepth : next.depth = entry.depth + 1) :
    Reached api own (entry.profile.name :: visited) next (entry.profile.name :: trail) where
  chain := isChain_cons_cons.mpr ⟨refers, reached.chain⟩
  depth := by
    rw [isDepth, ← reached.depth, length_cons]
  distinct := by
    refine nodup_cons.mpr ⟨fun member => ?_, reached.distinct⟩
    rcases mem_append.mp member with inTrail | isOwn
    · exact fresh (reached.expanded _ inTrail)
    · exact different (mem_singleton.mp isOwn)
  expanded := forall_mem_cons.mpr
    ⟨mem_cons_self, fun name inTrail => mem_cons_of_mem _ (reached.expanded name inTrail)⟩

/-- The way to the entry. -/
theorem Reached.forward {entry : InheritEntry} {trail : List String}
    (reached : Reached api own visited entry trail) :
    (own :: (trail.reverse ++ [entry.profile.name])).IsChain api.Refers := by
  simpa using isChain_reverse.mpr reached.chain

theorem transGen_of_chain {refers : String → String → Prop} {first last : String} {trail : List String}
    (chain : (first :: (trail ++ [last])).IsChain refers) : Relation.TransGen refers first last := by
  induction trail generalizing first with
  | nil => exact .single (isChain_cons_cons.mp chain).1
  | cons name trail ih =>
    obtain ⟨step, rest⟩ := isChain_cons_cons.mp chain
    exact .head step (ih rest)

theorem searching_start (stored : api.stored ancestor.name = some ancestor)
    (refers : api.Refers own ancestor.name) :
    Searching api own ancestor [] [⟨ancestor, 1⟩] where
  stored := by
    intro entry member
    rw [mem_singleton.mp member]
    exact stored
  reached := by
    intro entry member
    rw [mem_singleton.mp member]
    exact ⟨[], isChain_pair.mpr refers, rfl, nodup_singleton _, fun _ none => absurd none not_mem_nil⟩
  closed := fun _ none => absurd none not_mem_nil
  covered := .inr ⟨_, mem_singleton_self _, rfl⟩

/-- A visit keeps what is known of the search. The entries that it adds are reached by one more reference. -/
theorem Searching.visit {current : InheritEntry} {rest : List InheritEntry} {next : List String}
    {more : List InheritEntry} (searching : Searching api own ancestor visited (current :: rest))
    (isOk : visitEntry api own visited current = .ok (next, more)) :
    Searching api own ancestor next (rest ++ more) := by
  obtain ⟨different, -, visits, expansion⟩ := visitEntry_ok isOk
  obtain ⟨isStored, storedRest⟩ := forall_mem_cons.mp searching.stored
  obtain ⟨⟨trail, isReached⟩, reachedRest⟩ := forall_mem_cons.mp searching.reached
  have grows : ∀ name ∈ visited, name ∈ next := fun name before => (visits name).mpr (.inr before)
  have still : ∀ entry ∈ current :: rest, Covered next (rest ++ more) entry.profile.name := by
    intro entry member
    rcases mem_cons.mp member with rfl | later
    · exact .inl ((visits _).mpr (.inl rfl))
    · exact .inr ⟨entry, mem_append_left _ later, rfl⟩
  have added : ∀ entry ∈ more, current.profile.name ∉ visited ∧ entry.depth = current.depth + 1 ∧
      api.Refers current.profile.name entry.profile.name ∧ api.stored entry.profile.name = some entry.profile := by
    intro entry member
    rcases expansion with ⟨-, rfl⟩ | ⟨fresh, isEntries⟩
    · cases member
    · obtain ⟨isDepth, listed, stored⟩ := ((nextEntries_ok isEntries).2 entry).mp member
      exact ⟨fresh, isDepth, ⟨current.profile, isStored, listed, by rw [stored]; rfl⟩, stored⟩
  refine ⟨forall_mem_append.mpr ⟨storedRest, fun entry member => (added entry member).2.2.2⟩,
    forall_mem_append.mpr ⟨fun entry later => ?_, fun entry member => ?_⟩, fun name member => ?_,
    searching.covered.mono grows still⟩
  · obtain ⟨trail, reached⟩ := reachedRest entry later
    exact ⟨trail, reached.mono grows⟩
  · obtain ⟨fresh, isDepth, refers, -⟩ := added entry member
    exact ⟨_, (isReached.next fresh different refers isDepth).mono fun name => (visits name).mpr ∘ mem_cons.mp⟩
  · by_cases before : name ∈ visited
    · obtain ⟨other, references⟩ := searching.closed name before
      exact ⟨other, fun next refers => ⟨(references next refers).1, (references next refers).2.mono grows still⟩⟩
    obtain rfl := ((visits name).mp member).resolve_right before
    refine ⟨different, ?_⟩
    rintro following ⟨profile, isProfile, listed, exists_⟩
    obtain rfl := Option.some.inj (isStored.symm.trans isProfile)
    obtain ⟨target, isTarget⟩ := Option.isSome_iff_exists.mp exists_
    obtain rfl := api.named isTarget
    rcases expansion with ⟨known, -⟩ | ⟨-, isEntries⟩
    · exact absurd known before
    · refine ⟨fun isOwn => (nextEntries_ok isEntries).1 (isOwn ▸ listed),
        .inr ⟨⟨target, current.depth + 1⟩, ?_, rfl⟩⟩
      exact mem_append_right _ (((nextEntries_ok isEntries).2 _).mpr ⟨rfl, listed, isTarget⟩)

/-- A chain of references from a profile with too many profiles, which are different except for the last one. -/
def TooDeep (api : Api) (own : String) : Prop :=
  ∃ chain : List String, (own :: chain).IsChain api.Refers ∧ maxInheritDepth < chain.length ∧
    (own :: chain.dropLast).Nodup

/-- What an error of the validation says about the profile. -/
def Justified (api : Api) (own : String) (error : ValidationError) : Prop :=
  (∃ name, error = .inheritCycle name) ∨ error = .inheritTooDeep →
    Relation.TransGen api.Refers own own ∨ TooDeep api own

/-- The validation refuses a profile as cyclic or too deep with a reason: the trail of the current entry shows
it. -/
theorem Searching.justified {current : InheritEntry} {rest : List InheritEntry} {error : ValidationError}
    (existing : (api.stored own).isSome = true) (searching : Searching api own ancestor visited (current :: rest))
    (refused : visitEntry api own visited current = .error error) : Justified api own error := by
  intro kind
  obtain ⟨trail, reached⟩ := searching.reached current mem_cons_self
  have toCurrent := transGen_of_chain reached.forward
  unfold visitEntry at refused
  split at refused
  · next isOwn =>
      rw [isOwn] at toCurrent
      exact .inl toCurrent
  · split at refused
    · next deep =>
        refine .inr ⟨_, reached.forward, ?_, ?_⟩
        · rw [length_append, length_reverse, length_singleton, reached.depth]
          exact deep
        · rw [dropLast_concat]
          simpa using nodup_reverse.mpr reached.distinct
    · split at refused
      · cases refused
      · rcases nextEntries_error (Fallible.map_error.mp refused) with isTemporary | ⟨isCycle, listed⟩
        · rw [isTemporary] at kind
          rcases kind with ⟨name, isCycle⟩ | isDeep
          · cases isCycle
          · cases isDeep
        · refine .inl (toCurrent.tail ⟨current.profile, ?_, listed, existing⟩)
          exact searching.stored current mem_cons_self

/-- Once the queue is empty, all that is reachable was visited. -/
theorem Searching.acyclic (searching : Searching api own ancestor visited []) :
    ¬Relation.ReflTransGen api.Refers ancestor.name own := by
  have covered : ∀ {name}, Covered visited [] name → name ∈ visited := by
    intro name covered
    rcases covered with isVisited | ⟨entry, member, -⟩
    · exact isVisited
    · exact absurd member not_mem_nil
  have visits : ∀ {name}, Relation.ReflTransGen api.Refers ancestor.name name → name ∈ visited := by
    intro name reachable
    induction reachable with
    | refl => exact covered searching.covered
    | tail _ refers ih => exact covered ((searching.closed _ ih).2 _ refers).2
  intro reachable
  exact (searching.closed own (visits reachable)).1 rfl

theorem checkInheritCycle_spec (stored : api.stored ancestor.name = some ancestor)
    (refers : api.Refers own ancestor.name) (existing : (api.stored own).isSome = true) :
    (∀ visited, checkInheritCycle api own ancestor = .ok visited →
        ¬Relation.ReflTransGen api.Refers ancestor.name own) ∧
      ∀ error, checkInheritCycle api own ancestor = .error error → Justified api own error := by
  have result := @Worklist.run_keeps _ _ _ _ (visitEntry_ends api own) _ _ _ (fun _ _ _ _ _ => Searching.visit)
    (searching_start stored refers)
  refine ⟨fun visited isOk => (result.1 visited isOk).acyclic, fun error isError => ?_⟩
  obtain ⟨visited, current, rest, searching, refused⟩ := result.2 error isError
  exact searching.justified existing refused

end search

section validation

variable {api : Api} {spod : SpodSelinux} {profile : SelinuxProfile} {ref : PolicyRef} {inherits : Inherits}

/-- What the validation of some references tells about them. -/
structure Tells (api : Api) (own : String) (refs : List PolicyRef) (outcome : Except ValidationError Inherits) :
    Prop where
  accepted : ∀ inherits, outcome = .ok inherits → ∀ next, ⟨.selinuxProfile, next⟩ ∈ refs →
    (api.stored next).isSome = true →
    ¬Relation.ReflTransGen api.Refers next own
  rejected : ∀ error, outcome = .error error → Justified api own error

theorem validateAllow_error {allow : Allow} {error : ValidationError}
    (failed : validateAllow allow = .error error) :
    (∃ key, error = .invalidLabelKey key) ∨ (∃ objClass, error = .invalidObjClass objClass) ∨
      ∃ perm, error = .invalidPermission perm := by
  obtain ⟨label, -, failed⟩ := Fallible.forM_error failed
  rcases Fallible.bind_error failed with isKey | ⟨_, failed⟩
  · exact .inl ⟨_, (Fallible.require_error isKey).symm⟩
  · obtain ⟨objClass, -, failed⟩ := Fallible.forM_error failed
    rcases Fallible.bind_error failed with isClass | ⟨_, failed⟩
    · exact .inr (.inl ⟨_, (Fallible.require_error isClass).symm⟩)
    · obtain ⟨perm, -, failed⟩ := Fallible.forM_error failed
      exact .inr (.inr ⟨_, (Fallible.require_error failed).symm⟩)

/-- Other errors are not about cycles. -/
theorem Tells.other {own : String} {refs : List PolicyRef} {error : ValidationError}
    (notCycle : ∀ name, error ≠ .inheritCycle name) (notDeep : error ≠ .inheritTooDeep) :
    Tells api own refs (.error error) where
  accepted := fun _ isOk => by cases isOk
  rejected := by
    intro same isError kind
    cases isError
    rcases kind with ⟨name, isCycle⟩ | isDeep
    · exact absurd isCycle (notCycle name)
    · exact absurd isDeep notDeep

theorem handleInheritSystemPolicy_spec {own : String} (notProfile : ref.kind ≠ .selinuxProfile) :
    Tells api own [ref] (handleInheritSystemPolicy spod ref inherits) := by
  unfold handleInheritSystemPolicy
  split
  · refine ⟨fun _ _ next listed => ?_, fun _ isError => by cases isError⟩
    rw [← mem_singleton.mp listed] at notProfile
    exact absurd rfl notProfile
  · exact .other (fun _ => ValidationError.noConfusion) ValidationError.noConfusion

section

variable (stored : api.stored profile.name = some profile)
include stored

theorem handleInheritSPOPolicy_spec (listed : ref ∈ profile.inherit) (isProfile : ref.kind = .selinuxProfile) :
    Tells api profile.name [ref] (handleInheritSPOPolicy api profile.name ref inherits) := by
  unfold handleInheritSPOPolicy
  split
  · exact .other (fun _ => ValidationError.noConfusion) ValidationError.noConfusion
  · exact .other (fun _ => ValidationError.noConfusion) ValidationError.noConfusion
  · next ancestor found =>
      have isAncestor := Api.get_found found
      have isName := api.named isAncestor
      have refers : api.Refers profile.name ancestor.name := by
        refine ⟨profile, stored, ?_, ?_⟩
        · rw [isName, ← isProfile]
          exact listed
        · rw [isName, isAncestor]
          rfl
      have spec := checkInheritCycle_spec (isName.symm ▸ isAncestor) refers (by rw [stored]; rfl)
      refine ⟨fun tracked isOk next isNext _ => ?_, fun error isError => ?_⟩
      · obtain ⟨visited, isVisited, -⟩ := Fallible.map_ok.mp isOk
        have isRef : next = ref.name := congrArg PolicyRef.name (mem_singleton.mp isNext)
        rw [isRef, ← isName]
        exact spec.1 visited isVisited
      · exact spec.2 error (Fallible.map_error.mp isError)

theorem validateAndTrackInherit_spec (listed : ref ∈ profile.inherit) :
    Tells api profile.name [ref] (validateAndTrackInherit api spod profile.name ref inherits) := by
  unfold validateAndTrackInherit
  split
  · next isKind => exact handleInheritSystemPolicy_spec (by rw [isKind]; exact PolicyRefKind.noConfusion)
  · next isKind => exact handleInheritSystemPolicy_spec (by rw [isKind]; exact PolicyRefKind.noConfusion)
  · next isKind => exact handleInheritSPOPolicy_spec stored listed isKind
  · exact .other (fun _ => ValidationError.noConfusion) ValidationError.noConfusion

theorem trackInherits_spec {refs : List PolicyRef} (listed : ∀ ref ∈ refs, ref ∈ profile.inherit)
    (inherits : Inherits) : Tells api profile.name refs (trackInherits api spod profile.name refs inherits) := by
  induction refs generalizing inherits with
  | nil => exact ⟨fun _ _ _ none => absurd none not_mem_nil, fun _ isError => by cases isError⟩
  | cons ref refs ih =>
    obtain ⟨listedHere, listedLater⟩ := forall_mem_cons.mp listed
    have first := @validateAndTrackInherit_spec _ spod _ _ inherits stored listedHere
    refine ⟨fun last isOk next member existing => ?_, fun error isError => ?_⟩
    · obtain ⟨tracked, isTracked, isOk⟩ := Fallible.bind_ok.mp isOk
      rcases mem_cons.mp member with here | later
      · exact first.accepted tracked isTracked next (mem_singleton.mpr here) existing
      · exact (ih listedLater tracked).accepted last isOk next later existing
    · rcases Fallible.bind_error isError with refused | ⟨tracked, refused⟩
      · exact first.rejected error refused
      · exact (ih listedLater tracked).rejected error refused

end

/-- The search of the validation ends. A profile that the validation accepts is not reachable from itself, and one
that it rejects as cyclic or as too deep is, or inherits through a chain of references that is too long. -/
theorem inherit_cycles_caught (api : Api) (spod : Option SpodSelinux) {profile : SelinuxProfile}
    (stored : api.stored profile.name = some profile) :
    WellFounded (Worklist.Turn (visitEntry api profile.name)) ∧
      (∀ inherits, validate api spod profile = .ok inherits →
        ¬Relation.TransGen api.Refers profile.name profile.name) ∧
      ∀ error, validate api spod profile = .error error → (∃ name, error = .inheritCycle name) ∨
      error = .inheritTooDeep →
        Relation.TransGen api.Refers profile.name profile.name ∨ TooDeep api profile.name := by
  refine ⟨visitEntry_ends api profile.name, ?_⟩
  cases spod with
  | none =>
    have tells : Tells api profile.name [] (.error .temporary) :=
      .other (fun _ => ValidationError.noConfusion) ValidationError.noConfusion
    exact ⟨fun _ isOk => (by cases isOk), tells.rejected⟩
  | some spod =>
    have tells := @trackInherits_spec _ spod _ stored profile.inherit (fun _ => id) ⟨[], []⟩
    refine ⟨fun inherits isOk cycle => ?_, fun error isError kind => ?_⟩
    · obtain ⟨tracked, isTracked, -⟩ := Fallible.bind_ok.mp isOk
      obtain ⟨next, ⟨same, isSame, listed, existing⟩, reachable⟩ := Relation.TransGen.head'_iff.mp cycle
      obtain rfl := Option.some.inj (stored.symm.trans isSame)
      exact tells.accepted tracked isTracked next listed existing reachable
    · rcases Fallible.bind_error isError with refused | ⟨tracked, refused⟩
      · exact tells.rejected error refused kind
      · rcases Fallible.bind_error refused with invalid | ⟨_, returned⟩
        · rcases validateAllow_error invalid with ⟨key, rfl⟩ | ⟨objClass, rfl⟩ | ⟨perm, rfl⟩
          all_goals simp at kind
        · cases returned

end validation

def parentProfile : SelinuxProfile where
  name := "parent"
  permissive := false
  allow := .empty
  inherit := [⟨.system, "container"⟩]

def childProfile : SelinuxProfile :=
  { parentProfile with name := "child", inherit := [⟨.selinuxProfile, "parent"⟩] }

/-- The two profiles, in an API server that answers. -/
def familyApi : Api where
  stored := fun name =>
    if name = "parent" then some parentProfile else if name = "child" then some childProfile else none
  named := by
    intro name profile stored
    split at stored
    · next isParent =>
        cases stored
        exact isParent.symm
    · split at stored
      · next isChild =>
          cases stored
          exact isChild.symm
      · cases stored
  answers := fun _ => true

theorem childProfile_acyclic :
    validate familyApi (some ⟨[], ⟨[], [], [], [], [], []⟩⟩) childProfile = .ok ⟨[], [parentProfile]⟩ ∧
      ¬Relation.TransGen familyApi.Refers "child" "child" := by
  have visited : visitEntry familyApi "child" [] ⟨parentProfile, 1⟩ = .ok (["parent"], []) := rfl
  have checked : checkInheritCycle familyApi "child" parentProfile = .ok ["parent"] := by
    rw [checkInheritCycle, Worklist.run_ok visited, append_nil, Worklist.run_nil]
  have accepted : validate familyApi (some ⟨[], ⟨[], [], [], [], [], []⟩⟩) childProfile =
      .ok ⟨[], [parentProfile]⟩ := by
    have found : familyApi.get "parent" = .found parentProfile := rfl
    have tracked : trackInherits familyApi ⟨[], ⟨[], [], [], [], [], []⟩⟩ "child"
        [⟨.selinuxProfile, "parent"⟩] ⟨[], []⟩ = .ok ⟨[], [parentProfile]⟩ := by
      rw [trackInherits, validateAndTrackInherit, handleInheritSPOPolicy]
      dsimp only
      rw [found]
      dsimp only
      rw [checked]
      rfl
    exact Fallible.bind_ok.mpr ⟨_, tracked, rfl⟩
  have caught := inherit_cycles_caught familyApi (some ⟨[], ⟨[], [], [], [], [], []⟩⟩)
    (show familyApi.stored childProfile.name = some childProfile from rfl)
  exact ⟨accepted, caught.2.1 _ accepted⟩

end SecurityProfiles.Selinux
