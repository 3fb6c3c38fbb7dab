import SecurityProfiles.Library.Contract

namespace VersionedStore

/-- Why a cycle failed: the new object could not be computed, or a call failed. -/
inductive Fault (E : Type) where
  | refused (error : E)
  | api (error : ApiError)

variable {K O E ε α : Type}

def Fault.isWriteConflict : Fault E → Bool
  | .api .conflict => true
  | .api .alreadyExists => true
  | _ => false

/-- Fetch the object, create it if there is none, and update it if `mutate` changes it. -/
def createOrUpdate [DecidableEq O] (key : K) (mutate : Option (Stored O) → Except E O) :
    Prog K O (Except (Fault E) Unit) :=
  .call (.get key) fun
    | .error .notFound =>
      match mutate none with
      | .error error => .ret (.error (.refused error))
      | .ok body => .call (.create key body) fun reply => .ret (reply.mapError .api)
    | .error error => .ret (.error (.api error))
    | .ok stored =>
      match mutate (some stored) with
      | .error error => .ret (.error (.refused error))
      | .ok body =>
        if body = stored.body then .ret (.ok ())
        else .call (.update key stored.version body) fun reply => .ret (reply.mapError .api)

/-- Attempt once, and up to `further` times again while the failure is worth it. -/
def retryOnError (retriable : ε → Bool) (attempt : Prog K O (Except ε α)) : Nat → Prog K O (Except ε α)
  | 0 => attempt
  | further + 1 => attempt >>= fun
      | .error error => if retriable error then retryOnError retriable attempt further else .ret (.error error)
      | .ok result => .ret (.ok result)

/-- Whatever the replies, the program makes only such calls, and its result satisfies the postcondition. -/
def Prog.Confined (allowed : Call K O → Prop) (post : α → Prop) : Prog K O α → Prop
  | .ret result => post result
  | .call request next => allowed request ∧ ∀ reply, (next reply).Confined allowed post

section confined

variable {allowed : Call K O → Prop}

theorem Prog.Confined.bind {β : Type} {middle : α → Prop} {post : β → Prop} {program : Prog K O α}
    {rest : α → Prog K O β} (first : program.Confined allowed middle)
    (second : ∀ result, middle result → (rest result).Confined allowed post) :
    (program >>= rest).Confined allowed post := by
  induction program with
  | ret result => exact second result first
  | call request next ih => exact ⟨first.1, fun reply => ih reply (first.2 reply)⟩

theorem Prog.Confined.deletesOnly {named : K → Nat → Prop} {program : Prog K O α}
    (confined : program.Confined (fun request => ∀ key uid, request = .delete key uid → named key uid)
      fun _ => True) :
    program.DeletesOnly named := by
  induction program with
  | ret result => trivial
  | call request next ih => exact ⟨confined.1, fun reply => ih reply (confined.2 reply)⟩

/-- A cycle reads and writes its object, and is refused only if the new object could not be computed. -/
theorem createOrUpdate_confined [DecidableEq O] {key : K} (mutate : Option (Stored O) → Except E O)
    (get : allowed (.get key)) (create : ∀ body, allowed (.create key body))
    (update : ∀ version body, allowed (.update key version body)) : (createOrUpdate key mutate).Confined allowed
      fun result => ∀ error, result = .error (.refused error) → ∃ base, mutate base = .error error := by
  have called : ∀ reply : Except ApiError Unit, ∀ error,
      (reply.mapError .api : Except (Fault E) Unit) = .error (.refused error) →
      ∃ base, mutate base = .error error := by
    intro reply error same
    cases reply <;> cases same
  refine ⟨get, ?_⟩
  intro reply
  rcases reply with (_ | _ | _ | _) | stored
  · cases computed : mutate none with
    | error error =>
      intro other same
      cases same
      exact ⟨none, computed⟩
    | ok body => exact ⟨create body, called⟩
  · exact fun error same => nomatch same
  · exact fun error same => nomatch same
  · exact fun error same => nomatch same
  · cases computed : mutate (some stored) with
    | error error =>
      simp only [computed]
      intro other same
      cases same
      exact ⟨some stored, computed⟩
    | ok body =>
      by_cases same : body = stored.body
      · simp only [computed, if_pos same]
        exact fun error same => nomatch same
      · simp only [computed, if_neg same]
        exact ⟨update _ body, called⟩

theorem retryOnError_confined {post : Except ε α → Prop} {retriable : ε → Bool}
    {attempt : Prog K O (Except ε α)} (once : attempt.Confined allowed post) (further : Nat) :
    (retryOnError retriable attempt further).Confined allowed post := by
  induction further with
  | zero => exact once
  | succ further ih =>
    refine once.bind ?_
    rintro (error | result) ended
    · by_cases again : retriable error = true
      · simpa only [again, if_true] using ih
      · simp only [again]
        exact ended
    · exact ended

end confined

namespace Contract

variable [DecidableEq K] {contract : Contract K O} {replies : Replies K O}

/-- What was true of a result stays true under interference. -/
def Stable (contract : Contract K O) (post : Server K O → α → Prop) : Prop :=
  ∀ (first second : Server K O) (result : α), contract.rely first second → contract.inv second →
    post first result → post second result

theorem Stable.sound_ret {post : Server K O → α → Prop} {server : Server K O} {result : α}
    (stable : contract.Stable post) (holds : post server result) :
    contract.Sound replies post (.ret result) server :=
  fun _ relied holdsLater => stable _ _ _ relied holdsLater holds

theorem sound_retryOnError {post : Server K O → Except ε α → Prop} {attempt : Prog K O (Except ε α)}
    {retriable : ε → Bool} (stable : contract.Stable post)
    (sound : ∀ server, contract.inv server → contract.Sound replies post attempt server) (further : Nat) :
    ∀ server, contract.inv server →
      contract.Sound replies post (retryOnError retriable attempt further) server := by
  induction further with
  | zero => exact sound
  | succ further ih =>
    intro server holds
    refine Sound.bind ((sound server holds).imp ?_) holds
    intro later result holdsLater ended
    cases result with
    | ok result => exact stable.sound_ret ended
    | error error =>
      by_cases again : retriable error
      · simpa only [if_pos again] using ih later holdsLater
      · simpa only [if_neg again] using stable.sound_ret ended

/-- What a cycle on one object has to satisfy. The new object is always computed from the one it replaces. -/
structure Writes [DecidableEq O] (contract : Contract K O) (key : K) (mutate : Option (Stored O) → Except E O)
    (post : Server K O → Except (Fault E) Unit → Prop) : Prop where
  stable : contract.Stable post
  api : ∀ {server error}, contract.inv server → post server (.error (.api error))
  refused : ∀ {server base error}, contract.inv server → (∀ stored, base = some stored → server.Seen key stored) →
    mutate base = .error error → post server (.error (.refused error))
  unchanged : ∀ {server stored}, contract.inv server → server.Seen key stored →
    mutate (some stored) = .ok stored.body → post server (.ok ())
  create : ∀ {server changed body}, contract.inv server → mutate none = .ok body →
    server.create key body = .ok changed → contract.guar server changed ∧ post changed (.ok ())
  update : ∀ {server changed body current}, contract.inv server → server.Holds key current →
    mutate (some current) = .ok body → (∃ known, changed = server.put key { current with body := body } known) →
    contract.guar server changed ∧ post changed (.ok ())

namespace Writes

variable [DecidableEq O] {key : K} {mutate : Option (Stored O) → Except E O}
  {post : Server K O → Except (Fault E) Unit → Prop}

section

variable (writes : contract.Writes key mutate post)
include writes

theorem sound_create {body : O} (computed : mutate none = .ok body) (server : Server K O) :
    contract.Sound replies post (.call (.create key body) fun reply => .ret (reply.mapError .api)) server := by
  apply sound_call
  · intro later changed _ holds created
    exact (writes.create holds computed created).1
  · intro later error _ holds
    exact writes.stable.sound_ret (writes.api holds)
  · intro later changed _ _ holds created
    exact writes.stable.sound_ret (writes.create holds computed created).2

/-- The update goes through only if the object is still the one the new one was computed from. -/
theorem update_current {server later changed : Server K O} {stored : Stored O} {body : O}
    (relied : contract.rely server later) (holds : contract.inv later) (seen : server.Seen key stored)
    (computed : mutate (some stored) = .ok body) (updated : later.update key stored.version body = .ok changed) :
    contract.guar later changed ∧ post changed (.ok ()) := by
  obtain ⟨current, known, held, same, rfl⟩ := Server.update_ok updated
  have fresh : current = stored := (contract.rely_seen relied seen).eq_of_version held same
  subst fresh
  exact writes.update holds held computed ⟨known, rfl⟩

theorem sound_update {server : Server K O} {stored : Stored O} {body : O}
    (seen : server.Seen key stored) (computed : mutate (some stored) = .ok body) :
    contract.Sound replies post
      (.call (.update key stored.version body) fun reply => .ret (reply.mapError .api)) server := by
  apply sound_call
  · intro later changed relied holds updated
    exact (writes.update_current relied holds seen computed updated).1
  · intro later error _ holds
    exact writes.stable.sound_ret (writes.api holds)
  · intro later changed _ relied holds updated
    exact writes.stable.sound_ret (writes.update_current relied holds seen computed updated).2

theorem sound (server : Server K O) :
    contract.Sound replies post (createOrUpdate key mutate) server := by
  apply sound_get
  · intro later error _ holds
    by_cases absent : error = .notFound
    · subst absent
      cases computed : mutate none with
      | error error =>
        simpa only [computed] using writes.stable.sound_ret (writes.refused holds (by simp) computed)
      | ok body => simpa only [computed] using writes.sound_create computed later
    · have failed : contract.Sound replies post (.ret (.error (.api error))) later :=
        writes.stable.sound_ret (writes.api holds)
      cases error <;> first | exact failed | exact absurd rfl absent
  · intro later stored _ holds seen
    cases computed : mutate (some stored) with
    | error error =>
      have ended := writes.refused holds (fun found same => Option.some.inj same ▸ seen) computed
      simpa only [computed] using writes.stable.sound_ret ended
    | ok body =>
      by_cases same : body = stored.body
      · subst same
        simpa only [computed, if_pos] using writes.stable.sound_ret (writes.unchanged holds seen computed)
      · simpa only [computed, if_neg same] using writes.sound_update seen computed

end

end Writes

end Contract

end VersionedStore
