import SecurityProfiles.Library.Store

namespace VersionedStore

inductive Call (K O : Type) where
  | get (key : K)
  | list (selects : K → O → Bool)
  | create (key : K) (body : O)
  | update (key : K) (version : Nat) (body : O)
  | delete (key : K) (uid : Nat)

namespace Call

/-- What a call returns when it succeeds. -/
abbrev Answer {K O : Type} : Call K O → Type
  | .get _ => Stored O
  | .list _ => List (K × Stored O)
  | .create _ _ => Unit
  | .update _ _ _ => Unit
  | .delete _ _ => Unit

end Call

namespace Server

variable {K O : Type} [DecidableEq K]

def create (server : Server K O) (key : K) (body : O) : Except ApiError (Server K O) :=
  match server.objects.lookup key with
  | some _ => .error .alreadyExists
  | none => .ok (server.put key
      { uid := server.revision + 1, version := 0, created := server.clock, deleting := false, body := body }
        (le_refl _))

def update (server : Server K O) (key : K) (version : Nat) (body : O) : Except ApiError (Server K O) :=
  match held : server.objects.lookup key with
  | none => .error .notFound
  | some current =>
    if current.version = version then
      .ok (server.put key { current with body := body } (Nat.le_succ_of_le (Holds.seen held).uid_le))
    else .error .conflict

/-- A deletion marks the object; it goes away once its finalizers are done. -/
def delete (server : Server K O) (key : K) (uid : Nat) : Except ApiError (Server K O) :=
  match held : server.objects.lookup key with
  | none => .error .notFound
  | some current =>
    if current.uid = uid then
      .ok (server.put key { current with deleting := true } (Nat.le_succ_of_le (Holds.seen held).uid_le))
    else .error .conflict

/-- The end of a deletion. -/
def reap (server : Server K O) (key : K) : Server K O :=
  match server.objects.lookup key with
  | some current => if current.deleting then server.drop key else server
  | none => server

/-- The change a call makes when it is carried out. -/
def effect (server : Server K O) : Call K O → Except ApiError (Server K O)
  | .get _ => .ok server
  | .list _ => .ok server
  | .create key body => server.create key body
  | .update key version body => server.update key version body
  | .delete key uid => server.delete key uid

def listing (view : Objects K O) (selects : K → O → Bool) : List (K × Stored O) :=
  (view.entries.filter fun entry => selects entry.1 entry.2.body).map fun entry => (entry.1, entry.2)

theorem mem_listing {view : Objects K O} {selects : K → O → Bool} {key : K} {stored : Stored O} :
    (key, stored) ∈ listing view selects ↔ view.lookup key = some stored ∧ selects key stored.body = true := by
  simp only [listing, List.mem_map, List.mem_filter, Prod.mk.injEq]
  constructor
  · rintro ⟨⟨key', stored'⟩, ⟨member, selected⟩, rfl, rfl⟩
    exact ⟨AList.mem_lookup_iff.mpr member, selected⟩
  · rintro ⟨found, selected⟩
    exact ⟨⟨key, stored⟩, ⟨AList.mem_lookup_iff.mp found, selected⟩, rfl, rfl⟩

/-- The server after a call is carried out, which a refused call leaves as it is. -/
def after (server : Server K O) (request : Call K O) : Server K O :=
  match server.effect request with
  | .ok next => next
  | .error _ => server

/-- The reply to a call that is carried out, reading from the given view. -/
def reply (server : Server K O) (view : Objects K O) : (request : Call K O) → Except ApiError request.Answer
  | .get key => (view.lookup key).elim (.error .notFound) .ok
  | .list selects => .ok (listing view selects)
  | .create key body => (server.create key body).map fun _ => ()
  | .update key version body => (server.update key version body).map fun _ => ()
  | .delete key uid => (server.delete key uid).map fun _ => ()

/-- How a call fares: it is carried out on the given view, turned down without effect, or carried out
with the reply lost on the way. -/
inductive Treatment where
  | serve (view : Nat)
  | refuse (error : ApiError)
  | lose (error : ApiError)

def answer (server : Server K O) (request : Call K O) :
    Treatment → Option (Except ApiError request.Answer × Server K O)
  | .serve view => server.views[view]?.map fun view => (server.reply view request, server.after request)
  | .refuse error => some (.error error, server)
  | .lose error => some (.error error, server.after request)

/-- Everything else that changes the store. -/
inductive Disturbance (K O : Type) where
  | call (request : Call K O)
  | reap (key : K)
  | wait (ticks : Nat)

def disturb (server : Server K O) : Disturbance K O → Server K O
  | .call request => server.after request
  | .reap key => server.reap key
  | .wait ticks => server.wait ticks

end Server

/-- A program is the tree of the calls it makes and of what it does with each possible reply. -/
inductive Prog (K O α : Type) where
  | ret (result : α)
  | call (request : Call K O) (next : Except ApiError request.Answer → Prog K O α)

namespace Prog

variable {K O α β : Type}

protected def bind : Prog K O α → (α → Prog K O β) → Prog K O β
  | .ret result, rest => rest result
  | .call request next, rest => .call request fun reply => (next reply).bind rest

instance : Monad (Prog K O) where
  pure := .ret
  bind := Prog.bind

/-- One call, its reply being the result. -/
def perform (request : Call K O) : Prog K O (Except ApiError request.Answer) := .call request .ret

/-- Whatever the replies, the program deletes no other objects than the named ones. -/
def DeletesOnly (named : K → Nat → Prop) : Prog K O α → Prop
  | .ret _ => True
  | .call request next => (∀ key uid, request = .delete key uid → named key uid) ∧
      ∀ reply, (next reply).DeletesOnly named

end Prog

/-- A store and the clients that use it, each with the job it was started for. -/
structure World (K O ι α : Type) [DecidableEq K] where
  server : Server K O
  clients : List (ι × Prog K O α)

inductive Act (K O ι : Type) where
  | start (job : ι)
  | serve (client : Nat) (treatment : Server.Treatment)
  | other (disturbance : Server.Disturbance K O)

namespace World

variable {K O ι α : Type} [DecidableEq K]

def step (code : ι → Prog K O α) (world : World K O ι α) : Act K O ι → Option (World K O ι α)
  | .start job => some { world with clients := world.clients ++ [(job, code job)] }
  | .serve client treatment =>
    match world.clients[client]? with
    | some (job, .call request next) =>
      (world.server.answer request treatment).map fun (reply, server) =>
        { server := server, clients := world.clients.set client (job, next reply) }
    | _ => none
  | .other disturbance => some { world with server := world.server.disturb disturbance }

def run (code : ι → Prog K O α) (world : World K O ι α) (acts : List (Act K O ι)) : Option (World K O ι α) :=
  acts.foldlM (step code) world

end World

/-- What is assumed of a run: which jobs start, which replies clients get, what others do. -/
structure Rules (K O ι : Type) [DecidableEq K] where
  starts : Server K O → ι → Prop
  replies : ι → Server K O → (request : Call K O) → Except ApiError request.Answer → Prop
  others : Server K O → Server.Disturbance K O → Prop

variable {K O ι α : Type} [DecidableEq K] {code : ι → Prog K O α} {rules : Rules K O ι}

/-- The worlds that a run under the rules leads to. -/
inductive World.Reach (code : ι → Prog K O α) (rules : Rules K O ι)
    (first : World K O ι α) : World K O ι α → Prop
  | start : Reach code rules first first
  | launch {world : World K O ι α} {job : ι} (reach : Reach code rules first world)
      (starts : rules.starts world.server job) :
      Reach code rules first { world with clients := world.clients ++ [(job, code job)] }
  | serve {world : World K O ι α} {client : Nat} {job : ι} {request : Call K O}
      {next : Except ApiError request.Answer → Prog K O α} {treatment : Server.Treatment}
      {reply : Except ApiError request.Answer} {server : Server K O} (reach : Reach code rules first world)
      (pending : world.clients[client]? = some (job, .call request next))
      (answered : world.server.answer request treatment = some (reply, server))
      (replies : rules.replies job world.server request reply) :
      Reach code rules first { server := server, clients := world.clients.set client (job, next reply) }
  | other {world : World K O ι α} {disturbance : Server.Disturbance K O} (reach : Reach code rules first world)
      (others : rules.others world.server disturbance) :
      Reach code rules first { world with server := world.server.disturb disturbance }

def Rules.Permits (rules : Rules K O ι) (world : World K O ι α) : Act K O ι → Prop
  | .start job => rules.starts world.server job
  | .serve client treatment => ∀ job request next reply server,
      world.clients[client]? = some (job, .call request next) →
      world.server.answer request treatment = some (reply, server) → rules.replies job world.server request reply
  | .other disturbance => rules.others world.server disturbance

theorem World.Reach.step {first world next : World K O ι α} {act : Act K O ι}
    (reach : World.Reach code rules first world) (permits : rules.Permits world act)
    (stepped : world.step code act = some next) : World.Reach code rules first next := by
  cases act with
  | start job =>
    cases Option.some.inj stepped
    exact reach.launch permits
  | other disturbance =>
    cases Option.some.inj stepped
    exact reach.other permits
  | serve client treatment =>
    simp only [World.step] at stepped
    split at stepped
    · next job request rest pending =>
        obtain ⟨⟨reply, server⟩, answered, same⟩ := Option.map_eq_some_iff.mp stepped
        cases same
        exact reach.serve pending answered (permits job request rest reply server pending answered)
    · cases stepped

def Rules.PermitsRun (rules : Rules K O ι) (code : ι → Prog K O α) :
    World K O ι α → List (Act K O ι) → Prop
  | _, [] => True
  | world, act :: acts => rules.Permits world act ∧
      ∀ next, world.step code act = some next → rules.PermitsRun code next acts

/-- Acts that are permitted one after the other lead to a world that is reached. -/
theorem World.Reach.of_permitted {first start world : World K O ι α} {acts : List (Act K O ι)}
    (reach : World.Reach code rules first start) (permits : rules.PermitsRun code start acts)
    (ran : World.run code start acts = some world) : World.Reach code rules first world := by
  induction acts generalizing start with
  | nil =>
    cases Option.some.inj ran
    exact reach
  | cons act acts ih =>
    obtain ⟨next, stepped, rest⟩ := Option.bind_eq_some_iff.mp ran
    exact ih (reach.step permits.1 stepped) (permits.2 next stepped) rest

theorem World.Reach.of_run {first world : World K O ι α} {acts : List (Act K O ι)}
    (permits : ∀ act ∈ acts, ∀ world : World K O ι α, rules.Permits world act)
    (ran : World.run code first acts = some world) : World.Reach code rules first world := by
  have permitsRun : ∀ start, rules.PermitsRun code start acts := by
    clear ran
    induction acts with
    | nil => exact fun _ => trivial
    | cons act acts ih =>
      intro start
      refine ⟨permits act List.mem_cons_self start, fun next _ => ?_⟩
      exact ih (fun later member => permits later (List.mem_cons_of_mem _ member)) next
  exact .of_permitted .start (permitsRun first) ran

end VersionedStore
