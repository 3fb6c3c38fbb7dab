import SecurityProfiles.Library.Client

namespace VersionedStore

namespace Server

variable {K O : Type} [DecidableEq K] {server next : Server K O} {key : K}

theorem after_cases (server : Server K O) (request : Call K O) :
    server.after request = server ∨ server.effect request = .ok (server.after request) := by
  unfold after
  split
  · next effect => exact Or.inr effect
  · exact Or.inl rfl

/-- The outcomes of a call: nothing happened and it failed, or it was carried out. -/
theorem answer_cases {request : Call K O} {treatment : Treatment} {reply : Except ApiError request.Answer}
    (answered : server.answer request treatment = some (reply, next)) :
    (next = server ∧ ∃ error, reply = .error error) ∨
      (next = server.after request ∧
        ((∃ error, reply = .error error) ∨ ∃ view ∈ server.views, reply = server.reply view request)) := by
  cases treatment with
  | refuse error =>
    cases Option.some.inj answered
    exact Or.inl ⟨rfl, error, rfl⟩
  | lose error =>
    cases Option.some.inj answered
    exact Or.inr ⟨rfl, Or.inl ⟨error, rfl⟩⟩
  | serve index =>
    obtain ⟨view, atIndex, same⟩ := Option.map_eq_some_iff.mp answered
    cases same
    exact Or.inr ⟨rfl, Or.inr ⟨view, List.mem_of_getElem? atIndex, rfl⟩⟩

theorem create_ok {body : O} (created : server.create key body = .ok next) :
    server.objects.lookup key = none ∧ ∃ known, next = server.put key
      { uid := server.revision + 1, version := 0, created := server.clock, deleting := false, body := body }
        known := by
  unfold create at created
  split at created
  · cases created
  · next absent =>
      cases created
      exact ⟨absent, le_refl _, rfl⟩

theorem update_ok {version : Nat} {body : O} (updated : server.update key version body = .ok next) :
    ∃ current known, server.Holds key current ∧ current.version = version ∧
      next = server.put key { current with body := body } known := by
  unfold update at updated
  split at updated
  · cases updated
  · next current held =>
      split at updated
      · next same =>
          cases updated
          exact ⟨current, _, held, same, rfl⟩
      · cases updated

theorem delete_ok {uid : Nat} (deleted : server.delete key uid = .ok next) :
    ∃ current known, server.Holds key current ∧ current.uid = uid ∧
      next = server.put key { current with deleting := true } known := by
  unfold delete at deleted
  split at deleted
  · cases deleted
  · next current held =>
      split at deleted
      · next same =>
          cases deleted
          exact ⟨current, _, held, same, rfl⟩
      · cases deleted

theorem reap_cases (server : Server K O) (key : K) :
    server.reap key = server ∨
      ∃ current, server.Holds key current ∧ current.deleting = true ∧ server.reap key = server.drop key := by
  unfold reap
  split
  · next current held =>
      split
      · next deleting => exact Or.inr ⟨current, held, deleting, rfl⟩
      · exact Or.inl rfl
  · exact Or.inl rfl

/-- A call that succeeds was carried out. -/
theorem effect_of_reply {view : Objects K O} {request : Call K O} {answer : request.Answer}
    (replied : server.reply view request = .ok answer) : server.effect request = .ok (server.after request) := by
  rcases server.after_cases request with _ | effective
  · cases effect : server.effect request with
    | ok next => simp [after, effect]
    | error error => cases request <;> simp_all [reply, Server.effect, Except.map]
  · exact effective

/-- A disturbance is a write, the end of a deletion, or nothing but time. -/
theorem disturb_cases (server : Server K O) (disturbance : Disturbance K O) :
    (∃ key stored known, server.disturb disturbance = server.put key stored known) ∨
      (∃ key, server.disturb disturbance = server.drop key) ∨
      ∃ ticks, server.disturb disturbance = server.wait ticks := by
  cases disturbance with
  | wait ticks => exact Or.inr (Or.inr ⟨ticks, rfl⟩)
  | reap key =>
    rcases server.reap_cases key with same | ⟨_, _, _, same⟩
    · exact Or.inr (Or.inr ⟨0, same⟩)
    · exact Or.inr (Or.inl ⟨key, same⟩)
  | call request =>
    rcases server.after_cases request with same | effect
    · exact Or.inr (Or.inr ⟨0, same⟩)
    · simp only [disturb]
      generalize server.after request = next at effect
      cases request with
      | get _ => cases effect; exact Or.inr (Or.inr ⟨0, rfl⟩)
      | list _ => cases effect; exact Or.inr (Or.inr ⟨0, rfl⟩)
      | create key _ =>
        obtain ⟨_, known, rfl⟩ := create_ok effect
        exact Or.inl ⟨key, _, known, rfl⟩
      | update key _ _ =>
        obtain ⟨_, known, _, _, rfl⟩ := update_ok effect
        exact Or.inl ⟨key, _, known, rfl⟩
      | delete key _ =>
        obtain ⟨_, known, _, _, rfl⟩ := delete_ok effect
        exact Or.inl ⟨key, _, known, rfl⟩

/-- Nothing that was seen is ever forgotten. -/
theorem Seen.disturb {stored : Stored O} (seen : server.Seen key stored) (disturbance : Disturbance K O) :
    (server.disturb disturbance).Seen key stored := by
  rcases server.disturb_cases disturbance with ⟨_, _, _, same⟩ | ⟨_, same⟩ | ⟨_, same⟩ <;> rw [same]
  · exact seen_put.mpr (Or.inl seen)
  · exact seen_drop.mpr seen
  · exact seen

theorem seen_disturb_cases {stored : Stored O} {disturbance : Disturbance K O}
    (seen : (server.disturb disturbance).Seen key stored) :
    server.Seen key stored ∨ (server.disturb disturbance).Holds key stored := by
  rcases server.disturb_cases disturbance with ⟨_, _, _, same⟩ | ⟨_, same⟩ | ⟨_, same⟩ <;> rw [same] at seen ⊢
  · rcases seen_put.mp seen with older | ⟨rfl, rfl⟩
    · exact Or.inl older
    · exact Or.inr holds_put_self
  · exact Or.inl (seen_drop.mp seen)
  · exact Or.inl seen

theorem clock_le_disturb (server : Server K O) (disturbance : Disturbance K O) :
    server.clock ≤ (server.disturb disturbance).clock := by
  rcases server.disturb_cases disturbance with ⟨_, _, _, same⟩ | ⟨_, same⟩ | ⟨_, same⟩ <;> rw [same]
  · exact Nat.le_refl _
  · exact Nat.le_refl _
  · exact Nat.le_add_right ..

end Server

/-- What clients may rely on and must guarantee. -/
structure Contract (K O : Type) [DecidableEq K] where
  inv : Server K O → Prop
  rely : Server K O → Server K O → Prop
  guar : Server K O → Server K O → Prop
  rely_refl : ∀ server, rely server server
  rely_trans : ∀ {first second third}, rely first second → rely second third → rely first third
  rely_seen : ∀ {first second}, rely first second → ∀ {key stored}, first.Seen key stored → second.Seen key stored
  guar_refl : ∀ server, guar server server
  guar_rely : ∀ {first second}, inv first → guar first second → rely first second ∧ inv second

namespace Contract

variable {K O ι α β : Type} [DecidableEq K]

abbrev Replies (K O : Type) [DecidableEq K] :=
  Server K O → (request : Call K O) → Except ApiError request.Answer → Prop

/-- The program keeps the contract from the given server on and ends with the postcondition, which then
stays true. -/
def Sound (contract : Contract K O) (replies : Replies K O) (post : Server K O → α → Prop) :
    Prog K O α → Server K O → Prop
  | .ret result, server => ∀ later, contract.rely server later → contract.inv later → post later result
  | .call request next, server => ∀ later, contract.rely server later → contract.inv later →
      ∀ treatment reply changed, later.answer request treatment = some (reply, changed) →
        replies later request reply → contract.guar later changed ∧ Sound contract replies post (next reply) changed

variable {contract : Contract K O} {replies : Replies K O} {post post' : Server K O → α → Prop}
  {server later : Server K O}

section

variable {program : Prog K O α} (sound : contract.Sound replies post program server)
include sound

/-- Interference does no harm. -/
theorem Sound.after (relied : contract.rely server later) : contract.Sound replies post program later := by
  cases program with
  | ret result => exact fun final relied' => sound final (contract.rely_trans relied relied')
  | call request next => exact fun final relied' => sound final (contract.rely_trans relied relied')

theorem Sound.imp (weaker : ∀ later result, contract.inv later → post later result → post' later result) :
    contract.Sound replies post' program server := by
  induction program generalizing server with
  | ret result => exact fun later relied holds => weaker later result holds (sound later relied holds)
  | call request next ih =>
    intro later relied holds treatment reply changed answered replied
    obtain ⟨guaranteed, rest⟩ := sound later relied holds treatment reply changed answered replied
    exact ⟨guaranteed, ih reply rest⟩

end

/-- What is true at the start and survives interference is true at the end. -/
theorem Sound.relied {program : Prog K O α} {origin : Server K O} (relied : contract.rely origin server)
    (sound : contract.Sound replies post program server) :
    contract.Sound replies (fun later result => contract.rely origin later ∧ post later result) program server := by
  induction program generalizing server with
  | ret result =>
    exact fun later relied' holds => ⟨contract.rely_trans relied relied', sound later relied' holds⟩
  | call request next ih =>
    intro later relied' holds treatment reply changed answered replied
    obtain ⟨guaranteed, rest⟩ := sound later relied' holds treatment reply changed answered replied
    have relied'' := (contract.guar_rely holds guaranteed).1
    exact ⟨guaranteed, ih reply (contract.rely_trans relied (contract.rely_trans relied' relied'')) rest⟩

/-- Sequencing: the rest is sound wherever the first part ends. -/
theorem Sound.bind {post : Server K O → β → Prop} {program : Prog K O α} {rest : α → Prog K O β}
    (sound : contract.Sound replies (fun later result => contract.Sound replies post (rest result) later)
      program server)
    (holds : contract.inv server) : contract.Sound replies post (program >>= rest) server := by
  induction program generalizing server with
  | ret result => exact sound server (contract.rely_refl server) holds
  | call request next ih =>
    intro later relied holdsLater treatment reply changed answered replied
    obtain ⟨guaranteed, continued⟩ := sound later relied holdsLater treatment reply changed answered replied
    exact ⟨guaranteed, ih reply continued (contract.guar_rely holdsLater guaranteed).2⟩

/-- Reading one object: it was stored at some time. -/
theorem sound_get {key : K} {next : Except ApiError (Stored O) → Prog K O α}
    (failed : ∀ later error, contract.rely server later → contract.inv later →
      contract.Sound replies post (next (.error error)) later)
    (found : ∀ later stored, contract.rely server later → contract.inv later → later.Seen key stored →
      contract.Sound replies post (next (.ok stored)) later) :
    contract.Sound replies post (.call (.get key) next) server := by
  intro later relied holds treatment reply changed answered _
  rcases Server.answer_cases answered with ⟨rfl, error, rfl⟩ | ⟨rfl, ⟨error, rfl⟩ | ⟨view, member, rfl⟩⟩
  · exact ⟨contract.guar_refl _, failed _ error relied holds⟩
  · exact ⟨contract.guar_refl _, failed _ error relied holds⟩
  · refine ⟨contract.guar_refl _, ?_⟩
    cases atView : view.lookup key with
    | none => simpa only [Server.reply, atView, Option.elim] using failed _ .notFound relied holds
    | some stored =>
      simpa only [Server.reply, atView, Option.elim] using found _ stored relied holds ⟨view, member, atView⟩

/-- Listing: the entries are those of one state of the store. -/
theorem sound_list {selects : K → O → Bool} {next : Except ApiError (List (K × Stored O)) → Prog K O α}
    (failed : ∀ later error, contract.rely server later → contract.inv later →
      contract.Sound replies post (next (.error error)) later)
    (listed : ∀ later, ∀ view ∈ later.views, contract.rely server later → contract.inv later →
      replies later (.list selects) (.ok (Server.listing view selects)) →
      contract.Sound replies post (next (.ok (Server.listing view selects))) later) :
    contract.Sound replies post (.call (.list selects) next) server := by
  intro later relied holds treatment reply changed answered replied
  rcases Server.answer_cases answered with ⟨rfl, error, rfl⟩ | ⟨rfl, ⟨error, rfl⟩ | ⟨view, member, rfl⟩⟩
  · exact ⟨contract.guar_refl _, failed _ error relied holds⟩
  · exact ⟨contract.guar_refl _, failed _ error relied holds⟩
  · exact ⟨contract.guar_refl _, listed _ view member relied holds replied⟩

/-- Any call: its effect is guaranteed, and the program goes on with every reply from the state it leaves. -/
theorem sound_call {request : Call K O} {next : Except ApiError request.Answer → Prog K O α}
    (effect : ∀ later changed, contract.rely server later → contract.inv later →
      later.effect request = .ok changed → contract.guar later changed)
    (failed : ∀ later error, contract.rely server later → contract.inv later →
      contract.Sound replies post (next (.error error)) later)
    (succeeded : ∀ later changed answer, contract.rely server later → contract.inv later →
      later.effect request = .ok changed → contract.Sound replies post (next (.ok answer)) changed) :
    contract.Sound replies post (.call request next) server := by
  intro later relied holds treatment reply changed answered _
  have guaranteed : contract.guar later (later.after request) := by
    rcases later.after_cases request with same | effective
    · rw [same]
      exact contract.guar_refl later
    · exact effect later _ relied holds effective
  obtain ⟨reliedAfter, holdsAfter⟩ := contract.guar_rely holds guaranteed
  rcases Server.answer_cases answered with ⟨rfl, error, rfl⟩ | ⟨rfl, ⟨error, rfl⟩ | ⟨view, _, rfl⟩⟩
  · exact ⟨contract.guar_refl _, failed _ error relied holds⟩
  · exact ⟨guaranteed, failed _ error (contract.rely_trans relied reliedAfter) holdsAfter⟩
  · refine ⟨guaranteed, ?_⟩
    cases replied : later.reply view request with
    | error error => exact failed _ error (contract.rely_trans relied reliedAfter) holdsAfter
    | ok answer => exact succeeded later _ answer relied holds (Server.effect_of_reply replied)

/-- Every client of the world keeps the contract. -/
structure Kept (contract : Contract K O) (rules : Rules K O ι) (post : ι → Server K O → α → Prop)
    (first world : World K O ι α) : Prop where
  inv : contract.inv world.server
  rely : contract.rely first.server world.server
  clients : ∀ client ∈ world.clients, contract.Sound (rules.replies client.1) (post client.1) client.2 world.server

/-- The contract is kept in every run, if it holds at the start, every job is sound and what others do is relied
on. -/
theorem kept_of_reach {code : ι → Prog K O α} {rules : Rules K O ι} {post : ι → Server K O → α → Prop}
    {first world : World K O ι α} (holds : contract.inv first.server) (idle : first.clients = [])
    (sound : ∀ server job, contract.inv server → rules.starts server job →
      contract.Sound (rules.replies job) (post job) (code job) server)
    (others : ∀ server disturbance, contract.inv server → rules.others server disturbance →
      contract.rely server (server.disturb disturbance) ∧ contract.inv (server.disturb disturbance))
    (reach : World.Reach code rules first world) : contract.Kept rules post first world := by
  induction reach with
  | start => exact ⟨holds, contract.rely_refl _, by simp [idle]⟩
  | @launch world job _ starts ih =>
    refine ⟨ih.inv, ih.rely, ?_⟩
    intro client member
    rcases List.mem_append.mp member with older | newest
    · exact ih.clients client older
    · cases List.mem_singleton.mp newest
      exact sound _ job ih.inv starts
  | @serve world index job request next treatment reply server _ pending answered replied ih =>
    have soundPending := ih.clients _ (List.mem_of_getElem? pending)
    obtain ⟨guaranteed, soundNext⟩ :=
      soundPending _ (contract.rely_refl _) ih.inv treatment reply server answered replied
    obtain ⟨relied, holdsAfter⟩ := contract.guar_rely ih.inv guaranteed
    refine ⟨holdsAfter, contract.rely_trans ih.rely relied, ?_⟩
    intro client member
    rcases List.mem_or_eq_of_mem_set member with older | rfl
    · exact (ih.clients client older).after relied
    · exact soundNext
  | @other world disturbance _ others' ih =>
    obtain ⟨relied, holdsAfter⟩ := others _ disturbance ih.inv others'
    exact ⟨holdsAfter, contract.rely_trans ih.rely relied, fun client member =>
      (ih.clients client member).after relied⟩

section

variable {rules : Rules K O ι} {post : ι → Server K O → α → Prop} {first world : World K O ι α}
  (kept : contract.Kept rules post first world)
include kept

/-- A step of a client that keeps the contract does what the contract guarantees. -/
theorem Kept.guar {index : Nat} {job : ι} {request : Call K O} {next : Except ApiError request.Answer → Prog K O α}
    {treatment : Server.Treatment} {reply : Except ApiError request.Answer} {changed : Server K O}
    (pending : world.clients[index]? = some (job, .call request next))
    (answered : world.server.answer request treatment = some (reply, changed))
    (replied : rules.replies job world.server request reply) : contract.guar world.server changed :=
  (kept.clients _ (List.mem_of_getElem? pending) _ (contract.rely_refl _) kept.inv treatment reply changed
    answered replied).1

theorem Kept.finished {job : ι} {result : α}
    (ended : (job, .ret result) ∈ world.clients) : post job world.server result :=
  kept.clients _ ended _ (contract.rely_refl _) kept.inv

end

end Contract

end VersionedStore
