import SecurityProfiles.Library.CreateOrUpdate

namespace VersionedStore

variable {K O ι α : Type}

def Call.written : Call K O → Option K
  | .get _ => none
  | .list _ => none
  | .create key _ => some key
  | .update key _ _ => some key
  | .delete key _ => some key

def Call.WritesOnly (keys : K → Prop) (request : Call K O) : Prop := ∀ key, request.written = some key → keys key

variable [DecidableEq K]

theorem Server.holds_effect {server next : Server K O} {request : Call K O} {key : K} {stored : Stored O}
    (effective : server.effect request = .ok next) (elsewhere : request.written ≠ some key)
    (held : server.Holds key stored) : next.Holds key stored := by
  cases request with
  | get _ =>
    cases effective
    exact held
  | list _ =>
    cases effective
    exact held
  | create other body =>
    obtain ⟨_, _, rfl⟩ := Server.create_ok effective
    exact Server.holds_put.mpr (Or.inr ⟨fun same => elsewhere (by rw [same]; rfl), held⟩)
  | update other version body =>
    obtain ⟨_, _, _, _, rfl⟩ := Server.update_ok effective
    exact Server.holds_put.mpr (Or.inr ⟨fun same => elsewhere (by rw [same]; rfl), held⟩)
  | delete other uid =>
    obtain ⟨_, _, _, _, rfl⟩ := Server.delete_ok effective
    exact Server.holds_put.mpr (Or.inr ⟨fun same => elsewhere (by rw [same]; rfl), held⟩)

/-- A call leaves the objects it does not write to as they are. -/
theorem Server.holds_answer {server next : Server K O} {request : Call K O} {treatment : Treatment}
    {reply : Except ApiError request.Answer} {key : K} {stored : Stored O}
    (answered : server.answer request treatment = some (reply, next)) (elsewhere : request.written ≠ some key)
    (held : server.Holds key stored) : next.Holds key stored := by
  rcases Server.answer_cases answered with ⟨rfl, _⟩ | ⟨rfl, _⟩
  · exact held
  · rcases server.after_cases request with same | effective
    · rwa [same]
    · exact Server.holds_effect effective elsewhere held

section

variable {code : ι → Prog K O α} {rules : Rules K O ι} {first world : World K O ι α}
  (reach : World.Reach code rules first world)
include reach

/-- Jobs whose code writes only to their own objects do so in every run. -/
theorem World.Reach.confined {keys : ι → K → Prop} (idle : first.clients = [])
    (own : ∀ server job, rules.starts server job → (code job).Confined (Call.WritesOnly (keys job)) fun _ => True) :
    ∀ client ∈ world.clients, client.2.Confined (Call.WritesOnly (keys client.1)) fun _ => True := by
  induction reach with
  | start => simp [idle]
  | @launch world job _ starts ih =>
    intro client member
    rcases List.mem_append.mp member with older | newest
    · exact ih client older
    · cases List.mem_singleton.mp newest
      exact own _ job starts
  | @serve world index job request next treatment reply server _ pending answered _ ih =>
    intro client member
    rcases List.mem_or_eq_of_mem_set member with older | rfl
    · exact ih client older
    · exact (ih _ (List.mem_of_getElem? pending)).2 reply
  | other _ _ ih => exact ih

/-- A step of a job leaves the objects of others alone. -/
theorem World.Reach.holds (keys : ι → K → Prop) (idle : first.clients = [])
    (own : ∀ server job, rules.starts server job → (code job).Confined (Call.WritesOnly (keys job)) fun _ => True)
    {client : Nat} {job : ι} {request : Call K O} {next : Except ApiError request.Answer → Prog K O α}
    {treatment : Server.Treatment} {reply : Except ApiError request.Answer} {changed : Server K O}
    (pending : world.clients[client]? = some (job, .call request next))
    (answered : world.server.answer request treatment = some (reply, changed)) {key : K} {stored : Stored O}
    (other : ¬keys job key) (held : world.server.Holds key stored) : changed.Holds key stored := by
  have ofJob := (reach.confined idle own _ (List.mem_of_getElem? pending)).1
  exact Server.holds_answer answered (fun written => other (ofJob key written)) held

end

end VersionedStore
