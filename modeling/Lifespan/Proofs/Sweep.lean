import Lifespan.Proofs.Interrupted
import Lifespan.Proofs.Leftovers

-- What a shutdown passes by. It goes through the list that it made at first, whatever the hooks and the
-- listener have done to the scopes meanwhile: where it comes to a scope that was active, the scope is
-- active still, and found under its identity, or somebody else has begun to end it.
namespace Lifespan
variable {C : Client} {registry : RegistryRef} {scope : ScopeRef} {base : List (Frame C)}

inductive Heading (registry : RegistryRef) (scope : ScopeRef) (base : List (Frame C)) : Thread C → Prop
  | gathers : Heading registry scope base ⟨.gather registry, base⟩
  | lists (upper : List (Frame C)) (listed : scope.id ∈ rest) :
      Heading registry scope base ⟨focus, upper ++ .sweeping registry rest failures :: base⟩
  | finds : Heading registry scope base ⟨.find registry scope.id, .sweeping registry rest failures :: base⟩
  | retires : Heading registry scope base ⟨.retire scope, .ended registry scope :: .sweeping registry rest failures :: base⟩
  | panics {panic : Panic} : Heading registry scope base ⟨.unwind panic, base⟩

theorem Heading.refocus {focus other : Focus C} {frames : List (Frame C)} (heading : Heading registry scope base ⟨focus, frames⟩)
    (rests : focus.rests = true) : Heading registry scope base ⟨other, frames⟩ := by
  cases heading with
  | lists upper listed => exact .lists upper listed
  | gathers | finds | retires | panics => cases rests

theorem Heading.unanswered {reply : Reply C} (heading : Heading registry scope base ⟨.back reply, base⟩) : False := by
  generalize same : Thread.mk (.back reply) base = thread at heading
  cases heading with
  | lists upper => exact above_ne (congrArg Thread.frames same).symm
  | finds | retires | gathers | panics => cases congrArg Thread.focus same

namespace System
variable {start system later before after : System C} {me : ThreadId} {program : C.Label → Code C} {memory : C.Memory} {code : Code C}

theorem active_alive {world : World C} (active : world.isActive scope = true) : world.isAlive scope = true := by
  obtain ⟨cell, found, is⟩ := (Option.any_eq_true ..).mp active
  refine (Option.any_eq_true ..).mpr ⟨cell, found, ?_⟩
  have state : cell.state = .active := of_decide_eq_true is
  simp [Scope.isDestroyed, state]

theorem turn_heading {world : World C} {thread : Thread C} {move : Move C} (filed : Filed world) (active : world.isActive scope = true)
    (mine : scope.registry = registry) (heading : Heading registry scope base thread) (turn : Turn world me thread move)
    (unanswered : ∀ exit : Exit C, thread ≠ ⟨exit.focus, base⟩) :
    move.effect = .retire scope ∨ Heading registry scope base ⟨move.focus, move.frames⟩ := by
  subst mine
  have alive := active_alive active
  have stands := filed.registered alive
  cases heading with
  | gathers =>
    cases turn with
    | gathers => exact .inr (.lists [] (filed.mem_leftovers.mpr ⟨scope, alive, rfl, rfl⟩))
  | lists upper listed =>
    rcases turn.onto rfl with ⟨more, same⟩ | ⟨rfl, exit, rfl⟩
    · rw [same]
      exact .inr (.lists more listed)
    · cases exit with
      | unwind panic =>
        cases turn.passes rfl
        exact .inr .panics
      | back reply =>
        cases turn with
        | backSwept => cases listed
        | backSweeping =>
          rcases List.mem_cons.mp listed with same | further
          · rw [← same]
            exact .inr .finds
          · exact .inr (.lists [] further)
  | finds =>
    cases turn with
    | overlooks vacant => cases stands.symm.trans vacant
    | finds registered =>
      cases stands.symm.trans registered
      exact .inr .retires
  | retires =>
    cases turn with
    | retires => exact .inl rfl
    | spares found inactive =>
      obtain ⟨cell, there, is⟩ := (Option.any_eq_true ..).mp active
      cases found.symm.trans there
      exact absurd (of_decide_eq_true is) inactive
  | @panics panic => exact absurd rfl (unanswered (.unwind panic))

-- Up to its answer a shutdown has still to come to the scope, or somebody has begun to end it.
theorem awaits_heading {frames : List (Frame C)} {next : Reply C → Code C} (path : Runs (initial program memory code) start)
    (calls : start.threads[me]? = some ⟨.run (.call (.shutdown registry) next), frames⟩) (mine : scope.registry = registry)
    (active : start.world.isActive scope = true) (waits : Awaits me (.user next :: frames) start system) :
    ∃ thread, system.threads[me]? = some thread ∧ (thread = ⟨.run (.call (.shutdown registry) next), frames⟩ ∨
      (system.world.cell scope).state ≠ .active ∨ Heading registry scope (.user next :: frames) thread) := by
  refine awaits_carry (P := fun world thread => (world.cell scope).state ≠ .active ∨ Heading registry scope (.user next :: frames) thread)
    rfl calls ?_ ?_ waits
  · intro world later move turn
    cases turn with
    | goOn alone | ends alone | panics alone => cases alone
    | answers _ immediate => cases immediate
    | calls starts => cases starts; exact .inr .gathers
  · intro before after thread onward change running holds unanswered
    have reached := path.trans onward
    obtain ⟨_, _, _, deeds⟩ := change_deeds change (runs_sound reached)
    by_cases state : (before.world.cell scope).state = .active
    · have known : (before.world.scope? scope).isSome := runs_known onward (active_iff.mp active).1
      have heading := holds.resolve_left fun inactive => inactive state
      refine change.alone (P := fun world thread => (world.cell scope).state ≠ .active ∨
        Heading registry scope (.user next :: frames) thread) running holds ?_ ?_ ?_
      · exact fun _ => .inr heading
      · rintro focus other below rfl rests _
        exact .inr (heading.refocus rests)
      · rintro move turn rfl
        have goes := turn_heading (runs_filed reached) (active_iff.mpr ⟨known, state⟩) mine heading turn
          fun exit same => unanswered ⟨exit, same ▸ running⟩
        refine goes.imp_left fun retires => ?_
        rw [perform, record_cell, retires, target_cell rfl known, if_pos rfl]
        exact State.noConfusion
    · have inactive := (step_life reached deeds scope).inactive state
      exact change.alone (P := fun world _ => (world.cell scope).state ≠ .active) running state (fun _ => inactive)
        (fun _ _ _ _ _ _ => inactive) (fun _ _ _ => inactive) |>.imp fun _ there => ⟨there.1, .inl there.2⟩

theorem answered_over {op : Op C} {next : Reply C → Code C} {frames : List (Frame C)} {reply : Reply C}
    (path : Runs (initial program memory code) start)
    (calls : start.threads[me]? = some ⟨.run (.call op next), frames⟩) (active : (start.world.cell scope).state = .active)
    (answered : later.threads[me]? = some ⟨.back reply, .user next :: frames⟩) : (later.life scope).ends me = [] := by
  have quiet : (start.life scope).ends me = [] := (runs_lived path scope).orderly.quiet active me
  simp only [life, posture_found calls] at quiet
  simp only [life, posture_found answered]
  exact quiet

-- Whatever hooks and listeners do meanwhile, of the scopes that were active when a shutdown was called none is
-- left when it comes back whose end has not been broken off.
theorem shutdown_leaves_none {frames : List (Frame C)} {next : Reply C → Code C} {reply : Reply C}
    (path : Runs (initial program memory code) start)
    (calls : start.threads[me]? = some ⟨.run (.call (.shutdown registry) next), frames⟩)
    (waits : Awaits me (.user next :: frames) start later) (single : later.threads.length = 1) (whole : ¬later.world.interrupted 0 scope)
    (answered : later.threads[me]? = some ⟨.back reply, .user next :: frames⟩) (mine : scope.registry = registry)
    (active : start.world.isActive scope = true) : (later.world.cell scope).state = .destroyed := by
  have inactive : (later.world.cell scope).state ≠ .active := by
    obtain ⟨thread, running, here⟩ := awaits_heading path calls mine active waits
    cases answered.symm.trans running
    rcases here with same | inactive | heading
    · cases congrArg Thread.focus same
    · exact inactive
    · exact heading.unanswered.elim
  have past := alone_over single answered (answered_over path calls (active_iff.mp active).2 answered)
  by_contra lives
  have reached := path.trans waits.runs
  have known := inactive_known inactive
  have idle : later.world.isActive scope = false := Bool.eq_false_iff.mpr fun active => inactive (active_iff.mp active).2
  obtain ⟨me, ends⟩ := (pending_interrupted reached (inactive_pending reached (alive_iff.mpr ⟨known, lives⟩) idle)).resolve_right whole
  exact ends (past me)

end System
end Lifespan
