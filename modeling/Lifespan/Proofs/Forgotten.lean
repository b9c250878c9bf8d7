import Lifespan.Proofs.Registered

-- Who ends a scope lets it go: it is the last thing the ending does, and from then on no registry knows the scope.
namespace Lifespan
variable {C : Client}

def Frame.Rooted : Frame C → Prop
  | .ended registry scope => scope.registry = registry
  | _ => True

def Focus.Rooted : Focus C → Prop
  | .forget registry scope _ => scope.registry = registry
  | _ => True

def Focus.isLast : Focus C → Bool
  | .forget _ _ _ | .assign _ _ _ => true
  | _ => false

def Thread.Rooted (thread : Thread C) : Prop := thread.focus.Rooted ∧ ∀ frame ∈ thread.frames, frame.Rooted

section
variable {world : World C} {me : ThreadId} {thread : Thread C} {move : Move C} {scope : ScopeRef} {frames : List (Frame C)}
  {effect : Effect C} {items : List (Item C)}

theorem last_rooted {focus : Focus C} (last : focus.isLast = false) : focus.Rooted := by
  cases focus <;> trivial

theorem passed_last {focus : Focus C} (passed : focus.isPassed = true) : focus.isLast = false := by
  cases focus <;> first | rfl | cases passed

theorem starts_rooted {op : Op C} {waiting : List (Frame C)} (starts : op.starts? = some (focus, waiting)) :
    ∀ frame ∈ waiting, frame.Rooted := by
  cases op <;> cases starts <;> simp [Frame.Rooted]

theorem hooked_rooted {teardown : Teardown} {exit : Exit C} (below : ∀ frame ∈ frames, frame.Rooted) :
    Thread.Rooted ⟨(Move.hooked teardown key exit frames).focus, (Move.hooked teardown key exit frames).frames⟩ := by
  unfold Move.hooked
  cases teardown.phase with
  | beforeDestroy => exact ⟨trivial, below⟩
  | destroy => exact ⟨trivial, List.forall_mem_cons.mpr ⟨trivial, below⟩⟩

theorem Turn.rooted (turn : Turn world me thread move)
    (own : ∀ registry id scope, world.registered registry id = some scope → scope.registry = registry)
    (rooted : thread.Rooted) : Thread.Rooted ⟨move.focus, move.frames⟩ := by
  have below := rooted.2
  cases turn with
  | finds registered => exact ⟨trivial, List.forall_mem_cons.mpr ⟨own _ _ _ registered, below⟩⟩
  | backEnded => exact List.forall_mem_cons.mp below
  | calls starts =>
    refine ⟨last_rooted (passed_last (starts_passed starts)), List.forall_mem_append.mpr ⟨starts_rooted starts, ?_⟩⟩
    exact List.forall_mem_cons.mpr ⟨trivial, below⟩
  | admits | vouches => exact ⟨last_rooted (passed_last (admitted_passed _)), below⟩
  | refuses | disowns => exact ⟨last_rooted (passed_last (refused_passed _ _)), below⟩
  | leaves | reopens => exact ⟨last_rooted (passed_last (exit_passed _)), below⟩
  | backHooked | unwindHooked => exact hooked_rooted (List.forall_mem_cons.mp below).2
  | backDropped => rw [dropped_focus, dropped_frames]; exact ⟨trivial, (List.forall_mem_cons.mp below).2⟩
  | backReleased => rw [released_focus, released_frames]; exact ⟨trivial, (List.forall_mem_cons.mp below).2⟩
  | builds => exact ⟨trivial, List.forall_mem_cons.mpr ⟨trivial, (List.forall_mem_cons.mp below).2⟩⟩
  | backFactory | backEndedUnknown | unwindBuilding | unwindEnding | unwindOther =>
    exact ⟨trivial, (List.forall_mem_cons.mp below).2⟩
  | _ => exact ⟨trivial, by simpa [Frame.Rooted] using below⟩

theorem Turn.forgetter {registry : RegistryRef} (turn : Turn world me thread move) (forgets : move.effect = .forget registry scope) :
    ∃ reply, thread.focus = .forget registry scope reply := by
  cases turn with
  | forgets => cases forgets; exact ⟨_, rfl⟩
  | goOn _ own | answers own => simp only at forgets; subst forgets; cases own
  | backHooked | unwindHooked | backDropped | backReleased => simp at forgets
  | _ => cases forgets

end

namespace System
variable {before after start system : System C} {program : C.Label → Code C} {memory : C.Memory} {code : Code C}
  {scope : ScopeRef} {registry : RegistryRef} {me : ThreadId}

theorem registered_occupant {world : World C} {id : ScopeId} (registered : world.registered registry id = some scope) :
    world.occupant registry id = some scope := (Option.filter_eq_some_iff.mp registered).1

theorem runs_rooted (path : Runs (initial program memory code) system) : ∀ thread ∈ system.threads, thread.Rooted := by
  induction path with
  | refl =>
    intro thread member
    cases List.mem_singleton.mp member
    exact ⟨trivial, List.forall_mem_nil _⟩
  | step path next ih =>
    refine (step_change next).carry (P := fun _ => Thread.Rooted) ih ?_ ?_ ?_ ?_ ?_
    · exact fun _ _ => ⟨trivial, List.forall_mem_nil _⟩
    · exact fun _ _ _ _ rooted => ⟨trivial, rooted.2⟩
    · exact fun _ _ _ _ _ => ⟨fun rooted => ⟨trivial, rooted.2⟩, fun rooted => ⟨trivial, rooted.2⟩⟩
    · intro me thread move turn rooted
      refine turn.rooted (fun registry id scope registered => ?_) rooted
      exact ((runs_filed path).own registry id scope (registered_occupant registered)).1
    · exact fun _ _ _ _ _ rooted => rooted

theorem change_rooted (path : Runs (initial program memory code) before) (change : Change before after) :
    ∃ me effect items, Deeds before after me effect items ∧
      ∀ registry scope, effect = .forget registry scope → scope.registry = registry := by
  rcases change_deed change (runs_sound path) with ⟨me, thread, move, running, turn, deeds⟩ | ⟨me, deeds⟩
  · refine ⟨me, _, _, deeds, fun registry scope forgets => ?_⟩
    obtain ⟨reply, same⟩ := turn.forgetter forgets
    have rooted := (runs_rooted path thread (List.mem_of_getElem? running)).1
    rw [same] at rooted
    exact rooted
  · exact ⟨me, _, _, deeds, nofun⟩

-- A scope that has been begun is not registered again.
theorem occupant_old {id : ScopeId} (grounded : before.Grounded) (deeds : Deeds before after me effect items)
    (known : (before.world.scope? scope).isSome) (holds : after.world.occupant registry id = some scope) :
    before.world.occupant registry id = some scope := by
  rw [deeds.world, record_occupant] at holds
  cases effect with
  | register place new =>
    rw [register_occupant (deeds_registers deeds).2] at holds
    split at holds
    · cases holds
      rw [grounded.numbered.fresh] at known
      cases known
    · exact holds
  | forget place other =>
    rw [forget_occupant] at holds
    split at holds
    · cases holds
    · exact holds
  | _ => exact (other_occupant rfl (by simp)).symm.trans holds

def LetGo (system : System C) : Prop :=
  ∀ scope, (system.world.cell scope).state ≠ .active → (∀ thread, (system.life scope).ends thread = []) →
    system.world.shaken ∨ ∀ registry id, system.world.occupant registry id ≠ some scope

theorem deeds_over (deeds : Deeds before after me effect items) (past : (after.life scope).ends me = []) :
    (before.life scope).ends me = [] ∨ before.world.shaken ∨ ∃ registry, effect = .forget registry scope := by
  have deed := deeds.deed
  simp only [life] at past ⊢
  generalize before.posture me = was at deed ⊢
  generalize after.posture me = now at deed past
  cases deed with
  | plain | register | aside => exact .inl past
  | @act place _ _ _ _ rest act =>
    rw [under_part] at past ⊢
    by_cases here : place = scope
    · subst here
      rw [if_pos rfl] at past ⊢
      cases act with
      | build build => exact .inl past
      | close close =>
        obtain ⟨rfl, _⟩ := List.append_eq_nil_iff.mp past
        cases close with
        | abandon panicked => exact .inr (.inl panicked)
        | @forget registry => exact .inr (.inr ⟨registry, rfl⟩)
    · rw [if_neg here] at past ⊢
      exact .inl past

theorem inactive_before {before after : Life C} {shaken aided : Prop} (step : Life.Step shaken aided scope before after)
    (quiet : ∀ thread, before.ends thread = []) (none : ∀ thread, after.ends thread = []) (inactive : after.cell.state ≠ .active) :
    before.cell.state ≠ .active := by
  intro active
  rcases step.state with same | ⟨me, was, now, rest, effect, items, close, cell, stood, stands⟩
  · exact inactive (same.trans active)
  · have nothing := stood.symm.trans (quiet me)
    obtain ⟨rfl, _⟩ := List.append_eq_nil_iff.mp nothing
    have begun := none me
    rw [stands] at begun
    cases close
    cases begun

theorem forgotten {id : ScopeId} (path : Runs (initial program memory code) before)
    (deeds : Deeds before after me (.forget scope.registry scope) items) (holds : after.world.occupant registry id = some scope) :
    False := by
  rw [deeds.world, record_occupant, forget_occupant] at holds
  split at holds
  · cases holds
  · rename_i other
    obtain ⟨mine, shares, _⟩ := (runs_filed path).own registry id scope holds
    refine other ⟨mine.symm, ?_, shares⟩
    rw [shared_occupant shares, mine]
    exact holds

theorem preserves_letGo (path : Runs (initial program memory code) before) (letGo : before.LetGo)
    (change : Change before after) : after.LetGo := by
  obtain ⟨me, effect, items, deeds, rooted⟩ := change_rooted path change
  intro scope inactive none
  by_cases quiet : (before.life scope).ends me = []
  · have all : ∀ thread, (before.life scope).ends thread = [] := by
      intro thread
      by_cases mine : thread = me
      · exact mine ▸ quiet
      · rw [← (deeds_others deeds mine).2]
        exact none thread
    have was := inactive_before (step_life path deeds scope) all none inactive
    refine (letGo scope was all).imp (deeds_shaken deeds) fun unknown registry id holds => ?_
    exact unknown registry id (occupant_old (runs_grounded path) deeds (inactive_known was) holds)
  · rcases deeds_over deeds (none me) with past | shaken | ⟨registry, rfl⟩
    · exact absurd past quiet
    · exact .inl (deeds_shaken deeds shaken)
    · have here := rooted registry scope rfl
      subst here
      exact .inr fun place id holds => forgotten path deeds holds

theorem runs_letGo (path : Runs (initial program memory code) system) : system.LetGo := by
  induction path with
  | refl => exact fun scope inactive => absurd rfl inactive
  | step path next ih => exact preserves_letGo path ih (step_change next)

end System

end Lifespan
