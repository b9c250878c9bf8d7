import Lifespan.Proofs.Succession

-- What a thread still has to tell. A teardown owes an event for each instance that it has taken out and
-- not yet told of, and each step of a thread tells at most one event, and pays or makes such debts.
namespace Lifespan
variable {C : Client}

def Teardown.left (teardown : Teardown) : List String :=
  match teardown.phase with
  | .beforeDestroy => teardown.entries.map Prod.fst
  | .destroy => teardown.rest.map Prod.fst

-- What is owed to the end of a scope, by what stands directly above it.
def Focus.owes? : Focus C → Option (List String)
  | .tear teardown => some teardown.left
  | .back _ => some []
  | _ => none

def Frame.owes? : Frame C → Option (List String)
  | .hooked teardown key =>
    match teardown.phase with
    | .beforeDestroy => some teardown.left
    | .destroy => some (key :: teardown.left)
  | .reported teardown => some teardown.left
  | _ => none

def Focus.debt? : Focus C → Option (ScopeRef × List String)
  | .clear scope entries => some (scope, entries.map Prod.fst)
  | .settle scope _ | .mark scope _ => some (scope, [])
  | _ => none

def Frame.debt? (upper : Option (List String)) : Frame C → Option (ScopeRef × List String)
  | .torn scope => upper.map (Prod.mk scope)
  | _ => none

def debts (upper : Option (List String)) : List (Frame C) → List (ScopeRef × List String)
  | [] => []
  | frame :: rest => (frame.debt? upper).toList ++ debts frame.owes? rest

namespace Thread

def debts (thread : Thread C) : List (ScopeRef × List String) :=
  thread.focus.debt?.toList ++ Lifespan.debts thread.focus.owes? thread.frames

def announcing (thread : Thread C) : List (RegistryRef × Event) :=
  match thread.focus with
  | .emit registry event => [(registry, event)]
  | _ => []

end Thread

def Item.announced? : Item C → Option (RegistryRef × Event)
  | emitted registry event => some (registry, event)
  | _ => none

def Event.fate (scope : ScopeId) (key : String) : Bool → Event
  | true => destroyed scope key
  | false => destroyFailed scope key

def Effect.isHushed : Effect C → Bool
  | register _ _ | keep _ _ _ | empty _ | mark _ => false
  | _ => true

-- What one step makes of the debts, and which event it comes to tell.
inductive Tale (world : World C) :
    List (ScopeRef × List String) → Effect C → List (RegistryRef × Event) → List (ScopeRef × List String) → Prop
  | quiet (hushed : effect.isHushed = true) (fewer : after.Sublist before) : Tale world before effect [] after
  | sums (known : registry < world.registries.length) : Tale world owed .still [(registry, .shutdown remaining)] owed
  | begins {registry : RegistryRef} {id : ScopeId} (vacant : (world.occupant registry id).any world.isAlive = false)
      (known : registry < world.registries.length) :
      Tale world owed (.register registry id) [(registry, .began id)] owed
  | keeps : Tale world owed (.keep scope key made) [(scope.registry, .created scope.id key)] owed
  | empties (found : world.scope? scope = some cell) :
      Tale world owed (.empty scope) [] ((scope, cell.store.drainNewestFirst.1.map Prod.fst) :: owed)
  | pays (fate : Bool) : Tale world ((scope, key :: left) :: owed) .still [(scope.registry, .fate scope.id key fate)]
      ((scope, left) :: owed)
  | marks : Tale world ((scope, []) :: owed) (.mark scope) [(scope.registry, .ended scope.id failures)] owed

def Thread.Tells (world : World C) (thread : Thread C) (move : Move C) : Prop :=
  ∃ spoken, move.items.filterMap Item.announced? ++ (Thread.mk move.focus move.frames).announcing = thread.announcing ++ spoken ∧
    Tale world thread.debts move.effect spoken (Thread.mk move.focus move.frames).debts

section
variable {world : World C} {me : ThreadId} {aided shaken : Prop} {activity : Activity} {scope : ScopeRef} {frames : List (Frame C)}
  {upper : Option (List String)} {items : List (Item C)} {effect : Effect C} {before after : Thread C}

theorem fewer_debts : (debts none frames).Sublist (debts upper frames) := by
  cases frames with
  | nil => exact List.Sublist.refl _
  | cons frame rest =>
    cases frame with
    | torn => exact List.sublist_append_right _ _
    | _ => exact List.Sublist.refl _

theorem untorn_debts (borne : Borne aided activity frames) (other : ∀ scope, activity ≠ .tearing scope) :
    debts upper frames = debts none frames := by
  cases frames with
  | nil => rfl
  | cons frame rest =>
    cases frame with
    | torn => cases activity <;> first | exact False.elim borne | exact absurd rfl (other _)
    | _ => rfl

theorem back_debts {reply : Reply C} (borne : Borne aided activity frames) (other : ∀ scope, activity ≠ .tearing scope) :
    (Thread.mk (.back reply) frames).debts = debts none frames :=
  untorn_debts borne other

theorem exit_debts {exit : Exit C} (borne : Borne aided activity frames) (other : ∀ scope, activity ≠ .tearing scope) :
    (Thread.mk exit.focus frames).debts = debts none frames := by
  cases exit with
  | back => exact back_debts borne other
  | unwind => rfl

theorem debts_stages {above : Upper} : ((debts upper frames).map Prod.fst).Sublist ((stages above frames).map Prod.fst) := by
  induction frames generalizing upper above with
  | nil => exact List.Sublist.refl _
  | cons frame rest ih =>
    simp only [debts, stages, List.map_append]
    refine List.Sublist.append ?_ ih
    cases frame with
    | torn scope =>
      cases upper with
      | none => exact List.nil_sublist _
      | some => exact List.Sublist.refl _
    | _ => exact List.nil_sublist _

theorem note_silent {item : Item C} (note : item.isNote = true) : item.announced? = none := by
  cases item <;> first | rfl | cases note

theorem own_hushed (own : effect.isOwn = true) : effect.isHushed = true := by
  cases effect <;> first | rfl | cases own

theorem Thread.Tells.quiet {thread : Thread C} {move : Move C} (hushed : move.effect.isHushed = true)
    (silent : move.items.filterMap Item.announced? = []) (still : thread.announcing = [])
    (done : (Thread.mk move.focus move.frames).announcing = [])
    (fewer : (Thread.mk move.focus move.frames).debts.Sublist thread.debts) : thread.Tells world move :=
  ⟨[], by rw [silent, still, done], .quiet hushed fewer⟩

theorem Thread.Tells.same {thread : Thread C} {move : Move C} (hushed : move.effect.isHushed = true)
    (silent : move.items.filterMap Item.announced? = []) (still : thread.announcing = [])
    (done : (Thread.mk move.focus move.frames).announcing = [])
    (same : (Thread.mk move.focus move.frames).debts = thread.debts) : thread.Tells world move :=
  .quiet hushed silent still done (same ▸ List.Sublist.refl _)

theorem outcome_fate (teardown : Teardown) (key : String) :
    ∃ fate, teardown.outcome key = .fate teardown.scope.id key fate := by
  unfold Teardown.outcome
  split
  · exact ⟨false, rfl⟩
  · exact ⟨true, rfl⟩

-- After the last hook of an instance its key is no longer owed, and is told.
theorem hooked_tells {teardown : Teardown} {key : String} (exit : Exit C) (borne : Borne False (.tearing teardown.scope) frames) :
    (Thread.mk exit.focus (.hooked teardown key :: frames)).Tells world (Move.hooked teardown key exit frames) := by
  obtain ⟨below, rfl⟩ := (tearing_below borne).resolve_right fun other => other.1
  obtain ⟨scope, entries, phase, rest, failures, failed⟩ := teardown
  have still : ∀ frames, (Thread.mk exit.focus frames).announcing = [] := by
    intro frames
    cases exit <;> rfl
  have owed : ∀ frame rest, (Thread.mk exit.focus (.hooked frame key :: rest)).debts =
      debts (Frame.hooked frame key : Frame C).owes? rest := by
    intro frame rest
    cases exit <;> rfl
  have silent : (Move.hooked ⟨scope, entries, phase, rest, failures, failed⟩ key exit (.torn scope :: below)).items.filterMap
      Item.announced? = [] := by
    cases phase <;> simp [Move.hooked, Item.announced?]
  cases phase with
  | beforeDestroy =>
    refine .quiet rfl silent (still _) rfl ?_
    rw [owed]
    exact List.Sublist.refl _
  | destroy =>
    let later : Teardown := Teardown.record ⟨scope, entries, .destroy, rest, failures, failed⟩
      ((Move.hookCause? .destroy exit).toList.map (Failure.hook scope.id key .destroy))
    obtain ⟨fate, told⟩ := outcome_fate later key
    refine ⟨[(scope.registry, .fate scope.id key fate)], ?_, ?_⟩
    · rw [silent, still]
      exact congrArg (fun event => [(scope.registry, event)]) told
    · rw [owed]
      exact .pays fate

theorem admitted_tells {point : Point C} {focus : Focus C} (still : (Thread.mk focus frames).announcing = [])
    (same : (Thread.mk focus frames).debts = debts none frames) :
    (Thread.mk focus frames).Tells world ⟨.still, [], point.admitted, frames⟩ := by
  have done : (Thread.mk point.admitted frames).announcing = [] ∧ (Thread.mk point.admitted frames).debts = debts none frames := by
    cases point <;> exact ⟨rfl, rfl⟩
  exact .same rfl rfl still done.1 (done.2.trans same.symm)

theorem refused_tells {point : Point C} {fault : Fault} {focus : Focus C} (borne : Borne aided .calling frames)
    (still : (Thread.mk focus frames).announcing = []) (same : (Thread.mk focus frames).debts = debts none frames) :
    (Thread.mk focus frames).Tells world ⟨.still, [], point.refused fault, frames⟩ := by
  have done : (Thread.mk (point.refused fault) frames).announcing = [] ∧
      (Thread.mk (point.refused fault) frames).debts = debts none frames := by
    cases point with
    | shared => exact ⟨rfl, rfl⟩
    | sight place =>
      cases place with
      | inside => exact ⟨rfl, rfl⟩
      | first | peek | holds => exact ⟨rfl, back_debts borne nofun⟩
  exact .same rfl rfl still done.1 (done.2.trans same.symm)

theorem back_tells {reply : Reply C} {items : List (Item C)} (hushed : effect.isHushed = true)
    (borne : Borne aided activity frames) (other : ∀ scope, activity ≠ .tearing scope)
    (silent : items.filterMap Item.announced? = []) (still : before.announcing = []) (same : before.debts = debts none frames) :
    before.Tells world ⟨effect, items, .back reply, frames⟩ :=
  .same hushed silent still rfl ((back_debts borne other).trans same.symm)

theorem exit_tells {exit : Exit C} (hushed : effect.isHushed = true) (borne : Borne aided activity frames)
    (other : ∀ scope, activity ≠ .tearing scope) (still : before.announcing = []) (same : before.debts = debts none frames) :
    before.Tells world ⟨effect, [], exit.focus, frames⟩ := by
  refine .same hushed rfl still ?_ ((exit_debts borne other).trans same.symm)
  cases exit <;> rfl

theorem starts_tells {op : Op C} {next : Reply C → Code C} {focus : Focus C} {waiting : List (Frame C)}
    (starts : op.starts? = some (focus, waiting)) :
    (Thread.mk (.run (.call op next)) frames).Tells world ⟨.still, [.called op], focus, waiting ++ .user next :: frames⟩ := by
  cases op <;> cases starts <;> exact .same rfl rfl rfl rfl rfl

section
variable {teardown : Teardown} {rest : List (String × Entry)} {code : Code C} {reply : Reply C}

theorem tornDown_debts (phase : teardown.phase = .destroy) (visited : teardown.rest = []) :
    (Thread.mk (.back reply) frames).debts = (Thread.mk (.tear teardown) frames).debts := by
  obtain ⟨scope, entries, _, _, failures, failed⟩ := teardown
  cases phase
  cases visited
  rfl

theorem turned_debts (phase : teardown.phase = .beforeDestroy) :
    (Thread.mk (.tear { teardown with phase := .destroy, rest := teardown.entries }) frames).debts =
      (Thread.mk (.tear teardown) frames).debts := by
  obtain ⟨scope, entries, _, rest, failures, failed⟩ := teardown
  cases phase
  rfl

theorem hooks_debts (left : teardown.rest = (key, entry) :: rest) :
    (Thread.mk (.run code) (.hooked { teardown with rest } key :: frames)).debts = (Thread.mk (.tear teardown) frames).debts := by
  obtain ⟨scope, entries, phase, _, failures, failed⟩ := teardown
  cases left
  cases phase <;> rfl

end

theorem turn_tale {thread : Thread C} {move : Move C} (turn : Turn world me thread move) (sound : thread.Sound False shaken) :
    thread.Tells world move := by
  have borne := sound.borne
  have stacked := sound.stacked
  cases turn with
  | begins vacant known => exact ⟨_, rfl, .begins vacant known⟩
  | builds => exact ⟨_, rfl, .keeps⟩
  | empties found => exact ⟨_, rfl, .empties found⟩
  | marks => exact ⟨_, rfl, .marks⟩
  | emits => exact ⟨[], rfl, .quiet rfl (List.Sublist.refl _)⟩
  | @gathers items _ _ logged known =>
    have silent : items.filterMap Item.announced? = [] := by
      refine List.filterMap_eq_nil_iff.mpr fun item member => ?_
      obtain ⟨id, rfl⟩ := logged item member
      rfl
    exact ⟨_, by rw [silent]; rfl, .sums known⟩
  | backHooked => exact hooked_tells (.back _) stacked.1
  | unwindHooked => exact hooked_tells (.unwind _) stacked.1
  | ends | unheard | sees | peeks | holds | overlooks | spares | sets | forgets =>
    exact back_tells rfl (borne _ rfl) nofun rfl rfl rfl
  | backDelivering | backBegun | backEndedUnknown | backSwept | backInvoked =>
    exact back_tells rfl stacked.1 nofun rfl rfl rfl
  | @backDropped reply frames =>
    have silent : (Move.dropped reply frames).items.filterMap Item.announced? = [] := by
      unfold Move.dropped
      split <;> rfl
    refine .same (by rw [dropped_effect]; rfl) silent rfl ?_ ?_
    · rw [dropped_focus, dropped_frames]; rfl
    · rw [dropped_focus, dropped_frames]; exact back_debts stacked.1 nofun
  | @backReleased reply frames guard =>
    have silent : (Move.released guard reply frames).items.filterMap Item.announced? = [] := by
      unfold Move.released
      split <;> rfl
    refine .same (by rw [released_effect]; rfl) silent rfl ?_ ?_
    · rw [released_focus, released_frames]; rfl
    · rw [released_focus, released_frames]; exact back_debts stacked.1 nofun
  | leaves | reopens => exact exit_tells rfl (borne _ rfl) nofun rfl rfl
  | admits | vouches => exact admitted_tells rfl rfl
  | refuses | disowns => exact refused_tells (borne _ rfl) rfl rfl
  | goOn _ own noted =>
    refine .same (own_hushed own) ?_ rfl rfl rfl
    exact List.filterMap_eq_nil_iff.mpr fun item member => note_silent (noted item member)
  | answers own => exact .same (own_hushed own) rfl rfl rfl rfl
  | calls starts => exact starts_tells starts
  | @unwindBuilding _ _ _ _ frame building => cases frame <;> cases building <;> exact .same rfl rfl rfl rfl rfl
  | @unwindEnding _ _ _ frame ending => cases frame <;> cases ending <;> exact .same rfl rfl rfl rfl rfl
  | @unwindOther _ _ frame passive =>
    cases frame with
    | reported => exact .quiet rfl rfl rfl rfl fewer_debts
    | _ => first | exact .same rfl rfl rfl rfl rfl | cases passive
  | tearsDown phase visited => exact .same rfl rfl rfl rfl (tornDown_debts phase visited)
  | turnsBack phase => exact .same rfl rfl rfl rfl (turned_debts phase)
  | warns _ left | destroys _ left => exact .same rfl rfl rfl rfl (hooks_debts left)
  | _ => exact .same rfl rfl rfl rfl rfl

theorem debts_torn (owed : (scope, left) ∈ debts upper frames) : .torn scope ∈ frames := by
  induction frames generalizing upper with
  | nil => cases owed
  | cons frame rest ih =>
    rcases List.mem_append.mp owed with here | below
    · cases frame with
      | torn place =>
        cases upper with
        | none => cases here
        | some =>
          cases List.mem_singleton.mp here
          exact List.mem_cons_self ..
      | _ => cases here
    · exact List.mem_cons_of_mem _ (ih below)

theorem Upper.late (upper : Upper) : upper.stage.isEarly = false ∧ upper.stage.state? = some .destructionPending := by
  cases upper <;> exact ⟨rfl, rfl⟩

-- Whoever owes an event is at an end that has taken out the instances and not yet marked the scope.
theorem Thread.debts_late {thread : Thread C} (owed : (scope, left) ∈ thread.debts) :
    ∃ stage, (scope, stage) ∈ thread.posture.ends ∧ stage.isEarly = false ∧ stage.state? = some .destructionPending := by
  rcases List.mem_append.mp owed with here | below
  · obtain ⟨focus, frames⟩ := thread
    cases focus with
    | clear | settle | mark =>
      cases List.mem_singleton.mp here
      exact ⟨_, List.mem_append_left _ (List.mem_singleton.mpr rfl), rfl, rfl⟩
    | _ => cases here
  · obtain ⟨upper, member⟩ := torn_stage thread.focus.upper (debts_torn below)
    exact ⟨upper.stage, List.mem_append_right _ member, upper.late⟩

theorem Thread.debts_stages {thread : Thread C} : (thread.debts.map Prod.fst).Sublist (thread.posture.ends.map Prod.fst) := by
  simp only [Thread.debts, Thread.posture, List.map_append]
  refine List.Sublist.append ?_ Lifespan.debts_stages
  cases thread.focus <;> first | exact List.Sublist.refl _ | exact List.nil_sublist _

theorem about_count (all : List (ScopeRef × α)) : (all.map Prod.fst).count scope = (List.about scope all).length := by
  induction all with
  | nil => rfl
  | cons one rest ih =>
    unfold List.about at ih ⊢
    by_cases same : one.1 = scope <;> simp [same, ih]

end

namespace System
variable {before after system : System C} {program : C.Label → Code C} {memory : C.Memory} {code : Code C}
  {scope : ScopeRef} {me : ThreadId} {thread : Thread C}

theorem debts_pending (path : Runs (initial program memory code) system) (running : system.threads[me]? = some thread)
    (owed : (scope, left) ∈ thread.debts) :
    (system.world.scope? scope).isSome ∧ (system.world.cell scope).state = .destructionPending ∧ (system.life scope).Emptied := by
  obtain ⟨stage, stands, late, pending⟩ := Thread.debts_late owed
  rw [← posture_found running] at stands
  have member : stage ∈ (system.life scope).ends me := life_stage stands
  have orderly := (runs_lived path scope).orderly
  have mine := (orderly.owned (orderly.only member)).1
  exact ⟨(runs_grounded path).ends me scope stage stands, mine.states stage member _ pending,
    orderly.emptied (orderly.only member) late⟩

theorem debts_once (path : Runs (initial program memory code) system) (running : system.threads[me]? = some thread) :
    (thread.debts.map Prod.fst).count scope ≤ 1 := by
  have ends : (system.life scope).ends me = List.about scope thread.posture.ends := by
    simp only [life, posture_found running]
    rfl
  refine Nat.le_trans (List.Sublist.count_le scope Thread.debts_stages) ?_
  rw [about_count, ← ends]
  obtain ⟨owner, ended⟩ := (runs_lived path scope).orderly
  by_cases mine : me = owner
  · exact mine ▸ ended.single
  · simp [ended.others me mine]

section
variable {effect : Effect C} {items : List (Item C)} {key : String} {made : Instance C}

theorem deeds_keeps (deeds : Deeds before after me (.keep scope key made) items) :
    ∃ gate, (scope, .making key gate) ∈ (before.posture me).grips ∧
      items = [.stored scope key (.kept scope (before.world.cell scope).instances.length)] := by
  have deed := deeds.deed
  generalize before.posture me = was at deed ⊢
  generalize after.posture me = now at deed
  cases deed with
  | plain own => cases own
  | act rest act =>
    cases act with
    | build build =>
      cases build with
      | @keep key gate => exact ⟨gate, List.mem_cons_self .., rfl⟩
    | close close => cases close

theorem deeds_empties (deeds : Deeds before after me (.empty scope) items) :
    (scope, .alone) ∈ (before.posture me).ends ∧
      (scope, .emptied (before.world.cell scope).store.drainNewestFirst.1) ∈ (after.posture me).ends := by
  have deed := deeds.deed
  generalize before.posture me = was at deed ⊢
  generalize after.posture me = now at deed ⊢
  cases deed with
  | plain own => cases own
  | act rest act =>
    cases act with
    | build build => cases build
    | close close =>
      cases close with
      | empty => exact ⟨List.mem_cons_self .., List.mem_cons_self ..⟩

theorem deeds_retires (deeds : Deeds before after me (.retire scope) items) :
    (before.world.cell scope).state = .active ∧ (before.world.scope? scope).isSome := by
  have deed := deeds.deed
  generalize before.posture me = was at deed
  generalize after.posture me = now at deed
  cases deed with
  | plain own => cases own
  | act rest act known =>
    cases act with
    | build build => cases build
    | close close =>
      cases close with
      | retire active => exact ⟨active, known rfl⟩

theorem deeds_unstored (deeds : Deeds before after me effect items) (other : ∀ key made, effect ≠ .keep scope key made) :
    after.world.stored scope = before.world.stored scope := by
  have none : items.filterMap (Item.stored? scope) = [] := by
    have deed := deeds.deed
    generalize before.posture me = was at deed
    generalize after.posture me = now at deed
    cases deed with
    | plain _ ordinary | register _ _ ordinary => exact plain_stored ordinary
    | aside _ hooks => exact aside_stored hooks
    | @act place _ _ _ _ rest act =>
      by_cases here : place = scope
      · subst here
        cases act with
        | close close => exact close.stores
        | build build =>
          rcases build.stores with ⟨none, _⟩ | ⟨key, _, made, _, _, same, _⟩
          · exact none
          · exact absurd same (other key made)
      · exact act.elsewhere here
  rw [deeds.world, record_stored, none, List.append_nil]

theorem deeds_next {id : ScopeId} (deeds : Deeds before after me effect items) (ordinary : effect.registered? = none) :
    after.world.nextScope registry id = before.world.nextScope registry id := by
  rw [deeds.world]
  exact ordinary_next ordinary

theorem keeps_open (path : Runs (initial program memory code) before) (deeds : Deeds before after me (.keep scope key made) items) :
    (before.world.scope? scope).isSome ∧ ¬(before.life scope).Emptied := by
  obtain ⟨gate, held, _⟩ := deeds_keeps deeds
  refine ⟨(runs_grounded path).grips me scope _ held, fun emptied => ?_⟩
  cases (runs_lived path scope).shut emptied me _ (List.mem_filterMap.mpr ⟨_, held, if_pos rfl⟩)

theorem deeds_destroyed (path : Runs (initial program memory code) before) (deeds : Deeds before after me effect items)
    (other : effect ≠ .mark scope) :
    (after.world.cell scope).state = .destroyed ↔ (before.world.cell scope).state = .destroyed := by
  rw [deeds.world, record_cell]
  by_cases closes : effect.closes? = some scope
  · cases effect with
    | retire =>
      cases closes
      obtain ⟨active, known⟩ := deeds_retires deeds
      rw [target_cell rfl known, if_pos rfl, active]
      exact iff_of_false nofun nofun
    | mark => cases closes; exact absurd rfl other
    | _ => cases closes
  · rw [spared_state closes (runs_grounded path).numbered]

end

end System
end Lifespan
