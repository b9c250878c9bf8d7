import Lifespan.Proofs.Registered

-- What has nothing to do with a registry. Code that never uses it, nor one of its scopes or their instances,
-- leaves them as they are, whatever else it does and however many activities it starts elsewhere.
namespace Lifespan
variable {C : Client}

def InstanceRef.registry? : InstanceRef → Option RegistryRef
  | kept scope _ => some scope.registry
  | loose _ => none

def Op.uses (registry : RegistryRef) : Op C → Bool
  | establish _ => false
  | settings place | silence place | begin place _ | finish place _ | lookup place _ | require place _ | current place _ _
    | requireCurrent place _ _ | activeCount place _ | ids place _ | shutdown place | drop place => place == registry
  | endGuard guard | dropGuard guard => guard.registry == registry
  | state scope | keys scope | count scope | peek scope _ _ | holds scope _ | setAttribute scope _ _ | getAttribute scope _ _
    | removeAttribute scope _ | attributeNames scope => scope.registry == registry
  | contents object => object.registry? == some registry
  | destroyAll scope store => scope.registry == registry ||
      store.drainNewestFirst.1.any fun one => one.2.object.registry? == some registry
  | invoke call => call.object.registry? == some registry

def Code.uses (registry : RegistryRef) : Code C → Bool
  | call op _ => op.uses registry
  | resolve request _ _ => request.scope.registry == registry
  | listen place _ _ => place == registry
  | awaitState scope _ _ => scope.registry == registry
  | _ => false

def Apart (registry : RegistryRef) (entries : List (String × Entry)) : Prop :=
  ∀ one ∈ entries, one.2.object.registry? ≠ some registry

structure Teardown.Foreign (registry : RegistryRef) (teardown : Teardown) : Prop where
  scope : teardown.scope.registry ≠ registry
  entries : Apart registry teardown.entries
  rest : Apart registry teardown.rest

def Focus.Foreign (registry : RegistryRef) : Focus C → Prop
  | .run _ | .back _ | .unwind _ | .join _ _ => True
  | .emit place _ | .deliver place _ | .find place _ | .gather place | .forget place _ _ => place ≠ registry
  | .check point | .vouch point => point.scope.registry ≠ registry
  | .look sight => sight.scope.registry ≠ registry
  | .share job | .queue job | .turn job _ | .start job _ => job.request.scope.registry ≠ registry
  | .leave scope _ _ | .retire scope | .exclude scope | .empty scope | .settle scope _ | .mark scope _ | .reopen scope _
    | .assign scope _ _ => scope.registry ≠ registry
  | .clear scope entries => scope.registry ≠ registry ∧ Apart registry entries
  | .tear teardown => teardown.Foreign registry

def Frame.Foreign (registry : RegistryRef) : Frame C → Prop
  | .user _ | .delivering _ _ | .begun _ | .dropped | .released _ | .invoked _ => True
  | .factory job _ | .welcomed job _ _ => job.request.scope.registry ≠ registry
  | .created job _ object => job.request.scope.registry ≠ registry ∧ object.registry? ≠ some registry
  | .hooked teardown _ | .reported teardown => teardown.Foreign registry
  | .torn scope | .closed scope _ => scope.registry ≠ registry
  | .ended place _ | .sweeping place _ _ => place ≠ registry

structure Effect.Foreign (registry : RegistryRef) (effect : Effect C) : Prop where
  scopes : ∀ scope, effect.target? = some scope → effect.isPlain = true ∨ scope.registry ≠ registry
  places : ∀ place id, effect.registered? = some (place, id) → place ≠ registry

def Item.concerns (registry : RegistryRef) : Item C → Bool
  | emitted place _ => place == registry
  | hook call => call.object.registry? == some registry
  | _ => false

def World.dealings (world : World C) (registry : RegistryRef) : List (Item C) := world.chronicle.filter (Item.concerns registry)

-- The scopes of the registry but these are what they were, except for their attributes, and this is what has been
-- told and done.
structure Spares (registry : RegistryRef) (gone : List ScopeRef) (told : List (Item C)) (before after : World C) : Prop where
  scopes : ∀ scope : ScopeRef, scope.registry = registry → scope ∉ gone →
    ∃ attributes, after.cell scope = { before.cell scope with attributes := attributes }
  known : ∀ scope : ScopeRef, scope.registry = registry → (after.scope? scope).isSome = (before.scope? scope).isSome
  dealings : after.dealings registry = before.dealings registry ++ told

section
variable {world one two three : World C} {registry : RegistryRef} {scope : ScopeRef} {effect : Effect C} {items told more : List (Item C)}
  {me : ThreadId}

theorem Spares.refl (world : World C) : Spares registry gone [] world world :=
  ⟨fun _ _ _ => ⟨_, rfl⟩, fun _ _ => rfl, (List.append_nil _).symm⟩

theorem Spares.trans (first : Spares registry gone told one two) (second : Spares registry gone more two three) :
    Spares registry gone (told ++ more) one three where
  scopes scope mine apart := by
    obtain ⟨_, was⟩ := first.scopes scope mine apart
    obtain ⟨attributes, now⟩ := second.scopes scope mine apart
    exact ⟨attributes, by rw [now, was]⟩
  known scope mine := (second.known scope mine).trans (first.known scope mine)
  dealings := by rw [second.dealings, first.dealings, List.append_assoc]

theorem Spares.widen {all : List ScopeRef} (spares : Spares registry gone told one two) (more : gone ⊆ all) :
    Spares registry all told one two :=
  ⟨fun scope mine apart => spares.scopes scope mine fun within => apart (more within), spares.known, spares.dealings⟩

@[simp] theorem record_dealings : (System.record (effect.apply me world) me items).dealings registry =
    world.dealings registry ++ items.filter (Item.concerns registry) := by
  simp [World.dealings]

theorem apply_spares (scopes : ∀ scope, effect.target? = some scope → effect.isPlain = true ∨ scope.registry ≠ registry ∨ scope ∈ gone)
    (places : ∀ place id, effect.registered? = some (place, id) → place ≠ registry) :
    Spares registry gone (items.filter (Item.concerns registry)) world (System.record (effect.apply me world) me items) where
  scopes scope mine apart := by
    rw [record_cell]
    rcases apply_cell effect me world scope with same | ⟨target, changed⟩ | ⟨place, id, rfl, rfl, _⟩
    · exact ⟨_, same⟩
    · rw [changed]
      exact plain_change ((scopes scope target).resolve_right fun either => either.elim (· mine) apart)
    · exact absurd mine (places place id rfl)
  known scope mine := by
    rw [record_scope?]
    refine Bool.eq_iff_iff.mpr ⟨fun now => ?_, apply_isSome⟩
    rcases apply_known now with known | ⟨place, id, new, rfl⟩
    · exact known
    · exact absurd mine (places place id new)
  dealings := record_dealings

theorem Effect.Foreign.spares (foreign : effect.Foreign registry) :
    Spares registry [] (items.filter (Item.concerns registry)) world (System.record (effect.apply me world) me items) :=
  apply_spares (fun scope target => (foreign.scopes scope target).imp_right .inl) foreign.places

theorem own_foreign (own : effect.isOwn = true) : effect.Foreign registry := by
  constructor
  · intro scope target
    left
    cases effect <;> first | rfl | cases own
  · intro place id new
    cases effect <;> first | cases new; done | cases own

theorem scope_foreign (apart : scope.registry ≠ registry) (target : effect.target? = some scope)
    (ordinary : effect.registered? = none) : effect.Foreign registry :=
  ⟨fun _ same => .inr (Option.some.inj (target.symm.trans same) ▸ apart), fun _ _ new => nomatch ordinary.symm.trans new⟩

theorem still_foreign : Effect.Foreign registry (C := C) .still := ⟨nofun, nofun⟩

end

-- A step that has nothing to do with the registry, and puts on its frames only what has nothing to do with it.
structure Move.Foreign (registry : RegistryRef) (thread : Thread C) (move : Move C) : Prop where
  effect : move.effect.Foreign registry
  quiet : move.items.filter (Item.concerns registry) = []
  focus : move.focus.Foreign registry
  frames : ∃ upper, (∀ frame ∈ upper, frame.Foreign registry) ∧
    (move.frames = upper ++ thread.frames ∨ thread.isOver ∧ move.frames = upper ++ thread.frames.tail)

def World.Homemade (world : World C) : Prop :=
  ∀ scope key entry, (world.cell scope).store.get? key = some entry → entry.object.registry? = some scope.registry

section
variable {world : World C} {registry : RegistryRef} {scope : ScopeRef} {me : ThreadId} {focus : Focus C} {frames : List (Frame C)}
  {move : Move C} {effect : Effect C} {items : List (Item C)} {cell : Scope C}

theorem Move.Foreign.stays {next : Focus C} (touches : effect.Foreign registry) (quiet : items.filter (Item.concerns registry) = [])
    (acts : next.Foreign registry) : Move.Foreign registry ⟨focus, frames⟩ ⟨effect, items, next, frames⟩ :=
  ⟨touches, quiet, acts, [], List.forall_mem_nil _, .inl rfl⟩

theorem Move.Foreign.silent {next : Focus C} (acts : next.Foreign registry) :
    Move.Foreign registry ⟨focus, frames⟩ ⟨.still, [], next, frames⟩ :=
  .stays still_foreign rfl acts

theorem Move.Foreign.pushes {next : Focus C} (upper : List (Frame C)) (touches : effect.Foreign registry)
    (quiet : items.filter (Item.concerns registry) = []) (acts : next.Foreign registry)
    (waits : ∀ frame ∈ upper, frame.Foreign registry) :
    Move.Foreign registry ⟨focus, frames⟩ ⟨effect, items, next, upper ++ frames⟩ :=
  ⟨touches, quiet, acts, upper, waits, .inl rfl⟩

theorem Move.Foreign.pops {next : Focus C} {frame : Frame C} {rest : List (Frame C)} (past : Thread.isOver ⟨focus, frame :: rest⟩)
    (quiet : items.filter (Item.concerns registry) = []) (acts : next.Foreign registry) :
    Move.Foreign registry ⟨focus, frame :: rest⟩ ⟨.still, items, next, rest⟩ :=
  ⟨still_foreign, quiet, acts, [], List.forall_mem_nil _, .inr ⟨past, rfl⟩⟩

theorem Move.Foreign.swaps {next : Focus C} {frame other : Frame C} {rest : List (Frame C)} (past : Thread.isOver ⟨focus, frame :: rest⟩)
    (touches : effect.Foreign registry) (quiet : items.filter (Item.concerns registry) = []) (acts : next.Foreign registry)
    (waits : other.Foreign registry) :
    Move.Foreign registry ⟨focus, frame :: rest⟩ ⟨effect, items, next, other :: rest⟩ :=
  ⟨touches, quiet, acts, [other], List.forall_mem_singleton.mpr waits, .inr ⟨past, rfl⟩⟩

theorem drained_apart (homemade : world.Homemade) (found : world.scope? scope = some cell) (apart : scope.registry ≠ registry) :
    Apart registry cell.store.drainNewestFirst.1 := by
  rintro ⟨key, entry⟩ taken mine
  have there : (world.cell scope).store.get? key = some entry := by
    rw [cell_found found]
    exact Store.takeOut_found taken
  exact apart (Option.some.inj ((homemade scope key entry there).symm.trans mine))

theorem exit_foreign (exit : Exit C) : exit.focus.Foreign registry := by cases exit <;> trivial

theorem admitted_foreign {point : Point C} (apart : point.scope.registry ≠ registry) : point.admitted.Foreign registry := by
  cases point <;> exact apart

theorem refused_foreign {point : Point C} {fault : Fault} (apart : point.scope.registry ≠ registry) :
    (point.refused fault).Foreign registry := by
  cases point with
  | shared => exact apart
  | sight place =>
    cases place with
    | inside => exact apart
    | _ => trivial

theorem starts_foreign {op : Op C} {waiting : List (Frame C)} (unused : op.uses registry = false)
    (starts : op.starts? = some (focus, waiting)) : focus.Foreign registry ∧ ∀ frame ∈ waiting, frame.Foreign registry := by
  cases op with
  | destroyAll scope store =>
    cases starts
    simp only [Op.uses, Bool.or_eq_false_iff, beq_eq_false_iff_ne, List.any_eq_false, beq_iff_eq] at unused
    exact ⟨⟨unused.1, unused.2, unused.2⟩, List.forall_mem_nil _⟩
  | dropGuard guard =>
    cases starts
    exact ⟨beq_eq_false_iff_ne.mp unused, List.forall_mem_singleton.mpr trivial⟩
  | finish | endGuard | shutdown | peek | holds =>
    cases starts
    exact ⟨beq_eq_false_iff_ne.mp unused, List.forall_mem_nil _⟩
  | _ => cases starts

theorem noted_quiet (noted : ∀ item ∈ items, Item.isNote item = true) : items.filter (Item.concerns registry) = [] := by
  refine List.filter_eq_nil_iff.mpr fun item member => ?_
  have note := noted item member
  cases item <;> first | exact Bool.false_ne_true | cases note

theorem called_quiet {call : HookCall} (other : call.object.registry? ≠ some registry) :
    [Item.hook call].filter (Item.concerns registry (C := C)) = [] := by
  simpa [Item.concerns] using other

theorem hooked_foreign {teardown : Teardown} {key : String} {exit : Exit C} {rest : List (Frame C)}
    (past : Thread.isOver ⟨focus, .hooked teardown key :: rest⟩) (foreign : teardown.Foreign registry) :
    (Move.hooked teardown key exit rest).Foreign registry ⟨focus, .hooked teardown key :: rest⟩ := by
  unfold Move.hooked
  cases teardown.phase with
  | beforeDestroy => exact .pops past (by simp [Item.concerns]) ⟨foreign.scope, foreign.entries, foreign.rest⟩
  | destroy => exact .swaps past still_foreign (by simp [Item.concerns]) foreign.scope ⟨foreign.scope, foreign.entries, foreign.rest⟩

theorem turn_foreign {thread : Thread C} (filed : System.Filed world) (homemade : world.Homemade) (turn : Turn world me thread move)
    (acts : thread.focus.Foreign registry) (unused : ∀ code, thread.focus = .run code → code.uses registry = false)
    (waits : thread.isOver → ∀ frame ∈ thread.frames.head?, frame.Foreign registry) : move.Foreign registry thread := by
  have asks {op : Op C} {next : Reply C → Code C} (asked : thread.focus = .run (.call op next)) : op.uses registry = false := unused _ asked
  have user (next : Reply C → Code C) : ∀ frame ∈ [Frame.user next], frame.Foreign registry := List.forall_mem_singleton.mpr trivial
  cases turn with
  | goOn alone own noted => exact .stays (own_foreign own) (noted_quiet noted) trivial
  | ends | panics => exact .silent trivial
  | builds =>
    have apart : Frame.Foreign registry (.factory _ _) := waits trivial _ rfl
    exact .swaps trivial (scope_foreign apart rfl rfl) rfl apart ⟨apart, fun same => apart (Option.some.inj same)⟩
  | answers own => exact .pushes [_] (own_foreign own) rfl trivial (user _)
  | begins =>
    have apart := beq_eq_false_iff_ne.mp (asks rfl)
    refine .pushes [_, _] ⟨nofun, ?_⟩ rfl apart (List.forall_mem_cons.mpr ⟨trivial, user _⟩)
    rintro _ _ ⟨⟩
    exact apart
  | calls starts =>
    obtain ⟨acts, above⟩ := starts_foreign (asks rfl) starts
    rw [List.append_cons]
    exact .pushes _ still_foreign rfl acts (List.forall_mem_append.mpr ⟨above, user _⟩)
  | drops =>
    exact .pushes [_, _] still_foreign rfl (beq_eq_false_iff_ne.mp (asks rfl)) (List.forall_mem_cons.mpr ⟨trivial, user _⟩)
  | assigns => exact .pushes [_] still_foreign rfl (beq_eq_false_iff_ne.mp (asks rfl)) (user _)
  | invokes =>
    have other := beq_eq_false_iff_ne.mp (asks rfl)
    exact .pushes [_, _] still_foreign (called_quiet other) trivial (List.forall_mem_cons.mpr ⟨trivial, user _⟩)
  | resolves => exact .pushes [_] still_foreign rfl (beq_eq_false_iff_ne.mp (unused _ rfl)) (user _)
  | emits =>
    refine .stays still_foreign ?_ acts
    simp only [List.filter_cons, Item.concerns, beq_false_of_ne acts]
    rfl
  | unheard => exact .silent trivial
  | hears => exact .pushes [_] still_foreign rfl trivial (List.forall_mem_singleton.mpr trivial)
  | admits | vouches => exact .silent (admitted_foreign acts)
  | doubts | misses => exact .silent acts
  | refuses | disowns => exact .silent (refused_foreign acts)
  | sees | peeks | holds | overlooks | spares => exact .silent trivial
  | seesInside => exact .silent acts
  | makes => exact .pushes [_] still_foreign rfl trivial (List.forall_mem_singleton.mpr acts)
  | shares | queues | seizes | starts | finishes | yields | retires | excludes | settles =>
    exact .stays (scope_foreign acts rfl rfl) rfl acts
  | balks => exact .silent acts
  | leaves | reopens => exact .stays (scope_foreign acts rfl rfl) rfl (exit_foreign _)
  | finds registered =>
    obtain ⟨rfl, _⟩ := filed.own _ _ _ (Option.filter_eq_some_iff.mp registered).1
    exact .pushes [_] still_foreign rfl acts (List.forall_mem_singleton.mpr acts)
  | empties found => exact .stays (scope_foreign acts rfl rfl) rfl ⟨acts, drained_apart homemade found acts⟩
  | clears => exact .pushes [_] (scope_foreign acts.1 rfl rfl) rfl ⟨acts.1, acts.2, acts.2⟩ (List.forall_mem_singleton.mpr acts.1)
  | turnsBack => exact .silent ⟨acts.scope, acts.entries, acts.entries⟩
  | tearsDown => exact .silent trivial
  | warns _ left | destroys _ left =>
    obtain ⟨first, rest⟩ := List.forall_mem_cons.mp (left ▸ acts.rest)
    exact .pushes [_] still_foreign (called_quiet first) trivial (List.forall_mem_singleton.mpr ⟨acts.scope, acts.entries, rest⟩)
  | marks => exact .pushes [_] (scope_foreign acts rfl rfl) rfl acts (List.forall_mem_singleton.mpr acts)
  | forgets => exact .stays ⟨nofun, nofun⟩ rfl trivial
  | gathers logged =>
    refine .pushes [_] still_foreign (List.filter_eq_nil_iff.mpr fun item member => ?_) acts (List.forall_mem_singleton.mpr acts)
    obtain ⟨id, rfl⟩ := logged item member
    exact Bool.false_ne_true
  | sets => exact .stays (scope_foreign acts rfl rfl) rfl trivial
  | backUser | backDelivering | backBegun | backSwept | backInvoked | backEndedUnknown | unwindUser | unwindOther =>
    exact .pops trivial rfl trivial
  | backFactory | backWelcomed | backReported | backTorn | backClosed => exact .pops trivial rfl (waits trivial _ rfl)
  | backCreated =>
    obtain ⟨apart, other⟩ : Frame.Foreign registry (.created _ _ _) := waits trivial _ rfl
    exact .swaps trivial still_foreign (called_quiet other) trivial apart
  | backHooked | unwindHooked => exact hooked_foreign trivial (waits trivial _ rfl)
  | backEnded => exact .pops trivial rfl (waits trivial _ rfl)
  | backSweeping =>
    have apart : Frame.Foreign registry (.sweeping _ _ _) := waits trivial _ rfl
    exact .swaps trivial still_foreign rfl apart apart
  | backDropped => unfold Move.dropped; split <;> exact .pops trivial rfl trivial
  | backReleased => unfold Move.released; split <;> exact .pops trivial rfl trivial
  | unwindDelivering => exact .pops trivial rfl trivial
  | @unwindBuilding _ _ _ _ frame building =>
    have foreign := waits trivial frame rfl
    cases frame <;> cases building <;> first | exact .pops trivial rfl foreign | exact .pops trivial rfl foreign.1
  | @unwindEnding _ _ _ frame ending =>
    have foreign := waits trivial frame rfl
    cases frame <;> cases ending <;> exact .pops trivial rfl foreign

end

inductive Elsewhere (registry : RegistryRef) (base : List (Frame C)) : Thread C → Prop
  | above (upper : List (Frame C)) (acts : focus.Foreign registry) (waits : ∀ frame ∈ upper, frame.Foreign registry) :
      Elsewhere registry base ⟨focus, upper ++ base⟩

theorem turn_elsewhere {world : World C} {thread : Thread C} {move : Move C} {frame : Frame C} {below : List (Frame C)}
    (filed : System.Filed world) (homemade : world.Homemade) (plain : frame.building? = none) (turn : Turn world me thread move)
    (elsewhere : Elsewhere registry (frame :: below) thread)
    (unused : ∀ code upper, thread = ⟨.run code, upper ++ frame :: below⟩ → code.uses registry = false)
    (unanswered : ∀ exit : Exit C, thread ≠ ⟨exit.focus, frame :: below⟩) :
    Spares registry [] [] world (System.record (move.effect.apply me world) me move.items) ∧
      Elsewhere registry (frame :: below) ⟨move.focus, move.frames⟩ := by
  obtain @⟨focus, upper, acts, waits⟩ := elsewhere
  have open_ (past : Thread.isOver ⟨focus, upper ++ frame :: below⟩) : upper ≠ [] := by
    rintro rfl
    obtain ⟨exit, rfl⟩ := over_exit plain past
    exact unanswered exit rfl
  have foreign : move.Foreign registry ⟨focus, upper ++ frame :: below⟩ := by
    refine turn_foreign filed homemade turn acts (fun code same => unused code upper (by rw [← same])) fun past one first => ?_
    cases upper with
    | nil => exact absurd rfl (open_ past)
    | cons top rest => exact waits one (by cases first; exact List.mem_cons_self)
  refine ⟨foreign.quiet ▸ foreign.effect.spares, ?_⟩
  obtain ⟨more, new, kept | ⟨past, popped⟩⟩ := foreign.frames
  · rw [kept, ← List.append_assoc]
    exact .above _ foreign.focus (List.forall_mem_append.mpr ⟨new, waits⟩)
  · cases upper with
    | nil => exact absurd rfl (open_ past)
    | cons top rest =>
      rw [popped, List.cons_append, List.tail_cons, ← List.append_assoc]
      exact .above _ foreign.focus (List.forall_mem_append.mpr ⟨new, (List.forall_mem_cons.mp waits).2⟩)

namespace System
variable {start system : System C} {program : C.Label → Code C} {memory : C.Memory} {code asked : Code C} {frame : Frame C}
  {below : List (Frame C)} {registry : RegistryRef}

theorem runs_homemade (path : Runs (initial program memory code) system) : system.world.Homemade := by
  intro scope key entry stands
  have content := (runs_lived path scope).content
  obtain ⟨index, kept⟩ := content.kept (content.holds stands)
  rw [kept]
  rfl

-- User code that does not use a registry leaves it as it is until it comes back.
theorem awaits_foreign (path : Runs (initial program memory code) start) (plain : frame.building? = none)
    (alone : ∀ reached, Awaits 0 (frame :: below) start reached → reached.threads.length = 1)
    (unused : ∀ reached code upper, Awaits 0 (frame :: below) start reached →
      reached.threads = [⟨.run code, upper ++ frame :: below⟩] → code.uses registry = false)
    (running : start.threads = [⟨.run asked, frame :: below⟩]) (waits : Awaits 0 (frame :: below) start system) :
    ∃ thread, system.threads = [thread] ∧ Elsewhere registry (frame :: below) thread ∧ Spares registry [] [] start.world system.world := by
  refine awaits_sole (P := fun world thread => Elsewhere registry (frame :: below) thread ∧ Spares registry [] [] start.world world) alone running
    ⟨.above [] trivial (List.forall_mem_nil _), .refl _⟩ ?_ ?_ waits
  · rintro world focus other frames was now ⟨elsewhere, spares⟩
    generalize same : Thread.mk focus frames = thread at elsewhere
    obtain ⟨upper, acts, waits⟩ := elsewhere
    obtain ⟨rfl, rfl⟩ := Thread.mk.inj same
    refine ⟨.above upper ?_ waits, spares⟩
    cases other <;> first | trivial | cases now
  · rintro world thread move reached turn ⟨elsewhere, spares⟩ unanswered
    have whole := path.trans reached.runs
    obtain ⟨more, still⟩ := turn_elsewhere (runs_filed whole) (runs_homemade whole) plain turn elsewhere
      (fun code upper same => unused _ code upper reached (by rw [same])) unanswered
    exact ⟨still, spares.trans more⟩

end System
end Lifespan
