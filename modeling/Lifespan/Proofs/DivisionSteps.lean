import Lifespan.Proofs.Division

-- What a task that keeps to its own does next is again its own business.
namespace Lifespan
variable {C : Client} {division : Division C} {me : ThreadId} {world : World C} {scope : ScopeRef} {id : ScopeId}
  {frames : List (Frame C)} {program : C.Label → Code C} {move : Move C}

theorem silent_within {focus : Focus C} (acts : focus.Within division me) (waits : ∀ frame ∈ frames, frame.Within division me) :
    (Move.silent focus frames).Within division me program :=
  ⟨trivial, List.forall_mem_nil _, .doing acts waits⟩

theorem changing_within {effect : Effect C} {focus : Focus C} (mine : effect.Within division me) (acts : focus.Within division me)
    (waits : ∀ frame ∈ frames, frame.Within division me) : (Move.changing effect focus frames).Within division me program :=
  ⟨mine, List.forall_mem_nil _, .doing acts waits⟩

theorem waits_more {frame : Frame C} (first : frame.Within division me) (waits : ∀ frame ∈ frames, frame.Within division me) :
    ∀ one ∈ frame :: frames, one.Within division me :=
  List.forall_mem_cons.mpr ⟨first, waits⟩

theorem waits_user {next : Reply C → Code C} (onward : ∀ reply, division.Gives me reply → division.Writes me (next reply))
    (waits : ∀ frame ∈ frames, frame.Within division me) : ∀ one ∈ .user next :: frames, one.Within division me :=
  List.forall_mem_cons.mpr ⟨onward, waits⟩

theorem also_within {item : Item C} (first : item.Within division me) (within : move.Within division me program) :
    (move.also item).Within division me program :=
  ⟨within.effect, List.forall_mem_cons.mpr ⟨first, within.items⟩, within.thread⟩

theorem Reply.ofFailures_given (failures : List Failure) : division.Gives me (Reply.ofFailures failures) := by
  cases failures <;> trivial

theorem Exit.Within.focus {exit : Exit C} (within : exit.Within division me) : exit.focus.Within division me := by
  cases exit <;> exact within

theorem sighted_given {cell : Scope C} {request : Request} {reply : Reply C} (within : cell.Within division me)
    (sighted : Move.sighted cell request = some reply) : division.Gives me reply := by
  obtain ⟨entry, found, same⟩ := Option.map_eq_some_iff.mp sighted
  cases seen : entry.downcast request.type with
  | none => rw [seen] at same; cases same; trivial
  | some object =>
    rw [seen] at same
    cases same
    rw [Entry.downcast_iff.mp seen] at found
    exact within.entries _ _ found

theorem refused_within {point : Point C} {fault : Fault} (within : point.Within division me) : (point.refused fault).Within division me := by
  cases point with
  | sight place =>
    cases place with
    | inside job => exact ⟨Job.Within.mine within, trivial⟩
    | _ => trivial
  | shared job => exact ⟨Job.Within.mine within, trivial⟩

theorem admitted_within {point : Point C} (within : point.Within division me) : point.admitted.Within division me := by
  cases point <;> exact within

theorem callHook_within {hook : HookCall} (divided : Divided division world) (has : division.Has me hook.object)
    (shown : ∀ object scope, hook = .after object scope ∨ hook = .before object scope → division.Owns me scope)
    (waits : ∀ frame ∈ frames, frame.Within division me) (moved : Move.callHook world hook frames = some move) :
    move.Within division me program := by
  obtain ⟨made, found, rfl⟩ := Option.map_eq_some_iff.mp moved
  have hooks := divided.hooks has found
  refine ⟨trivial, by simp [Item.Within], .doing ?_ waits⟩
  cases hook with
  | after object scope => exact hooks.after scope (shown object scope (.inl rfl))
  | before object scope => exact hooks.before scope (shown object scope (.inr rfl))
  | destroy => exact hooks.destroy

theorem begin_within (mine : division.owner id = me) (waits : ∀ frame ∈ frames, frame.Within division me)
    (moved : Move.begin world division.registry id frames = some move) : move.Within division me program := by
  obtain ⟨cell, _, rfl⟩ := Option.map_eq_some_iff.mp moved
  split
  · exact silent_within trivial waits
  · exact changing_within ⟨rfl, mine⟩ ⟨rfl, id, rfl, mine⟩ (waits_more ⟨rfl, mine⟩ waits)

theorem lookup_given (divided : Divided division world) (mine : division.owner id = me)
    (found : world.lookup division.registry id = some scope) : division.Owns me scope :=
  divided.registered mine (Option.filter_eq_some_iff.mp found).1

theorem current_given {context : Context} {kind : Kind} (divided : Divided division world)
    (asks : division.Asks me (.current division.registry context kind)) (found : world.current division.registry context kind = some scope) :
    division.Owns me scope := by
  obtain ⟨_, bound, single⟩ := asks
  unfold World.current at found
  split at found
  · rename_i one binds
    split at found
    · cases found
      exact bound scope binds
    · cases found
  · rename_i unbound
    split at found
    · rename_i alone
      exact divided.stands (single unbound alone) (Option.filter_eq_some_iff.mp found).1
    · cases found

theorem found_given {found : Option ScopeRef} {otherwise : Reply C} (mine : ∀ scope, found = some scope → division.Owns me scope)
    (other : division.Gives me otherwise) : division.Gives me (found.elim otherwise .scope) := by
  cases found with
  | none => exact other
  | some scope => exact mine scope rfl

theorem read_given {op : Op C} {reply : Reply C} (divided : Divided division world) (asks : division.Asks me op)
    (read : world.read op = some reply) : division.Gives me reply := by
  cases op with
  | lookup registry id | require registry id =>
    obtain ⟨rfl, mine⟩ := asks
    cases read
    exact found_given (fun _ found => lookup_given divided mine found) trivial
  | current registry context kind | requireCurrent registry context kind =>
    obtain ⟨rfl, bound⟩ := asks
    cases read
    exact found_given (fun _ found => current_given divided ⟨rfl, bound⟩ found) trivial
  | settings | state | keys | count | attributeNames | contents =>
    obtain ⟨_, _, rfl⟩ := Option.map_eq_some_iff.mp read
    trivial
  | getAttribute scope name type =>
    obtain ⟨_, _, rfl⟩ := Option.map_eq_some_iff.mp read
    split
    · split <;> trivial
    · trivial
  | activeCount | ids => exact asks.elim
  | _ => cases read

theorem call_within {op : Op C} (divided : Divided division world) (asks : division.Asks me op)
    (waits : ∀ frame ∈ frames, frame.Within division me) (moved : Move.call world op frames = some move) :
    move.Within division me program := by
  cases op with
  | begin registry id =>
    obtain ⟨rfl, mine⟩ := asks
    exact begin_within mine waits moved
  | finish => cases moved; exact silent_within asks waits
  | endGuard guard => cases moved; exact silent_within ⟨asks.1, asks.2.2⟩ waits
  | dropGuard guard => cases moved; exact silent_within ⟨asks.1, asks.2.2⟩ (waits_more trivial waits)
  | peek | holds => cases moved; exact silent_within asks waits
  | setAttribute scope name value =>
    obtain ⟨cell, _, rfl⟩ := Option.map_eq_some_iff.mp moved
    split
    · exact silent_within asks waits
    · exact silent_within trivial waits
  | removeAttribute scope name =>
    obtain ⟨cell, _, rfl⟩ := Option.map_eq_some_iff.mp moved
    exact changing_within (fun _ same => Option.some.inj same ▸ asks) trivial waits
  | establish | silence | shutdown | drop | destroyAll | invoke => exact asks.elim
  | _ =>
    simp only [Move.call, Option.map_eq_some_iff] at moved
    obtain ⟨reply, read, rfl⟩ := moved
    exact silent_within (read_given divided asks read) waits

theorem run_within {code : Code C} (divided : Divided division world) (writes : division.Writes me code)
    (waits : ∀ frame ∈ frames, frame.Within division me) (moved : Move.run world code frames = some move) :
    move.Within division me world.program := by
  cases writes with
  | done => cases moved; exact silent_within trivial waits
  | @built datum hooks after before destroy =>
    unfold Move.run at moved
    cases frames with
    | nil => cases moved; exact silent_within trivial waits
    | cons frame rest =>
      obtain ⟨first, others⟩ := List.forall_mem_cons.mp waits
      cases frame with
      | factory job gate =>
        cases moved
        have mine : division.Owns me job.request.scope := Job.Within.mine first
        exact ⟨⟨mine, after, before, destroy⟩, by simp [Move.keep, Item.Within],
          .doing ⟨mine.1, _, rfl, mine.2⟩ (waits_more ⟨first, mine⟩ others)⟩
      | _ => cases moved; exact silent_within trivial (waits_more first others)
  | fail | panic => cases moved; exact silent_within trivial waits
  | jump opened => cases moved; exact silent_within (divided.program me _ opened) waits
  | note plain onward => cases moved; exact ⟨trivial, by simpa [Item.Within] using plain, .doing onward waits⟩
  | access keeps _ onward => cases moved; exact changing_within keeps (onward _) waits
  | await _ onward =>
    simp only [Move.run] at moved
    split at moved <;> cases moved
    exact silent_within onward waits
  | awaitState _ onward =>
    obtain ⟨cell, _, moved⟩ := Option.bind_eq_some_iff.mp moved
    split at moved <;> cases moved
    exact silent_within (onward _) waits
  | pause onward =>
    simp only [Move.run] at moved
    split at moved <;> cases moved
    exact silent_within onward waits
  | call asks onward =>
    obtain ⟨called, calls, rfl⟩ := Option.map_eq_some_iff.mp moved
    exact also_within trivial (call_within divided asks (waits_user onward waits) calls)
  | resolve mine makes onward =>
    cases moved
    exact ⟨trivial, List.forall_mem_nil _, .doing ⟨mine, makes⟩ (waits_user onward waits)⟩

theorem hooked_within {teardown : Teardown} {key : String} {exit : Exit C} (within : teardown.Within division me)
    (waits : ∀ frame ∈ frames, frame.Within division me) : (Move.hooked teardown key exit frames).Within division me program := by
  unfold Move.hooked
  cases teardown.phase with
  | beforeDestroy => exact ⟨trivial, by simp [Item.Within], .doing ⟨within.mine, within.entries, within.rest⟩ waits⟩
  | destroy =>
    refine ⟨trivial, by simp [Item.Within], .doing ⟨within.mine.1, teardown.scope.id, ?_, within.mine.2⟩
      (waits_more ⟨within.mine, within.entries, within.rest⟩ waits)⟩
    unfold Teardown.outcome
    split <;> rfl

theorem back_within {reply : Reply C} (divided : Divided division world) (given : division.Gives me reply)
    (waits : ∀ frame ∈ frames, frame.Within division me) (moved : Move.back world reply frames = some move) :
    move.Within division me program := by
  cases frames with
  | nil => cases moved
  | cons frame rest =>
    obtain ⟨first, others⟩ := List.forall_mem_cons.mp waits
    cases frame with
    | user next => cases moved; exact silent_within (first reply given) others
    | begun => cases moved; exact silent_within first others
    | factory => cases moved; exact ⟨trivial, by simp [Move.giveUp, Item.Within], .doing ⟨Job.Within.mine first, trivial⟩ others⟩
    | created job gate object =>
      have waiting : Frame.Within division me (.welcomed job gate object) := first
      refine callHook_within divided (show division.Has me (HookCall.after object _).object from first.2) ?_ (waits_more waiting others) moved
      rintro _ _ (same | same) <;> cases same
      exact first.1.mine
    | welcomed => cases moved; exact silent_within ⟨first.1.mine, first.2⟩ others
    | hooked => cases moved; exact hooked_within first others
    | reported => cases moved; exact silent_within first others
    | torn =>
      unfold Move.back at moved
      cases reply <;> cases moved <;> exact silent_within first others
    | closed => cases moved; exact silent_within ⟨first, Reply.ofFailures_given _⟩ others
    | ended registry scope =>
      cases moved
      unfold Move.ended
      split
      · exact silent_within trivial others
      · exact silent_within ⟨first.1, first.2, given⟩ others
    | released guard =>
      cases moved
      unfold Move.released
      split
      · exact silent_within trivial others
      · exact ⟨trivial, by simp [Item.Within], .doing trivial others⟩
      · exact silent_within trivial others
    | delivering | sweeping | dropped | invoked => exact first.elim

theorem unwind_within {panic : Panic} (waits : ∀ frame ∈ frames, frame.Within division me)
    (moved : Move.unwind panic frames = some move) : move.Within division me program := by
  cases frames with
  | nil => cases moved
  | cons frame rest =>
    obtain ⟨first, others⟩ := List.forall_mem_cons.mp waits
    cases frame with
    | user next => cases moved; exact silent_within (first _ trivial) others
    | factory => cases moved; exact silent_within ⟨Job.Within.mine first, trivial⟩ others
    | created | welcomed => cases moved; exact silent_within ⟨first.1.mine, trivial⟩ others
    | hooked => cases moved; exact hooked_within first others
    | torn | closed => cases moved; exact silent_within ⟨first, trivial⟩ others
    | begun | reported | ended | released => cases moved; exact silent_within trivial others
    | delivering | sweeping | dropped | invoked => exact first.elim

theorem tear_within {teardown : Teardown} (divided : Divided division world) (within : teardown.Within division me)
    (waits : ∀ frame ∈ frames, frame.Within division me) (moved : Move.tear world teardown frames = some move) :
    move.Within division me program := by
  have waiting : ∀ {rest key}, (∀ one ∈ rest, division.Has me one.2.object) →
      Frame.Within division me (.hooked { teardown with rest } key) := fun left => ⟨within.mine, within.entries, left⟩
  unfold Move.tear at moved
  split at moved
  · cases moved
    exact silent_within ⟨within.mine, within.entries, within.entries⟩ waits
  · cases moved
    exact silent_within trivial waits
  · rename_i key entry rest _ left
    have more : ∀ one ∈ (key, entry) :: rest, division.Has me one.2.object := left ▸ within.rest
    obtain ⟨first, rest⟩ := List.forall_mem_cons.mp more
    refine callHook_within divided (show division.Has me (HookCall.before entry.object _).object from first) ?_
      (waits_more (waiting rest) waits) moved
    rintro _ _ (same | same) <;> cases same
    exact within.mine
  · rename_i key entry rest _ left
    have more : ∀ one ∈ (key, entry) :: rest, division.Has me one.2.object := left ▸ within.rest
    obtain ⟨first, rest⟩ := List.forall_mem_cons.mp more
    refine callHook_within divided (show division.Has me (HookCall.destroy entry.object).object from first) ?_
      (waits_more (waiting rest) waits) moved
    rintro _ _ (same | same) <;> cases same

theorem look_within {sight : Sight C} (divided : Divided division world) (within : sight.Within division me)
    (waits : ∀ frame ∈ frames, frame.Within division me) (moved : Move.look world sight frames = some move) :
    move.Within division me program := by
  obtain ⟨cell, found, rfl⟩ := Option.map_eq_some_iff.mp moved
  have stored := divided.scopes me _ cell (Sight.Within.mine within) found
  cases sight with
  | first job =>
    dsimp only
    split
    · rename_i seen
      exact silent_within (sighted_given stored seen) waits
    · exact silent_within within waits
  | inside job gate =>
    have job : job.Within division me := within
    dsimp only
    split
    · rename_i seen
      exact silent_within ⟨job.mine, sighted_given stored seen⟩ waits
    · exact ⟨trivial, by simp [Item.Within], .doing job.makes (waits_more job waits)⟩
  | peek request =>
    dsimp only
    split
    · rename_i seen
      exact silent_within (sighted_given stored seen) waits
    · exact silent_within trivial waits
  | holds => exact silent_within trivial waits

theorem drained_within {cell : Scope C} (within : cell.Within division me) :
    ∀ one ∈ cell.store.drainNewestFirst.1, division.Has me one.2.object :=
  fun _ taken => within.entries _ _ (Store.takeOut_found taken)

theorem move_within {focus : Focus C} (divided : Divided division world) (acts : focus.Within division me)
    (waits : ∀ frame ∈ frames, frame.Within division me) (moved : Thread.next world me ⟨focus, frames⟩ = some move) :
    move.Within division me world.program := by
  cases focus with
  | run code => exact run_within divided acts waits moved
  | back reply => exact back_within divided acts waits moved
  | unwind panic => exact unwind_within waits moved
  | emit registry event =>
    obtain ⟨cell, _, rfl⟩ := Option.map_eq_some_iff.mp moved
    have tells : division.Tells me registry event := acts
    exact ⟨trivial, by simpa [Item.Within] using tells, .doing acts waits⟩
  | deliver registry event =>
    obtain ⟨cell, found, rfl⟩ := Option.map_eq_some_iff.mp moved
    obtain ⟨rfl, tells⟩ := acts
    obtain ⟨known, there, quiet⟩ := divided.registry
    cases found.symm.trans there
    cases listens : cell.listener with
    | none => exact silent_within trivial waits
    | some listener => exact ⟨trivial, by simpa [Item.Within, Division.Tells] using tells, .listening (.hears (quiet listener listens event)) waits⟩
  | check point =>
    obtain ⟨cell, _, rfl⟩ := Option.map_eq_some_iff.mp moved
    cases cell.state with
    | active => exact silent_within (admitted_within acts) waits
    | destructionPending => exact silent_within acts waits
    | created | destroyed => exact silent_within (refused_within acts) waits
  | vouch point =>
    obtain ⟨cell, _, rfl⟩ := Option.map_eq_some_iff.mp moved
    split
    · exact silent_within (admitted_within acts) waits
    · exact silent_within (refused_within acts) waits
  | look sight => exact look_within divided acts waits moved
  | share job =>
    obtain ⟨cell, _, moved⟩ := Option.bind_eq_some_iff.mp moved
    split at moved <;> cases moved
    exact changing_within (fun _ same => Option.some.inj same ▸ acts.mine) acts waits
  | queue job =>
    obtain ⟨cell, _, rfl⟩ := Option.map_eq_some_iff.mp moved
    split
    · exact silent_within ⟨acts.mine, trivial⟩ waits
    · exact changing_within (fun _ same => Option.some.inj same ▸ acts.mine) acts waits
  | turn job gate =>
    obtain ⟨cell, _, moved⟩ := Option.bind_eq_some_iff.mp moved
    split at moved <;> cases moved
    exact changing_within (fun _ same => Option.some.inj same ▸ acts.mine) acts waits
  | start job gate =>
    cases moved
    exact changing_within (fun _ same => Option.some.inj same ▸ acts.mine) acts waits
  | leave scope hold exit =>
    cases moved
    have mine : ∀ one, some scope = some one → division.Owns me one := fun _ same => Option.some.inj same ▸ acts.1
    cases hold with
    | building | turn => exact changing_within mine acts waits
    | lifecycle => exact changing_within mine acts.2.focus waits
  | find registry id =>
    cases moved
    obtain ⟨rfl, mine⟩ := acts
    unfold Move.find
    split
    · exact silent_within trivial waits
    · rename_i scope found
      have owned := divided.registered mine found
      exact silent_within owned (waits_more ⟨rfl, owned⟩ waits)
  | retire scope =>
    obtain ⟨cell, _, rfl⟩ := Option.map_eq_some_iff.mp moved
    split
    · exact changing_within (fun _ same => Option.some.inj same ▸ acts) acts waits
    · exact silent_within trivial waits
  | exclude scope =>
    obtain ⟨cell, _, moved⟩ := Option.bind_eq_some_iff.mp moved
    split at moved <;> cases moved
    exact changing_within (fun _ same => Option.some.inj same ▸ acts) acts waits
  | empty scope =>
    obtain ⟨cell, found, rfl⟩ := Option.map_eq_some_iff.mp moved
    exact changing_within (fun _ same => Option.some.inj same ▸ acts)
      ⟨acts, drained_within (divided.scopes me scope cell acts found)⟩ waits
  | clear scope entries =>
    cases moved
    exact changing_within (fun _ same => Option.some.inj same ▸ acts.1) ⟨acts.1, acts.2, acts.2⟩ (waits_more acts.1 waits)
  | tear teardown => exact tear_within divided acts waits moved
  | settle scope failures | assign scope =>
    cases moved
    exact changing_within (fun _ same => Option.some.inj same ▸ acts) (by first | exact acts | trivial) waits
  | mark scope failures =>
    cases moved
    exact changing_within (fun _ same => Option.some.inj same ▸ acts) ⟨acts.1, scope.id, rfl, acts.2⟩ (waits_more acts waits)
  | reopen scope exit =>
    cases moved
    exact changing_within (fun _ same => Option.some.inj same ▸ acts.1) acts.2.focus waits
  | forget registry scope reply =>
    cases moved
    exact changing_within ⟨acts.1, acts.2.1⟩ acts.2.2 waits
  | gather | join => exact acts.elim

end Lifespan
