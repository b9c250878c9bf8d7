import Lifespan.Proofs.Teardown

-- The ending of a scope waits for the constructions that are in flight and loses nothing of what they
-- store; it refuses whoever comes later, and nobody who builds something.
namespace Lifespan
variable {C : Client}

def Frame.builds (scope : ScopeRef) (frame : Frame C) : Bool :=
  frame.building?.any fun one => one.1.request.scope = scope

def Code.sights? : Code C → Option (Sight C × (Reply C → Code C))
  | .resolve request factory next => some (.first ⟨request, factory⟩, next)
  | .call (.peek scope key type) next => some (.peek ⟨scope, key, type⟩, next)
  | .call (.holds scope key) next => some (.holds scope key, next)
  | _ => none

def Code.called : Code C → List (Item C)
  | .call op _ => [.called op]
  | _ => []

-- How many steps of its own are left to a search that comes too late, at most.
inductive Denied (asked : Code C) (sight : Sight C) (next : Reply C → Code C) (frames : List (Frame C)) : Nat → Thread C → Prop
  | asks : Denied asked sight next frames 3 ⟨.run asked, frames⟩
  | checks : Denied asked sight next frames 2 ⟨.check (.sight sight), .user next :: frames⟩
  | vouches : Denied asked sight next frames 1 ⟨.vouch (.sight sight), .user next :: frames⟩
  | refused : Denied asked sight next frames 0
      ⟨(Point.sight sight).refused (.inactive sight.scope.id), .user next :: frames⟩

inductive Newcomer (request : Request) (factory : ScopeRef → Code C) (next : Reply C → Code C) (frames : List (Frame C)) :
    Nat → Thread C → Prop
  | asks : Newcomer request factory next frames 3 ⟨.run (.resolve request factory next), frames⟩
  | checks : Newcomer request factory next frames 2 ⟨.check (.sight (.first ⟨request, factory⟩)), .user next :: frames⟩
  | vouches : Newcomer request factory next frames 1 ⟨.vouch (.sight (.first ⟨request, factory⟩)), .user next :: frames⟩
  | refused : Newcomer request factory next frames 0
      ⟨.back (.fault (.inactive request.scope.id)), .user next :: frames⟩

theorem builds_iff {frame : Frame C} {scope : ScopeRef} :
    frame.builds scope = true ↔ ∃ grip, frame.grip? = some (scope, grip) := by
  cases frame <;> simp [Frame.builds, Frame.building?, Frame.grip?]

section
variable {world : World C} {me : ThreadId} {thread : Thread C} {move : Move C} {scope : ScopeRef} {request : Request}
  {factory : ScopeRef → Code C} {next : Reply C → Code C} {frames : List (Frame C)} {left : Nat}

theorem newcomer_iff : Newcomer request factory next frames left thread ↔
    Denied (.resolve request factory next) (.first ⟨request, factory⟩) next frames left thread := by
  constructor <;> intro comes <;> cases comes <;> constructor

variable {asked : Code C} {sight : Sight C}

theorem Denied.busy (denied : Denied asked sight next frames left thread) (sights : asked.sights? = some (sight, next)) :
    thread.focus.rests = false := by
  cases denied with
  | asks => cases asked <;> first | rfl | cases sights
  | refused => cases sight <;> rfl
  | _ => rfl

theorem Denied.idle (denied : Denied asked sight next frames left thread) (sights : asked.sights? = some (sight, next)) :
    thread.focus.grip? = none := by
  have first : (Point.sight sight).grip? = none := by
    cases asked with
    | resolve => cases sights; rfl
    | call op => cases op <;> cases sights <;> rfl
    | _ => cases sights
  cases denied with
  | asks => rfl
  | checks | vouches => exact first
  | refused => cases sight <;> first | rfl | cases first

theorem Denied.outside (denied : Denied asked sight next frames left thread)
    (outside : ∀ frame ∈ frames, frame.builds scope = false) : ∀ frame ∈ thread.frames, frame.builds scope = false := by
  cases denied with
  | asks => exact outside
  | _ => exact fun frame member => (List.mem_cons.mp member).elim (fun same => same ▸ rfl) (outside frame)

theorem Denied.done (denied : Denied asked sight next frames 0 thread) (sights : asked.sights? = some (sight, next)) :
    ∃ exit : Exit C, thread = ⟨exit.focus, .user next :: frames⟩ := by
  cases denied
  cases sight with
  | first | peek | holds => exact ⟨.back _, rfl⟩
  | inside =>
    cases asked with
    | call op => cases op <;> cases sights
    | _ => cases sights

theorem Turn.searches (turn : Turn world me ⟨.run asked, frames⟩ move) (sights : asked.sights? = some (sight, next)) :
    move = ⟨.still, asked.called, .check (.sight sight), .user next :: frames⟩ := by
  cases asked with
  | resolve =>
    cases sights
    cases turn with
    | resolves => rfl
    | goOn alone | ends alone | panics alone => cases alone
  | call op =>
    cases op <;> cases sights <;>
      cases turn with
      | calls starts => cases starts; rfl
      | goOn alone | ends alone | panics alone => cases alone
      | answers _ immediate => cases immediate
  | _ => cases sights

-- Each step of a search that comes too late brings it closer to its refusal, and does nothing else.
theorem Denied.turn (denied : Denied asked sight next frames (left + 1) thread) (sights : asked.sights? = some (sight, next))
    (turn : Turn world me thread move) (inactive : (world.cell sight.scope).state ≠ .active)
    (idle : (world.cell sight.scope).gates.isBuilding me = false) :
    move.effect = .still ∧ (move.items = [] ∨ move.items = asked.called) ∧ ∃ fewer, fewer ≤ left ∧
      Denied asked sight next frames fewer ⟨move.focus, move.frames⟩ := by
  cases denied with
  | asks =>
    cases turn.searches sights
    exact ⟨rfl, .inr rfl, 2, Nat.le_refl _, .checks⟩
  | checks =>
    cases turn with
    | admits found active => exact absurd (cell_found found ▸ active) inactive
    | doubts => exact ⟨rfl, .inl rfl, 1, Nat.le_refl _, .vouches⟩
    | refuses => exact ⟨rfl, .inl rfl, 0, Nat.zero_le _, .refused⟩
  | vouches =>
    cases turn with
    | vouches found building => cases (cell_found found ▸ idle).symm.trans building
    | disowns => exact ⟨rfl, .inl rfl, 0, Nat.zero_le _, .refused⟩

theorem Denied.moves (denied : Denied asked sight next frames (left + 1) thread) (sights : asked.sights? = some (sight, next))
    (me : ThreadId) (known : (world.scope? sight.scope).isSome) : ∃ move, thread.next world me = some move := by
  obtain ⟨cell, found⟩ := Option.isSome_iff_exists.mp known
  cases denied with
  | asks =>
    cases asked with
    | resolve => exact ⟨_, rfl⟩
    | call op => cases op <;> first | exact ⟨_, rfl⟩ | cases sights
    | _ => cases sights
  | checks => exact ⟨_, Option.map_eq_some_iff.mpr ⟨cell, found, rfl⟩⟩
  | vouches => exact ⟨_, Option.map_eq_some_iff.mpr ⟨cell, found, rfl⟩⟩

end

namespace Life
variable {before after : Life C} {shaken aided : Prop} {scope : ScopeRef}

theorem Step.stored_same (step : Step shaken aided scope before after) (lived : Lived shaken aided scope before)
    (emptied : before.Emptied) : after.stored = before.stored := by
  cases step with
  | idle cell grips ends stored => exact stored
  | close me rest close cell stood stands others grips stored => exact stored
  | build me rest build cell held holds others ends stored =>
    rcases build.stores with ⟨none, _⟩ | ⟨key, gate, made, rfl, rfl, rfl, rfl⟩
    · rw [stored, none, List.append_nil]
    · cases lived.shut emptied me (.making key gate) (by rw [held]; exact List.mem_cons_self ..)

theorem Leads.stored_same (path : Leads shaken aided scope before after) (lived : Lived shaken aided scope before)
    (emptied : before.Emptied) : after.stored = before.stored := by
  suffices both : Lived shaken aided scope after ∧ after.Emptied ∧ after.stored = before.stored from both.2.2
  induction path with
  | refl => exact ⟨lived, emptied, rfl⟩
  | step _ next ih =>
    obtain ⟨lives, empty, same⟩ := ih
    exact ⟨.step lives next, preserves_emptied empty next, (next.stored_same lives empty).trans same⟩

end Life

namespace System
variable {before after start system : System C} {program : C.Label → Code C} {memory : C.Memory} {code : Code C}
  {scope : ScopeRef} {thread : Thread C} {me : ThreadId} {request : Request} {factory : ScopeRef → Code C}
  {next : Reply C → Code C} {frames : List (Frame C)}

theorem emptied_quiet (path : Runs (initial program memory code) system) (emptied : (system.life scope).Emptied) :
    ∀ thread ∈ system.threads, ∀ frame ∈ thread.frames, frame.builds scope = false := by
  intro thread there frame member
  refine Bool.eq_false_iff.mpr fun builds => ?_
  obtain ⟨me, running⟩ := List.mem_iff_getElem?.mp there
  obtain ⟨grip, holds⟩ := builds_iff.mp builds
  cases (runs_lived path scope).shut emptied me grip (frame_grip running member holds)
  cases frame_builds holds

theorem calls_chronicle (scope : ScopeRef) {call : HookCall} (member : call ∈ system.world.calls scope) :
    .hook call ∈ system.world.chronicle := by
  obtain ⟨item, there, same⟩ := List.mem_filterMap.mp member
  cases item with
  | hook other =>
    simp only [Item.call?, Option.ite_none_right_eq_some] at same
    cases same.2
    exact there
  | _ => cases same

theorem destroyed_all (path : Runs (initial program memory code) system)
    (destroyed : (system.world.cell scope).state = .destroyed) :
    ∀ one ∈ system.world.stored scope, .hook (.destroy one.2) ∈ system.world.chronicle := by
  intro one member
  have has := ((runs_lived path scope).due.past destroyed).1
  refine calls_chronicle scope (has.subset (List.mem_append_right _ (List.mem_map.mpr ⟨one, ?_, rfl⟩)))
  exact List.mem_reverse.mpr member

theorem empties (path : Runs (initial program memory code) system)
    (running : system.threads[me]? = some ⟨.empty scope, frames⟩) :
    ∃ entries after, system.advance me = some after ∧ after.threads[me]? = some ⟨.clear scope entries, frames⟩ := by
  have stands : (scope, .alone) ∈ (system.posture me).ends := focus_stage running rfl
  obtain ⟨cell, found⟩ := Option.isSome_iff_exists.mp ((runs_grounded path).ends me scope .alone stands)
  refine ⟨cell.store.drainNewestFirst.1, _, by simp [advance, running, Thread.next, Move.empty, found]; rfl, ?_⟩
  exact List.getElem?_set_self (List.getElem?_eq_some_iff.mp running).1

theorem emptied_taken {entries : List (String × Entry)} {later : System C} (path : Runs (initial program memory code) after)
    (running : after.threads[me]? = some ⟨.clear scope entries, frames⟩) (onward : Runs after later) :
    (later.life scope).Emptied ∧ stock entries = (later.world.stored scope).reverse := by
  have member : .emptied entries ∈ (after.life scope).ends me := life_stage (focus_stage running rfl)
  have lived := runs_lived path scope
  have emptied := lived.orderly.emptied (lived.orderly.only member) rfl
  have leads := runs_leads path onward scope
  have grows := runs_grows onward
  have same : later.world.stored scope = after.world.stored scope :=
    leads.stored_same (lived.mono grows.1 grows.2) emptied
  rw [same]
  exact ⟨Life.leads_emptied emptied leads, lived.content.taken me _ member _ rfl⟩

theorem unbuilding (path : Runs (initial program memory code) system) (running : system.threads[me]? = some thread)
    (idle : thread.focus.grip? = none) (outside : ∀ frame ∈ thread.frames, frame.builds scope = false) :
    (system.world.cell scope).gates.isBuilding me = false := by
  refine Bool.eq_false_iff.mpr fun building => ?_
  have accounts := (runs_lived path scope).accounts
  obtain ⟨grip, held, _⟩ := accounts.builder building
  obtain ⟨⟨place, other⟩, member, same⟩ := List.mem_filterMap.mp held
  rw [posture_found running] at member
  simp only [Thread.posture, idle, Option.toList_none, List.nil_append] at member
  obtain ⟨frame, there, holds⟩ := List.mem_filterMap.mp member
  simp only [Option.ite_none_right_eq_some] at same
  obtain ⟨rfl, _⟩ := same
  have builds := builds_iff.mpr ⟨_, holds⟩
  rw [outside frame there] at builds
  cases builds

-- A search that finds the scope being ended, and nothing under construction there by its own thread, is
-- refused without any effect.
theorem awaits_denied {asked : Code C} {sight : Sight C} (sights : asked.sights? = some (sight, next))
    (asks : start.threads[me]? = some ⟨.run asked, frames⟩)
    (meets : ∀ before left thread, Awaits me (.user next :: frames) start before → before.threads[me]? = some thread →
      Denied asked sight next frames left thread →
      (before.world.cell sight.scope).state ≠ .active ∧ (before.world.cell sight.scope).gates.isBuilding me = false)
    (waits : Awaits me (.user next :: frames) start system) :
    ∃ left thread, system.threads[me]? = some thread ∧ Denied asked sight next frames left thread ∧
      (left = 0 ∨ ∃ after items other, system.advance me = some after ∧ after.world = record system.world me items ∧
        (items = [] ∨ items = asked.called) ∧ after.threads[me]? = some other ∧
        ∃ fewer, fewer < left ∧ Denied asked sight next frames fewer other) := by
  refine awaits_countdown (P := fun _ => Denied asked sight next frames) asks .asks ?_ ?_ ?_ ?_ ?_ waits
  · exact fun _ _ _ denied => denied.busy sights
  · exact fun _ _ denied => denied.done sights
  · exact fun _ _ _ _ _ _ denied => denied
  · exact fun before left thread waits running denied =>
      denied.moves sights me (inactive_known (meets before _ thread waits running denied).1)
  · intro before left thread move waits running denied turn
    obtain ⟨inactive, idle⟩ := meets before _ thread waits running denied
    exact denied.turn sights turn inactive idle

-- When the store of an ending scope is emptied no construction of the scope is under way, and none begins
-- later; whatever was stored has been taken out to be destroyed. Who asks for a singleton after the
-- ending has begun is refused without any effect, unless he builds something in the scope, who never is.
theorem ending_waits (path : Runs (initial program memory code) system) (scope : ScopeRef) :
    (∀ me frames, system.threads[me]? = some ⟨.empty scope, frames⟩ →
      ∃ entries after, system.advance me = some after ∧ after.threads[me]? = some ⟨.clear scope entries, frames⟩ ∧
        ∀ later, Runs after later →
          (∀ thread ∈ later.threads, ∀ frame ∈ thread.frames, frame.builds scope = false) ∧
          stock entries = (later.world.stored scope).reverse ∧
          ((later.world.cell scope).state = .destroyed →
            ∀ one ∈ stock entries, .hook (.destroy one.2) ∈ later.world.chronicle)) ∧
    (∀ me request factory next frames, system.threads[me]? = some ⟨.run (.resolve request factory next), frames⟩ →
      request.scope = scope → (system.world.cell scope).state ≠ .active → (∀ frame ∈ frames, frame.builds scope = false) →
      ∀ later, Awaits me (.user next :: frames) system later →
        ∃ left thread, later.threads[me]? = some thread ∧ Newcomer request factory next frames left thread ∧
          (left = 0 ∨ ∃ after other, later.advance me = some after ∧ after.world = later.world ∧
            after.threads[me]? = some other ∧ ∃ fewer, fewer < left ∧ Newcomer request factory next frames fewer other)) ∧
    ∀ me request factory next frames, system.threads[me]? = some ⟨.run (.resolve request factory next), frames⟩ →
      request.scope = scope → (∃ frame ∈ frames, frame.builds scope = true) →
      ∀ later id, Awaits me (.user next :: frames) system later →
        later.threads[me]? ≠ some ⟨.back (.fault (.inactive id)), .user next :: frames⟩ := by
  refine ⟨?_, ?_, ?_⟩
  · intro me frames running
    obtain ⟨entries, after, advances, clears⟩ := empties path running
    refine ⟨entries, after, advances, clears, fun later onward => ?_⟩
    have reached : Runs (initial program memory code) after := .step path (.thread me advances)
    obtain ⟨emptied, taken⟩ := emptied_taken reached clears onward
    refine ⟨emptied_quiet (reached.trans onward) emptied, taken, fun destroyed one member => ?_⟩
    rw [taken, List.mem_reverse] at member
    exact destroyed_all (reached.trans onward) destroyed one member
  · rintro me request factory next frames calls rfl inactive outside later waits
    have sights : (Code.resolve request factory next).sights? = some (.first ⟨request, factory⟩, next) := rfl
    obtain ⟨left, thread, running, denied, onward⟩ := awaits_denied sights calls (fun before left thread waits running denied =>
      ⟨(runs_leads path waits.runs request.scope).inactive inactive,
        unbuilding (path.trans waits.runs) running (denied.idle sights) (denied.outside outside)⟩) waits
    refine ⟨left, thread, running, newcomer_iff.mpr denied, onward.imp_right ?_⟩
    rintro ⟨after, items, other, advances, world, rfl | rfl, runs, fewer, less, nearer⟩ <;>
      exact ⟨after, other, advances, world, runs, fewer, less, newcomer_iff.mpr nearer⟩
  · rintro me request factory next frames calls rfl ⟨frame, member, builds⟩ later id waits refused
    obtain ⟨thread, running, rfl | seeks⟩ := awaits_seeks ⟨request, factory⟩ path calls waits
    · cases refused.symm.trans running
    · cases refused.symm.trans running
      obtain ⟨grip, holds⟩ := builds_iff.mp builds
      have rightful := seeks.answer (.back (.fault (.inactive id))) rfl
      exact rightful frame (List.mem_cons_of_mem _ member) grip holds

def follow (order : List ThreadId) (system : System C) : System C :=
  order.foldl (fun system me => (system.advance me).getD system) system

theorem follow_runs (order : List ThreadId) (system : System C) : Runs system (follow order system) := by
  induction order generalizing system with
  | nil => exact .refl system
  | cons me rest ih =>
    refine Runs.trans ?_ (ih ((system.advance me).getD system))
    cases moved : system.advance me with
    | none => exact .refl system
    | some after => exact .step (.refl system) (.thread me moved)

def builtPlain : Reply ⟨Unit, Unit, Unit, Unit⟩ → Code ⟨Unit, Unit, Unit, Unit⟩ :=
  fun _ => .built () ⟨fun _ => .done, fun _ => .done, .done⟩

def buildsPlain : ScopeRef → Code ⟨Unit, Unit, Unit, Unit⟩ := fun _ => builtPlain .done

-- One thread makes a singleton of a session and another one in its factory, a second thread ends the session, and a third
-- one asks for something new there. The end has begun when the factory asks.
def endingAmid : System ⟨Unit, Unit, Unit, Unit⟩ :=
  let scope : ScopeRef := ⟨0, ⟨.session, "a"⟩, 0⟩
  follow (List.replicate 10 1 ++ List.replicate 3 2) <| run 8 <|
    initial (fun _ => .done) () <| .call (.establish {}) fun _ => .call (.begin 0 ⟨.session, "a"⟩) fun _ =>
      .fork 3
        (fun index =>
          if index = 0 then
            .resolve ⟨scope, "outer", "Outer"⟩ (fun _ => .resolve ⟨scope, "inner", "Inner"⟩ buildsPlain builtPlain) builtPlain
          else if index = 1 then .call (.finish 0 ⟨.session, "a"⟩) fun _ => .done
          else .resolve ⟨scope, "new", "New"⟩ buildsPlain builtPlain)
        fun _ => .done

theorem endingAmid_runs : ∃ program code, Runs (initial program () code) endingAmid :=
  ⟨_, _, (run_runs 8 _).trans (follow_runs _ _)⟩

def Thread.empties (scope : ScopeRef) (thread : Thread C) : Bool :=
  match thread.focus with
  | .empty place => place = scope
  | _ => false

theorem emptying (there : (system.threads[me]?).any (Thread.empties scope) = true) :
    ∃ frames, system.threads[me]? = some ⟨.empty scope, frames⟩ := by
  cases running : system.threads[me]? with
  | none => simp [running] at there
  | some thread =>
    obtain ⟨focus, frames⟩ := thread
    rw [running, Option.any_some] at there
    cases focus with
    | empty place =>
      cases of_decide_eq_true there
      exact ⟨frames, rfl⟩
    | _ => cases there

-- The end waits for the factory, which is not refused, and takes what it has made.
theorem outer_awaited :
    (endingAmid.world.cell ⟨0, ⟨.session, "a"⟩, 0⟩).state = .destructionPending ∧ (endingAmid.advance 2).isNone ∧
    (∃ frames, endingAmid.threads[1]? = some ⟨.run (.resolve ⟨⟨0, ⟨.session, "a"⟩, 0⟩, "inner", "Inner"⟩ buildsPlain builtPlain), frames⟩ ∧
      ∀ later id, Awaits 1 (.user builtPlain :: frames) endingAmid later →
        later.threads[1]? ≠ some ⟨.back (.fault (.inactive id)), .user builtPlain :: frames⟩) ∧
    (endingAmid.threads[3]? = some ⟨.run (.resolve ⟨⟨0, ⟨.session, "a"⟩, 0⟩, "new", "New"⟩ buildsPlain builtPlain), []⟩ ∧
      ∀ later, Awaits 3 [.user builtPlain] endingAmid later → ∃ left thread, later.threads[3]? = some thread ∧
        Newcomer ⟨⟨0, ⟨.session, "a"⟩, 0⟩, "new", "New"⟩ buildsPlain builtPlain [] left thread) ∧
    ∃ entries after, (follow (List.replicate 32 1 ++ [2]) endingAmid).advance 2 = some after ∧
      stock entries = (after.world.stored ⟨0, ⟨.session, "a"⟩, 0⟩).reverse ∧
      (follow (List.replicate 32 1 ++ [2]) endingAmid).world.stored ⟨0, ⟨.session, "a"⟩, 0⟩ =
        [("inner", .kept ⟨0, ⟨.session, "a"⟩, 0⟩ 0), ("outer", .kept ⟨0, ⟨.session, "a"⟩, 0⟩ 1)] := by
  obtain ⟨program, code, path⟩ := endingAmid_runs
  obtain ⟨_, newcomer, insider⟩ := ending_waits path ⟨0, ⟨.session, "a"⟩, 0⟩
  obtain ⟨taking, _⟩ := ending_waits (path.trans (follow_runs (List.replicate 32 1 ++ [2]) endingAmid)) ⟨0, ⟨.session, "a"⟩, 0⟩
  refine ⟨by decide, by decide, ⟨_, rfl, ?_⟩, ?_, ?_⟩
  · exact insider 1 _ _ _ _ rfl rfl ⟨_, .head _, rfl⟩
  · refine ⟨rfl, fun later waits => ?_⟩
    obtain ⟨left, thread, running, late, _⟩ := newcomer 3 _ _ _ _ rfl rfl (by decide) (List.forall_mem_nil _) later waits
    exact ⟨left, thread, running, late⟩
  · obtain ⟨frames, running⟩ : ∃ frames, (follow (List.replicate 32 1 ++ [2]) endingAmid).threads[2]? =
        some ⟨.empty ⟨0, ⟨.session, "a"⟩, 0⟩, frames⟩ := emptying (by decide +kernel)
    obtain ⟨entries, after, advances, _, onward⟩ := taking 2 frames running
    exact ⟨entries, after, advances, (onward after (.refl _)).2.1, by decide +kernel⟩

end System
end Lifespan
