import Lifespan.Proofs.GripsAndStages

-- What one step of a thread is to the scopes. It touches the construction or the ending that the
-- thread is in the middle of, and nothing below it.
namespace Lifespan
variable {C : Client}

def Item.isPlain : Item C → Bool
  | stored _ _ _ | factory _ _ | hook (.before _ _) | hook (.destroy _) => false
  | _ => true

def Teardown.nextCall (teardown : Teardown) (entry : Entry) : HookCall :=
  match teardown.phase with
  | .beforeDestroy => .before entry.object teardown.scope
  | .destroy => .destroy entry.object

-- One step of a construction: what the thread that makes it holds before and after.
inductive Build (scope : ScopeRef) (cell : Scope C) (me : ThreadId) : List Grip → Effect C → List (Item C) → List Grip → Prop
  | share (free : cell.exclusive = none) : Build scope cell me [] (.share scope) [] [.door]
  | enter (welcome : cell.state = .active ∨ cell.gates.isBuilding me = true) :
      Build scope cell me [.door] .still [] [.line]
  | balk : Build scope cell me [.line] .still [] [.door]
  | queue (acyclic : cell.gates.waitsOn key me = false) :
      Build scope cell me [.line] (.queue scope key) [] [.waiting key (cell.gates.queue key me cell.turns.length).1]
  | seize (free : cell.turns[gate]? = some none) :
      Build scope cell me [.waiting key gate] (.seize scope gate) [] [.called key gate]
  | start : Build scope cell me [.called key gate] (.start scope key) [] [.looking key gate]
  | make (unseen : cell.store.get? key = none) :
      Build scope cell me [.looking key gate] .still [.factory scope key] [.making key gate]
  | keep : Build scope cell me [.making key gate] (.keep scope key made)
      [.stored scope key (.kept scope cell.instances.length)] [.made key gate (.kept scope cell.instances.length)]
  | done (ordinary : ∀ item ∈ items, Item.isPlain item = true)
      (built : grip = .looking key gate ∨ grip = .making key gate ∨ ∃ object, grip = .made key gate object) :
      Build scope cell me [grip] .still items [.done key gate]
  | finish : Build scope cell me [.done key gate] (.finish scope key) [] [.parting gate]
  | yield : Build scope cell me [.parting gate] (.yield scope gate) [] [.door]
  | unshare : Build scope cell me [.door] (.unshare scope) [] []

-- One step of the ending of a scope: how far the thread that makes it has come before and after.
inductive Close (shaken : Prop) (scope : ScopeRef) (cell : Scope C) :
    List Stage → Effect C → List (Item C) → List Stage → Prop
  | retire (active : cell.state = .active) : Close shaken scope cell [] (.retire scope) [] [.waiting]
  | exclude (unshared : cell.sharing = []) (free : cell.exclusive = none) :
      Close shaken scope cell [.waiting] (.exclude scope) [] [.alone]
  | empty : Close shaken scope cell [.alone] (.empty scope) [] [.emptied cell.store.drainNewestFirst.1]
  | clear : Close shaken scope cell [.emptied entries] (.clearGates scope) [] [.tearing (.begin scope entries)]
  | hook (mine : teardown.scope = scope) (left : teardown.rest = (key, entry) :: rest) :
      Close shaken scope cell [.tearing teardown] .still [.hook (teardown.nextCall entry)]
        [.tearing { teardown with rest }]
  | fail (mine : teardown.scope = scope) (ordinary : ∀ item ∈ items, Item.isPlain item = true) :
      Close shaken scope cell [.tearing teardown] .still items [.tearing (teardown.record failures)]
  | turnBack (mine : teardown.scope = scope) (phase : teardown.phase = .beforeDestroy) (visited : teardown.rest = []) :
      Close shaken scope cell [.tearing teardown] .still []
        [.tearing { teardown with phase := .destroy, rest := teardown.entries }]
  | tearDown (mine : teardown.scope = scope) (phase : teardown.phase = .destroy) (visited : teardown.rest = []) :
      Close shaken scope cell [.tearing teardown] .still [] [.torn]
  | cut (panicked : shaken) (mine : teardown.scope = scope) :
      Close shaken scope cell [.tearing teardown] .still [] [.cut]
  | settle : Close shaken scope cell [.torn] (.clearAttributes scope) [] [.settled]
  | mark : Close shaken scope cell [.settled] (.mark scope) [] [.told]
  | leave : Close shaken scope cell [.told] .still [] [.leaving true]
  | flee (panicked : shaken) (ending : stage = .told ∨ stage = .cut) :
      Close shaken scope cell [stage] .still [] [.leaving false]
  | reopen : Close shaken scope cell [.leaving true] (.reopen scope) [] [.answered]
  | abandon (panicked : shaken) : Close shaken scope cell [.leaving false] (.reopen scope) [] []
  | forget : Close shaken scope cell [.answered] (.forget registry scope) [] []

inductive Act (shaken : Prop) (scope : ScopeRef) (cell : Scope C) (me : ThreadId) :
    Part → Effect C → List (Item C) → Part → Prop
  | build (build : Build scope cell me was effect items now) : Act shaken scope cell me ⟨was, []⟩ effect items ⟨now, []⟩
  | close (close : Close shaken scope cell was effect items now) : Act shaken scope cell me ⟨[], was⟩ effect items ⟨[], now⟩

-- A step of a thread goes on with one construction or one ending, or does not concern the scopes.
inductive Deed (world : World C) (me : ThreadId) : Posture → Effect C → List (Item C) → Posture → Prop
  | plain (own : effect.isPlain = true) (ordinary : ∀ item ∈ items, Item.isPlain item = true) :
      Deed world me posture effect items posture
  | register {id : ScopeId} (vacant : (world.occupant registry id).any world.isAlive = false)
      (known : registry < world.registries.length) (ordinary : ∀ item ∈ items, Item.isPlain item = true) :
      Deed world me posture (.register registry id) items posture
  | aside (aided : (System.record world me items).aided)
      (hooks : ∀ item ∈ items, (∃ op, item = .called op) ∨ ∃ call, item = .hook call) :
      Deed world me posture .still items posture
  | act (rest : Posture) (act : Act world.shaken scope (world.cell scope) me before effect items after)
      (known : before = ⟨[], []⟩ → (world.scope? scope).isSome) :
      Deed world me (rest.under scope before) effect items (rest.under scope after)

section
variable {world : World C} {me : ThreadId} {aided : Prop} {scope : ScopeRef} {frames : List (Frame C)} {items : List (Item C)}

theorem own_plain {effect : Effect C} (own : effect.isOwn = true) : effect.isPlain = true := by
  cases effect <;> first | rfl | cases own

theorem note_plain {item : Item C} (note : item.isNote = true) : item.isPlain = true := by
  cases item <;> first | rfl | cases note

theorem Deed.same {before after : Posture} (same : before = after) (ordinary : ∀ item ∈ items, Item.isPlain item = true) :
    Deed world me before .still items after := same ▸ .plain rfl ordinary

theorem Deed.silent {before after : Posture} (same : before = after) : Deed world me before .still [] after :=
  .same same (List.forall_mem_nil _)

theorem starts_posture {op : Op C} {next : Reply C → Code C} {focus : Focus C} {waiting : List (Frame C)}
    (starts : op.starts? = some (focus, waiting)) :
    (Thread.mk focus (waiting ++ .user next :: frames)).posture = background frames := by
  cases op <;> cases starts <;> rfl

theorem admits_deed {point : Point C} {cell : Scope C} (found : world.scope? point.scope = some cell)
    (welcome : cell.state = .active ∨ cell.gates.isBuilding me = true) :
    Deed world me (Thread.mk (.check point) frames).posture .still [] (Thread.mk point.admitted frames).posture := by
  cases point with
  | sight place => exact .silent rfl
  | shared job =>
    rw [← cell_found found] at welcome
    exact .act (background frames) (.build <| .enter welcome) nofun

theorem refuses_deed {point : Point C} {fault : Fault} (borne : Borne aided .calling frames) :
    Deed world me (Thread.mk (.check point) frames).posture .still [] (Thread.mk (point.refused fault) frames).posture := by
  cases point with
  | shared job => exact .silent rfl
  | sight place =>
    cases place with
    | first | peek | holds => exact .silent (back_posture borne rfl).symm
    | inside job gate => exact .act (background frames) (.build <| .done (List.forall_mem_nil _) (.inl rfl)) nofun

theorem hooks_deed {teardown : Teardown} {code : Code C} (borne : Borne world.aided (.tearing teardown.scope) frames)
    (left : teardown.rest = (key, entry) :: rest) :
    Deed world me (Thread.mk (.tear teardown) frames).posture .still [.hook (teardown.nextCall entry)]
      (Thread.mk (.run code) (.hooked { teardown with rest } key :: frames)).posture := by
  rcases tearing_below borne with ⟨below, rfl⟩ | ⟨aided, next, below, rfl⟩
  · exact .act (background below) (.close <| .hook rfl left) nofun
  · refine .aside ?_ fun item called => .inr ⟨_, List.mem_singleton.mp called⟩
    obtain ⟨op, called, byHand⟩ := aided
    exact ⟨op, by simp [called], byHand⟩

theorem hooked_items {teardown : Teardown} {key : String} {exit : Exit C} :
    ∀ item ∈ (Move.hooked teardown key exit frames).items, Item.isPlain item = true := by
  unfold Move.hooked
  cases teardown.phase <;> simp [Item.isPlain]

theorem dropped_items {reply : Reply C} : ∀ item ∈ (Move.dropped reply frames).items, Item.isPlain item = true := by
  unfold Move.dropped
  split <;> simp [Item.isPlain, Move.silent]

theorem released_items {guard : Guard} {reply : Reply C} :
    ∀ item ∈ (Move.released guard reply frames).items, Item.isPlain item = true := by
  unfold Move.released
  split <;> simp [Item.isPlain, Move.silent]

theorem hooked_posture (teardown : Teardown) (key : String) (exit : Exit C) (frames : List (Frame C)) :
    ∃ failures, (Thread.mk (Move.hooked teardown key exit frames).focus (Move.hooked teardown key exit frames).frames).posture =
      (Thread.mk (.tear (teardown.record failures) : Focus C) frames).posture := by
  unfold Move.hooked
  cases teardown.phase <;> exact ⟨_, rfl⟩

theorem hooked_deed {teardown : Teardown} {exit : Exit C} (borne : Borne aided (.tearing teardown.scope) frames) :
    Deed world me (Thread.mk (.tear teardown) frames).posture
      (Move.hooked teardown key exit frames).effect (Move.hooked teardown key exit frames).items
      (Thread.mk (Move.hooked teardown key exit frames).focus (Move.hooked teardown key exit frames).frames).posture := by
  obtain ⟨failures, same⟩ := hooked_posture teardown key exit frames
  rw [hooked_effect, same]
  rcases tearing_below borne with ⟨below, rfl⟩ | ⟨_, next, below, rfl⟩
  · exact .act (background below) (.close <| .fail rfl hooked_items) nofun
  · exact .same rfl hooked_items

theorem turnsBack_deed {teardown : Teardown} (borne : Borne aided (.tearing teardown.scope) frames)
    (phase : teardown.phase = .beforeDestroy) (visited : teardown.rest = []) :
    Deed world me (Thread.mk (.tear teardown) frames).posture .still []
      (Thread.mk (.tear { teardown with phase := .destroy, rest := teardown.entries }) frames).posture := by
  rcases tearing_below borne with ⟨below, rfl⟩ | ⟨_, next, below, rfl⟩
  · exact .act (background below) (.close <| .turnBack rfl phase visited) nofun
  · exact .silent rfl

theorem tearsDown_deed {teardown : Teardown} (borne : Borne aided (.tearing teardown.scope) frames)
    (phase : teardown.phase = .destroy) (visited : teardown.rest = []) :
    Deed world me (Thread.mk (.tear teardown) frames).posture .still []
      (Thread.mk (.back (.failures teardown.failures)) frames).posture := by
  rcases tearing_below borne with ⟨below, rfl⟩ | ⟨_, next, below, rfl⟩
  · exact .act (background below) (.close <| .tearDown rfl phase visited) nofun
  · exact .silent rfl

theorem reported_deed {teardown : Teardown} {panic : Panic} (shaken : world.shaken)
    (borne : Borne aided (.tearing teardown.scope) frames) :
    Deed world me (Thread.mk (.unwind panic) (.reported teardown :: frames)).posture .still []
      (Thread.mk (.unwind panic) frames).posture := by
  rcases tearing_below borne with ⟨below, rfl⟩ | ⟨_, next, below, rfl⟩
  · exact .act (background below) (.close <| .cut shaken rfl) nofun
  · exact .silent rfl

theorem spares_deed (borne : Borne aided (.ending scope) frames) {id : ScopeId} :
    Deed world me (Thread.mk (.retire scope) frames).posture .still []
      (Thread.mk (.back (.fault (.unknown id))) frames).posture := by
  obtain ⟨registry, below, rfl⟩ := ending_below borne
  exact .silent rfl

theorem not_refusal {reply : Reply C} (proper : ∀ id : ScopeId, reply ≠ .fault (.unknown id)) : reply.isRefusal = false := by
  unfold Reply.isRefusal
  split
  · rename_i id; exact absurd rfl (proper id)
  · rfl

theorem answered_posture {reply : Reply C} (proper : ∀ id : ScopeId, reply ≠ .fault (.unknown id)) :
    (Thread.mk (.back reply) (.ended registry scope :: frames)).posture =
      (Thread.mk (.forget registry scope reply) frames).posture := by
  simp only [Thread.posture, Focus.upper, not_refusal proper]
  rfl

theorem reopens_deed {exit : Exit C} (sound : Thread.Sound aided world.shaken ⟨.reopen scope exit, frames⟩) :
    Deed world me (Thread.mk (.reopen scope exit) frames).posture (.reopen scope) []
      (Thread.mk exit.focus frames).posture := by
  obtain ⟨registry, below, rfl⟩ := ending_below (sound.borne _ rfl)
  cases exit with
  | unwind => exact .act (background below) (.close <| .abandon (sound.whole _ rfl)) nofun
  | back reply =>
    have same : (Thread.mk (.back reply) (.ended registry scope :: below)).posture = _ :=
      answered_posture (sound.proper reply rfl)
    exact same ▸ .act (background below) (.close .reopen) nofun

theorem unwindEnding_deed {frame : Frame C} {panic : Panic} (shaken : world.shaken) (ending : frame.ending? = some scope) :
    Deed world me (Thread.mk (.unwind panic) (frame :: frames)).posture .still []
      (Thread.mk (.reopen scope (.unwind panic)) frames).posture := by
  cases frame with
  | torn => cases ending; exact .act (background frames) (.close <| .flee shaken (.inr rfl)) nofun
  | closed => cases ending; exact .act (background frames) (.close <| .flee shaken (.inl rfl)) nofun
  | _ => cases ending

theorem unwindBuilding_deed {frame : Frame C} {job : Job C} {panic : Panic} (building : frame.building? = some (job, gate)) :
    Deed world me (Thread.mk (.unwind panic) (frame :: frames)).posture .still []
      (Thread.mk (.leave job.request.scope (.building job.request.key gate) (.unwind panic)) frames).posture := by
  have quiet := List.forall_mem_nil fun item : Item C => item.isPlain = true
  cases frame with
  | factory => cases building; exact .act (background frames) (.build <| .done quiet (.inr (.inl rfl))) nofun
  | created | welcomed =>
    cases building; exact .act (background frames) (.build <| .done quiet (.inr (.inr ⟨_, rfl⟩))) nofun
  | _ => cases building

theorem unwindOther_deed {frame : Frame C} {panic : Panic}
    (sound : Thread.Sound aided world.shaken ⟨.unwind panic, frame :: frames⟩) (passive : frame.isPassive = true) :
    Deed world me (Thread.mk (.unwind panic) (frame :: frames)).posture .still []
      (Thread.mk (.unwind panic) frames).posture := by
  cases frame with
  | reported teardown =>
    -- only telling stands on a report
    have shaken : world.shaken := (sound.calm _ rfl).resolve_right (by simp [Borne, Frame.Admits])
    exact reported_deed shaken sound.stacked.1
  | begun | ended | sweeping | dropped | released | invoked => exact .silent rfl
  | _ => cases passive

theorem unseen_store {cell : Scope C} {request : Request} (unseen : Move.sighted cell request = none) :
    cell.store.get? request.key = none := Option.map_eq_none_iff.mp unseen

theorem nextInstance_cell : world.nextInstance scope = .kept scope (world.cell scope).instances.length := by
  unfold World.nextInstance World.cell
  cases world.scope? scope <;> rfl

theorem keeps_deed {job : Job C} {datum : C.Datum} {hooks : Hooks (Code C)} :
    Deed world me (Thread.mk (.run (.built datum hooks)) (.factory job gate :: frames)).posture
      (Move.keep world job gate datum hooks frames).effect (Move.keep world job gate datum hooks frames).items
      (Thread.mk (Move.keep world job gate datum hooks frames).focus
        (Move.keep world job gate datum hooks frames).frames).posture := by
  simp only [Move.keep, nextInstance_cell]
  exact .act (background frames) (.build .keep) nofun

theorem called_aided {op : Op C} (byHand : op.isByHand = true) : (System.record world me (.called op :: items)).aided :=
  ⟨op, by simp, byHand⟩

theorem turn_deed {thread : Thread C} {move : Move C} (turn : Turn world me thread move)
    (sound : thread.Sound world.aided world.shaken) :
    Deed world me thread.posture move.effect move.items (Thread.mk move.focus move.frames).posture := by
  have borne := sound.borne
  have stacked := sound.stacked
  cases turn with
  | builds => exact keeps_deed
  | admits found active => exact admits_deed found (.inl active)
  | vouches found building => exact admits_deed found (.inr building)
  | refuses | disowns => exact refuses_deed (borne _ rfl)
  | seesInside => exact .act (background _) (.build <| .done (List.forall_mem_nil _) (.inl rfl)) nofun
  | makes found unseen =>
    exact .act (background _) (.build <| .make (by rw [cell_found found]; exact unseen_store unseen)) nofun
  | shares found free =>
    exact .act (background _) (.build <| .share (by rw [cell_found found]; exact free)) fun _ => by rw [found]; rfl
  | balks => exact .act (background _) (.build .balk) nofun
  | queues found acyclic =>
    rw [← cell_found found] at acyclic ⊢
    exact .act (background _) (.build <| .queue acyclic) nofun
  | seizes found free => exact .act (background _) (.build <| .seize (by rw [cell_found found]; exact free)) nofun
  | starts => exact .act (background _) (.build .start) nofun
  | finishes => exact .act (background _) (.build .finish) nofun
  | yields => exact .act (background _) (.build .yield) nofun
  | leaves => rw [exit_posture (borne _ rfl) rfl]; exact .act (background _) (.build .unshare) nofun
  | backFactory => exact .act (background _) (.build <| .done (by simp [Move.giveUp, Item.isPlain]) (.inr (.inl rfl))) nofun
  | backWelcomed => exact .act (background _) (.build <| .done (List.forall_mem_nil _) (.inr (.inr ⟨_, rfl⟩))) nofun
  | unwindBuilding building => exact unwindBuilding_deed building
  | retires found active =>
    exact .act (background _) (.close <| .retire (by rw [cell_found found]; exact active)) fun _ => by rw [found]; rfl
  | spares => exact spares_deed (borne _ rfl)
  | excludes found unshared free =>
    rw [← cell_found found] at unshared free
    exact .act (background _) (.close <| .exclude unshared free) nofun
  | empties found => rw [← cell_found found]; exact .act (background _) (.close .empty) nofun
  | clears => exact .act (background _) (.close .clear) nofun
  | turnsBack phase visited => exact turnsBack_deed (borne _ rfl) phase visited
  | tearsDown phase visited => exact tearsDown_deed (borne _ rfl) phase visited
  | warns phase left => simpa [Teardown.nextCall, phase] using hooks_deed (borne _ rfl) left
  | destroys phase left => simpa [Teardown.nextCall, phase] using hooks_deed (borne _ rfl) left
  | settles => exact .act (background _) (.close .settle) nofun
  | marks => exact .act (background _) (.close .mark) nofun
  | reopens => exact reopens_deed sound
  | forgets => rw [back_posture (borne _ rfl) rfl]; exact .act (background _) (.close .forget) nofun
  | backHooked | unwindHooked => exact hooked_deed stacked.1
  | backClosed => exact .act (background _) (.close .leave) nofun
  | @unwindEnding _ _ _ frame ending =>
    have shaken : world.shaken := (sound.calm _ rfl).resolve_right (by
      cases frame <;> cases ending <;> simp [Borne, Frame.Admits])
    exact unwindEnding_deed shaken ending
  | unwindOther passive => exact unwindOther_deed sound passive
  | goOn _ own noted => exact .plain (own_plain own) fun item member => note_plain (noted item member)
  | answers own => exact .plain (own_plain own) (by simp [Item.isPlain])
  | begins vacant known => exact .register vacant known (by simp [Item.isPlain])
  | calls starts => exact .same (starts_posture starts).symm (by simp [Item.isPlain])
  | invokes => exact .aside (called_aided rfl) (by simp)
  | sets => rw [back_posture (borne _ rfl) rfl]; exact .plain rfl (List.forall_mem_nil _)
  | ends | unheard | sees | peeks | holds | overlooks => exact .silent (back_posture (borne _ rfl) rfl).symm
  | backDelivering | backBegun | backEndedUnknown | backSwept | backInvoked =>
    exact .silent (back_posture stacked.1 rfl).symm
  | backEnded refused => exact .silent (answered_posture refused)
  | backDropped =>
    rw [dropped_effect, dropped_focus, dropped_frames]
    exact .same (back_posture stacked.1 rfl).symm dropped_items
  | backReleased =>
    rw [released_effect, released_focus, released_frames]
    exact .same (back_posture stacked.1 rfl).symm released_items
  | gathers logged =>
    refine .same rfl fun item member => ?_
    obtain ⟨id, rfl⟩ := logged item member
    rfl
  | _ => exact .same rfl (by simp [Item.isPlain])

end
end Lifespan
