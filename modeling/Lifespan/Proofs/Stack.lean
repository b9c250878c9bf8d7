import Lifespan.Proofs.History

-- What can stand on what in a thread. Each frame waits for one kind of activity, and nothing
-- else ever runs directly above it.
namespace Lifespan

inductive Activity
  | code
  | telling
  -- what only user code starts and waits for: a begin, a resolve, a lookup, a guard, a drop
  | calling
  | tearing (scope : ScopeRef)
  | ending (scope : ScopeRef)
  | finding
  | sweeping

variable {C : Client}

-- A reply or a panic is no activity: it has just left one.
def Focus.activity? : Focus C → Option Activity
  | .run _ | .join _ _ => some .code
  | .back _ | .unwind _ => none
  | .emit _ _ | .deliver _ _ => some .telling
  | .check _ | .vouch _ | .look _ | .share _ | .queue _ | .turn _ _ | .start _ _ | .leave _ _ _ | .assign _ _ _ =>
    some .calling
  | .find _ _ | .forget _ _ _ => some .finding
  | .retire scope | .exclude scope | .empty scope | .clear scope _ | .settle scope _ | .mark scope _ |
    .reopen scope _ => some (.ending scope)
  | .tear teardown => some (.tearing teardown.scope)
  | .gather _ => some .sweeping

def Frame.activity : Frame C → Activity
  | .user _ => .code
  | .delivering _ _ => .telling
  | .begun _ | .factory _ _ | .created _ _ _ | .welcomed _ _ _ | .dropped | .released _ | .invoked _ => .calling
  | .hooked teardown _ | .reported teardown => .tearing teardown.scope
  | .torn scope | .closed scope _ => .ending scope
  | .ended _ _ => .finding
  | .sweeping _ _ _ => .sweeping

-- User code waits for a teardown only if it has asked for one by hand.
def Frame.Admits (aided : Prop) : Frame C → Activity → Prop
  | .user _, .calling | .user _, .finding | .user _, .sweeping => True
  | .user _, .tearing _ => aided
  | .delivering _ _, .code | .factory _ _, .code | .welcomed _ _ _, .code | .hooked _ _, .code | .invoked _, .code => True
  | .begun _, .telling | .created _ _ _, .telling | .reported _, .telling | .closed _ _, .telling => True
  | .torn scope, .tearing other => other = scope
  | .ended _ scope, .ending other => other = scope
  | .sweeping _ _ _, .telling | .sweeping _ _ _, .finding => True
  | .dropped, .sweeping => True
  | .released _, .finding => True
  | _, _ => False

def Borne (aided : Prop) (activity : Activity) : List (Frame C) → Prop
  | [] => activity = .code
  | frame :: _ => frame.Admits aided activity

def Stacked (aided : Prop) : List (Frame C) → Prop
  | [] => True
  | frame :: rest => Borne aided frame.activity rest ∧ Stacked aided rest

def Focus.reopening? : Focus C → Option (Exit C)
  | .reopen _ exit => some exit
  | _ => none

-- While no listener has panicked, a panic is only ever on its way out of user code or of
-- what user code waits for.
structure Thread.Sound (aided shaken : Prop) (thread : Thread C) : Prop where
  borne : ∀ activity, thread.focus.activity? = some activity → Borne aided activity thread.frames
  stacked : Stacked aided thread.frames
  calm : ∀ panic, thread.focus = .unwind panic →
    shaken ∨ Borne aided .code thread.frames ∨ Borne aided .calling thread.frames
  whole : ∀ panic, thread.focus.reopening? = some (.unwind panic) → shaken
  proper : ∀ reply, thread.focus.reopening? = some (.back reply) → ∀ id, reply ≠ .fault (.unknown id)

theorem ofFailures_proper (failures : List Failure) (id : ScopeId) :
    (Reply.ofFailures failures : Reply C) ≠ .fault (.unknown id) := by
  cases failures <;> simp [Reply.ofFailures]

theorem ofCode_sound (aided shaken : Prop) (code : Code C) : (Thread.ofCode code).Sound aided shaken := by
  constructor <;> simp [Thread.ofCode, Focus.activity?, Focus.reopening?, Borne, Stacked]

section
variable {aided shaken later trembling : Prop} {activity : Activity} {frame : Frame C} {frames : List (Frame C)}

theorem Frame.Admits.mono (grows : aided → later) (admits : frame.Admits aided activity) :
    frame.Admits later activity := by
  cases frame <;> cases activity <;> first | exact admits | exact grows admits

theorem Borne.mono (grows : aided → later) (borne : Borne aided activity frames) : Borne later activity frames := by
  cases frames with
  | nil => exact borne
  | cons frame rest => exact Frame.Admits.mono grows borne

theorem Stacked.mono (grows : aided → later) (stacked : Stacked aided frames) : Stacked later frames := by
  induction frames with
  | nil => trivial
  | cons frame rest ih => exact ⟨stacked.1.mono grows, ih stacked.2⟩

theorem Thread.Sound.mono {thread : Thread C} (grows : aided → later) (shakes : shaken → trembling)
    (sound : thread.Sound aided shaken) : thread.Sound later trembling where
  borne activity same := (sound.borne activity same).mono grows
  stacked := sound.stacked.mono grows
  calm panic same := (sound.calm panic same).imp shakes (Or.imp (Borne.mono grows) (Borne.mono grows))
  whole panic same := shakes (sound.whole panic same)
  proper := sound.proper

theorem Thread.Sound.doing {focus : Focus C} (does : focus.activity? = some activity) (borne : Borne aided activity frames)
    (stacked : Stacked aided frames) (shut : focus.reopening? = none) :
    Thread.Sound aided shaken ⟨focus, frames⟩ where
  borne other same := by cases does.symm.trans same; exact borne
  stacked := stacked
  calm panic same := by cases (show focus = _ from same); cases does
  whole panic same := by cases shut.symm.trans same
  proper reply same := by cases shut.symm.trans same

theorem Thread.Sound.returned {reply : Reply C} (stacked : Stacked aided frames) :
    Thread.Sound aided shaken ⟨.back reply, frames⟩ :=
  ⟨nofun, stacked, nofun, nofun, nofun⟩

theorem Thread.Sound.panicking {panic : Panic} (stacked : Stacked aided frames)
    (calm : shaken ∨ Borne aided .code frames ∨ Borne aided .calling frames) :
    Thread.Sound aided shaken ⟨.unwind panic, frames⟩ :=
  ⟨nofun, stacked, fun _ _ => calm, nofun, nofun⟩

theorem Thread.Sound.left {exit : Exit C} (borne : Borne aided .calling frames) (stacked : Stacked aided frames) :
    Thread.Sound aided shaken ⟨exit.focus, frames⟩ := by
  cases exit with
  | back => exact .returned stacked
  | unwind => exact .panicking stacked (.inr (.inr borne))

theorem admitted_sound {point : Point C} (borne : Borne aided .calling frames) (stacked : Stacked aided frames) :
    Thread.Sound aided shaken ⟨point.admitted, frames⟩ := by
  cases point with
  | sight | shared => exact .doing rfl borne stacked rfl

theorem refused_sound {point : Point C} {fault : Fault} (borne : Borne aided .calling frames)
    (stacked : Stacked aided frames) : Thread.Sound aided shaken ⟨point.refused fault, frames⟩ := by
  cases point with
  | shared job => exact .doing rfl borne stacked rfl
  | sight place =>
    cases place with
    | inside => exact .doing rfl borne stacked rfl
    | first | peek | holds => exact .returned stacked

theorem reopened_sound {exit : Exit C} (sound : Thread.Sound aided shaken ⟨.reopen scope exit, frames⟩) :
    Thread.Sound aided shaken ⟨exit.focus, frames⟩ := by
  cases exit with
  | back => exact .returned sound.stacked
  | unwind => exact .panicking sound.stacked (.inl (sound.whole _ rfl))

theorem hooked_sound {teardown : Teardown} {key : String} {exit : Exit C}
    (stacked : Stacked aided (.hooked teardown key :: frames)) :
    Thread.Sound aided shaken ⟨(Move.hooked teardown key exit frames).focus,
      (Move.hooked teardown key exit frames).frames⟩ := by
  unfold Move.hooked
  cases teardown.phase with
  | beforeDestroy => exact .doing rfl stacked.1 stacked.2 rfl
  | destroy => exact .doing rfl trivial stacked rfl

theorem starts_sound {op : Op C} {next : Reply C → Code C} (starts : op.starts? = some (focus, waiting))
    (hand : ∀ scope store, op = .destroyAll scope store → aided) (borne : Borne aided .code frames) (stacked : Stacked aided frames) :
    Thread.Sound aided shaken ⟨focus, waiting ++ .user next :: frames⟩ := by
  cases op <;> cases starts
  case destroyAll => exact .doing rfl (hand _ _ rfl) ⟨borne, stacked⟩ rfl
  case dropGuard => exact .doing rfl trivial ⟨trivial, borne, stacked⟩ rfl
  all_goals exact .doing rfl trivial ⟨borne, stacked⟩ rfl

theorem Turn.sound {world : World C} {thread : Thread C} {move : Move C}
    (turn : Turn world me thread move) (sound : thread.Sound aided shaken)
    (hand : ∀ scope store, .called (.destroyAll scope store) ∈ move.items → aided)
    (panics : ∀ registry event, .listenerPanicked registry event ∈ move.items → shaken) :
    Thread.Sound aided shaken ⟨move.focus, move.frames⟩ := by
  have borne := sound.borne
  have stacked := sound.stacked
  cases turn with
  | goOn => exact .doing rfl (borne _ rfl) stacked rfl
  | ends | unheard => exact .returned stacked
  | panics => exact .panicking stacked (.inr (.inl (borne _ rfl)))
  | builds => exact .doing rfl trivial stacked rfl
  | answers => exact .returned ⟨borne _ rfl, stacked⟩
  | begins | drops | invokes => exact .doing rfl trivial ⟨trivial, borne _ rfl, stacked⟩ rfl
  | assigns | resolves => exact .doing rfl trivial ⟨borne _ rfl, stacked⟩ rfl
  | calls starts =>
    refine starts_sound starts ?_ (borne _ rfl) stacked
    rintro scope store rfl
    exact hand scope store (List.mem_singleton.mpr rfl)
  | hears | makes | finds | warns | destroys | marks | gathers | clears =>
    exact .doing rfl (by trivial) ⟨borne _ rfl, stacked⟩ rfl
  | admits | vouches => exact admitted_sound (borne _ rfl) stacked
  | refuses | disowns => exact refused_sound (borne _ rfl) stacked
  | sees | peeks | holds | overlooks | spares | tearsDown | forgets | sets => exact .returned stacked
  | leaves => exact .left (borne _ rfl) stacked
  | reopens => exact reopened_sound sound
  | backUser | unwindUser => exact .doing rfl stacked.1 stacked.2 rfl
  | backHooked | unwindHooked => exact hooked_sound stacked
  | backFactory | backWelcomed | backReported | backTorn => exact .doing rfl stacked.1 stacked.2 rfl
  | backCreated => exact .doing rfl trivial stacked rfl
  | backSweeping => exact .doing rfl trivial stacked rfl
  | backClosed =>
    exact ⟨fun _ same => by cases same; exact stacked.1, stacked.2, nofun, nofun,
      fun _ same => by cases same; exact ofFailures_proper _⟩
  | backEnded => exact .doing rfl stacked.1 stacked.2 rfl
  | backDropped => rw [dropped_focus, dropped_frames]; exact .returned stacked.2
  | backReleased => rw [released_focus, released_frames]; exact .returned stacked.2
  | backDelivering | backBegun | backEndedUnknown | backSwept | backInvoked => exact .returned stacked.2
  | unwindDelivering => exact .panicking stacked.2 (.inl (panics _ _ (List.mem_singleton.mpr rfl)))
  | @unwindBuilding _ _ _ _ frame building =>
    cases frame <;> cases building <;> exact .doing rfl stacked.1 stacked.2 rfl
  | @unwindEnding _ _ _ frame ending =>
    have shaken : shaken := (sound.calm _ rfl).resolve_right (by cases frame <;> cases ending <;> simp [Borne, Frame.Admits])
    refine ⟨fun _ same => ?_, stacked.2, nofun, fun _ _ => shaken, nofun⟩
    cases frame <;> cases ending <;> (cases same; exact stacked.1)
  | @unwindOther _ _ frame passive =>
    refine .panicking stacked.2 ((sound.calm _ rfl).imp_right fun calm => .inr ?_)
    cases frame with
    | begun | dropped | released | invoked => exact stacked.1
    | reported | ended | sweeping => simp [Borne, Frame.Admits] at calm
    | _ => cases passive
  | _ => exact .doing rfl (borne _ rfl) stacked rfl
end

namespace System
variable {before after system : System C}

def Sound (system : System C) : Prop :=
  ∀ thread ∈ system.threads, thread.Sound system.world.aided system.world.shaken

def Upright (system : System C) : Prop :=
  ∀ thread ∈ system.threads, thread.Sound system.world.handed system.world.shaken

theorem initial_upright (program : C.Label → Code C) (memory : C.Memory) (code : Code C) :
    (initial program memory code).Upright := by
  intro thread member
  cases List.mem_singleton.mp member
  exact ofCode_sound _ _ code

theorem preserves_upright (upright : before.Upright) (change : Change before after) : after.Upright := by
  refine change.carry (P := fun world thread => thread.Sound world.handed world.shaken) upright ?_ ?_ ?_ ?_ ?_
  · exact fun _ code => ofCode_sound _ _ code
  · exact fun _ _ _ _ was => .doing rfl (was.borne _ rfl) was.stacked rfl
  · exact fun _ _ _ _ _ => ⟨fun was => .doing rfl (was.borne _ rfl) was.stacked rfl,
      fun was => .doing rfl (was.borne _ rfl) was.stacked rfl⟩
  · intro me thread move turn was
    refine turn.sound (was.mono handed_grows shaken_grows) ?_ ?_
    · exact fun scope store called => ⟨scope, store, by simp [called]⟩
    · exact fun registry event panicked => ⟨registry, event, by simp [panicked]⟩
  · exact fun _ _ _ _ _ was => was.mono handed_grows shaken_grows

theorem runs_upright (path : Runs (initial program memory code) system) : system.Upright := by
  induction path with
  | refl => exact initial_upright _ _ _
  | step _ next ih => exact preserves_upright ih (step_change next)

theorem runs_sound (path : Runs (initial program memory code) system) : system.Sound :=
  fun thread member => (runs_upright path thread member).mono handed_aided fun shaken => shaken

end System
end Lifespan
