import Lifespan.Proofs.UndisturbedTeardown
import Lifespan.Proofs.Drained
import Lifespan.Proofs.Ended
import Lifespan.Proofs.Sweep

-- The end of one scope when nobody interferes: its instances are torn down, it is destroyed, its end is told
-- with the number of failures, and these are the reply.
namespace Lifespan
variable {C : Client} {registry : RegistryRef}

def World.holdings (world : World C) (scope : ScopeRef) : List (String × Entry) := (world.cell scope).store.drainNewestFirst.1

def Verdict.farewell (verdict : Verdict) (scope : ScopeRef) (entries : List (String × Entry)) : List (Item C) :=
  verdict.teardown scope entries ++ [.emitted scope.registry (.ended scope.id (verdict.failures scope entries).length)]

theorem idle_grips {scope : ScopeRef} {frames : List (Frame C)} (idle : ∀ frame ∈ frames, frame.builds scope = false) :
    List.about scope (frames.filterMap Frame.grip?) = [] := by
  refine List.filterMap_eq_nil_iff.mpr ?_
  rintro ⟨place, grip⟩ there
  obtain ⟨frame, member, grips⟩ := List.mem_filterMap.mp there
  refine if_neg ?_
  rintro rfl
  cases (idle frame member).symm.trans (builds_iff.mpr ⟨grip, grips⟩)

theorem known_cell {world : World C} {scope : ScopeRef} (known : (world.scope? scope).isSome) :
    world.scope? scope = some (world.cell scope) := by
  obtain ⟨cell, found⟩ := Option.isSome_iff_exists.mp known
  rw [found, cell_found found]

namespace System
variable {start : System C} {base below : List (Frame C)} {frame : Frame C} {world : World C} {program : C.Label → Code C}
  {memory : C.Memory} {origin : Code C} {scope : ScopeRef} {focus : Focus C} {frames : List (Frame C)}

-- Where nobody else runs, whoever has taken a scope out of its active state waits for nobody.
theorem excluded_once (path : Runs (initial program memory origin) ⟨world, [⟨.exclude scope, frames⟩]⟩)
    (idle : ∀ frame ∈ frames, frame.builds scope = false) :
    (world.cell scope).sharing = [] ∧ (world.cell scope).exclusive = none := by
  have lived := runs_lived path scope
  have member : .waiting ∈ (System.life ⟨world, [⟨.exclude scope, frames⟩]⟩ scope).ends 0 := life_stage (List.mem_cons_self ..)
  have only := lived.orderly.only member
  constructor
  · refine List.eq_nil_iff_forall_not_mem.mpr fun thread shares => ?_
    have counted : (world.cell scope).sharing.count thread = _ := lived.accounts.shares thread
    have none : (System.life ⟨world, [⟨.exclude scope, frames⟩]⟩ scope).grips thread = [] := by
      cases thread with
      | zero => exact idle_grips idle
      | succ => rfl
    rw [none] at counted
    exact absurd shares (List.count_eq_zero.mp counted)
  · have exclusive : (world.cell scope).exclusive = _ := (lived.orderly.owned only).1.exclusive
    rw [exclusive, only]
    rfl

theorem quiet_spares {effect : Effect C} {gone : List ScopeRef} (scopes : ∀ scope, effect.target? = some scope → scope ∈ gone)
    (ordinary : effect.registered? = none) : Spares registry gone [] world (record (effect.apply 0 world) 0 []) := by
  have spares : Spares registry gone ([].filter (Item.concerns registry)) world (record (effect.apply 0 world) 0 []) :=
    apply_spares (fun scope target => .inr (.inr (scopes scope target))) fun _ _ new => nomatch ordinary.symm.trans new
  exact spares

theorem Awaits.changing {effect : Effect C} {next : Focus C} (waits : Awaits 0 base start ⟨world, [⟨focus, frame :: below⟩]⟩)
    (suffix : base <:+ below) (known : (world.scope? scope).isSome) (target : effect.target? = some scope) (busy : focus.rests = false)
    (moves : Thread.next world 0 ⟨focus, frame :: below⟩ = some (.changing effect next frames)) :
    ∃ later, Awaits 0 base start ⟨later, [⟨next, frames⟩]⟩ ∧ Spares registry [scope] [] world later ∧
      (later.scope? scope).isSome ∧ later.cell scope = effect.change 0 (world.cell scope) := by
  have ordinary : effect.registered? = none := by cases effect <;> first | rfl | cases target
  refine ⟨_, waits.onward suffix moves busy, ?_, apply_isSome known, (target_cell target known).trans (if_pos rfl)⟩
  refine quiet_spares (fun other same => ?_) ordinary
  cases target.symm.trans same
  exact List.mem_cons_self

section
variable (path : Runs (initial program memory origin) start)
include path

theorem awaits_emptied (suffix : base <:+ below) (idle : ∀ other ∈ frame :: below, other.builds scope = false)
    (active : world.isActive scope = true) (waits : Awaits 0 base start ⟨world, [⟨.find scope.registry scope.id, frame :: below⟩]⟩) :
    ∃ later, Awaits 0 base start ⟨later,
        [⟨.tear (.begin scope (world.holdings scope)), .torn scope :: .ended scope.registry scope :: frame :: below⟩]⟩ ∧
      Spares registry [scope] [] world later ∧ (later.scope? scope).isSome := by
  have deep : base <:+ frame :: below := suffix.trans (List.suffix_cons _ _)
  have stands : world.registered scope.registry scope.id = some scope := (runs_filed (path.trans waits.runs)).registered (active_alive active)
  have finds : Thread.next world 0 ⟨.find scope.registry scope.id, frame :: below⟩ =
      some (.silent (.retire scope) (.ended scope.registry scope :: frame :: below)) := by
    simp only [Thread.next, Move.find, stands]
  obtain ⟨known, state⟩ := active_iff.mp active
  have retires : Thread.next world 0 ⟨.retire scope, .ended scope.registry scope :: frame :: below⟩ =
      some (.changing (.retire scope) (.exclude scope) (.ended scope.registry scope :: frame :: below)) := by
    simp [Thread.next, Move.retire, known_cell known, Scope.isActive, state]
  obtain ⟨one, retired, first, known, retiring⟩ := (waits.silently suffix finds rfl).changing deep known rfl rfl retires
  have excludes : Thread.next one 0 ⟨.exclude scope, .ended scope.registry scope :: frame :: below⟩ =
      some (.changing (.exclude scope) (.empty scope) (.ended scope.registry scope :: frame :: below)) := by
    obtain ⟨unshared, free⟩ := excluded_once (path.trans retired.runs) (List.forall_mem_cons.mpr ⟨rfl, idle⟩)
    simp [Thread.next, Move.exclude, known_cell known, unshared, free]
  obtain ⟨two, excluded, second, known, excluding⟩ := retired.changing deep known rfl rfl excludes
  have stocked : two.holdings scope = world.holdings scope := by
    rw [World.holdings, excluding, retiring]
    rfl
  have empties : Thread.next two 0 ⟨.empty scope, .ended scope.registry scope :: frame :: below⟩ = some (.changing (.empty scope)
      (.clear scope (world.holdings scope)) (.ended scope.registry scope :: frame :: below)) := by
    rw [← stocked]
    simp only [Thread.next, Move.empty, known_cell known, Option.map_some, World.holdings]
  obtain ⟨three, emptied, third, known, _⟩ := excluded.changing deep known rfl rfl empties
  obtain ⟨later, cleared, fourth, known, _⟩ := emptied.changing deep known rfl rfl rfl
  exact ⟨later, cleared, ((first.trans second).trans third).trans fourth, known⟩

theorem awaits_concluded (quiet : Undisturbed registry base start) (returning : Returning registry base start)
    (listed : registry < start.world.registries.length) (suffix : base <:+ below) (mine : scope.registry = registry)
    (known : (world.scope? scope).isSome) {failures : List Failure}
    (waits : Awaits 0 base start ⟨world, [⟨.back (.failures failures), .torn scope :: .ended registry scope :: frame :: below⟩]⟩) :
    ∃ later, Awaits 0 base start ⟨later, [⟨.back (.ofFailures failures), frame :: below⟩]⟩ ∧
      Spares registry [scope] [.emitted registry (.ended scope.id failures.length)] world later ∧
      (later.cell scope).state = .destroyed := by
  subst mine
  have deep : base <:+ frame :: below := suffix.trans (List.suffix_cons _ _)
  have deeper : base <:+ .ended scope.registry scope :: frame :: below := deep.trans (List.suffix_cons _ _)
  obtain ⟨one, settled, first, known, _⟩ := (waits.silently deeper rfl rfl).changing deep known rfl rfl rfl
  obtain ⟨two, marked, second, known, destroyed⟩ := settled.changing deep known rfl rfl rfl
  obtain ⟨three, told, third⟩ := awaits_told path quiet returning marked deeper (awaits_known listed marked)
  have known : (three.scope? scope).isSome := (third.known scope rfl).trans known
  obtain ⟨four, opened, fourth, known, reopened⟩ := (told.silently deeper rfl rfl).changing deep known rfl rfl rfl
  have ends : Thread.next four 0 ⟨.back (.ofFailures failures), .ended scope.registry scope :: frame :: below⟩ =
      some (.silent (.forget scope.registry scope (.ofFailures failures)) (frame :: below)) := by
    cases failures <;> rfl
  have forgotten := (opened.silently deep ends rfl).onward suffix rfl rfl
  refine ⟨_, forgotten, ?_, ?_⟩
  · exact (((first.trans second).trans (third.widen (List.nil_subset _))).trans fourth).trans (quiet_spares nofun rfl)
  · obtain ⟨attributes, still⟩ := third.scopes scope rfl List.not_mem_nil
    have last : ((Effect.forget scope.registry scope).apply 0 four).cell scope = four.cell scope := untargeted_cell rfl rfl
    show (((Effect.forget scope.registry scope).apply 0 four).cell scope).state = .destroyed
    rw [last, reopened, still, destroyed]
    rfl

theorem awaits_ended (quiet : Undisturbed registry base start) (returning : Returning registry base start)
    (listed : registry < start.world.registries.length) (suffix : base <:+ below) (mine : scope.registry = registry)
    (idle : ∀ other ∈ frame :: below, other.builds scope = false) (active : world.isActive scope = true)
    (waits : Awaits 0 base start ⟨world, [⟨.find registry scope.id, frame :: below⟩]⟩) :
    ∃ verdict : Verdict, ∃ later,
      Awaits 0 base start ⟨later, [⟨.back (.ofFailures (verdict.failures scope (world.holdings scope))), frame :: below⟩]⟩ ∧
      Spares registry [scope] (verdict.farewell scope (world.holdings scope)) world later ∧
      (later.cell scope).state = .destroyed ∧
      ∀ entry ∈ world.holdings scope, ∀ phase, CameBack base start scope entry phase (verdict entry.1 phase) := by
  subst mine
  have deep : base <:+ frame :: below := suffix.trans (List.suffix_cons _ _)
  have deeper : base <:+ .ended scope.registry scope :: frame :: below := deep.trans (List.suffix_cons _ _)
  obtain ⟨one, emptied, first, known⟩ := awaits_emptied path suffix idle active waits
  obtain ⟨verdict, two, torn, second, came⟩ := awaits_torn path quiet returning listed deeper rfl emptied
  have known : (two.scope? scope).isSome := (second.known scope rfl).trans known
  obtain ⟨later, back, third, destroyed⟩ := awaits_concluded path quiet returning listed suffix rfl known torn
  exact ⟨verdict, later, back, (first.trans (second.widen (List.nil_subset _))).trans third, destroyed, came⟩

end

end System
end Lifespan
