import Lifespan.Proofs.Closing
import Lifespan.Proofs.Interrupted

-- A whole shutdown when nobody interferes. It goes through all scopes that are alive, ends each and gathers
-- the failures; what is gone when a registry is dropped goes the same way.
namespace Lifespan
variable {C : Client} {registry : RegistryRef}

namespace World

def losses (world : World C) (verdicts : ScopeRef → Verdict) (scopes : List ScopeRef) : List Failure :=
  scopes.flatMap fun scope => (verdicts scope).failures scope (world.holdings scope)

def farewells (world : World C) (verdicts : ScopeRef → Verdict) (scopes : List ScopeRef) : List (Item C) :=
  scopes.flatMap fun scope => (verdicts scope).farewell scope (world.holdings scope)

def account (world : World C) (registry : RegistryRef) (verdicts : ScopeRef → Verdict) : List (Item C) :=
  .emitted registry (.shutdown (world.remaining registry).length) :: world.farewells verdicts (world.remaining registry)

def Settled (world : World C) (registry : RegistryRef) : Prop :=
  ∀ scope : ScopeRef, scope.registry = registry → (world.cell scope).state ≠ .destructionPending

end World

def Code.isBrief : Code C → Bool
  | .done | .fail _ | .panic _ => true
  | _ => false

theorem failing_nil {scope : ScopeRef} {phase : Phase} {causes : String → Option Cause} {entries : List (String × Entry)} :
    failing scope phase causes entries = [] ↔ ∀ entry ∈ entries, causes entry.1 = none := by
  simp [failing]

theorem losses_nil {world : World C} {verdicts : ScopeRef → Verdict} {scopes : List ScopeRef} :
    world.losses verdicts scopes = [] ↔
      ∀ scope ∈ scopes, ∀ entry ∈ world.holdings scope, ∀ phase, verdicts scope entry.1 phase = none := by
  simp only [World.losses, Verdict.failures, List.flatMap_eq_nil_iff, List.append_eq_nil_iff, failing_nil]
  refine forall₂_congr fun scope _ => ⟨fun both entry member phase => ?_, fun all => ?_⟩
  · cases phase with
    | beforeDestroy => exact both.1 entry member
    | destroy => exact both.2 entry member
  · exact ⟨fun entry member => all entry member _, fun entry member => all entry member _⟩

section
variable {world later : World C} {gone scopes : List ScopeRef} {told : List (Item C)} {scope : ScopeRef} {verdicts : ScopeRef → Verdict}

theorem Spares.holdings (spares : Spares registry gone told world later) (mine : scope.registry = registry) (apart : scope ∉ gone) :
    later.holdings scope = world.holdings scope := by
  obtain ⟨_, cell⟩ := spares.scopes scope mine apart
  rw [World.holdings, cell, World.holdings]

theorem Spares.active (spares : Spares registry gone told world later) (mine : scope.registry = registry) (apart : scope ∉ gone)
    (active : world.isActive scope = true) : later.isActive scope = true := by
  obtain ⟨_, cell⟩ := spares.scopes scope mine apart
  obtain ⟨known, state⟩ := active_iff.mp active
  exact active_iff.mpr ⟨(spares.known scope mine).trans known, by rw [cell]; exact state⟩

theorem flatMap_kept {each : ScopeRef → List (String × Entry) → List α}
    (kept : ∀ scope ∈ scopes, later.holdings scope = world.holdings scope) :
    (scopes.flatMap fun scope => each scope (later.holdings scope)) = scopes.flatMap fun scope => each scope (world.holdings scope) :=
  List.flatMap_congr fun scope member => by rw [kept scope member]

theorem flatMap_first {each : Verdict → ScopeRef → List (String × Entry) → List α} {first : ScopeRef} {verdict : Verdict}
    (new : first ∉ scopes) (kept : ∀ scope ∈ scopes, later.holdings scope = world.holdings scope) :
    ((first :: scopes).flatMap fun scope => each (Function.update verdicts first verdict scope) scope (world.holdings scope)) =
      each verdict first (world.holdings first) ++ scopes.flatMap fun scope => each (verdicts scope) scope (later.holdings scope) := by
  rw [List.flatMap_cons, Function.update_self]
  refine congrArg _ (List.flatMap_congr fun scope member => ?_)
  have other : scope ≠ first := fun same => new (same ▸ member)
  rw [Function.update_of_ne other, kept scope member]

end

theorem gathered_ofFailures {failures more : List Failure} :
    Move.gathered failures (.ofFailures more : Reply C) = failures ++ more := by
  cases more with
  | nil => exact (List.append_nil _).symm
  | cons => rfl

namespace System
variable {start later again system : System C} {base below frames : List (Frame C)} {world : World C} {program : C.Label → Code C}
  {memory : C.Memory} {origin : Code C} {scope : ScopeRef} {next : Reply C → Code C} {P Q : System C → Prop}

structure SweptAway (registry : RegistryRef) (base : List (Frame C)) (start : System C) (scopes : List ScopeRef)
    (verdicts : ScopeRef → Verdict) (told : List (Item C)) (world later : World C) : Prop where
  spares : Spares registry scopes told world later
  destroyed : ∀ scope ∈ scopes, (later.cell scope).state = .destroyed
  hooks : ∀ scope ∈ scopes, ∀ entry ∈ world.holdings scope, ∀ phase,
    CameBack base start scope entry phase (verdicts scope entry.1 phase)

theorem settled_active (path : Runs (initial program memory origin) system)
    (settled : (system.world.cell scope).state ≠ .destructionPending) (alive : system.world.isAlive scope = true) :
    system.world.isActive scope = true := by
  obtain ⟨known, lives⟩ := alive_iff.mp alive
  obtain ⟨owner, ended⟩ := (runs_lived path scope).orderly
  have begun : (system.world.cell scope).state ≠ .created := ended.begun
  refine active_iff.mpr ⟨known, ?_⟩
  cases state : (system.world.cell scope).state with
  | active => rfl
  | created => exact absurd state begun
  | destructionPending => exact absurd state settled
  | destroyed => exact absurd state lives

section
variable (path : Runs (initial program memory origin) start) (quiet : Undisturbed registry base start)
  (returning : Returning registry base start) (listed : registry < start.world.registries.length) (suffix : base <:+ below)
  (idle : ∀ scope : ScopeRef, scope.registry = registry → ∀ frame ∈ below, frame.builds scope = false)
include path quiet returning listed suffix idle

theorem awaits_swept {remaining : List ScopeRef} {reply : Reply C} {failures : List Failure} (distinct : remaining.Nodup)
    (mine : ∀ scope ∈ remaining, scope.registry = registry) (active : ∀ scope ∈ remaining, world.isActive scope = true)
    (waits : Awaits 0 base start ⟨world, [⟨.back reply, .sweeping registry (remaining.map ScopeRef.id) failures :: below⟩]⟩) :
    ∃ verdicts later,
      Awaits 0 base start ⟨later, [⟨.back (.failures (Move.gathered failures reply ++ world.losses verdicts remaining)), below⟩]⟩ ∧
      SweptAway registry base start remaining verdicts (world.farewells verdicts remaining) world later := by
  -- on the scopes that are left: the end of the first one leaves the others, and what they hold, as they are
  induction remaining generalizing world reply failures with
  | nil =>
    have back := waits.silently suffix rfl rfl
    exact ⟨fun _ _ _ => none, world, by simpa [World.losses] using back, .refl world, nofun, nofun⟩
  | cons first rest ih =>
    obtain ⟨new, distinct⟩ := List.nodup_cons.mp distinct
    obtain ⟨its, mine⟩ := List.forall_mem_cons.mp mine
    obtain ⟨ready, active⟩ := List.forall_mem_cons.mp active
    have finds := waits.silently suffix rfl rfl
    obtain ⟨verdict, between, ended, one, destroyed, came⟩ :=
      awaits_ended path quiet returning listed suffix its (List.forall_mem_cons.mpr ⟨rfl, idle first its⟩) ready finds
    have apart : ∀ scope ∈ rest, scope ∉ [first] := fun scope member same => new (List.mem_singleton.mp same ▸ member)
    have kept : ∀ scope ∈ rest, between.holdings scope = world.holdings scope :=
      fun scope member => one.holdings (mine scope member) (apart scope member)
    obtain ⟨verdicts, later, back, swept⟩ :=
      ih distinct mine (fun scope member => one.active (mine scope member) (apart scope member) (active scope member)) ended
    rw [gathered_ofFailures] at back
    refine ⟨Function.update verdicts first verdict, later, ?_, ?_, ?_, ?_⟩
    · rw [World.losses, flatMap_first new kept, ← List.append_assoc]
      exact back
    · rw [World.farewells, flatMap_first new kept]
      exact (one.widen (List.cons_subset.mpr ⟨List.mem_cons_self, List.nil_subset _⟩)).trans (swept.spares.widen (List.subset_cons_self _ _))
    · refine List.forall_mem_cons.mpr ⟨?_, swept.destroyed⟩
      obtain ⟨_, still⟩ := swept.spares.scopes first its new
      rw [still]
      exact destroyed
    · refine List.forall_mem_cons.mpr ⟨?_, fun scope member => ?_⟩
      · rw [Function.update_self]
        exact came
      · have other : scope ≠ first := fun same => new (same ▸ member)
        rw [Function.update_of_ne other, ← kept scope member]
        exact swept.hooks scope member

theorem awaits_gathered (settled : world.Settled registry)
    (waits : Awaits 0 base start ⟨world, [⟨.gather registry, below⟩]⟩) :
    ∃ verdicts later,
      Awaits 0 base start ⟨later, [⟨.back (.failures (world.losses verdicts (world.remaining registry))), below⟩]⟩ ∧
      SweptAway registry base start (world.remaining registry) verdicts (world.account registry verdicts) world later := by
  have reached := path.trans waits.runs
  have filed : Filed world := runs_filed reached
  have active : ∀ scope ∈ world.remaining registry, world.isActive scope = true := fun scope member => by
    obtain ⟨mine, alive⟩ := filed.mem_remaining.mp member
    exact settled_active reached (settled scope mine) alive
  obtain ⟨cell, found⟩ : ∃ cell, world.registries[registry]? = some cell := ⟨_, List.getElem?_eq_getElem (awaits_known listed waits)⟩
  have gathers : Thread.next world 0 ⟨.gather registry, below⟩ = some ⟨.still,
      if cell.settings.warnOnLeftoverScopes then (world.leftovers registry).map (.logged ∘ .stillAlive) else [],
      .emit registry (.shutdown (world.remaining registry).length),
      .sweeping registry ((world.remaining registry).map ScopeRef.id) [] :: below⟩ := by
    have count : (world.remaining registry).length = (world.leftovers registry).length := by rw [← filed.remaining_ids, List.length_map]
    simp only [Thread.next, Move.gather, found, Option.map_some, filed.remaining_ids, count]
  have emits := waits.goes gathers rfl fun exit same => by cases exit <;> cases same
  obtain ⟨between, told, telling⟩ := awaits_told path quiet returning emits suffix (awaits_known listed emits)
  have first := (Spares.refl world).hushed telling (by split <;> simp [Item.concerns])
  have mine : ∀ scope ∈ world.remaining registry, scope.registry = registry := fun scope member => (filed.mem_remaining.mp member).1
  have kept : ∀ scope ∈ world.remaining registry, between.holdings scope = world.holdings scope :=
    fun scope member => first.holdings (mine scope member) List.not_mem_nil
  obtain ⟨verdicts, later, back, second, destroyed, hooks⟩ := awaits_swept path quiet returning listed suffix idle filed.remaining_nodup
    mine (fun scope member => first.active (mine scope member) List.not_mem_nil (active scope member)) told
  rw [World.losses, flatMap_kept kept] at back
  rw [World.farewells, flatMap_kept kept] at second
  exact ⟨verdicts, later, back, (first.widen (List.nil_subset _)).trans second, destroyed,
    fun scope member => kept scope member ▸ hooks scope member⟩

end

-- A call comes back if all hooks and listeners do, and where it comes back this holds.
def Arrives (registry : RegistryRef) (base : List (Frame C)) (start : System C) (P : System C → Prop) : Prop :=
  (Returning registry base start → ∃ later, Awaits 0 base start later ∧ later.Answered 0 base) ∧
    ∀ later, Awaits 0 base start later → later.Answered 0 base → P later

-- What a registry has come through when all its scopes have been ended, and each of their hooks has come back
-- as its verdict says.
structure Closed (registry : RegistryRef) (base : List (Frame C)) (scopes : List ScopeRef) (verdicts : ScopeRef → Verdict)
    (start later : System C) : Prop where
  all : ∀ scope, scope ∈ scopes ↔ scope.registry = registry ∧ start.world.isAlive scope = true
  order : scopes.Pairwise fun one two => one.id.Before two.id
  hooks : ∀ scope ∈ scopes, ∀ entry ∈ start.world.holdings scope, ∀ phase,
    CameBack base start scope entry phase (verdicts scope entry.1 phase)
  dealings : later.world.dealings registry = start.world.dealings registry ++
    .emitted registry (.shutdown scopes.length) :: start.world.farewells verdicts scopes
  gone : ∀ scope, scope.registry = registry → later.world.isAlive scope = false

theorem before_asymm {one two : ScopeId} (first : one.Before two) (second : two.Before one) : False := by
  rcases first with less | ⟨_, less⟩ <;> rcases second with more | ⟨_, more⟩
  · omega
  · simp_all
  · simp_all
  · exact lt_asymm less more

theorem Closed.remaining {verdicts : ScopeRef → Verdict} {scopes : List ScopeRef} (closed : Closed registry base scopes verdicts start later)
    (path : Runs (initial program memory origin) start) : scopes = start.world.remaining registry := by
  have filed : Filed start.world := runs_filed path
  have distinct : scopes.Nodup := by
    refine closed.order.imp ?_
    rintro one _ before rfl
    exact ScopeId.before_irrefl _ before
  refine List.Perm.eq_of_pairwise (fun _ _ _ _ first second => (before_asymm first second).elim) closed.order filed.remaining_ordered ?_
  exact (List.perm_ext_iff_of_nodup distinct filed.remaining_nodup).mpr fun scope => (closed.all scope).trans filed.mem_remaining.symm

-- There is one way to come back, so what holds of one arrival holds of all.
theorem arrives_once (quiet : Undisturbed registry base start)
    (comes : Returning registry base start → ∃ later, Awaits 0 base start later ∧ later.Answered 0 base ∧ P later) :
    Arrives registry base start P := by
  refine ⟨fun returning => ?_, fun later waits answered => ?_⟩
  · obtain ⟨later, waits, answered, _⟩ := comes returning
    exact ⟨later, waits, answered⟩
  · obtain ⟨one, first, came, holds⟩ := comes (answered_returning quiet.alone waits answered)
    rw [answered_once quiet.alone first came waits answered]
    exact holds

theorem Arrives.imp (arrives : Arrives registry base start P)
    (more : ∀ later, Awaits 0 base start later → later.Answered 0 base → P later → Q later) : Arrives registry base start Q :=
  ⟨arrives.1, fun later waits answered => more later waits answered (arrives.2 later waits answered)⟩

theorem dead_destroyed {world : World C} (known : (world.scope? scope).isSome) (dead : world.isAlive scope = false) :
    (world.cell scope).state = .destroyed := by
  by_contra other
  exact Bool.false_ne_true (dead.symm.trans (alive_iff.mpr ⟨known, other⟩))

theorem destroyed_dead {world : World C} (destroyed : (world.cell scope).state = .destroyed) : world.isAlive scope = false :=
  Bool.eq_false_iff.mpr fun alive => (alive_iff.mp alive).2 destroyed

section
variable (path : Runs (initial program memory origin) start)
include path

theorem runs_dead (onward : Runs start later) (known : (later.world.scope? scope).isSome → (start.world.scope? scope).isSome)
    (dead : start.world.isAlive scope = false) : later.world.isAlive scope = false := by
  by_contra alive
  have there := known (alive_iff.mp (Bool.of_not_eq_false alive)).1
  exact alive (destroyed_dead (runs_destroyed path onward (dead_destroyed there dead)))

theorem closed_of {verdicts : ScopeRef → Verdict} (waits : Awaits 0 base start later)
    (swept : SweptAway registry base start (start.world.remaining registry) verdicts (start.world.account registry verdicts)
      start.world later.world) :
    Closed registry base (start.world.remaining registry) verdicts start later where
  all scope := (runs_filed path).mem_remaining
  order := (runs_filed path).remaining_ordered
  hooks := swept.hooks
  dealings := swept.spares.dealings
  gone scope mine := by
    cases alive : start.world.isAlive scope with
    | true => exact destroyed_dead (swept.destroyed scope ((runs_filed path).mem_remaining.mpr ⟨mine, alive⟩))
    | false => exact runs_dead path waits.runs (fun known => (swept.spares.known scope mine).symm.trans known) alive

section
variable (listed : registry < start.world.registries.length)
  (idle : ∀ scope : ScopeRef, scope.registry = registry → ∀ frame ∈ frames, frame.builds scope = false)
  (settled : start.world.Settled registry) (quiet : Undisturbed registry (.user next :: frames) start)
include listed idle settled quiet

theorem call_gathered {op : Op C} (upper : List (Frame C)) (returning : Returning registry (.user next :: frames) start)
    (calls : start.threads = [⟨.run (.call op next), frames⟩]) (plain : ∀ frame ∈ upper, frame.building? = none)
    (gathers : Thread.next start.world 0 ⟨.run (.call op next), frames⟩ =
      some ⟨.still, [.called op], .gather registry, upper ++ .user next :: frames⟩) :
    ∃ verdicts later,
      Awaits 0 (.user next :: frames) start ⟨later, [⟨.back (.failures (start.world.losses verdicts (start.world.remaining registry))),
        upper ++ .user next :: frames⟩]⟩ ∧
      SweptAway registry (.user next :: frames) start (start.world.remaining registry) verdicts (start.world.account registry verdicts)
        start.world later := by
  obtain ⟨world, threads⟩ := start
  cases (show threads = _ from calls)
  have free : ∀ scope : ScopeRef, scope.registry = registry → ∀ frame ∈ upper ++ .user next :: frames, frame.builds scope = false := by
    refine fun scope mine => List.forall_mem_append.mpr ⟨fun frame member => ?_, List.forall_mem_cons.mpr ⟨rfl, idle scope mine⟩⟩
    rw [Frame.builds, plain frame member]
    rfl
  have begins : Awaits 0 (.user next :: frames) ⟨world, [⟨.run (.call op next), frames⟩]⟩
      ⟨record world 0 [.called op], [⟨.gather registry, upper ++ .user next :: frames⟩]⟩ :=
    Awaits.refl.goes gathers rfl fun exit same => by cases exit <;> cases same
  have still : (record world 0 [.called op]).Settled registry := settled
  obtain ⟨verdicts, later, back, spares, destroyed, hooks⟩ :=
    awaits_gathered path quiet returning listed (List.suffix_append _ _) free still begins
  exact ⟨verdicts, later, back, (Spares.refl world).hushed spares rfl, destroyed, hooks⟩

theorem shutdown_closes (calls : start.threads = [⟨.run (.call (.shutdown registry) next), frames⟩]) :
    Arrives registry (.user next :: frames) start fun later => ∃ verdicts,
      Closed registry (.user next :: frames) (start.world.remaining registry) verdicts start later ∧
      later.threads = [⟨.back (.failures (start.world.losses verdicts (start.world.remaining registry))), .user next :: frames⟩] := by
  refine arrives_once quiet fun returning => ?_
  obtain ⟨verdicts, later, back, swept⟩ := call_gathered path listed idle settled quiet [] returning calls (List.forall_mem_nil _) rfl
  exact ⟨_, back, ⟨.back _, rfl⟩, verdicts, closed_of path back swept, rfl⟩

theorem drop_closes (calls : start.threads = [⟨.run (.call (.drop registry) next), frames⟩]) :
    Arrives registry (.user next :: frames) start fun later => later.threads = [⟨.back .done, .user next :: frames⟩] ∧
      ((∃ scope : ScopeRef, scope.registry = registry ∧ start.world.isAlive scope = true) →
        ∃ verdicts, Closed registry (.user next :: frames) (start.world.remaining registry) verdicts start later) ∧
      ((¬∃ scope : ScopeRef, scope.registry = registry ∧ start.world.isAlive scope = true) →
        later.world = record start.world 0 [.called (.drop registry)]) := by
  refine arrives_once quiet fun returning => ?_
  rw [← (runs_filed path).hasLiving_iff]
  by_cases living : start.world.hasLiving registry = true
  · obtain ⟨verdicts, later, back, swept⟩ := call_gathered path listed idle settled quiet [.dropped] returning calls
      (List.forall_mem_singleton.mpr rfl) (by simp [Thread.next, Move.run, Move.call, living, Move.silent, Move.also])
    obtain ⟨items, silent, ended⟩ : ∃ items : List (Item C), items.filter (Item.concerns registry) = [] ∧
        Awaits 0 (.user next :: frames) start ⟨record later 0 items, [⟨.back .done, .user next :: frames⟩]⟩ := by
      generalize start.world.losses verdicts (start.world.remaining registry) = failures at back
      cases failures with
      | nil => exact ⟨[], rfl, back.onward (List.suffix_refl _) rfl rfl⟩
      | cons failure more => exact ⟨[.logged (.dropFailed (failure :: more))], rfl, back.onward (List.suffix_refl _) rfl rfl⟩
    have after := swept.spares.hushed (.refl (record later 0 items)) silent
    rw [List.append_nil] at after
    have closed := closed_of path ended ⟨after, swept.destroyed, swept.hooks⟩
    exact ⟨_, ended, ⟨.back .done, rfl⟩, rfl, fun _ => ⟨verdicts, closed⟩, absurd living⟩
  · obtain ⟨world, threads⟩ := start
    cases (show threads = _ from calls)
    have spared : Thread.next world 0 ⟨.run (.call (.drop registry) next), frames⟩ =
        some ⟨.still, [.called (.drop registry)], .back .done, .user next :: frames⟩ := by
      have none : world.hasLiving registry = false := Bool.eq_false_iff.mpr living
      simp [Thread.next, Move.run, Move.call, none, Move.silent, Move.also]
    have ended : Awaits 0 (.user next :: frames) ⟨world, [⟨.run (.call (.drop registry) next), frames⟩]⟩
        ⟨record world 0 [.called (.drop registry)], [⟨.back .done, .user next :: frames⟩]⟩ :=
      Awaits.refl.goes spared rfl fun exit same => by cases exit <;> cases same
    exact ⟨_, ended, ⟨.back .done, rfl⟩, rfl, fun alive => absurd alive living, fun _ => rfl⟩

end

theorem shutdown_empty (listed : registry < start.world.registries.length)
    (idle : ∀ scope : ScopeRef, scope.registry = registry → ∀ frame ∈ frames, frame.builds scope = false)
    (quiet : Undisturbed registry (.user next :: frames) start)
    (calls : start.threads = [⟨.run (.call (.shutdown registry) next), frames⟩])
    (dead : ∀ scope : ScopeRef, scope.registry = registry → start.world.isAlive scope = false) :
    Arrives registry (.user next :: frames) start fun later => later.threads = [⟨.back (.failures []), .user next :: frames⟩] ∧
      later.world.dealings registry = start.world.dealings registry ++ [.emitted registry (.shutdown 0)] := by
  have settled : start.world.Settled registry := fun scope mine pending => by
    have known : (start.world.scope? scope).isSome := inactive_known (by rw [pending]; exact nofun)
    cases pending.symm.trans (dead_destroyed known (dead scope mine))
  have none : start.world.remaining registry = [] := List.eq_nil_iff_forall_not_mem.mpr fun scope member => by
    obtain ⟨mine, alive⟩ := (runs_filed path).mem_remaining.mp member
    exact Bool.false_ne_true ((dead scope mine).symm.trans alive)
  refine (shutdown_closes path listed idle settled quiet calls).imp ?_
  rintro later _ _ ⟨verdicts, closed, back⟩
  have dealings := closed.dealings
  rw [none] at back dealings
  exact ⟨back, dealings⟩

-- A single thread shuts a registry down, and not from inside a construction. Whatever the hooks and the listener
-- do, what was active is destroyed afterwards, if a panic of the listener has not broken its end off. If they leave the registry alone, and nobody is in the middle of
-- ending one of its scopes, all that are alive are told first and ended then, innermost kind first and the ids of a
-- kind in order; the reply is what failed, in that order; nothing is left, so that the next shutdown finds nothing.
-- What happens when a registry goes away is the same, if something is alive, and nothing otherwise.
theorem shutdown_sweeps (listed : registry < start.world.registries.length)
    (idle : ∀ scope : ScopeRef, scope.registry = registry → ∀ frame ∈ frames, frame.builds scope = false) :
    (start.threads = [⟨.run (.call (.shutdown registry) next), frames⟩] →
      (∀ later reply scope, Awaits 0 (.user next :: frames) start later → later.threads = [⟨.back reply, .user next :: frames⟩] →
        ¬later.world.interrupted 0 scope → scope.registry = registry → start.world.isActive scope = true →
          (later.world.cell scope).state = .destroyed) ∧
      (start.world.Settled registry → Undisturbed registry (.user next :: frames) start →
        Arrives registry (.user next :: frames) start fun later => ∃ scopes verdicts,
          Closed registry (.user next :: frames) scopes verdicts start later ∧
          later.threads = [⟨.back (.failures (start.world.losses verdicts scopes)), .user next :: frames⟩] ∧
          (start.world.losses verdicts scopes = [] ↔
            ∀ scope ∈ scopes, ∀ entry ∈ start.world.holdings scope, ∀ phase, verdicts scope entry.1 phase = none) ∧
          ∀ again after below, Runs later again → again.threads = [⟨.run (.call (.shutdown registry) after), below⟩] →
            (∀ scope : ScopeRef, scope.registry = registry → (again.world.scope? scope).isSome → (later.world.scope? scope).isSome) →
            (∀ scope : ScopeRef, scope.registry = registry → ∀ frame ∈ below, frame.builds scope = false) →
            Undisturbed registry (.user after :: below) again →
              Arrives registry (.user after :: below) again fun last =>
                last.threads = [⟨.back (.failures []), .user after :: below⟩] ∧
                last.world.dealings registry = again.world.dealings registry ++ [.emitted registry (.shutdown 0)])) ∧
    (start.threads = [⟨.run (.call (.drop registry) next), frames⟩] → start.world.Settled registry →
      Undisturbed registry (.user next :: frames) start →
        Arrives registry (.user next :: frames) start fun later => later.threads = [⟨.back .done, .user next :: frames⟩] ∧
          ((∃ scope : ScopeRef, scope.registry = registry ∧ start.world.isAlive scope = true) →
            ∃ scopes verdicts, Closed registry (.user next :: frames) scopes verdicts start later) ∧
          ((¬∃ scope : ScopeRef, scope.registry = registry ∧ start.world.isAlive scope = true) →
            later.world = record start.world 0 [.called (.drop registry)])) := by
  refine ⟨fun calls => ⟨?_, fun settled quiet => ?_⟩, fun calls settled quiet => ?_⟩
  · intro later reply scope waits back whole mine active
    have running : start.threads[0]? = some ⟨.run (.call (.shutdown registry) next), frames⟩ := by rw [calls]; rfl
    exact shutdown_leaves_none path running waits (by rw [back]; rfl) whole (by rw [back]; rfl) mine active
  · refine (shutdown_closes path listed idle settled quiet calls).imp ?_
    rintro later waits _ ⟨verdicts, closed, back⟩
    refine ⟨_, verdicts, closed, back, losses_nil, fun again after below onward calls known idle quiet => ?_⟩
    have reached := path.trans waits.runs
    have still := Nat.lt_of_lt_of_le (awaits_known listed waits) (runs_registries onward)
    exact shutdown_empty (reached.trans onward) still idle quiet calls
      fun scope mine => runs_dead reached onward (known scope mine) (closed.gone scope mine)
  · refine (drop_closes path listed idle settled quiet calls).imp ?_
    rintro later _ _ ⟨back, some, none⟩
    exact ⟨back, fun alive => ⟨_, some alive⟩, none⟩

end

theorem brief_returning (brief : ∀ reached code frame below, Awaits 0 base start reached →
    reached.threads = [⟨.run code, frame :: below⟩] → frame.attends registry = true → code.isBrief = true) :
    Returning registry base start := by
  intro reached code frame below waits running _ attends
  have short := brief reached code frame below waits running attends
  obtain ⟨world, threads⟩ := reached
  cases (show threads = _ from running)
  have unanswered (exit : Exit C) : Thread.mk (.run code) (frame :: below) ≠ ⟨exit.focus, frame :: below⟩ := by cases exit <;> exact nofun
  cases code with
  | done => exact ⟨_, Awaits.refl.goes rfl rfl unanswered, .back .done, rfl⟩
  | fail cause => exact ⟨_, Awaits.refl.goes rfl rfl unanswered, .back (.failed cause), rfl⟩
  | panic panic => exact ⟨_, Awaits.refl.goes rfl rfl unanswered, .unwind panic, rfl⟩
  | _ => cases short

def closingTime (op : Op ⟨Unit, Unit, Unit, Unit⟩) (next : Reply ⟨Unit, Unit, Unit, Unit⟩ → Code ⟨Unit, Unit, Unit, Unit⟩) :
    System ⟨Unit, Unit, Unit, Unit⟩ :=
  initial (fun _ => .done) () <| .call (.establish {}) fun _ => .listen 0 (fun _ => .done) <|
    .call (.begin 0 ⟨.session, "s"⟩) fun _ => .call (.begin 0 ⟨.request, "r"⟩) fun _ =>
    .resolve ⟨⟨0, ⟨.session, "s"⟩, 0⟩, "only", "Only"⟩
      (fun _ => .built () ⟨fun _ => .done, fun _ => .panic ⟨"no"⟩, .fail (.words "never" [])⟩) fun _ =>
    .resolve ⟨⟨0, ⟨.request, "r"⟩, 0⟩, "late", "Late"⟩
      (fun _ => .built () ⟨fun _ => .done, fun _ => .done, .fail (.words "stays" [])⟩) fun _ => .call op next

def goHome : Reply ⟨Unit, Unit, Unit, Unit⟩ → Code ⟨Unit, Unit, Unit, Unit⟩ := fun _ => .done

def closeAgain : Reply ⟨Unit, Unit, Unit, Unit⟩ → Code ⟨Unit, Unit, Unit, Unit⟩ := fun _ => .call (.shutdown 0) goHome

-- No listener has panicked; nobody who is called asks for anything; and where nobody is, no scope is being ended.
def minds (system : System ⟨Unit, Unit, Unit, Unit⟩) : Bool :=
  !system.world.chronicle.any Item.isAlarm &&
    match system.threads with
    | [⟨.run _, []⟩] => system.world.scopes.entries.all fun entry => entry.2.state ≠ .destructionPending
    | [⟨.run code, frame :: _⟩] => !code.uses 0 && (!frame.attends 0 || code.isBrief)
    | _ => true

section
variable {first start : System ⟨Unit, Unit, Unit, Unit⟩}

theorem minds_called {code : Code ⟨Unit, Unit, Unit, Unit⟩} {frames : List (Frame ⟨Unit, Unit, Unit, Unit⟩)}
    (minded : watched minds budget first = true) (onward : Runs first start) (running : start.threads = [⟨.run code, frame :: frames⟩]) :
    code.uses 0 = false ∧ (frame.attends 0 = true → code.isBrief = true) := by
  have passes := (watched_runs minded onward).2
  simp only [minds, running, Bool.and_eq_true, Bool.not_eq_true', Bool.or_eq_true] at passes
  exact ⟨passes.2.1, fun attends => passes.2.2.resolve_left fun other => Bool.false_ne_true (other.symm.trans attends)⟩

theorem minds_settled {code : Code ⟨Unit, Unit, Unit, Unit⟩} (minded : watched minds budget first = true) (onward : Runs first start)
    (running : start.threads = [⟨.run code, []⟩]) : start.world.Settled 0 := by
  have passes := (watched_runs minded onward).2
  simp only [minds, running, Bool.and_eq_true, List.all_eq_true, decide_eq_true_eq] at passes
  intro scope _ pending
  have known : (start.world.scope? scope).isSome := inactive_known (by rw [pending]; exact nofun)
  exact passes.2 _ (Table.mem_entries.mpr (known_cell known)) pending

theorem minds_undisturbed (minded : watched minds budget first = true) (onward : Runs first start)
    (after : Reply ⟨Unit, Unit, Unit, Unit⟩ → Code ⟨Unit, Unit, Unit, Unit⟩) :
    Undisturbed 0 [.user after] start ∧ Returning 0 [.user after] start := by
  refine ⟨⟨fun reached waits => ?_, fun reached waits shaken => ?_, fun reached code frames waits running suffix => ?_⟩, ?_⟩
  · exact (watched_runs minded (onward.trans waits.runs)).1
  · have passes := (watched_runs minded (onward.trans waits.runs)).2
    simp [minds, shaken_iff.mpr shaken] at passes
  · cases frames with
    | nil => cases List.suffix_nil.mp suffix
    | cons frame below => exact (minds_called minded (onward.trans waits.runs) running).1
  · exact brief_returning fun reached code frame below waits running => (minds_called minded (onward.trans waits.runs) running).2

theorem run_back {reply : Reply ⟨Unit, Unit, Unit, Unit⟩} {next : Reply ⟨Unit, Unit, Unit, Unit⟩ → Code ⟨Unit, Unit, Unit, Unit⟩}
    {frames : List (Frame ⟨Unit, Unit, Unit, Unit⟩)} (only : start.threads = [⟨.back reply, .user next :: frames⟩]) :
    run 1 start = ⟨start.world, [⟨.run (next reply), frames⟩]⟩ := by
  obtain ⟨world, threads⟩ := start
  cases (show threads = _ from only)
  rfl

end

-- The request is ended before the session, and what comes back is what failed in the one and then in the other.
theorem closing_swept :
    (∃ later verdicts again last, Awaits 0 [.user closeAgain] (run 61 (closingTime (.shutdown 0) closeAgain)) later ∧
      Closed 0 [.user closeAgain] [⟨0, ⟨.request, "r"⟩, 0⟩, ⟨0, ⟨.session, "s"⟩, 0⟩] verdicts
        (run 61 (closingTime (.shutdown 0) closeAgain)) later ∧
      later.threads = [⟨.back (.failures [.hook ⟨.request, "r"⟩ "late" .destroy (.words "stays" []),
        .hook ⟨.session, "s"⟩ "only" .beforeDestroy (.words "hook panicked: no" []),
        .hook ⟨.session, "s"⟩ "only" .destroy (.words "never" [])]), [.user closeAgain]⟩] ∧
      (later.world.cell ⟨0, ⟨.session, "s"⟩, 0⟩).state = .destroyed ∧
      Runs later again ∧ Awaits 0 [.user goHome] again last ∧ last.threads = [⟨.back (.failures []), [.user goHome]⟩]) ∧
    ∃ later verdicts, Awaits 0 [.user goHome] (run 61 (closingTime (.drop 0) goHome)) later ∧
      Closed 0 [.user goHome] [⟨0, ⟨.request, "r"⟩, 0⟩, ⟨0, ⟨.session, "s"⟩, 0⟩] verdicts (run 61 (closingTime (.drop 0) goHome)) later ∧
      later.threads = [⟨.back .done, [.user goHome]⟩] := by
  have idle : ∀ scope : ScopeRef, scope.registry = 0 → ∀ frame ∈ ([] : List (Frame ⟨Unit, Unit, Unit, Unit⟩)), frame.builds scope = false :=
    fun _ _ _ member => absurd member List.not_mem_nil
  constructor
  · have minded : watched minds 160 (closingTime (.shutdown 0) closeAgain) = true := by decide +kernel
    have path := run_runs 61 (closingTime (.shutdown 0) closeAgain)
    have listed : (run 61 (closingTime (.shutdown 0) closeAgain)).world.remaining 0 =
        [⟨0, ⟨.request, "r"⟩, 0⟩, ⟨0, ⟨.session, "s"⟩, 0⟩] := by decide +kernel
    obtain ⟨quiet, returning⟩ := minds_undisturbed minded path closeAgain
    obtain ⟨destroys, closes⟩ := (shutdown_sweeps path (by decide) idle).1 rfl
    obtain ⟨_, arrives⟩ := closes (minds_settled minded path rfl) quiet
    have waits : Awaits 0 [.user closeAgain] (run 61 (closingTime (.shutdown 0) closeAgain))
        (run 67 (run 61 (closingTime (.shutdown 0) closeAgain))) := awaits_run 67 1 rfl (by decide +kernel)
    have back : (run 67 (run 61 (closingTime (.shutdown 0) closeAgain))).threads =
        [⟨.back (.failures [.hook ⟨.request, "r"⟩ "late" .destroy (.words "stays" []),
          .hook ⟨.session, "s"⟩ "only" .beforeDestroy (.words "hook panicked: no" []),
          .hook ⟨.session, "s"⟩ "only" .destroy (.words "never" [])]), [.user closeAgain]⟩] := by with_unfolding_all rfl
    obtain ⟨scopes, verdicts, closed, _, _, second⟩ := arrives _ waits ⟨.back _, by rw [back]; rfl⟩
    have same := (closed.remaining path).trans listed
    subst same
    have gone := destroys _ _ ⟨0, ⟨.session, "s"⟩, 0⟩ waits back (fun cut => quiet.calm _ waits cut.shaken) rfl (by decide)
    have again := run_runs 1 (run 67 (run 61 (closingTime (.shutdown 0) closeAgain)))
    obtain ⟨calm, returns⟩ := minds_undisturbed minded ((path.trans waits.runs).trans again) goHome
    have resumed := run_back back
    obtain ⟨ends, empty⟩ := second _ goHome [] again (by rw [resumed]; rfl) (fun _ _ known => by rwa [resumed] at known) idle calm
    obtain ⟨last, comes, answers⟩ := ends returns
    exact ⟨_, verdicts, _, last, waits, closed, back, gone, again, comes, (empty last comes answers).1⟩
  · have minded : watched minds 160 (closingTime (.drop 0) goHome) = true := by decide +kernel
    have path := run_runs 61 (closingTime (.drop 0) goHome)
    have listed : (run 61 (closingTime (.drop 0) goHome)).world.remaining 0 =
        [⟨0, ⟨.request, "r"⟩, 0⟩, ⟨0, ⟨.session, "s"⟩, 0⟩] := by decide +kernel
    obtain ⟨quiet, returning⟩ := minds_undisturbed minded path goHome
    obtain ⟨comes, arrives⟩ := (shutdown_sweeps path (by decide) idle).2 rfl (minds_settled minded path rfl) quiet
    obtain ⟨later, waits, answered⟩ := comes returning
    obtain ⟨back, closes, _⟩ := arrives later waits answered
    obtain ⟨scopes, verdicts, closed⟩ := closes ⟨⟨0, ⟨.session, "s"⟩, 0⟩, rfl, by decide⟩
    have same := (closed.remaining path).trans listed
    subst same
    exact ⟨later, verdicts, waits, closed, back⟩

end System
end Lifespan
