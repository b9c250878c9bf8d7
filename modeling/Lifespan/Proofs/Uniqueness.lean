import Mathlib.Algebra.GroupWithZero.Nat
import Lifespan.Proofs.Access

-- One instance for each key of a scope, however many threads ask for it: of the factories of a key at
-- most one runs at a time, at most one ever stores what it has made, and nobody is given anything else.
namespace Lifespan
variable {C : Client}

def Code.accessor? : Code C → Option (Request × (Reply C → Code C))
  | resolve request _ next => some (request, next)
  | call (.peek scope key type) next => some (⟨scope, key, type⟩, next)
  | _ => none

def Frame.factory? : Frame C → Option (ScopeRef × String)
  | factory job _ => some (job.request.scope, job.request.key)
  | _ => none

-- What has been stored under a key first.
def World.singleton? (world : World C) (scope : ScopeRef) (key : String) : Option InstanceRef :=
  ((world.stored scope).find? fun one => one.1 = key).map Prod.snd

def System.factories (system : System C) (scope : ScopeRef) (key : String) : Nat :=
  (system.threads.map fun thread => thread.frames.countP fun frame => frame.factory? = some (scope, key)).sum

theorem sum_le_one (counts : List Nat) (each : ∀ count ∈ counts, count ≤ 1)
    (apart : counts.Pairwise fun one two => one = 0 ∨ two = 0) : counts.sum ≤ 1 := by
  induction counts with
  | nil => simp
  | cons count rest ih =>
    rw [List.pairwise_cons] at apart
    have here := each count (List.mem_cons_self ..)
    have below := ih (fun other member => each other (List.mem_cons_of_mem _ member)) apart.2
    rw [List.sum_cons]
    by_cases none : count = 0
    · omega
    · have others : rest.sum = 0 :=
        List.sum_eq_zero_iff_forall_eq_nat.mpr fun other member => (apart.1 other member).resolve_left none
      omega

namespace Life
variable {life : Life C} {one two me : ThreadId} {key : String}

-- Whatever only goes on with the turn at the gate of a key goes on once, as nobody has a turn twice.
theorem Accounts.lone (accounts : life.Accounts) {has : Grip → Bool}
    (turn : ∀ grip, has grip = true → ∃ gate, grip.gate? = some (key, gate) ∧ grip.turn? = some gate) :
    (life.grips me).countP has ≤ 1 := by
  cases gate : life.cell.gates.gates.get? key with
  | none =>
    have none : (life.grips me).countP has = 0 := by
      rw [List.countP_eq_zero]
      intro grip member goes
      obtain ⟨other, wants, _⟩ := turn grip goes
      cases gate.symm.trans (accounts.gates me grip member key other wants)
    omega
  | some known =>
    have turns := accounts.turns me known
    have fewer : (life.grips me).countP has ≤ (life.grips me).countP (·.turn? = some known) := by
      apply List.countP_mono_left
      intro grip member goes
      obtain ⟨other, wants, turn⟩ := turn grip goes
      cases gate.symm.trans (accounts.gates me grip member key other wants)
      simpa using turn
    split at turns <;> omega

theorem Accounts.lone_factory (accounts : life.Accounts) : (life.grips me).countP (·.making? = some key) ≤ 1 :=
  accounts.lone fun _ runs => making_gate (of_decide_eq_true runs)

theorem Accounts.apart (accounts : life.Accounts) (key : String) (other : one ≠ two) :
    (life.grips one).countP (·.making? = some key) = 0 ∨ (life.grips two).countP (·.making? = some key) = 0 := by
  by_cases none : (life.grips one).countP (·.making? = some key) = 0
  · exact .inl none
  · refine .inr (List.countP_eq_zero.mpr fun second his runs => ?_)
    obtain ⟨first, mine, makes⟩ := List.countP_pos_iff.mp (Nat.pos_of_ne_zero none)
    obtain ⟨gate, wants, turn⟩ := making_gate (of_decide_eq_true makes)
    obtain ⟨place, seeks, next⟩ := making_gate (of_decide_eq_true runs)
    exact other (accounts.one_holder mine his wants seeks turn next)

end Life

namespace System
variable {before after start system : System C} {program : C.Label → Code C} {memory : C.Memory} {code : Code C}
  {scope : ScopeRef} {key : String} {thread : Thread C} {me : ThreadId}

theorem factory_grip {frame : Frame C} : (frame.factory? = some (scope, key)) ↔
    ∃ grip, frame.grip? = some (scope, grip) ∧ grip.making? = some key := by
  cases frame with
  | factory job gate => simp [Frame.factory?, Frame.grip?, Grip.making?, and_assoc]
  | created | welcomed => simp [Frame.factory?, Frame.grip?, Grip.making?]
  | _ => simp [Frame.factory?, Frame.grip?]

theorem factories_grips (scope : ScopeRef) (key : String) (running : system.threads[me]? = some thread) :
    thread.frames.countP (fun frame => frame.factory? = some (scope, key)) ≤
      ((system.life scope).grips me).countP (·.making? = some key) := by
  have same : ((system.life scope).grips me) = List.about scope (thread.focus.grip?.toList ++ thread.frames.filterMap Frame.grip?) := by
    simp only [life, posture_found running]
    rfl
  rw [same, about_append, List.countP_append, List.about, List.about, List.filterMap_filterMap, List.countP_filterMap,
    List.countP_filterMap]
  refine Nat.le_trans (List.countP_mono_left fun frame member runs => ?_) (Nat.le_add_left _ _)
  obtain ⟨grip, holds, makes⟩ := factory_grip.mp (of_decide_eq_true runs)
  simp [holds, makes]

theorem factories_le_one (path : Runs (initial program memory code) system) : system.factories scope key ≤ 1 := by
  have accounts := (runs_lived path scope).accounts
  apply sum_le_one
  · intro count member
    obtain ⟨thread, there, rfl⟩ := List.mem_map.mp member
    obtain ⟨me, running⟩ := List.mem_iff_getElem?.mp there
    exact Nat.le_trans (factories_grips scope key running) accounts.lone_factory
  · rw [List.pairwise_map, List.pairwise_iff_getElem]
    intro one two first second less
    have mine := factories_grips scope key (List.getElem?_eq_getElem first)
    have his := factories_grips scope key (List.getElem?_eq_getElem second)
    have apart := accounts.apart key (Nat.ne_of_lt less)
    omega

theorem factory_unstored (path : Runs (initial program memory code) system) (running : system.threads[me]? = some thread)
    {frame : Frame C} (member : frame ∈ thread.frames) (runs : frame.factory? = some (scope, key)) :
    key ∉ (system.world.stored scope).map Prod.fst := by
  obtain ⟨grip, holds, makes⟩ := factory_grip.mp runs
  exact (runs_lived path scope).content.making me grip (frame_grip running member holds) key makes

theorem factory_absent (path : Runs (initial program memory code) system) (running : system.threads[me]? = some thread)
    {frame : Frame C} (member : frame ∈ thread.frames) (runs : frame.factory? = some (scope, key)) :
    (system.world.cell scope).store.contains key = false := by
  obtain ⟨grip, holds, makes⟩ := factory_grip.mp runs
  have lived := runs_lived path scope
  have open_ : ¬(system.life scope).Emptied := by
    intro emptied
    cases lived.shut emptied me grip (frame_grip running member holds)
    cases makes
  have absent := (lived.content.full open_).absent.mpr (factory_unstored path running member runs)
  exact Option.isSome_eq_false_iff.mpr (Option.isNone_iff_eq_none.mpr absent)

theorem find_distinct {all : List (String × InstanceRef)} (keys : (all.map Prod.fst).Nodup) (member : (key, object) ∈ all) :
    (all.find? fun one => one.1 = key).map Prod.snd = some object := by
  induction all with
  | nil => cases member
  | cons first rest ih =>
    rw [List.map_cons, List.nodup_cons] at keys
    rcases List.mem_cons.mp member with rfl | below
    · simp
    · have apart : first.1 ≠ key := by
        rintro rfl
        exact keys.1 (List.mem_map.mpr ⟨_, below, rfl⟩)
      simpa [List.find?_cons, apart] using ih keys.2 below

theorem stored_singleton (path : Runs (initial program memory code) system)
    (member : (key, object) ∈ system.world.stored scope) : system.world.singleton? scope key = some object :=
  find_distinct (runs_lived path scope).content.keys member

theorem answers_stored {asked : Code C} {request : Request} {next : Reply C → Code C} {frames : List (Frame C)}
    (reached : Runs (initial program memory code) start) (asks : asked.accessor? = some (request, next))
    (calls : start.threads[me]? = some ⟨.run asked, frames⟩) (waits : Awaits me (.user next :: frames) start system)
    (answered : system.threads[me]? = some ⟨.back (.object object), .user next :: frames⟩) :
    (request.key, object) ∈ system.world.stored request.scope := by
  cases asked with
  | resolve wanted factory other =>
    cases asks
    obtain ⟨thread, running, rfl | seeks⟩ := awaits_seeks ⟨request, factory⟩ reached calls waits
    · cases answered.symm.trans running
    · cases answered.symm.trans running
      exact seeks.answer (.back (.object object)) rfl
  | call op other =>
    cases op with
    | peek =>
      cases asks
      obtain ⟨thread, running, rfl | peeks⟩ := awaits_peeks ⟨_, _, _⟩ reached calls waits
      · cases answered.symm.trans running
      · cases answered.symm.trans running
        exact peeks.answer rfl
    | _ => cases asks
  | _ => cases asks

-- For every key of a scope at most one factory runs at a time, none runs or stores anything once an
-- instance is stored, and every accessor that gives an instance gives this one, now and ever after.
theorem one_instance_per_key (path : Runs (initial program memory code) system) (scope : ScopeRef) (key : String) :
    system.factories scope key ≤ 1 ∧
    ((system.world.stored scope).map Prod.fst).count key ≤ 1 ∧
    (∀ thread ∈ system.threads, ∀ frame ∈ thread.frames, frame.factory? = some (scope, key) →
      (system.world.cell scope).store.contains key = false) ∧
    (∀ entry, (system.world.cell scope).store.get? key = some entry →
      system.world.singleton? scope key = some entry.object) ∧
    ∀ start me asked request next frames object, Runs (initial program memory code) start →
      asked.accessor? = some (request, next) → request.scope = scope → request.key = key →
      start.threads[me]? = some ⟨.run asked, frames⟩ → Awaits me (.user next :: frames) start system →
      system.threads[me]? = some ⟨.back (.object object), .user next :: frames⟩ →
      ∀ later, Runs system later → later.world.singleton? scope key = some object := by
  refine ⟨factories_le_one path, ?_, ?_, ?_, ?_⟩
  · exact List.nodup_iff_count.mp (runs_lived path scope).content.keys key
  · intro thread there frame member runs
    obtain ⟨me, running⟩ := List.mem_iff_getElem?.mp there
    exact factory_absent path running member runs
  · intro entry stands
    exact stored_singleton path ((runs_lived path scope).content.holds stands)
  · rintro start me asked request next frames object reached asks rfl rfl calls waits answered later onward
    have stored := answers_stored reached asks calls waits answered
    exact stored_singleton (path.trans onward) (runs_stored onward _ _ stored)

def resolvingPair : System ⟨Unit, Unit, Unit, Unit⟩ :=
  initial (fun _ => .done) () <| .call (.establish {}) fun _ => .call (.begin 0 ⟨.session, "a"⟩) fun _ =>
    .resolve ⟨⟨0, ⟨.session, "a"⟩, 0⟩, "outer", "Outer"⟩
      (fun scope => .resolve ⟨scope, "inner", "Inner"⟩ (fun _ => .built () ⟨fun _ => .done, fun _ => .done, .done⟩) fun _ =>
        .built () ⟨fun _ => .done, fun _ => .done, .done⟩)
      fun _ => .done

theorem inner_kept : (run 28 resolvingPair).factories ⟨0, ⟨.session, "a"⟩, 0⟩ "outer" = 1 ∧
    (run 28 resolvingPair).world.singleton? ⟨0, ⟨.session, "a"⟩, 0⟩ "inner" = some (.kept ⟨0, ⟨.session, "a"⟩, 0⟩ 0) := by
  have unique := one_instance_per_key (run_runs 28 resolvingPair) ⟨0, ⟨.session, "a"⟩, 0⟩ "inner"
  exact ⟨by decide, unique.2.2.2.1 ⟨.kept ⟨0, ⟨.session, "a"⟩, 0⟩ 0, "Inner"⟩ (by decide)⟩

end System
end Lifespan
