import Mathlib.Data.List.Nodup
import Lifespan.Proofs.UndisturbedTeardown
import Lifespan.Proofs.Origin
import Lifespan.Proofs.CallProgress

-- What is told of a teardown, in all the ways in which it is told: the failures that it gives back, the records in the log,
-- one event for each instance, and the number with the end of the scope.
namespace Lifespan
variable {C : Client}

-- How a hook came back, and what had happened on its thread until then.
structure Episode (C : Client) where
  exit : Exit C
  inside : List (Item C)

abbrev Course (C : Client) := String → Phase → Episode C

namespace Episode

def cause (episode : Episode C) (phase : Phase) : Option Cause := episode.exit.blame? phase

def warned (episode : Episode C) (scope : ScopeRef) (one : String × Entry) : List (Item C) :=
  .hook (.before one.2.object scope) :: (episode.inside ++ complaint scope .beforeDestroy one.1 (episode.cause .beforeDestroy))

def destroyed (episode : Episode C) (scope : ScopeRef) (warned : Option Cause) (heard : List (Item C)) (one : String × Entry) : List (Item C) :=
  .hook (.destroy one.2.object) :: (episode.inside ++ complaint scope .destroy one.1 (episode.cause .destroy) ++
    .emitted scope.registry (.fate scope.id one.1 (warned.isNone && (episode.cause .destroy).isNone)) :: heard)

end Episode

namespace Course

def verdict (course : Course C) : Verdict := fun key phase => (course key phase).cause phase

def trace (course : Course C) (heard : String → List (Item C)) (scope : ScopeRef) (entries : List (String × Entry)) : List (Item C) :=
  (entries.flatMap fun one => (course one.1 .beforeDestroy).warned scope one) ++
    entries.flatMap fun one => (course one.1 .destroy).destroyed scope (course.verdict one.1 .beforeDestroy) (heard one.1) one

end Course

inductive Outcome
  | fine
  | refuses (cause : Cause)
  | panics (panic : Panic)

namespace Outcome

def code : Outcome → Code C
  | fine => .done
  | refuses cause => .fail cause
  | panics panic => .panic panic

def exit : Outcome → Exit C
  | fine => .back .done
  | refuses cause => .back (.failed cause)
  | panics panic => .unwind panic

theorem straight (outcome : Outcome) (me : ThreadId) (frame : Frame C) (below : List (Frame C)) :
    Straight me (frame :: below) outcome.exit ⟨.run outcome.code, frame :: below⟩ [.silent outcome.exit.focus (frame :: below)] := by
  have away (exit : Exit C) : Thread.mk (.run outcome.code) (frame :: below) ≠ ⟨exit.focus, frame :: below⟩ := by
    intro same
    cases exit <;> cases same
  refine .step away ?_ (fun _ => ?_) .arrives
  · cases outcome <;> rfl
  · cases outcome <;> rfl

end Outcome

def Item.hookFailure? : Item C → Option Failure
  | .logged (.hookFailed failure) => some failure
  | _ => none

section
variable {α β : Type} {pass : String → α} {key : String} {entry : Entry} {rest : List (String × Entry)} {value : α}

theorem pass_first (each : α → String × Entry → List β) (new : key ∉ rest.map Prod.fst) :
    (((key, entry) :: rest).flatMap fun one => each (Function.update pass key value one.1) one) =
      each value (key, entry) ++ rest.flatMap fun one => each (pass one.1) one := by
  rw [List.flatMap_cons, Function.update_self]
  refine congrArg _ (List.flatMap_congr fun one member => ?_)
  have other : one.1 ≠ key := fun same => new (same ▸ List.mem_map_of_mem member)
  rw [Function.update_of_ne other]

theorem update_each (each : α → β) : (fun name => each (Function.update pass key value name)) =
    Function.update (fun name => each (pass name)) key (each value) := Function.comp_update each pass key value

end

section
variable {scope : ScopeRef} {phase : Phase} {causes : String → Option Cause} {verdict : Verdict} {course : Course C}
  {entries : List (String × Entry)} {one : String × Entry}

theorem failing_keys : failedKeys (failing scope phase causes entries) = (entries.map Prod.fst).filter fun key => (causes key).isSome := by
  induction entries with
  | nil => rfl
  | cons first rest ih =>
    simp only [failedKeys, failing] at ih ⊢
    cases failed : causes first.1 with
    | none => simp [failed, ih]
    | some cause => simp [failed, ih, Failure.key]

theorem failing_count (distinct : (entries.map Prod.fst).Nodup) (member : one ∈ entries) :
    (failedKeys (failing scope phase causes entries)).count one.1 = (causes one.1).toList.length := by
  have once : (entries.map Prod.fst).count one.1 = 1 := List.count_eq_one_of_mem distinct (List.mem_map_of_mem member)
  rw [failing_keys]
  cases failed : causes one.1 with
  | none => exact List.count_eq_zero.mpr (by simp [failed])
  | some cause => rw [List.count_filter (by rw [failed]; rfl), once]; rfl

namespace Verdict

theorem failures_nil : verdict.failures scope entries = [] ↔ ∀ one ∈ entries, ∀ phase, verdict one.1 phase = none := by
  simp only [failures, List.append_eq_nil_iff, failing, List.filterMap_eq_nil_iff, Option.map_eq_none_iff]
  constructor
  · rintro ⟨warned, deaths⟩ one member (_ | _)
    · exact warned one member
    · exact deaths one member
  · exact fun none => ⟨fun one member => none one member _, fun one member => none one member _⟩

theorem failed_count (distinct : (entries.map Prod.fst).Nodup) (member : one ∈ entries) :
    (failedKeys (verdict.failures scope entries)).count one.1 =
      (verdict one.1 .beforeDestroy).toList.length + (verdict one.1 .destroy).toList.length := by
  rw [failures, failedKeys, List.map_append, List.count_append]
  exact congrArg₂ _ (failing_count distinct member) (failing_count distinct member)

theorem spotless_failed (member : one ∈ entries) :
    verdict.spotless one.1 = !(failedKeys (verdict.failures scope entries)).contains one.1 := by
  rw [failures, failedKeys, List.map_append, List.contains_append]
  have warned : (failedKeys (failing scope .beforeDestroy (verdict · .beforeDestroy) entries)).contains one.1 = _ := failed_contains member
  have deaths : (failedKeys (failing scope .destroy (verdict · .destroy) entries)).contains one.1 = _ := failed_contains member
  rw [← failedKeys, ← failedKeys, warned, deaths, spotless]
  cases verdict one.1 .beforeDestroy <;> cases verdict one.1 .destroy <;> rfl

end Verdict

theorem complaint_failures : (complaint (C := C) scope phase key cause).filterMap Item.hookFailure? =
    (cause.map (Failure.hook scope.id key phase)).toList := by
  cases cause <;> rfl

theorem complaint_silent : (complaint (C := C) scope phase key cause).filterMap Item.announced? = [] := by
  cases cause <;> rfl

namespace Course

-- Without what the hooks do, and without what comes of the events.
def bare (course : Course C) : Course C := fun key phase => ⟨(course key phase).exit, []⟩

theorem bare_records : (course.bare.trace (fun _ => []) scope entries).filterMap Item.hookFailure? = course.verdict.failures scope entries := by
  rw [trace, List.filterMap_append, List.filterMap_flatMap, List.filterMap_flatMap, Verdict.failures, failing, failing,
    List.filterMap_eq_flatMap_toList, List.filterMap_eq_flatMap_toList]
  refine congrArg₂ _ (List.flatMap_congr fun one _ => ?_) (List.flatMap_congr fun one _ => ?_)
  · exact complaint_failures
  · rw [Episode.destroyed, List.filterMap_cons_none rfl, List.filterMap_append]
    exact (List.append_nil _).trans complaint_failures

theorem bare_events : (course.bare.trace (fun _ => []) scope entries).filterMap Item.announced? = entries.map fun one =>
    (scope.registry, .fate scope.id one.1 !(failedKeys (course.verdict.failures scope entries)).contains one.1) := by
  have warns : (entries.flatMap fun one => ((course.bare one.1 .beforeDestroy).warned scope one).filterMap Item.announced?) = [] := by
    refine List.flatMap_eq_nil_iff.mpr fun one _ => ?_
    rw [Episode.warned, List.filterMap_cons_none rfl]
    exact complaint_silent
  rw [trace, List.filterMap_append, List.filterMap_flatMap, List.filterMap_flatMap, List.map_eq_flatMap, warns, List.nil_append]
  refine List.flatMap_congr fun one member => ?_
  rw [← Verdict.spotless_failed member, Episode.destroyed, List.filterMap_cons_none rfl, List.filterMap_append]
  exact congrArg (· ++ _) complaint_silent

end Course

end

namespace System
variable {first last before after system : System C} {me : ThreadId} {base below : List (Frame C)} {done : List (Item C)}
  {calls : Code C → Prop} {Q : System C → Prop} {leads : (System C → Prop) → System C → Prop} {program : C.Label → Code C}
  {memory : C.Memory} {origin : Code C} {scope : ScopeRef} {entries rest : List (String × Entry)} {failures : List Failure}
  {key : String} {phase : Phase} {entry : Entry} {one : String × Entry} {known : List Bool}

def Went (first : System C) (me : ThreadId) (base : List (Frame C)) (scope : ScopeRef) (one : String × Entry) (phase : Phase)
    (episode : Episode C) : Prop :=
  ∃ called back teardown below made, base <:+ below ∧ first.world.instance? one.2.object = some made ∧ Awaits me base first called ∧
    called.threads[me]? = some ⟨.run (made.hooks.code (phase.call scope one.2.object)), .hooked teardown one.1 :: below⟩ ∧
    Awaits me (.hooked teardown one.1 :: below) called back ∧
    back.threads[me]? = some ⟨episode.exit.focus, .hooked teardown one.1 :: below⟩ ∧
    back.world.doneBy me = called.world.doneBy me ++ episode.inside

def Hooked (first : System C) (calls : Code C → Prop) (scope : ScopeRef) (one : String × Entry) : Prop :=
  ∃ made, first.world.instance? one.2.object = some made ∧ ∀ phase : Phase, calls (made.hooks.code (phase.call scope one.2.object))

section
variable (path : Runs (initial program memory origin) first) (passage : Passage first me base calls leads)
include path passage

theorem Passage.attends (suffix : base <:+ below) (hooked : first.Hooked calls scope (key, entry))
    (here : Stood first me base system ⟨.tear ⟨scope, entries, phase, (key, entry) :: rest, failures, known⟩, below⟩ done)
    (onward : ∀ after (episode : Episode C),
      Stood first me base after ⟨episode.exit.focus, .hooked ⟨scope, entries, phase, rest, failures, known⟩ key :: below⟩
        (done ++ .hook (phase.call scope entry.object) :: episode.inside) →
      Went first me base scope (key, entry) phase episode → leads Q after) : leads Q system := by
  obtain ⟨made, found, hooks⟩ := hooked
  have away (exit : Exit C) : Thread.mk (.tear ⟨scope, entries, phase, (key, entry) :: rest, failures, known⟩) below ≠ ⟨exit.focus, base⟩ := by
    intro same
    cases exit <;> cases same
  refine passage.sure here away rfl (fun before stood => next_calls rfl (runs_instance path stood.came.runs found)) fun called there => ?_
  rw [nextCall_call] at there
  refine passage.goes (passage.returns there suffix (hooks phase) rfl) ?_
  rintro back ⟨exit, inside, stood, inner⟩
  refine onward back ⟨exit, inside⟩ (by simpa using stood) ?_
  refine ⟨called, back, _, below, made, suffix, found, there.came, there.running, inner, stood.running, ?_⟩
  rw [stood.history, there.history]

theorem Passage.warns (suffix : base <:+ below) (distinct : (rest.map Prod.fst).Nodup) (aligned : known.length + rest.length = entries.length)
    (made : ∀ one ∈ rest, first.Hooked calls scope one)
    (here : Stood first me base system
      ⟨.tear ⟨scope, entries, .beforeDestroy, rest, failures, known ++ List.replicate rest.length false⟩, below⟩ done)
    (onward : ∀ after (pass : String → Episode C), Stood first me base after
      ⟨.tear ⟨scope, entries, .beforeDestroy, [], failures ++ failing scope .beforeDestroy (fun key => (pass key).cause .beforeDestroy) rest,
        known ++ flags (fun key => (pass key).cause .beforeDestroy) rest⟩, below⟩
      (done ++ rest.flatMap fun one => Episode.warned (pass one.1) scope one) →
      (∀ one ∈ rest, Went first me base scope one .beforeDestroy (pass one.1)) → leads Q after) : leads Q system := by
  induction rest generalizing system failures known done with
  | nil => exact onward system (fun _ => ⟨.back .done, []⟩) (by simpa [failing, flags] using here) nofun
  | cons one rest ih =>
    obtain ⟨key, entry⟩ := one
    obtain ⟨new, distinct⟩ : key ∉ rest.map Prod.fst ∧ _ := List.nodup_cons.mp distinct
    obtain ⟨hooked, others⟩ := List.forall_mem_cons.mp made
    have beside : known.length + 1 + rest.length = entries.length := by rw [← aligned, List.length_cons]; omega
    refine passage.attends path suffix hooked here fun back episode returned went => ?_
    refine passage.sure returned (fun _ same => suffix_ne suffix (congrArg Thread.frames same)) (exit_busy _)
      (fun _ _ => next_hooked.trans (congrArg some (hooked_warned beside))) fun after there => ?_
    have split {more : List Bool} : known ++ (episode.cause .beforeDestroy).isSome :: more =
        known ++ [(episode.cause .beforeDestroy).isSome] ++ more := by simp
    have there := split ▸ there
    refine ih distinct (by simpa using beside) others there fun last pass stood ways => ?_
    refine onward last (Function.update pass key episode) ?_ ?_
    · rw [update_each fun episode : Episode C => episode.cause .beforeDestroy, failing_first new, flags_first new, split,
        pass_first (fun episode => Episode.warned episode scope) new]
      simpa [Episode.warned, Phase.call, Episode.cause] using stood
    · refine List.forall_mem_cons.mpr ⟨?_, fun other member => ?_⟩
      · rw [Function.update_self]
        exact went
      · have apart : other.1 ≠ key := fun same => new (List.mem_map.mpr ⟨other, member, same⟩)
        rw [Function.update_of_ne apart]
        exact ways other member

-- The second pass. Each instance is told as it went with both its hooks.
theorem Passage.destroys (audience : Heard first me base calls scope.registry) (suffix : base <:+ below) {warned : String → Option Cause}
    (distinct : (rest.map Prod.fst).Nodup) (aligned : known.length + rest.length = entries.length)
    (made : ∀ one ∈ rest, first.Hooked calls scope one)
    (here : Stood first me base system ⟨.tear ⟨scope, entries, .destroy, rest, failures, known ++ flags warned rest⟩, below⟩ done)
    (onward : ∀ after (pass : String → Episode C × List (Item C)) failed, Stood first me base after
      ⟨.tear ⟨scope, entries, .destroy, [], failures ++ failing scope .destroy (fun key => (pass key).1.cause .destroy) rest, failed⟩, below⟩
      (done ++ rest.flatMap fun one => (pass one.1).1.destroyed scope (warned one.1) (pass one.1).2 one) →
      (∀ one ∈ rest, Went first me base scope one .destroy (pass one.1).1) → leads Q after) : leads Q system := by
  induction rest generalizing system failures known done with
  | nil => exact onward system (fun _ => ⟨⟨.back .done, []⟩, []⟩) _ (by simpa [failing] using here) nofun
  | cons one rest ih =>
    obtain ⟨key, entry⟩ := one
    obtain ⟨new, distinct⟩ : key ∉ rest.map Prod.fst ∧ _ := List.nodup_cons.mp distinct
    obtain ⟨hooked, others⟩ := List.forall_mem_cons.mp made
    have beside : known.length + 1 + rest.length = entries.length := by rw [← aligned, List.length_cons]; omega
    have apart : ∀ other ∈ rest, other.1 ≠ key := fun other member same => new (List.mem_map.mpr ⟨other, member, same⟩)
    refine passage.attends path suffix hooked here fun back episode returned went => ?_
    refine passage.sure returned (fun _ same => suffix_ne suffix (congrArg Thread.frames same)) (exit_busy _)
      (fun _ _ => next_hooked.trans (congrArg some (hooked_destroyed beside))) fun after there => ?_
    refine passage.tells audience suffix there fun told heard there => ?_
    refine passage.silent there (fun _ same => suffix_ne suffix (congrArg Thread.frames same)) rfl (fun _ => rfl) fun again there => ?_
    have split {more : List Bool} : known ++ ((warned key).isSome || (episode.cause .destroy).isSome) :: more =
        known ++ [(warned key).isSome || (episode.cause .destroy).isSome] ++ more := by simp
    have there := split ▸ there
    refine ih distinct (by simpa using beside) others there fun last pass failed stood ways => ?_
    refine onward last (Function.update pass key (episode, heard)) failed ?_ ?_
    · rw [update_each fun visit : Episode C × List (Item C) => visit.1.cause .destroy, failing_first new,
        pass_first (fun (visit : Episode C × List (Item C)) one => visit.1.destroyed scope (warned one.1) visit.2 one) new]
      simpa [Episode.destroyed, Phase.call, Episode.cause] using stood
    · refine List.forall_mem_cons.mpr ⟨?_, fun other member => ?_⟩
      · rw [Function.update_self]
        exact went
      · rw [Function.update_of_ne (apart other member)]
        exact ways other member

theorem Passage.tears (audience : Heard first me base calls scope.registry) (suffix : base <:+ below)
    (distinct : (entries.map Prod.fst).Nodup) (made : ∀ one ∈ entries, first.Hooked calls scope one)
    (here : Stood first me base system ⟨.tear (.begin scope entries), below⟩ done)
    (onward : ∀ after (course : Course C) heard,
      Stood first me base after ⟨.back (.failures (course.verdict.failures scope entries)), below⟩ (done ++ course.trace heard scope entries) →
      (∀ one ∈ entries, ∀ phase, Went first me base scope one phase (course one.1 phase)) → leads Q after) : leads Q system := by
  have away (teardown : Teardown) (exit : Exit C) : Thread.mk (.tear teardown) below ≠ ⟨exit.focus, base⟩ := by
    intro same
    cases exit <;> cases same
  have here : Stood first me base system
      ⟨.tear ⟨scope, entries, .beforeDestroy, entries, [], [] ++ List.replicate entries.length false⟩, below⟩ done := here
  refine passage.warns path suffix distinct (Nat.zero_add _) made here fun between warned there warnings => ?_
  refine passage.silent there (away _) rfl (fun _ => rfl) fun between there => ?_
  let causes : String → Option Cause := fun key => (warned key).cause .beforeDestroy
  have turned : Stood first me base between
      ⟨.tear ⟨scope, entries, .destroy, entries, failing scope .beforeDestroy causes entries, [] ++ flags causes entries⟩, below⟩ _ := there
  refine passage.destroys path audience suffix distinct (Nat.zero_add _) made turned fun later deaths failed there ways => ?_
  refine passage.silent there (away _) rfl (fun _ => rfl) fun last there => ?_
  let course : Course C
    | key, .beforeDestroy => warned key
    | key, .destroy => (deaths key).1
  refine onward last course (fun key => (deaths key).2) (by rw [List.append_assoc] at there; exact there) ?_
  rintro one member (_ | _)
  · exact warnings one member
  · exact ways one member

end

theorem Passage.concludes (passage : Passage first me base calls leads) (audience : Heard first me base calls scope.registry) (suffix : base <:+ below)
    (here : Stood first me base system ⟨.back (.failures failures), .torn scope :: below⟩ done)
    (onward : ∀ after told, Stood first me base after ⟨.back (.ofFailures failures), below⟩
      (done ++ .emitted scope.registry (.ended scope.id failures.length) :: told) → leads Q after) : leads Q system := by
  have away (focus : Focus C) (frame : Frame C) (exit : Exit C) : Thread.mk focus (frame :: below) ≠ ⟨exit.focus, base⟩ :=
    fun same => suffix_ne suffix (congrArg Thread.frames same)
  refine passage.silent here (away _ _) rfl (fun _ => rfl) fun later there => ?_
  refine passage.changing there (fun exit same => by cases exit <;> cases same) rfl (fun _ => rfl) fun later there => ?_
  refine passage.changing there (fun exit same => by cases exit <;> cases same) rfl (fun _ => rfl) fun later there => ?_
  refine passage.tells audience suffix there fun later told there => ?_
  refine passage.silent there (away _ _) rfl (fun _ => rfl) fun later there => ?_
  exact passage.changing there (fun exit same => by cases exit <;> cases same) rfl (fun _ => rfl) fun last there => onward last told there

theorem outcome_returns (outcome : Outcome) : Returns first me base outcome.code := by
  intro system frame below _ running _
  obtain ⟨back, _, inner, answers, _⟩ := straight_stretch running (outcome.straight me frame below)
  exact ⟨back, inner, outcome.exit, answers⟩

theorem went_outcome {episode : Episode C} {outcome : Outcome} {made : Instance C} (went : Went first me base scope one phase episode)
    (found : first.world.instance? one.2.object = some made) (coded : made.hooks.code (phase.call scope one.2.object) = outcome.code) :
    episode = ⟨outcome.exit, []⟩ := by
  obtain ⟨called, back, teardown, below, there, _, same, _, running, inner, answers, history⟩ := went
  cases found.symm.trans same
  rw [coded] at running
  obtain ⟨exit, silent⟩ := straight_answers running (outcome.straight me _ below) inner answers
  have nothing : episode.inside = [] := List.append_cancel_left (history.symm.trans silent)
  obtain ⟨_, _⟩ := episode
  cases exit
  cases nothing
  rfl

structure Report (first : System C) (me : ThreadId) (base : List (Frame C)) (scope : ScopeRef) (entries : List (String × Entry))
    (course : Course C) (failures : List Failure) : Prop where
  hooks : ∀ one ∈ entries, ∀ phase, Went first me base scope one phase (course one.1 phase)
  outcomes : ∀ one ∈ entries, ∀ (phase : Phase) outcome made,
    first.world.instance? one.2.object = some made →
    made.hooks.code (phase.call scope one.2.object) = Outcome.code outcome → course one.1 phase = ⟨outcome.exit, []⟩
  -- one failure for each hook that failed, pass by pass
  failed : failures = course.verdict.failures scope entries
  success : failures = [] ↔ ∀ one ∈ entries, ∀ phase, course.verdict one.1 phase = none
  -- a key is among the failed ones as often as its hooks failed
  keys : ∀ one ∈ entries, (failedKeys failures).count one.1 =
    (course.verdict one.1 .beforeDestroy).toList.length + (course.verdict one.1 .destroy).toList.length
  -- one record for each failure, one event for each key
  records : (course.bare.trace (fun _ => []) scope entries).filterMap Item.hookFailure? = failures
  events : (course.bare.trace (fun _ => []) scope entries).filterMap Item.announced? =
    entries.map fun one => (scope.registry, .fate scope.id one.1 !(failedKeys failures).contains one.1)

theorem reported {course : Course C} (distinct : (entries.map Prod.fst).Nodup)
    (ways : ∀ one ∈ entries, ∀ phase, Went first me base scope one phase (course one.1 phase)) :
    Report first me base scope entries course (course.verdict.failures scope entries) where
  hooks := ways
  outcomes one member phase _ _ found coded := went_outcome (ways one member phase) found coded
  failed := rfl
  success := Verdict.failures_nil
  keys _ member := Verdict.failed_count distinct member
  records := Course.bare_records
  events := Course.bare_events

theorem stock_distinct {stored : List (String × InstanceRef)} (stocked : stock entries = stored.reverse) (keys : (stored.map Prod.fst).Nodup) :
    (entries.map Prod.fst).Nodup := by
  have same : entries.map Prod.fst = (stored.map Prod.fst).reverse := by
    rw [← List.map_reverse, ← stocked, stock, List.map_map]
    rfl
  rw [same]
  exact (List.reverse_perm _).nodup_iff.mpr keys

section
variable {store : Store} {next : Reply C → Code C} {frames : List (Frame C)}

theorem Passage.byHand (path : Runs (initial program memory origin) first) (passage : Passage first me (.user next :: frames) calls leads)
    (running : first.threads[me]? = some ⟨.run (.call (.destroyAll scope store) next), frames⟩)
    (audience : Heard first me (.user next :: frames) calls scope.registry) (distinct : (store.drainNewestFirst.1.map Prod.fst).Nodup)
    (made : ∀ one ∈ store.drainNewestFirst.1, first.Hooked calls scope one) :
    leads (fun after => ∃ course heard, (∀ one ∈ store.drainNewestFirst.1, ∀ phase,
        Went first me (.user next :: frames) scope one phase (course one.1 phase)) ∧
      Stood first me (.user next :: frames) after
        ⟨.back (.failures (Course.verdict course |>.failures scope store.drainNewestFirst.1)), .user next :: frames⟩
        (first.world.doneBy me ++ .called (.destroyAll scope store) :: course.trace heard scope store.drainNewestFirst.1)) first := by
  have here : Stood first me (.user next :: frames) first ⟨.run (.call (.destroyAll scope store) next), frames⟩ (first.world.doneBy me) :=
    ⟨.refl, running, rfl⟩
  refine passage.sure here (fun exit same => by cases exit <;> cases same) rfl (fun _ _ => rfl) fun after there => ?_
  refine passage.tears path audience (List.suffix_refl _) distinct made there fun last course heard there ways => ?_
  rw [List.append_assoc] at there
  exact passage.here ⟨course, heard, ways, there⟩

theorem Passage.ending (path : Runs (initial program memory origin) first) (passage : Passage first me base calls leads)
    (running : first.threads[me]? = some ⟨.tear (.begin scope entries), .torn scope :: base⟩)
    (audience : Heard first me base calls scope.registry) (distinct : (entries.map Prod.fst).Nodup)
    (made : ∀ one ∈ entries, first.Hooked calls scope one) :
    leads (fun after => ∃ course heard told, (∀ one ∈ entries, ∀ phase, Went first me base scope one phase (course one.1 phase)) ∧
      Stood first me base after ⟨.back (.ofFailures (Course.verdict course |>.failures scope entries)), base⟩
        (first.world.doneBy me ++ course.trace heard scope entries ++
          .emitted scope.registry (.ended scope.id (course.verdict.failures scope entries).length) :: told)) first := by
  have here : Stood first me base first ⟨.tear (.begin scope entries), .torn scope :: base⟩ (first.world.doneBy me) := ⟨.refl, running, rfl⟩
  refine passage.tears path audience (List.suffix_cons _ _) distinct made here fun later course heard there ways => ?_
  refine passage.concludes audience (List.suffix_refl _) there fun last told there => ?_
  exact passage.here ⟨course, heard, told, ways, there⟩

end

theorem torn_emptied (path : Runs (initial program memory origin) first)
    (running : first.threads[me]? = some ⟨.tear (.begin scope entries), .torn scope :: below⟩) :
    stock entries = (first.world.stored scope).reverse ∧ (first.life scope).Emptied := by
  have lived := runs_lived path scope
  have member : .tearing (.begin scope entries) ∈ (first.life scope).ends me := life_stage (by rw [posture_found running]; exact List.mem_cons_self)
  exact ⟨lived.content.taken me _ member _ rfl, lived.orderly.emptied (lived.orderly.only member) rfl⟩

theorem stays_bare (path : Runs (initial program memory origin) first) (emptied : (first.life scope).Emptied) (onward : Runs first last) :
    (last.world.cell scope).store = .empty :=
  (runs_lived (path.trans onward) scope).content.bare (Life.leads_emptied emptied (runs_leads path onward scope))

theorem answered_back {reply : Reply C} {answer : Exit C} (answered : last.threads[me]? = some ⟨answer.focus, base⟩)
    (running : last.threads[me]? = some ⟨.back reply, base⟩) : answer = .back reply := by
  have same : answer.focus = (Exit.back reply).focus := congrArg Thread.focus (Option.some.inj (answered.symm.trans running))
  exact exit_injective same

-- The failures that a teardown gives back, the records of them in the log, the events for its instances and the number that is
-- told with the end of the scope agree, whatever its hooks come to. By hand or with the end of a scope, every hook is called, and
-- if they all come back, so does the teardown.
theorem all_reports_agree (path : Runs (initial program memory origin) first) :
    (∀ me scope store stored next frames, first.threads[me]? = some ⟨.run (.call (.destroyAll scope store) next), frames⟩ →
      (first.world.scope? scope).isSome → store.Lists stored → (stored.map Prod.fst).Nodup →
      (∀ one ∈ stored, (first.world.instance? one.2).isSome) → Calm first me (.user next :: frames) scope.registry →
      stock store.drainNewestFirst.1 = stored.reverse ∧ store.drainNewestFirst.2.isEmpty = true ∧
      (∀ last answer, Awaits me (.user next :: frames) first last → last.threads[me]? = some ⟨Exit.focus answer, .user next :: frames⟩ →
        ∃ course heard failures, Report first me (.user next :: frames) scope store.drainNewestFirst.1 course failures ∧
          answer = .back (.failures failures) ∧ last.world.doneBy me =
            first.world.doneBy me ++ .called (.destroyAll scope store) :: course.trace heard scope store.drainNewestFirst.1) ∧
      ((∀ one ∈ store.drainNewestFirst.1, first.Hooked (Returns first me (.user next :: frames)) scope one) →
        Listens first me (.user next :: frames) (Returns first me (.user next :: frames)) scope.registry →
        ∃ last, Awaits me (.user next :: frames) first last ∧ last.Answered me (.user next :: frames))) ∧
    (∀ me scope entries base, first.threads[me]? = some ⟨.tear (.begin scope entries), .torn scope :: base⟩ → Calm first me base scope.registry →
      stock entries = (first.world.stored scope).reverse ∧
      (∀ last answer, Awaits me base first last → last.threads[me]? = some ⟨Exit.focus answer, base⟩ →
        ∃ course heard told failures, Report first me base scope entries course failures ∧ answer = .back (.ofFailures failures) ∧
          (last.world.cell scope).store = .empty ∧ last.world.doneBy me = first.world.doneBy me ++ course.trace heard scope entries ++
            .emitted scope.registry (.ended scope.id failures.length) :: told) ∧
      ((∀ one ∈ entries, first.Hooked (Returns first me base) scope one) → Listens first me base (Returns first me base) scope.registry →
        ∃ last, Awaits me base first last ∧ last.Answered me base)) ∧
    ∀ me base (outcome : Outcome), Returns first me base outcome.code := by
  have made {stored : List (String × InstanceRef)} {entries : List (String × Entry)} {scope : ScopeRef} (stocked : stock entries = stored.reverse)
      (there : ∀ one ∈ stored, (first.world.instance? one.2).isSome) : ∀ one ∈ entries, first.Hooked (fun _ => True) scope one := by
    intro one member
    have stands : (one.1, one.2.object) ∈ stock entries := List.mem_map.mpr ⟨one, member, rfl⟩
    obtain ⟨made, found⟩ := Option.isSome_iff_exists.mp (there _ (List.mem_reverse.mp (stocked ▸ stands)))
    exact ⟨made, found, fun _ => trivial⟩
  refine ⟨fun me scope store stored next frames running known lists keys there calm => ?_, fun me scope entries base running calm => ?_,
    fun _ _ => outcome_returns⟩
  · have stocked := lists.drained keys
    have distinct := stock_distinct stocked keys
    refine ⟨stocked, rfl, fun last answer waits answered => ?_, fun hooks listens => ?_⟩
    · have passage : Passage first me (.user next :: frames) (fun _ => True) _ := answered_passage ⟨answer, answered⟩
      have audience : Heard first me (.user next :: frames) (fun _ => True) scope.registry :=
        ⟨registry_known path known, calm, fun _ _ _ _ _ _ _ => trivial⟩
      obtain ⟨after, ⟨course, heard, ways, stood⟩, onward⟩ := passage.byHand path running audience distinct (made stocked there) waits
      cases awaits_done ⟨.back _, stood.running⟩ onward
      exact ⟨course, heard, _, reported distinct ways, answered_back answered stood.running, stood.history⟩
    · obtain ⟨last, course, heard, _, stood⟩ := returning_passage.byHand path running ⟨registry_known path known, calm, listens⟩ distinct hooks
      exact ⟨last, stood.came, .back _, stood.running⟩
  · obtain ⟨stocked, emptied⟩ := torn_emptied path running
    have distinct := stock_distinct stocked (runs_lived path scope).content.keys
    have known : scope.registry < first.world.registries.length := registry_known path (inactive_known emptied.1)
    refine ⟨stocked, fun last answer waits answered => ?_, fun hooks listens => ?_⟩
    · have passage : Passage first me base (fun _ => True) _ := answered_passage ⟨answer, answered⟩
      have audience : Heard first me base (fun _ => True) scope.registry := ⟨known, calm, fun _ _ _ _ _ _ _ => trivial⟩
      obtain ⟨after, ⟨course, heard, told, ways, stood⟩, onward⟩ :=
        passage.ending path running audience distinct (made stocked fun one => stored_instance path) waits
      cases awaits_done ⟨.back _, stood.running⟩ onward
      exact ⟨course, heard, told, _, reported distinct ways, answered_back answered stood.running,
        stays_bare path emptied waits.runs, stood.history⟩
    · obtain ⟨last, course, heard, told, _, stood⟩ := returning_passage.ending path running ⟨known, calm, listens⟩ distinct hooks
      exact ⟨last, stood.came, .back _, stood.running⟩

-- Both hooks of the one instance fail, the first with a panic.
def leavingHome : System ⟨Unit, Unit, Unit, Unit⟩ :=
  initial (fun _ => .done) () <| .call (.establish {}) fun _ => .call (.begin 0 ⟨.session, "a"⟩) fun _ =>
    .resolve ⟨⟨0, ⟨.session, "a"⟩, 0⟩, "only", "Only"⟩
      (fun _ => .built () ⟨fun _ => .done, fun _ => .panic ⟨"no"⟩, .fail (.words "never" [])⟩) fun _ =>
    .call (.finish 0 ⟨.session, "a"⟩) fun _ => .done

def unheard (system : System ⟨Unit, Unit, Unit, Unit⟩) : Bool :=
  (system.world.registries.all fun cell => cell.listener.isNone) &&
    match system.threads with
    | [⟨.unwind _, .delivering _ _ :: _⟩] => false
    | _ => true

theorem unheard_home {system : System ⟨Unit, Unit, Unit, Unit⟩} (onward : Runs leavingHome system) :
    system.threads.length = 1 ∧ unheard system = true := by
  have watches : watched unheard 80 leavingHome = true := by decide +kernel
  exact watched_runs watches onward

theorem home_left : ∃ last, Awaits 0 [.ended 0 ⟨0, ⟨.session, "a"⟩, 0⟩, .user fun _ => .done] (run 33 leavingHome) last ∧
    last.threads[0]? = some ⟨.back (.fault (.destruction [.hook ⟨.session, "a"⟩ "only" .beforeDestroy (.words "hook panicked: no" []),
      .hook ⟨.session, "a"⟩ "only" .destroy (.words "never" [])])), [.ended 0 ⟨0, ⟨.session, "a"⟩, 0⟩, .user fun _ => .done]⟩ := by
  have path := run_runs 33 leavingHome
  obtain ⟨_, ends, outcomes⟩ := all_reports_agree path
  have calm : Calm (run 33 leavingHome) 0 [.ended 0 ⟨0, ⟨.session, "a"⟩, 0⟩, .user fun _ => .done] 0 := by
    intro system panic event below waits _ running
    obtain ⟨single, silent⟩ := unheard_home (path.trans waits.runs)
    obtain ⟨thread, only⟩ := List.length_eq_one_iff.mp single
    rw [only] at running
    cases Option.some.inj running
    simp [unheard, only] at silent
  have listens (calls : Code _ → Prop) : Listens (run 33 leavingHome) 0 [.ended 0 ⟨0, ⟨.session, "a"⟩, 0⟩, .user fun _ => .done] calls 0 := by
    intro system cell listener waits found listening
    have silent := (unheard_home (path.trans waits.runs)).2
    simp only [unheard, Bool.and_eq_true, List.all_eq_true] at silent
    have none := silent.1 cell (List.mem_of_getElem? found)
    rw [listening] at none
    cases none
  obtain ⟨_, reports, comes⟩ := ends 0 ⟨0, ⟨.session, "a"⟩, 0⟩ [("only", ⟨.kept ⟨0, ⟨.session, "a"⟩, 0⟩ 0, "Only"⟩)]
    [.ended 0 ⟨0, ⟨.session, "a"⟩, 0⟩, .user fun _ => .done] rfl calm
  obtain ⟨last, waits, answer, answered⟩ := comes (fun one member => by
    cases List.mem_singleton.mp member
    refine ⟨_, rfl, fun phase => ?_⟩
    cases phase
    · exact outcomes 0 _ (.panics ⟨"no"⟩)
    · exact outcomes 0 _ (.refuses (.words "never" []))) (listens _)
  obtain ⟨course, heard, told, failures, report, same, _⟩ := reports last answer waits answered
  have warned := report.outcomes _ (List.mem_singleton.mpr rfl) .beforeDestroy (.panics ⟨"no"⟩) _ rfl rfl
  have gone := report.outcomes _ (List.mem_singleton.mpr rfl) .destroy (.refuses (.words "never" [])) _ rfl rfl
  refine ⟨last, waits, ?_⟩
  rw [answered, same, report.failed]
  simp [Verdict.failures, failing, Course.verdict, warned, gone, Episode.cause, Outcome.exit, Exit.blame?,
    Exit.focus, Reply.ofFailures]

end System
end Lifespan
