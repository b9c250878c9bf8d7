import Lifespan.Scenario.Answer

-- Scenarios as user code. What follows a line is handed on to it, so a line can stop the
-- lines after it, and a panic that a call comes back with stays with the line that called.
namespace Lifespan.Scenario

abbrev Script := Code client

-- How a single line came out; an error is what a line that insists on success fails with.
inductive Outcome
  | answered (answer : Answer) (error : Option Cause)
  | panicked (panic : Panic)

abbrev Outcome.fine (answer : Answer) : Outcome := .answered answer none

structure Scene where
  self : Option ScopeRef
  top : Bool

def Scene.inner (self : Option ScopeRef) : Scene := ⟨self, false⟩

def ask (op : Op client) (next : Outcome → Script) (onReply : Reply client → Script) : Script :=
  .call op fun
    | .panicked panic => next (.panicked panic)
    | reply => onReply reply

-- A registry is made when it is first used.
def withRegistry (name : String) (next : RegistryRef → Script) : Script :=
  .access id fun memory =>
    match memory.registries.get? name with
    | some registry => next registry
    | none =>
      .call (.establish {}) fun
        | .registry registry =>
          .access (fun memory => { memory with registries := memory.registries.put name registry }) fun _ =>
            next registry
        | _ => .done

def withHandle (scene : Scene) (handle : Handle) (next : Outcome → Script) (found : ScopeRef → Script) : Script :=
  match handle with
  | .self => scene.self.elim (next (.fine .noHandle)) found
  | .named name => .access id fun memory => (memory.handles.get? name).elim (next (.fine .noHandle)) found

def withState (scope : ScopeRef) (next : State → Script) : Script :=
  .call (.state scope) fun
    | .state state => next state
    | _ => .done

def showScope (binds : Option String) (scope : ScopeRef) (next : ShownScope → Script) : Script :=
  withState scope fun state =>
    .access
      (fun memory =>
        let memory := memory.haveShown scope
        { memory with handles := binds.elim memory.handles (memory.handles.put · scope) })
      fun memory => next ⟨(memory.haveShown scope).number scope, scope.id, state⟩

def showObject (quiet : Bool) (species : Species) (object : InstanceRef) (next : ShownObject → Script) : Script :=
  .call (.contents object) fun
    | .contents value =>
      if quiet then next ⟨species, value, none⟩
      else .access (·.hit object) fun memory => next ⟨species, value, (memory.hit object).hits.get? object⟩
    | _ => .done

def answerScope (binds : Option String) (next : Outcome → Script) : Reply client → Script
  | .scope scope => showScope binds scope fun shown => next (.fine (.scope shown))
  | .fault fault => next (.answered (.fault fault) (some (.fault fault)))
  | _ => next (.fine .nothing)

def answerObject (quiet : Bool) (species : Species) (next : Outcome → Script) : Reply client → Script
  | .panicked panic => next (.panicked panic)
  | .object object => showObject quiet species object fun shown => next (.fine (.object shown))
  | .fault fault => next (.answered (.fault fault) (some (.fault fault)))
  | _ => next (.fine .nothing)

def answerPlain : Reply client → Outcome
  | .done => .fine .ok
  | .flag value => .fine (.flag value)
  | .number value => .fine (.number value)
  | .names values => .fine (.names values)
  | .contents value => .fine (.document value)
  | .settings settings => .fine (.settings settings)
  | .state state => .fine (.text state.name)
  | .fault fault => .answered (.fault fault) (some (.fault fault))
  | .failures [] => .fine .ok
  | .failures failures => .answered (.failures failures) (some (.shutdown failures))
  | .failed cause => .answered (.refused cause) (some cause)
  | _ => .fine .nothing

def askPlain (op : Op client) (next : Outcome → Script) : Script :=
  ask op next fun reply => next (answerPlain reply)

def withContext (registry context : String) (next : RegistryRef → Context → Script) : Script :=
  .access id fun memory => withRegistry registry fun registry => next registry (memory.context context)

def idleHooks : Hooks Script := ⟨fun _ => .done, fun _ => .done, .done⟩

def Species.declared (species : Species) (kind : Kind) : Declared client where
  type := species.name
  kind := kind
  factory := .note (.build (.text species.label)) (.built (.text species.label) idleHooks)

def quietly : Ending → Script
  | .panicked panic => .panic panic
  | _ => .done

def openly : Ending → Script
  | .finished => .done
  | .failed cause => .fail cause
  | .panicked panic => .panic panic

def hookLines (note : ScopeId → State → Note) (lines : Scene → (Ending → Script) → Script) (scope : ScopeRef) : Script :=
  withState scope fun state => .note (note scope.id state) (lines (.inner (some scope)) quietly)

def closeGuard (guard : Guard) (finish : Finish) (next : Outcome → Script) : Script :=
  .note .closing
    (match finish with
    | .ended => askPlain (.endGuard guard) next
    | .dropped => askPlain (.dropGuard guard) next)

-- The lines of a guard, then its end. Lines that panic leave it to the unwinding.
def guardLines (guard : Guard) (finish : Finish) (next : Outcome → Script) : Ending → Script
  | .finished => closeGuard guard finish next
  | .failed cause =>
    closeGuard guard finish fun
      | .panicked panic => next (.panicked panic)
      | _ => next (.answered (.failed cause) (some cause))
  | .panicked panic => .call (.dropGuard guard) fun _ => next (.panicked panic)

def heard (listener : Nat) (rules : List Rule) (bodies : List Script) (name : Option String) (event : Event) : Script :=
  .note (.event event.text name)
    (.access
      (fun memory => (memory.applicable listener rules event.text).elim memory (memory.useRule listener))
      fun memory =>
        ((memory.applicable listener rules event.text).bind fun index => bodies[index]?).getD .done)

def answerThread (next : Outcome → Script) : Reply client → Script
  | .threads ((thread, ending) :: _) => next (.fine (.thread thread ending))
  | _ => next (.fine .nothing)

def answerThreads (next : Outcome → Script) : Reply client → Script
  | .threads endings => next (.fine (.threads endings))
  | _ => next (.fine .nothing)

-- What a line does after its outcome: it is written down, and only an insisting line or a
-- panic that nobody stopped keeps the lines after it from running.
def settle (scene : Scene) (name : Document) (insist : Bool) (rest : Script) (stop : Ending → Script) :
    Outcome → Script
  | .answered answer error =>
    .note (if scene.top then .answered answer else .did name answer)
      (match insist, error with
      | true, some cause => stop (.failed cause)
      | _, _ => rest)
  | .panicked panic =>
    .note (if scene.top then .answered (.panicked panic.message) else .did name (.panicked panic.message))
      (if insist then stop (.panicked panic) else rest)

def malformed (scene : Scene) (next : Outcome → Script) : List Handle → Script
  | [] => next (.fine .badInput)
  | handle :: rest => withHandle scene handle next fun _ => malformed scene next rest

end Lifespan.Scenario
