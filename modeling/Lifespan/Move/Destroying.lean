import Lifespan.Move

-- Tearing down what a store held: all before-destroy hooks come before the first destroy hook,
-- both times newest first. A hook that failed is recorded and passed over; the others run all
-- the same.
namespace Lifespan

namespace Teardown

def begin (scope : ScopeRef) (entries : List (String × Entry)) : Teardown :=
  ⟨scope, entries, .beforeDestroy, entries, [], List.replicate entries.length false⟩

def place (teardown : Teardown) : Nat := teardown.entries.length - teardown.rest.length - 1

def record (teardown : Teardown) (failures : List Failure) : Teardown :=
  { teardown with
    failures := teardown.failures ++ failures
    failed := if failures.isEmpty then teardown.failed else teardown.failed.set teardown.place true }

def outcome (teardown : Teardown) (key : String) : Event :=
  if teardown.failed.getD teardown.place false then .destroyFailed teardown.scope.id key
  else .destroyed teardown.scope.id key

end Teardown

namespace Move
variable {C : Client}

def tear (world : World C) (teardown : Teardown) (frames : List (Frame C)) : Option (Move C) :=
  match teardown.phase, teardown.rest with
  | .beforeDestroy, [] => some (silent (.tear { teardown with phase := .destroy, rest := teardown.entries }) frames)
  | .destroy, [] => some (silent (.back (.failures teardown.failures)) frames)
  | .beforeDestroy, (key, entry) :: rest =>
    callHook world (.before entry.object teardown.scope) (.hooked { teardown with rest } key :: frames)
  | .destroy, (key, entry) :: rest =>
    callHook world (.destroy entry.object) (.hooked { teardown with rest } key :: frames)

-- Why a hook counts as failed, if it does. Only a destroy hook can refuse; any hook can panic.
def hookCause? (phase : Phase) : Exit C → Option Cause
  | .unwind panic => some panic.asHookCause
  | .back (.failed cause) => if phase = .destroy then some cause else none
  | .back _ => none

def hooked (teardown : Teardown) (key : String) (exit : Exit C) (frames : List (Frame C)) : Move C :=
  let failures := (hookCause? teardown.phase exit).toList.map (Failure.hook teardown.scope.id key teardown.phase)
  let after := teardown.record failures
  match teardown.phase with
  | .beforeDestroy => ⟨.still, failures.map (.logged ∘ .hookFailed), .tear after, frames⟩
  | .destroy =>
    ⟨.still, failures.map (.logged ∘ .hookFailed), .emit teardown.scope.registry (after.outcome key), .reported after :: frames⟩

end Move
end Lifespan
