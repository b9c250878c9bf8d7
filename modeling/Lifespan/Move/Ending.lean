import Lifespan.Move.Destroying

-- Ending one scope, by whoever takes it out of its active state, and ending all of them.
namespace Lifespan

def Reply.ofFailures {C : Client} : List Failure → Reply C
  | [] => .done
  | one :: more => .fault (.destruction (one :: more))

namespace Move
variable {C : Client}

def find (world : World C) (registry : RegistryRef) (id : ScopeId) (frames : List (Frame C)) : Move C :=
  match world.registered registry id with
  | none => silent (.back (.fault (.unknown id))) frames
  | some scope => silent (.retire scope) (.ended registry scope :: frames)

-- Only one caller takes a scope out of its active state.
def retire (world : World C) (scope : ScopeRef) (frames : List (Frame C)) : Option (Move C) :=
  (world.scope? scope).map fun cell =>
    if cell.isActive then changing (.retire scope) (.exclude scope) frames
    else silent (.back (.fault (.unknown scope.id))) frames

def exclude (world : World C) (scope : ScopeRef) (frames : List (Frame C)) : Option (Move C) := do
  let cell ← world.scope? scope
  if cell.sharing.isEmpty && cell.exclusive.isNone then some (changing (.exclude scope) (.empty scope) frames)
  else none

def empty (world : World C) (scope : ScopeRef) (frames : List (Frame C)) : Option (Move C) :=
  (world.scope? scope).map fun cell =>
    changing (.empty scope) (.clear scope cell.store.drainNewestFirst.1) frames

def clear (scope : ScopeRef) (entries : List (String × Entry)) (frames : List (Frame C)) : Move C :=
  changing (.clearGates scope) (.tear (.begin scope entries)) (.torn scope :: frames)

def settle (scope : ScopeRef) (failures : List Failure) (frames : List (Frame C)) : Move C :=
  changing (.clearAttributes scope) (.mark scope failures) frames

def mark (scope : ScopeRef) (failures : List Failure) (frames : List (Frame C)) : Move C :=
  changing (.mark scope) (.emit scope.registry (.ended scope.id failures.length)) (.closed scope failures :: frames)

-- A refusal to end changes nothing; after anything else the registry lets the scope go.
def ended (registry : RegistryRef) (scope : ScopeRef) (reply : Reply C) (frames : List (Frame C)) : Move C :=
  match reply with
  | .fault (.unknown id) => silent (.back (.fault (.unknown id))) frames
  | reply => silent (.forget registry scope reply) frames

-- A guard that goes away has nobody to report to but the log. If the scope was ended by
-- someone else there is nothing to report.
def released (guard : Guard) (reply : Reply C) (frames : List (Frame C)) : Move C :=
  match reply with
  | .fault (.unknown _) => silent (.back .done) frames
  | .fault fault => ⟨.still, [.logged (.guardFailed guard.scope.id fault)], .back .done, frames⟩
  | _ => silent (.back .done) frames

def gather (world : World C) (registry : RegistryRef) (frames : List (Frame C)) : Option (Move C) :=
  (world.registries[registry]?).map fun cell =>
    let remaining := world.leftovers registry
    ⟨.still, if cell.settings.warnOnLeftoverScopes then remaining.map (.logged ∘ .stillAlive) else [],
      .emit registry (.shutdown remaining.length), .sweeping registry remaining [] :: frames⟩

-- A scope that somebody else has ended in the meantime adds nothing.
def gathered (failures : List Failure) : Reply C → List Failure
  | .fault (.destruction more) => failures ++ more
  | _ => failures

def sweep (registry : RegistryRef) (rest : List ScopeId) (failures : List Failure) (frames : List (Frame C)) : Move C :=
  match rest with
  | [] => silent (.back (.failures failures)) frames
  | id :: rest => silent (.find registry id) (.sweeping registry rest failures :: frames)

def dropped (reply : Reply C) (frames : List (Frame C)) : Move C :=
  match reply with
  | .failures (failure :: failures) => ⟨.still, [.logged (.dropFailed (failure :: failures))], .back .done, frames⟩
  | _ => silent (.back .done) frames

end Move
end Lifespan
