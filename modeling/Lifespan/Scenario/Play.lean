import Lifespan.Scenario.Race

-- Lines as user code. What follows a line is handed on to it, so a line can stop the lines
-- after it, and what a hook, a factory or a thread runs is made of its own lines.
namespace Lifespan.Scenario

mutual
def playLines (scene : Scene) : List Line → (Ending → Script) → Script
  | [], stop => stop .finished
  | line :: rest, stop => playLine scene line (playLines scene rest stop) stop

def playLine (scene : Scene) : Line → Script → (Ending → Script) → Script
  | .mk _ _ _ _ (.fail cause), _, stop =>
    if scene.top then .note (.answered (.failed cause)) (stop (.failed cause)) else stop (.failed cause)
  | .mk _ _ _ _ (.panic text panic), _, stop =>
    if scene.top then .note (.answered (.panicked (some text))) (stop (.panicked panic))
    else stop (.panicked panic)
  | .mk name insist binds quiet action, rest, stop =>
    play scene binds quiet action (settle scene name insist rest stop)

def play (scene : Scene) (binds : Option String) (quiet : Bool) : Action → (Outcome → Script) → Script
  | .malformed handles, next => malformed scene next handles
  | .fail _, next | .panic .., next => next (.fine .nothing)
  | .newRegistry name settings, next =>
    .access id fun memory =>
      if memory.registries.contains name then next (.fine .badInput)
      else
        .call (.establish settings) fun
          | .registry registry =>
            .access (fun memory => { memory with registries := memory.registries.put name registry }) fun _ =>
              next (.fine (.settings settings))
          | _ => .done
  | .settings registry, next => withRegistry registry fun registry => askPlain (.settings registry) next
  | .dropRegistry name, next =>
    if scene.top then
      .access (fun memory => { memory with registries := memory.registries.erase name }) fun memory =>
        match memory.registries.get? name with
        | none => next (.fine (.flag false))
        | some registry => ask (.drop registry) next fun _ => next (.fine (.flag true))
    else next (.fine .badInput)
  | .setCallback registry name rules, next =>
    withRegistry registry fun registry =>
      .access (fun memory => { memory with listeners := memory.listeners + 1 }) fun memory =>
        .listen registry (heard memory.listeners rules (playRules rules) name) (next (.fine .ok))
  | .clearCallback registry, next => withRegistry registry fun registry => askPlain (.silence registry) next
  | .begin registry id, next =>
    withRegistry registry fun registry => ask (.begin registry id) next (answerScope binds next)
  | .beginIn registry context identity, next =>
    withRegistry registry fun registry =>
      .access id fun memory =>
        ask (.begin registry identity) next fun reply =>
          .access
            (·.setContext context
              (match reply with
              | .scope scope => (memory.context context).bind scope
              | _ => memory.context context))
            fun _ => answerScope binds next reply
  | .guarded registry id finish lines, next =>
    withRegistry registry fun registry =>
      ask (.begin registry id) next fun
        | .scope scope =>
          showScope binds scope fun shown =>
            withState scope fun state =>
              .note (.guarding shown (state = .active))
                (playLines (.inner (some scope)) lines (guardLines ⟨registry, scope⟩ finish next))
        | reply => next (answerPlain reply)
  | .finish registry id, next => withRegistry registry fun registry => askPlain (.finish registry id) next
  | .lookup registry id, next =>
    withRegistry registry fun registry => ask (.lookup registry id) next (answerScope binds next)
  | .require registry id, next =>
    withRegistry registry fun registry => ask (.require registry id) next (answerScope binds next)
  | .current registry context kind, next =>
    withContext registry context fun registry context =>
      ask (.current registry context kind) next (answerScope binds next)
  | .requireCurrent registry context kind, next =>
    withContext registry context fun registry context =>
      ask (.requireCurrent registry context kind) next (answerScope binds next)
  | .singleton registry context kind making, next =>
    withContext registry context fun registry context =>
      .singleton registry context kind making.species.name (playFactory none false (playHooks making) making)
        (answerObject quiet making.species next)
  | .singletonIf registry context kind species, next =>
    withContext registry context fun registry context =>
      .singletonIf registry context kind species.name (answerObject quiet species next)
  | .declared registry context species kind, next =>
    withContext registry context fun registry context =>
      (species.declared kind).get registry context (answerObject quiet species next)
  | .declaredIf registry context species kind, next =>
    withContext registry context fun registry context =>
      (species.declared kind).getIf registry context (answerObject quiet species next)
  | .declaredIsInstantiated registry context species kind, next =>
    withContext registry context fun registry context =>
      (species.declared kind).isInstantiated registry context fun reply => next (answerPlain reply)
  | .activeCount registry kind, next => withRegistry registry fun registry => askPlain (.activeCount registry kind) next
  | .ids registry kind, next => withRegistry registry fun registry => askPlain (.ids registry kind) next
  | .shutdown registry, next => withRegistry registry fun registry => askPlain (.shutdown registry) next
  | .info handle, next =>
    withHandle scene handle next fun scope =>
      showScope binds scope fun shown =>
        .call (.count scope) fun count =>
          .call (.keys scope) fun keys =>
            .call (.attributeNames scope) fun attributes =>
              match count, keys, attributes with
              | .number count, .names keys, .names attributes =>
                next (.fine (.profile ⟨shown, count, keys, attributes⟩))
              | _, _, _ => .done
  | .debug handle, next =>
    withHandle scene handle next fun scope =>
      withState scope fun state => next (.fine (.text (inspectedScope scope.id state)))
  | .same one other, next =>
    withHandle scene one next fun one =>
      withHandle scene other next fun other => next (.fine (.same (one == other) (one.id == other.id)))
  | .get handle form making, next =>
    withHandle scene handle next fun scope =>
      .resolve ⟨scope, form.key?.getD making.species.name, making.species.name⟩
        (fun scope =>
          playFactory (if form.knowsScope then some scope else none) form.isStrict (playHooks making) making)
        (answerObject quiet making.species next)
  | .getIf handle key species, next =>
    withHandle scene handle next fun scope =>
      ask (.peek scope (key.getD species.name) species.name) next (answerObject quiet species next)
  | .isInstantiated handle species, next =>
    withHandle scene handle next fun scope => askPlain (.holds scope species.name) next
  | .keys handle, next => withHandle scene handle next fun scope => askPlain (.keys scope) next
  | .count handle, next => withHandle scene handle next fun scope => askPlain (.count scope) next
  | .setAttribute handle name type value, next =>
    withHandle scene handle next fun scope => askPlain (.setAttribute scope name ⟨type, value⟩) next
  | .getAttribute handle name type, next =>
    withHandle scene handle next fun scope => askPlain (.getAttribute scope name type) next
  | .removeAttribute handle name, next =>
    withHandle scene handle next fun scope => askPlain (.removeAttribute scope name) next
  | .attributeNames handle, next => withHandle scene handle next fun scope => askPlain (.attributeNames scope) next
  | .bindContext handle context, next =>
    withHandle scene handle next fun scope =>
      .access (fun memory => memory.setContext context ((memory.context context).bind scope)) fun memory =>
        answerScope binds next (((memory.context context).bound scope.id.kind).elim .nothing .scope)
  | .boundInContext context kind, next =>
    .access id fun memory => answerScope binds next (((memory.context context).bound kind).elim .nothing .scope)
  | .clearContext context kind, next =>
    .access (fun memory => memory.setContext context ((memory.context context).clear kind)) fun memory =>
      answerScope binds next (((memory.context context).bound kind).elim .nothing .scope)
  | .clearWholeContext context, next => .access (·.setContext context .empty) fun _ => next (.fine .ok)
  | .copyContext source target, next =>
    .access (fun memory => memory.setContext target (memory.context source)) fun _ => next (.fine .ok)
  | .storeInsert name key source making, next =>
    let insert (object : InstanceRef) : Script :=
      .access
        (fun memory =>
          memory.setStore name (((memory.store name).insert key ⟨object, making.species.name⟩).getD (memory.store name)))
        fun memory => next (.fine (.flag ((memory.store name).insert key ⟨object, making.species.name⟩).isSome))
    match source with
    | none =>
      .make making.species.name making.value (playHooks making) fun
        | .object object => insert object
        | _ => .done
    | some source =>
      .access id fun memory =>
        (((memory.store name).get? source).bind (·.downcast making.species.name)).elim (next (.fine .nothing)) insert
  | .storeGet name key species, next =>
    .access id fun memory =>
      match (memory.store name).get? key with
      | none => next (.fine .nothing)
      | some entry =>
        match entry.downcast species.name with
        | none => next (.fine (.entry entry.type none))
        | some object => showObject quiet species object fun shown => next (.fine (.entry entry.type (some shown)))
  | .storeContains name key, next => .access id fun memory => next (.fine (.flag ((memory.store name).contains key)))
  | .storeInfo name, next => .access id fun memory => next (.fine (.stock (memory.store name).keys))
  | .storeDrain name, next =>
    .access (fun memory => memory.setStore name (memory.store name).drainNewestFirst.2) fun memory =>
      next (.fine (.drained ((memory.store name).drainNewestFirst.1.map fun (key, entry) => (key, entry.type))))
  | .storeHook name key calling, next =>
    .access (fun memory => { memory with stores := memory.stores.erase name }) fun memory =>
      let restored (outcome : Outcome) : Script :=
        match outcome with
        | .panicked panic => next (.panicked panic)
        | outcome => .access (·.setStore name (memory.store name)) fun _ => next outcome
      match (memory.store name).get? key, calling with
      | none, _ => restored (.fine .nothing)
      | some _, .malformed => restored (.fine .badInput)
      | some entry, .after handle =>
        withHandle scene handle restored fun scope => askPlain (.invoke (.after entry.object scope)) restored
      | some entry, .before handle =>
        withHandle scene handle restored fun scope => askPlain (.invoke (.before entry.object scope)) restored
      | some entry, .destroy => askPlain (.invoke (.destroy entry.object)) restored
  | .destroyAll handle name, next =>
    withHandle scene handle next fun scope =>
      .access (fun memory => { memory with stores := memory.stores.erase name }) fun memory =>
        ask (.destroyAll scope (memory.store name)) next fun reply =>
          .access (·.setStore name .empty) fun _ => next (answerPlain reply)
  | .spawn lines, next =>
    .fork 1 (fun _ => playLines (.inner scene.self) lines openly) (answerThread next)
  | .threads bodies, next =>
    let scripts := playBodies scene.self bodies
    .fork scripts.length (fun index => scripts[index]?.getD .done) (answerThreads next)
  | .signal name, next =>
    .access (fun memory => { memory with signals := name :: memory.signals }) fun _ => next (.fine .ok)
  | .await name, next => .await (·.signals.contains name) (next (.fine .ok))
  | .awaitState handle state, next =>
    withHandle scene handle next fun scope => .awaitState scope state fun reply => next (answerPlain reply)
  | .sleep time, next => .pause time (next (.fine .ok))
  | .note text, next => next (.fine (.text text))
  | .raceBegin id threads, next => raceCall threads (.begin · id) next
  | .raceEnd id threads, next => raceCall threads (.finish · id) next
  | .raceGet handle key threads failing panics making, next =>
    withHandle scene handle next fun scope =>
      raceGet scope key threads failing panics making.species (.built making.value (playHooks making)) next
  | .ring handle threads making, next =>
    withHandle scene handle next fun scope =>
      ring scope threads making.species (.built making.value (playHooks making)) next

def playHooks : Making → Hooks Script
  | .mk species value _ after before destroy =>
    if species.hooked then
      { after := hookLines (.after value) fun scene stop => playLines scene after stop
        before := hookLines (.before value) fun scene stop => playLines scene before stop
        destroy := .note (.destroy value) (playLines (.inner none) destroy openly) }
    else idleHooks

-- Lines that fail only stop, unless the factory is one that may fail.
def playFactory (self : Option ScopeRef) (strict : Bool) (hooks : Hooks Script) : Making → Script
  | .mk _ value body _ _ _ =>
    .note (.build value)
      (playLines (.inner self) body fun
        | .panicked panic => .panic panic
        | .failed cause => if strict then .fail cause else .built value hooks
        | .finished => .built value hooks)

def playRules : List Rule → List Script
  | [] => []
  | .mk _ _ lines :: rest => playLines (.inner none) lines quietly :: playRules rest

def playBodies (self : Option ScopeRef) : List (List Line) → List Script
  | [] => []
  | lines :: rest => playLines (.inner self) lines openly :: playBodies self rest
end

end Lifespan.Scenario
