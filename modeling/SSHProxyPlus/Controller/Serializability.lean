import SSHProxyPlus.Controller.Effects

/-! Calls of many clients at once: as long as nobody destroys a proxy that its creator has
still to give a logger, they might as well have been made one after the other. -/
namespace SSHProxyPlus
open Go Transition

namespace CallStep

/-- What a call will have returned, once that is settled and in the table. -/
def effect : CallStep → Option CommandResult
  | .logging proxyID => some (.created proxyID)
  | .returned result => some result
  | _ => none

/-- The ID that a call has taken and not put a proxy under yet. -/
def claimed : CallStep → Option UInt64
  | .storing _ _ proxyID => some proxyID
  | _ => none

/-- How many steps a call has ahead of it, at most. -/
def left : CallStep → Nat
  | .called => 4
  | .numbering _ _ => 3
  | .storing _ _ _ => 2
  | .logging _ => 1
  | .returned _ | .panicked _ => 0

end CallStep

def ClientCall.outcome (call : ClientCall) : Option (ClientCommand × CommandResult) :=
  call.step.effect.map fun result => (call.command, result)

/-- One step of a call, in terms of what the commands are about; `logging` are the IDs of
proxies that are about to be given a logger. -/
inductive ClientCall.Moves (logging : UInt64 → Prop) (before after : Registry)
    (command : ClientCommand) : CallStep → CallStep → Prop where
  | prepared {proxy : ProxyRef} {logged : Bool} (adds : command.Adds proxy logged)
      (same : after = before) : Moves logging before after command .called (.numbering proxy logged)
  | served {result : CommandResult} {proxyID : UInt64} (local' : Registry.Local command proxyID)
      (served : (after, result) = before.serve command)
      (kept : ∀ id, logging id → after.entries id = before.entries id) :
      Moves logging before after command .called (.returned result)
  | numbered {proxy : ProxyRef} {logged : Bool}
      (counted : after = { before with counter := before.counter + 1 }) :
      Moves logging before after command (.numbering proxy logged)
        (.storing proxy logged before.counter)
  | stored {proxy : ProxyRef} {logged : Bool} {proxyID : UInt64}
      (put : after = { before with
        entries := fun id => if id = proxyID then some proxy else before.entries id }) :
      Moves logging before after command (.storing proxy logged proxyID)
        (if logged then .logging proxyID else .returned (.created proxyID))
  | logged {proxyID : UInt64} (same : after = before) :
      Moves logging before after command (.logging proxyID) (.returned (.created proxyID))

/-- Nobody is about to give a logger to a proxy that the call destroys. -/
def ClientCall.Undisturbed (call : ClientCall) (server : ProxyServer) : Prop :=
  match call.step, call.command with
  | .called, .destroyProxy proxyID _ _ => ∀ other ∈ server.calls, other.step ≠ .logging proxyID
  | _, _ => True

def ProxyServer.Undisturbed (server : ProxyServer) : ServerAction → Prop
  | .call command => command.Harmless
  | .advance index => ∀ call, server.calls[index]? = some call → call.Undisturbed server

/-- A call stands where its command can have brought it, and has not panicked. -/
def ClientCall.Fits (registry : Registry) (call : ClientCall) : Prop :=
  match call.step with
  | .called | .returned _ => True
  | .numbering proxy logged | .storing proxy logged _ => call.command.Adds proxy logged
  | .logging proxyID => registry.entries proxyID ≠ none
  | .panicked _ => False

/-- What holds of the pool and the calls whatever has happened. -/
structure Orderly (pool : ProxyPool) (calls : List ClientCall) : Prop where
  sound : pool.Sound
  harmless : ∀ call ∈ calls, call.command.Harmless
  fits : ∀ call ∈ calls, call.Fits pool.registry

theorem Orderly.perm {pool : ProxyPool} {calls calls' : List ClientCall}
    (orderly : Orderly pool calls) (same : calls.Perm calls') : Orderly pool calls' where
  sound := orderly.sound
  harmless call member := orderly.harmless call (same.mem_iff.mpr member)
  fits call member := orderly.fits call (same.mem_iff.mpr member)

section Steps
variable {pool next : ProxyPool} {calls : List ClientCall} {call : ClientCall} {step : CallStep}

/-- An undisturbed step does not panic, and is one of these. -/
theorem Orderly.advance (orderly : Orderly pool calls) (member : call ∈ calls)
    (undisturbed : call.Undisturbed { pool, calls })
    (advanced : call.advance pool = some (step, next)) :
    next.Sound ∧ ClientCall.Moves (fun id => ∃ other ∈ calls, other.step = .logging id)
      pool.registry next.registry call.command call.step step := by
  obtain ⟨command, stands⟩ := call
  have sound := orderly.sound
  unfold ClientCall.advance at advanced
  cases stands with
  | called =>
    cases command with
    | createProxy allocated =>
      obtain ⟨rfl, rfl⟩ := Prod.mk.inj (Option.some.inj advanced)
      exact ⟨sound.write (fun running => absurd running Bool.false_ne_true) allocated,
        .prepared ⟨rfl, rfl⟩ rfl⟩
    | addProxy proxy =>
      obtain ⟨rfl, rfl⟩ := Prod.mk.inj (Option.some.inj advanced)
      exact ⟨sound, .prepared ⟨rfl, rfl⟩ rfl⟩
    | addProxyFromJSON data order allocated =>
      obtain ⟨result, made, same, idle⟩ :=
        @makeProxyFromJSON_harmless data order (orderly.harmless _ member) pool.defaultSigner
      simp only [made, CallStep.after] at advanced
      cases result with
      | none =>
        obtain ⟨rfl, rfl⟩ := Prod.mk.inj (Option.some.inj advanced)
        have undecoded : ProxyContext.codec.unmarshal data {} = none := by simpa using same.symm
        refine ⟨sound, .served (local_notDecoded undecoded 0) ?_ fun _ _ => rfl⟩
        simp only [Registry.serve, undecoded]
      | some proxy =>
        obtain ⟨rfl, rfl⟩ := Prod.mk.inj (Option.some.inj advanced)
        refine ⟨sound.write (fun running =>
          absurd ((idle proxy rfl).symm.trans running) Bool.false_ne_true) allocated,
          .prepared ⟨fun undecoded => ?_, rfl, rfl⟩ rfl⟩
        rw [undecoded] at same
        contradiction
    | addExistingProxy proxy =>
      obtain ⟨rfl, rfl⟩ := Prod.mk.inj (Option.some.inj advanced)
      exact ⟨sound, .prepared ⟨rfl, rfl⟩ rfl⟩
    | destroyProxy proxyID order now =>
      obtain ⟨⟨destroyed, err⟩, ran, kept, removed, told⟩ := sound.destroyProxy proxyID order now
      simp only [ran, CallStep.after] at advanced
      obtain ⟨rfl, rfl⟩ := Prod.mk.inj (Option.some.inj advanced)
      refine ⟨kept, .served (local_destroyProxy proxyID order now) ?_ ?_⟩
      · rw [removed]
        exact congrArg (fun err => (_, CommandResult.destroyed err)) told
      · rintro id ⟨other, inside, logs⟩
        have different : id ≠ proxyID := by
          rintro rfl
          exact undisturbed other inside logs
        rw [removed]
        exact if_neg different
    | getProxy proxyID =>
      obtain ⟨rfl, rfl⟩ := Prod.mk.inj (Option.some.inj advanced)
      refine ⟨sound, .served (local_getProxy proxyID) ?_ fun _ _ => rfl⟩
      simp only [Registry.serve]
      cases found : pool.proxies.find proxyID with
      | none => simp [ProxyPool.registry, found]
      | some val => simp [ProxyPool.registry, found]
  | numbering proxy logged =>
    obtain ⟨rfl, rfl⟩ := Prod.mk.inj (Option.some.inj advanced)
    exact ⟨sound.getNextProxyID, .numbered rfl⟩
  | storing proxy logged proxyID =>
    obtain ⟨stored, ran, kept, put⟩ := sound.storeProxy proxyID proxy
    simp only [ran, CallStep.after] at advanced
    obtain ⟨rfl, rfl⟩ := Prod.mk.inj (Option.some.inj advanced)
    exact ⟨kept, .stored put⟩
  | logging proxyID =>
    obtain ⟨logged, ran, kept, same⟩ := sound.setLog (orderly.fits _ member)
    simp only [ran, CallStep.after] at advanced
    obtain ⟨rfl, rfl⟩ := Prod.mk.inj (Option.some.inj advanced)
    exact ⟨kept, .logged same⟩
  | returned result => contradiction
  | panicked panic => contradiction

/-- What fits still does after a step of another call. -/
theorem ClientCall.Fits.kept {logging : UInt64 → Prop} {before after : Registry}
    {command : ClientCommand} {stands : CallStep} (fits : call.Fits before)
    (waits : ∀ proxyID, call.step = .logging proxyID → logging proxyID)
    (moves : ClientCall.Moves logging before after command stands step) : call.Fits after := by
  obtain ⟨other, step'⟩ := call
  cases step' with
  | logging proxyID =>
    change before.entries proxyID ≠ none at fits
    change after.entries proxyID ≠ none
    cases moves with
    | prepared adds same => exact same ▸ fits
    | served local' served kept => rwa [kept proxyID (waits proxyID rfl)]
    | numbered counted => exact counted ▸ fits
    | stored put =>
      rw [put]
      dsimp only
      split
      · exact Option.some_ne_none _
      · exact fits
    | logged same => exact same ▸ fits
  | called => exact fits
  | numbering proxy logged => exact fits
  | storing proxy logged proxyID => exact fits
  | returned result => exact fits
  | panicked panic => exact fits

theorem ClientCall.Moves.fits {logging : UInt64 → Prop} {before after : Registry}
    {command : ClientCommand} {stands : CallStep} (fits : (⟨command, stands⟩ : ClientCall).Fits before)
    (moves : ClientCall.Moves logging before after command stands step) :
    (⟨command, step⟩ : ClientCall).Fits after := by
  cases moves with
  | prepared adds same => exact adds
  | served local' served kept => trivial
  | numbered counted => exact fits
  | stored put =>
    rename_i proxy logged proxyID
    cases logged with
    | false => trivial
    | true =>
      subst put
      change (if proxyID = proxyID then some proxy else before.entries proxyID) ≠ none
      rw [if_pos rfl]
      exact Option.some_ne_none proxy
  | logged same => trivial

/-- An undisturbed step leaves all in order. -/
theorem Orderly.moves {logging : UInt64 → Prop} {command : ClientCommand} {stands : CallStep}
    {rest : List ClientCall} (orderly : Orderly pool (⟨command, stands⟩ :: rest))
    (sound : next.Sound) (waits : ∀ call ∈ rest, ∀ id, call.step = .logging id → logging id)
    (moves : ClientCall.Moves logging pool.registry next.registry command stands step) :
    Orderly next (⟨command, step⟩ :: rest) := by
  obtain ⟨harmless, harmlessRest⟩ := List.forall_mem_cons.mp orderly.harmless
  obtain ⟨fits, fitsRest⟩ := List.forall_mem_cons.mp orderly.fits
  refine ⟨sound, List.forall_mem_cons.mpr ⟨harmless, harmlessRest⟩,
    List.forall_mem_cons.mpr ⟨moves.fits fits, fun call member => ?_⟩⟩
  exact (fitsRest call member).kept (waits call member) moves

end Steps

/-- The effects account for what calls return and for the table, and the IDs that were handed
out for what was added and is about to be. -/
structure Recorded (start now : Registry) (calls : List ClientCall) (effects : Effects)
    (ids : List UInt64) : Prop where
  complete : (effects.map Prod.snd).Perm (calls.filterMap ClientCall.outcome)
  touched : ∀ id, Follows (Registry.Touches id) (start.entries id) (effects.about id)
    (now.entries id)
  handed : Follows Registry.Hands start.counter ids now.counter
  counted : (effects.filterMap Effects.added ++
    calls.filterMap fun call => call.step.claimed).Perm ids

namespace Recorded
variable {start now after : Registry} {command : ClientCommand} {step step' : CallStep}
  {rest : List ClientCall} {effects : Effects} {ids : List UInt64} {proxy : ProxyRef}
  {logged : Bool} {proxyID : UInt64} {result : CommandResult}

theorem perm {calls' : List ClientCall} (recorded : Recorded start now calls effects ids)
    (same : calls.Perm calls') : Recorded start now calls' effects ids where
  complete := recorded.complete.trans (same.filterMap _)
  touched := recorded.touched
  handed := recorded.handed
  counted := ((same.filterMap _).symm.append_left _).trans recorded.counted

/-- A step that settles nothing and takes nothing. -/
theorem quiet (recorded : Recorded start now (⟨command, step⟩ :: rest) effects ids)
    (effect : step'.effect = step.effect) (claimed : step'.claimed = step.claimed) :
    Recorded start now (⟨command, step'⟩ :: rest) effects ids := by
  obtain ⟨complete, touched, handed, counted⟩ := recorded
  simp only [List.filterMap_cons, ClientCall.outcome, ← effect, ← claimed] at complete counted
  exact ⟨by simpa only [List.filterMap_cons, ClientCall.outcome] using complete, touched, handed,
    by simpa only [List.filterMap_cons] using counted⟩

theorem numbered
    (recorded : Recorded start now (⟨command, .numbering proxy logged⟩ :: rest) effects ids) :
    Recorded start { now with counter := now.counter + 1 }
      (⟨command, .storing proxy logged now.counter⟩ :: rest) effects (ids ++ [now.counter]) := by
  obtain ⟨complete, touched, handed, counted⟩ := recorded
  refine ⟨complete, touched, handed.snoc ⟨rfl, rfl⟩, ?_⟩
  simp only [List.filterMap_cons, CallStep.claimed] at counted ⊢
  exact List.perm_middle.trans ((counted.cons _).trans (List.perm_append_singleton _ _).symm)

/-- A call has its effect, and if it had taken an ID that is what it adds something under. -/
theorem effect (recorded : Recorded start now (⟨command, step⟩ :: rest) effects ids)
    (touches : Registry.Touches proxyID (now.entries proxyID) (command, result)
      (after.entries proxyID))
    (frame : ∀ other, other ≠ proxyID → after.entries other = now.entries other)
    (counter : after.counter = now.counter) (unsettled : step.effect = none)
    (settles : step'.effect = some result) (claimed : step'.claimed = none)
    (adds : Effects.added (proxyID, command, result) = step.claimed) :
    Recorded start after (⟨command, step'⟩ :: rest) (effects ++ [(proxyID, command, result)])
      ids := by
  obtain ⟨complete, touched, handed, counted⟩ := recorded
  refine ⟨?_, fun id => ?_, counter ▸ handed, ?_⟩
  · rw [List.filterMap_cons_none (by simp [ClientCall.outcome, unsettled])] at complete
    have settled : ClientCall.outcome ⟨command, step'⟩ = some (command, result) := by
      simp [ClientCall.outcome, settles]
    rw [List.filterMap_cons_some settled, List.map_append]
    exact (List.perm_append_singleton _ _).trans (complete.cons _)
  · rw [Effects.about_append]
    by_cases here : id = proxyID
    · subst here
      rw [Effects.about_cons, if_pos rfl]
      exact (touched id).snoc touches
    · rw [Effects.about_cons, if_neg (Ne.symm here), frame id here]
      exact (List.append_nil _).symm ▸ touched id
  · rw [List.filterMap_append, List.append_assoc, List.filterMap_cons, List.filterMap_cons, claimed]
    rw [List.filterMap_cons] at counted
    rw [adds]
    cases taken : step.claimed with
    | none => simpa [taken] using counted
    | some id => simpa [taken] using counted

/-- Whatever an undisturbed call does next, it is accounted for. -/
theorem advance {logging : UInt64 → Prop}
    (recorded : Recorded start now (⟨command, step⟩ :: rest) effects ids)
    (fits : (⟨command, step⟩ : ClientCall).Fits now)
    (moves : ClientCall.Moves logging now after command step step') :
    ∃ effects ids, Recorded start after (⟨command, step'⟩ :: rest) effects ids := by
  cases moves with
  | prepared adds' same =>
    subst same
    exact ⟨effects, ids, recorded.quiet rfl rfl⟩
  | served local' served kept =>
    rename_i result proxyID
    obtain ⟨rfl, rfl⟩ : after = (now.serve command).1 ∧ result = (now.serve command).2 :=
      ⟨congrArg Prod.fst served, congrArg Prod.snd served⟩
    refine ⟨_, ids, @effect _ _ _ _ _ _ _ _ _ proxyID _ recorded (.served local' rfl)
      (local'.frame now) (local'.counter now) rfl rfl rfl ?_⟩
    exact Effects.added_none (local'.created now) command
  | numbered counted =>
    subst counted
    exact ⟨effects, _, recorded.numbered⟩
  | stored put =>
    rename_i proxy logged proxyID
    subst put
    have touches : Registry.Touches proxyID (now.entries proxyID) (command, .created proxyID)
        ((now.put proxyID (some proxy)).entries proxyID) := by
      rw [Registry.put_self]
      exact .added fits _
    refine ⟨_, ids, recorded.effect touches (fun other => Registry.put_other) rfl rfl ?_ ?_ rfl⟩
    · cases logged <;> rfl
    · cases logged <;> rfl
  | logged same =>
    subst same
    exact ⟨effects, ids, recorded.quiet rfl rfl⟩

end Recorded

namespace ProxyServer
variable {start : ProxyPool} {server : ProxyServer}

/-- All is in order, and accounted for. -/
def Accounted (start : Registry) (server : ProxyServer) : Prop :=
  Orderly server.pool server.calls ∧
    ∃ effects ids, Recorded start server.pool.registry server.calls effects ids

theorem Accounted.perm {registry : Registry} {calls : List ClientCall}
    (accounted : server.Accounted registry) (same : server.calls.Perm calls) :
    Accounted registry ⟨server.pool, calls⟩ :=
  ⟨accounted.1.perm same, accounted.2.imp fun _ recorded =>
    recorded.imp fun _ recorded => recorded.perm same⟩

/-- One undisturbed step keeps it so. -/
theorem Accounted.step {registry : Registry} {action : ServerAction} {next : ProxyServer}
    (accounted : server.Accounted registry) (undisturbed : server.Undisturbed action)
    (performed : server.perform action = some next) : next.Accounted registry := by
  cases action with
  | call command =>
    obtain rfl := Option.some.inj performed
    obtain ⟨orderly, effects, ids, recorded⟩ := accounted
    have grown : Accounted registry ⟨server.pool, ⟨command, .called⟩ :: server.calls⟩ := by
      refine ⟨⟨orderly.sound, List.forall_mem_cons.mpr ⟨undisturbed, orderly.harmless⟩,
        List.forall_mem_cons.mpr ⟨trivial, orderly.fits⟩⟩, effects, ids, ?_⟩
      exact ⟨recorded.complete, recorded.touched, recorded.handed, recorded.counted⟩
    exact grown.perm (List.perm_append_singleton _ _).symm
  | advance index =>
    unfold perform at performed
    cases found : server.calls[index]? with
    | none => simp [found] at performed
    | some call =>
      simp only [found] at performed
      obtain ⟨⟨step, pool⟩, advanced, rfl⟩ := Option.map_eq_some_iff.mp performed
      have member : call ∈ server.calls := List.mem_of_getElem? found
      obtain ⟨sound, moves⟩ := accounted.1.advance member (undisturbed call found) advanced
      obtain ⟨within, here⟩ := List.getElem?_eq_some_iff.mp found
      obtain ⟨before, after, split, -, set⟩ :=
        @List.exists_of_set _ index { call with step } server.calls within
      rw [here] at split
      have front : server.calls.Perm (call :: (before ++ after)) := split ▸ List.perm_middle
      obtain ⟨orderly, effects, ids, recorded⟩ := accounted.perm front
      obtain ⟨effects', ids', recorded'⟩ :=
        recorded.advance (orderly.fits call List.mem_cons_self) moves
      have moved : Accounted registry ⟨pool, { call with step } :: (before ++ after)⟩ := by
        refine ⟨orderly.moves sound (fun other inside id logs => ?_) moves, effects', ids', recorded'⟩
        exact ⟨other, front.mem_iff.mpr (List.mem_cons_of_mem _ inside), logs⟩
      rw [set]
      exact moved.perm List.perm_middle.symm

theorem Accounted.reachable (sound : start.Sound)
    (reached : (runs Undisturbed start).Reachable server) : server.Accounted start.registry := by
  have kept : ∀ server action next, Accounted start.registry server →
      (runs Undisturbed start).step server action next → Accounted start.registry next :=
    fun server action next accounted ⟨undisturbed, performed⟩ => accounted.step undisturbed performed
  refine reached.invariant ?_ kept
  rintro server rfl
  refine ⟨⟨sound, fun _ => nofun, fun _ => nofun⟩, [], [], ?_⟩
  exact ⟨.refl _, fun id => rfl, rfl, .refl _⟩

/-- When every call has returned, their outcomes are all there is to say of them. -/
theorem outcomes_returned {calls : List ClientCall}
    (returned : ∀ call ∈ calls, ∃ result, call.step = .returned result) :
    (calls.filterMap ClientCall.outcome).map (fun entry => ⟨entry.1, .returned entry.2⟩) = calls ∧
      (calls.filterMap fun call => call.step.claimed) = [] := by
  induction calls with
  | nil => exact ⟨rfl, rfl⟩
  | cons call calls ih =>
    obtain ⟨⟨result, ended⟩, rest⟩ := List.forall_mem_cons.mp returned
    obtain ⟨outcomes, claims⟩ := ih rest
    obtain ⟨command, step⟩ := call
    obtain rfl : step = .returned result := ended
    exact ⟨congrArg (List.cons _) outcomes, claims⟩

/-- Until it has returned, a call that has not panicked goes on. -/
theorem goes_on {call : ClientCall} (calm : ∀ panic, call.step ≠ .panicked panic) (pool : ProxyPool) :
    (∃ result, call.step = .returned result) ∨
      ∃ step next, call.advance pool = some (step, next) ∧ step.left < call.step.left := by
  have after {α : Type} (go : α → CallStep × ProxyPool) (bound : Nat)
      (fewer : ∀ a, (go a).1.left < bound) (positive : 0 < bound) (ran : Except Panic α) :
      (CallStep.after pool go ran).1.left < bound := by
    cases ran with
    | ok a => exact fewer a
    | error panic => exact positive
  obtain ⟨command, stands⟩ := call
  cases stands with
  | returned result => exact Or.inl ⟨result, rfl⟩
  | panicked panic => exact absurd rfl (calm panic)
  | called =>
    have fewer : 3 < 4 ∧ 0 < 4 := by decide
    refine Or.inr ?_
    cases command with
    | createProxy allocated => exact ⟨_, _, rfl, fewer.1⟩
    | addProxy proxy => exact ⟨_, _, rfl, fewer.1⟩
    | addProxyFromJSON data order allocated =>
      refine ⟨_, _, rfl, after _ 4 (fun decoded => ?_) fewer.2 _⟩
      cases decoded with
      | none => exact fewer.2
      | some proxy => exact fewer.1
    | addExistingProxy proxy => exact ⟨_, _, rfl, fewer.1⟩
    | destroyProxy proxyID order now =>
      refine ⟨_, _, rfl, after _ 4 (fun _ => ?_) fewer.2 _⟩
      exact fewer.2
    | getProxy proxyID => exact ⟨_, _, rfl, fewer.2⟩
  | numbering proxy logged => exact Or.inr ⟨_, _, rfl, Nat.lt_succ_self 2⟩
  | storing proxy logged proxyID =>
    have fewer : 1 < 2 ∧ 0 < 2 := by decide
    refine Or.inr ⟨_, _, rfl, after _ 2 (fun _ => ?_) fewer.2 _⟩
    cases logged with
    | false => exact fewer.2
    | true => exact fewer.1
  | logging proxyID =>
    refine Or.inr ⟨_, _, rfl, after _ 1 (fun _ => ?_) Nat.zero_lt_one _⟩
    exact Nat.zero_lt_one

/-- As long as nobody destroys a proxy that its creator has still to give a logger, no call
panics and every call goes on to its end; and once all have returned, they could have been
made one after the other, with the same results and the same table. -/
theorem undisturbed_serializable (sound : start.Sound)
    (reached : (runs Undisturbed start).Reachable server) :
    (∀ call ∈ server.calls, ∀ panic, call.step ≠ .panicked panic) ∧
      (∀ call ∈ server.calls, (∃ result, call.step = .returned result) ∨
        ∃ step next, call.advance server.pool = some (step, next) ∧ step.left < call.step.left) ∧
      ((∀ call ∈ server.calls, ∃ result, call.step = .returned result) →
        ∃ (history : List (ClientCommand × CommandResult)) (final : ProxyPool),
          (history.map fun entry => (⟨entry.1, .returned entry.2⟩ : ClientCall)).Perm server.calls ∧
            start.executeAll (history.map Prod.fst) = .ok (final, history.map Prod.snd) ∧
            final.registry = server.pool.registry) := by
  obtain ⟨orderly, effects, ids, recorded⟩ := Accounted.reachable sound reached
  have calm : ∀ call ∈ server.calls, ∀ panic, call.step ≠ .panicked panic := by
    intro call member panic panicked
    have fits := orderly.fits call member
    unfold ClientCall.Fits at fits
    rw [panicked] at fits
    exact fits
  refine ⟨calm, fun call member => goes_on (calm call member) server.pool, fun returned => ?_⟩
  obtain ⟨outcomes, claims⟩ := outcomes_returned returned
  have counted := recorded.counted
  rw [claims, List.append_nil] at counted
  obtain ⟨history, sorted, explained⟩ :=
    Registry.explains_sorted recorded.touched recorded.handed counted
  have complete : (history.map fun entry => (⟨entry.1, .returned entry.2⟩ : ClientCall)).Perm
      server.calls := by
    have mapped := (sorted.trans recorded.complete).map fun entry =>
      (⟨entry.1, .returned entry.2⟩ : ClientCall)
    rwa [outcomes] at mapped
  have harmless : ∀ entry ∈ history, entry.1.Harmless := fun entry member =>
    orderly.harmless _ (complete.mem_iff.mp (List.mem_map_of_mem member))
  obtain ⟨final, executed, same⟩ := sound.executeAll harmless explained
  exact ⟨history, final, complete, executed, same⟩

/-- A controller that was just made. -/
def emptyPool : ProxyPool where
  proxies := some ∅
  proxyCounter := 0
  log := none
  defaultSigner := none
  objects _ := makeNewProxy none
  sessions := []

theorem emptyPool_sound : emptyPool.Sound where
  made := Option.some_ne_none _
  listening _ running := absurd running Bool.false_ne_true
  sessions := nofun

theorem undisturbed_advance {index : Nat} {call : ClientCall}
    (found : server.calls[index]? = some call) (undisturbed : call.Undisturbed server) :
    server.Undisturbed (.advance index) := by
  intro other found'
  obtain rfl := Option.some.inj (found.symm.trans found')
  exact undisturbed

/-- Somebody looks a proxy up when it is in the table, but has no logger yet. -/
theorem undisturbed_serializable_lookup : ∃ server : ProxyServer,
    server.calls = [⟨.createProxy 7, .returned (.created 0)⟩,
      ⟨.getProxy 0, .returned (.got (some 7) none)⟩] ∧
      ∃ (history : List (ClientCommand × CommandResult)) (final : ProxyPool),
        (history.map fun entry => (⟨entry.1, .returned entry.2⟩ : ClientCall)).Perm server.calls ∧
          emptyPool.executeAll (history.map Prod.fst) = .ok (final, history.map Prod.snd) ∧
          final.registry = server.pool.registry := by
  have ran : Follows (runs Undisturbed emptyPool).step ⟨emptyPool, []⟩
      [.call (.createProxy 7), .call (.getProxy 0), .advance 0, .advance 0, .advance 0, .advance 1,
        .advance 0] _ :=
    ⟨_, ⟨trivial, rfl⟩, _, ⟨trivial, rfl⟩, _, ⟨undisturbed_advance rfl trivial, rfl⟩, _,
      ⟨undisturbed_advance rfl trivial, rfl⟩, _, ⟨undisturbed_advance rfl trivial, rfl⟩, _,
      ⟨undisturbed_advance rfl trivial, rfl⟩, _, ⟨undisturbed_advance rfl trivial, rfl⟩, rfl⟩
  have reached := System.Reachable.follows (.start rfl) ran
  refine ⟨_, rfl, (undisturbed_serializable emptyPool_sound reached).2.2 ?_⟩
  exact List.forall_mem_cons.mpr ⟨⟨_, rfl⟩, List.forall_mem_cons.mpr ⟨⟨_, rfl⟩, fun _ => nofun⟩⟩

/-- When the proxy is destroyed before its creator gives it a logger, the creator panics. -/
theorem createProxy_panics : ∃ server : ProxyServer,
    (runs (fun _ _ => True) emptyPool).Reachable server ∧
      server.calls = [⟨.createProxy 7, .panicked .nilPointer⟩,
        ⟨.destroyProxy 0 (sortedOrder byteRank) 0, .returned (.destroyed none)⟩] := by
  have ran : Follows (runs (fun _ _ => True) emptyPool).step ⟨emptyPool, []⟩
      [.call (.createProxy 7), .call (.destroyProxy 0 (sortedOrder byteRank) 0), .advance 0,
        .advance 0, .advance 0, .advance 1, .advance 0] _ :=
    ⟨_, ⟨trivial, rfl⟩, _, ⟨trivial, rfl⟩, _, ⟨trivial, rfl⟩, _, ⟨trivial, rfl⟩, _,
      ⟨trivial, rfl⟩, _, ⟨trivial, rfl⟩, _, ⟨trivial, rfl⟩, rfl⟩
  exact ⟨_, System.Reachable.follows (.start rfl) ran, rfl⟩

end ProxyServer
end SSHProxyPlus
