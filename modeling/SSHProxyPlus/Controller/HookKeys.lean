import SSHProxyPlus.Controller.Removal
import SSHProxyPlus.Table.Names

/-! The keys under which filters and callbacks are registered. The text of a key does not tell
the user it was made for: only the dots at its end keep two hooks apart. -/
namespace SSHProxyPlus
open Go Table Transition

/-- `for ok { key = key + "."; _, ok = registry[key] }`, from the key it is entered with to the
key it is left with. -/
inductive Lengthens {V : Type} (registry : GoMap Bytes V) : Bytes → Bytes → Prop where
  | free {key : Bytes} (absent : key ∉ registry) : Lengthens registry key key
  | taken {key last : Bytes} (present : key ∈ registry)
      (rest : Lengthens registry (key ++ lit ".") last) : Lengthens registry key last

theorem Lengthens.absent {V : Type} {registry : GoMap Bytes V} {key last : Bytes}
    (lengthens : Lengthens registry key last) : last ∉ registry := by
  induction lengthens with
  | free absent => exact absent
  | taken _ _ ih => exact ih

/-- The turns that `unusedKey` counts are those of the loop, where they were enough. -/
theorem lengthens_unusedKey {V : Type} {registry : GoMap Bytes V} {turns : Nat} {key : Bytes}
    (ended : unusedKey registry turns key ∉ registry) :
    Lengthens registry key (unusedKey registry turns key) := by
  induction turns generalizing key with
  | zero => exact .free ended
  | succ turns ih =>
    unfold unusedKey at ended ⊢
    split
    · next present =>
      rw [if_pos present] at ended
      exact .taken present (ih ended)
    · next absent => exact .free absent

/-- The loop ends at the key; it was free, and is registered now for the value. -/
structure Registers {V : Type} (registry : GoMap Bytes V) (base : Bytes) (value : V) (key : Bytes)
    (after : MapVar Bytes V) : Prop where
  loop : Lengthens registry base key
  fresh : key ∉ registry
  added : after = some (registry.insert key value)

theorem Lengthens.notEmpty {V : Type} {registry : GoMap Bytes V} {key last : Bytes}
    (lengthens : Lengthens registry key last) (start : key ≠ []) : last ≠ [] := by
  induction lengthens with
  | free _ => exact start
  | taken _ _ ih => exact ih (List.append_ne_nil_of_left_ne_nil start _)

theorem hookKey_notEmpty {kind : Bytes} (named : kind ≠ []) (proxyID : UInt64)
    (username password : Bytes) (index : Nat) :
    hookKey kind proxyID username password index ≠ [] := by
  unfold hookKey
  repeat apply List.append_ne_nil_of_left_ne_nil
  exact named

theorem registers_unusedKey {V : Type} (registry : GoMap Bytes V) (base : Bytes) (value : V) :
    Registers registry base value (unusedKey registry registry.keys.card base)
      (some (registry.insert (unusedKey registry registry.keys.card base) value)) where
  loop := lengthens_unusedKey (unusedKey_free registry base)
  fresh := unusedKey_free registry base
  added := rfl

/-- A call that hands out a hook's key, or takes a hook from a user. -/
inductive HookOperation where
  | addChannelFilter (proxyID : UInt64) (username password : Bytes) (function : FilterRef)
  | removeChannelFilter (proxyID : UInt64) (username password : Bytes) (function : FilterRef)
  | removeChannelFilterByKey (proxyID : UInt64) (username password key : Bytes)
  | addEventCallback (proxyID : UInt64) (username password : Bytes) (callback : CallbackRef)
  | removeEventCallback (proxyID : UInt64) (username password : Bytes)
      (callback : Option CallbackRef)
  | removeEventCallbackByKey (proxyID : UInt64) (username password key : Bytes)

/-- The error and the key that come back; a removal has no key. -/
abbrev HookReply := Option Bytes × Bytes

namespace ProxyController

def perform (controller : ProxyController) :
    HookOperation → Except Panic (ProxyController × HookReply)
  | .addChannelFilter proxyID username password function =>
      controller.addChannelFilterToUser proxyID username password function
  | .removeChannelFilter proxyID username password function => do
      let (next, err) ← controller.removeChannelFilterFromUser proxyID username password function
      return (next, err, [])
  | .removeChannelFilterByKey proxyID username password key => do
      let (next, err) ← controller.removeChannelFilterFromUserByKey proxyID username password key
      return (next, err, [])
  | .addEventCallback proxyID username password callback =>
      controller.addEventCallbackToUser proxyID username password callback
  | .removeEventCallback proxyID username password callback => do
      let (next, err) ← controller.removeEventCallbackFromUser proxyID username password callback
      return (next, err, [])
  | .removeEventCallbackByKey proxyID username password key => do
      let (next, err) ← controller.removeEventCallbackFromUserByKey proxyID username password key
      return (next, err, [])

/-- One operation that returned, with what it replied. -/
def Performs (controller : ProxyController) (entry : HookOperation × HookReply)
    (next : ProxyController) : Prop := controller.perform entry.1 = .ok (next, entry.2)

/-- `GetProxyUser` finds the user on that proxy. -/
def LooksUp (controller : ProxyController) (proxyID : UInt64) (username password : Bytes)
    (user : ProxyUser) : Prop :=
  ∃ proxy err blank, controller.getProxy proxyID = (some proxy, err) ∧
    proxy.getProxyUser username password false = .ok (.ok (some user, blank))

end ProxyController

/-- What an operation does to the keys of filters. -/
def filterNaming : HookOperation × HookReply → Naming Bytes FilterRef
  | (.addChannelFilter _ _ _ function, (_, key)) =>
      if key = [] then .leave else .issue key function
  | (.removeChannelFilterByKey _ _ _ key, _) => .withdraw key
  | _ => .leave

/-- What an operation does to the keys of callbacks. -/
def callbackNaming : HookOperation × HookReply → Naming Bytes (Option CallbackRef)
  | (.addEventCallback _ _ _ callback, (_, key)) =>
      if key = [] then .leave else .issue key (some callback)
  | (.removeEventCallbackByKey _ _ _ key, _) => .withdraw key
  | _ => .leave

namespace ProxyController
variable {controller : ProxyController} {proxyID : UInt64} {username password : Bytes}

/-- Nothing changes where no user is found; otherwise the loop has found a free key. -/
theorem addChannelFilterToUser_cases (function : FilterRef) :
    Ensures (controller.addChannelFilterToUser proxyID username password function) fun result =>
      (result.1 = controller ∧ result.2.2 = []) ∨
      ∃ (user : ProxyUser) (registry : _), controller.channelFilters = some registry ∧
        result.1.eventCallbacks = controller.eventCallbacks ∧ result.2.1 = none ∧
        Registers registry
          (hookKey (lit "filter") proxyID username password user.channelFilters.length)
          function result.2.2 result.1.channelFilters := by
  unfold addChannelFilterToUser
  split
  · refine (ensures_trivial _).bind fun looked _ => ?_
    split
    · refine (ensures_trivial _).bind fun user _ => ?_
      intro result ran
      obtain ⟨table, assigned, ran⟩ := of_bind_ok ran
      obtain ⟨registry, made, rfl⟩ := MapVar.assign_ok assigned
      obtain rfl := Except.ok.inj ran
      rw [made]
      exact Or.inr ⟨user, registry, rfl, rfl, rfl, registers_unusedKey registry _ function⟩
    · exact ensures_pure (Or.inl ⟨rfl, rfl⟩)
  · exact ensures_pure (Or.inl ⟨rfl, rfl⟩)

theorem addEventCallbackToUser_cases (callback : CallbackRef) :
    Ensures (controller.addEventCallbackToUser proxyID username password callback) fun result =>
      (result.1 = controller ∧ result.2.2 = []) ∨
      ∃ (user : ProxyUser) (registry : _), controller.eventCallbacks = some registry ∧
        result.1.channelFilters = controller.channelFilters ∧ result.2.1 = none ∧
        Registers registry
          (hookKey (lit "callback") proxyID username password user.eventCallbacks.length)
          (some callback) result.2.2 result.1.eventCallbacks := by
  unfold addEventCallbackToUser
  split
  · refine (ensures_trivial _).bind fun looked _ => ?_
    split
    · refine (ensures_trivial _).bind fun user _ => ?_
      intro result ran
      obtain ⟨table, assigned, ran⟩ := of_bind_ok ran
      obtain ⟨registry, made, rfl⟩ := MapVar.assign_ok assigned
      obtain rfl := Except.ok.inj ran
      rw [made]
      exact Or.inr ⟨user, registry, rfl, rfl, rfl, registers_unusedKey registry _ (some callback)⟩
    · exact ensures_pure (Or.inl ⟨rfl, rfl⟩)
  · exact ensures_pure (Or.inl ⟨rfl, rfl⟩)

/-- Taking a hook from a user leaves every key as it is. -/
theorem removeChannelFilterFromUser_registries (function : FilterRef) :
    Ensures (controller.removeChannelFilterFromUser proxyID username password function)
      fun result => result.1.channelFilters = controller.channelFilters ∧
        result.1.eventCallbacks = controller.eventCallbacks := by
  unfold removeChannelFilterFromUser
  split
  · refine (ensures_trivial _).bind fun looked _ => ?_
    split
    · exact (ensures_trivial _).bind fun _ _ => (ensures_trivial _).bind fun _ _ =>
        ensures_pure ⟨rfl, rfl⟩
    · exact ensures_pure ⟨rfl, rfl⟩
  · exact ensures_pure ⟨rfl, rfl⟩

theorem removeEventCallbackFromUser_registries (callback : Option CallbackRef) :
    Ensures (controller.removeEventCallbackFromUser proxyID username password callback)
      fun result => result.1.channelFilters = controller.channelFilters ∧
        result.1.eventCallbacks = controller.eventCallbacks := by
  unfold removeEventCallbackFromUser
  split
  · refine (ensures_trivial _).bind fun looked _ => ?_
    split
    · exact (ensures_trivial _).bind fun _ _ => (ensures_trivial _).bind fun _ _ =>
        ensures_pure ⟨rfl, rfl⟩
    · exact ensures_pure ⟨rfl, rfl⟩
  · exact ensures_pure ⟨rfl, rfl⟩

/-- Deleting a key that is not there changes nothing. -/
theorem delete_missing {V : Type} {registry : MapVar Bytes V} {key : Bytes}
    (missing : registry.find key = none) : registry.content.erase key = registry.content := by
  refine Finmap.ext_lookup fun other => ?_
  by_cases same : other = key
  · rw [same, Finmap.lookup_erase]
    exact missing.symm
  · exact Finmap.lookup_erase_ne same

theorem delete_content {V : Type} (registry : MapVar Bytes V) (key : Bytes) :
    (registry.delete key).content = registry.content.erase key := by
  cases registry with
  | some entries => rfl
  | none => exact (delete_missing (MapVar.find_none key)).symm

theorem removeChannelFilterFromUserByKey_registries (key : Bytes) :
    Ensures (controller.removeChannelFilterFromUserByKey proxyID username password key)
      fun result =>
        result.1.channelFilters.content = controller.channelFilters.content.erase key ∧
        result.1.eventCallbacks = controller.eventCallbacks := by
  unfold removeChannelFilterFromUserByKey
  split
  · next function _ =>
    refine (removeChannelFilterFromUser_registries function).bind fun result kept => ?_
    refine ensures_pure ⟨?_, kept.2⟩
    rw [delete_content, kept.1]
  · next missing => exact ensures_pure ⟨(delete_missing missing).symm, rfl⟩

theorem removeEventCallbackFromUserByKey_registries (key : Bytes) :
    Ensures (controller.removeEventCallbackFromUserByKey proxyID username password key)
      fun result =>
        result.1.eventCallbacks.content = controller.eventCallbacks.content.erase key ∧
        result.1.channelFilters = controller.channelFilters := by
  unfold removeEventCallbackFromUserByKey
  split
  · next callback _ =>
    refine (removeEventCallbackFromUser_registries callback).bind fun result kept => ?_
    refine ensures_pure ⟨?_, kept.1⟩
    rw [delete_content, kept.2]
  · next missing => exact ensures_pure ⟨(delete_missing missing).symm, rfl⟩

/-- An operation without a key is its removal. -/
theorem removed_ok {removal : Except Panic (ProxyController × Option Bytes)}
    {next : ProxyController} {err : Option Bytes} {key : Bytes}
    (performs : (do
      let (next, err) ← removal
      return (next, err, [])) = (.ok (next, err, key) : Except Panic (ProxyController × HookReply))) :
    removal = .ok (next, err) := by
  obtain ⟨result, removed, done⟩ := of_bind_ok performs
  obtain ⟨rfl, replied⟩ := Prod.mk.inj (Except.ok.inj done)
  obtain ⟨rfl, -⟩ := Prod.mk.inj replied
  exact removed

/-- Every operation does to the keys what its entry says. -/
theorem performs_namings {entry : HookOperation × HookReply} {next : ProxyController}
    (performs : controller.Performs entry next) :
    (filterNaming entry).Takes controller.channelFilters.content next.channelFilters.content ∧
      (callbackNaming entry).Takes controller.eventCallbacks.content
        next.eventCallbacks.content := by
  obtain ⟨operation, err, key⟩ := entry
  unfold Performs perform at performs
  cases operation with
  | addChannelFilter proxyID username password function =>
    obtain ⟨rfl, none⟩ | ⟨user, registry, made, kept, -, registers⟩ :=
      addChannelFilterToUser_cases function _ performs
    · simp only [filterNaming, callbackNaming]
      rw [if_pos none]
      exact ⟨rfl, rfl⟩
    · have named := registers.loop.notEmpty (hookKey_notEmpty (by decide) proxyID username
        password user.channelFilters.length)
      simp only [filterNaming, callbackNaming]
      rw [if_neg named, made]
      exact ⟨⟨registers.fresh, congrArg MapVar.content registers.added⟩,
        congrArg MapVar.content kept⟩
  | removeChannelFilter proxyID username password function =>
    have removed := removed_ok performs
    obtain ⟨filters, callbacks⟩ := removeChannelFilterFromUser_registries function _ removed
    exact ⟨congrArg MapVar.content filters, congrArg MapVar.content callbacks⟩
  | removeChannelFilterByKey proxyID username password gone =>
    have removed := removed_ok performs
    obtain ⟨erased, kept⟩ := removeChannelFilterFromUserByKey_registries gone _ removed
    exact ⟨erased, congrArg MapVar.content kept⟩
  | addEventCallback proxyID username password callback =>
    obtain ⟨rfl, none⟩ | ⟨user, registry, made, kept, -, registers⟩ :=
      addEventCallbackToUser_cases callback _ performs
    · simp only [filterNaming, callbackNaming]
      rw [if_pos none]
      exact ⟨rfl, rfl⟩
    · have named := registers.loop.notEmpty (hookKey_notEmpty (by decide) proxyID username
        password user.eventCallbacks.length)
      simp only [filterNaming, callbackNaming]
      rw [if_neg named, made]
      exact ⟨congrArg MapVar.content kept,
        registers.fresh, congrArg MapVar.content registers.added⟩
  | removeEventCallback proxyID username password callback =>
    have removed := removed_ok performs
    obtain ⟨filters, callbacks⟩ := removeEventCallbackFromUser_registries callback _ removed
    exact ⟨congrArg MapVar.content filters, congrArg MapVar.content callbacks⟩
  | removeEventCallbackByKey proxyID username password gone =>
    have removed := removed_ok performs
    obtain ⟨erased, kept⟩ := removeEventCallbackFromUserByKey_registries gone _ removed
    exact ⟨congrArg MapVar.content kept, erased⟩

/-- What `AddChannelFilterToUser` does for a user that is found. -/
theorem addChannelFilterToUser_registers {registry : GoMap Bytes FilterRef} {user : ProxyUser}
    (made : controller.channelFilters = some registry)
    (looked : controller.LooksUp proxyID username password user) (function : FilterRef) :
    ∃ next key, controller.addChannelFilterToUser proxyID username password function =
        .ok (next, none, key) ∧
      Registers registry (hookKey (lit "filter") proxyID username password
        user.channelFilters.length) function key next.channelFilters := by
  obtain ⟨proxy, err, blank, got, found⟩ := looked
  let key := unusedKey registry registry.keys.card
    (hookKey (lit "filter") proxyID username password user.channelFilters.length)
  let updated := controller.updateProxy proxyID
    (proxy.updateFoundUser username password blank (user.addChannelFilter function).1)
  refine ⟨{ updated with channelFilters := some (registry.insert key function) }, key, ?_,
    registers_unusedKey registry _ function⟩
  simp [addChannelFilterToUser, got, found, made, ProxyUser.addChannelFilter, bind, Except.bind,
    pure, Except.pure, key, updated]

theorem addEventCallbackToUser_registers {registry : GoMap Bytes (Option CallbackRef)}
    {user : ProxyUser} (made : controller.eventCallbacks = some registry)
    (looked : controller.LooksUp proxyID username password user) (callback : CallbackRef) :
    ∃ next key, controller.addEventCallbackToUser proxyID username password callback =
        .ok (next, none, key) ∧
      Registers registry (hookKey (lit "callback") proxyID username password
        user.eventCallbacks.length) (some callback) key next.eventCallbacks := by
  obtain ⟨proxy, err, blank, got, found⟩ := looked
  let key := unusedKey registry registry.keys.card
    (hookKey (lit "callback") proxyID username password user.eventCallbacks.length)
  let updated := controller.updateProxy proxyID
    (proxy.updateFoundUser username password blank (user.addEventCallback callback).1)
  refine ⟨{ updated with eventCallbacks := some (registry.insert key (some callback)) }, key, ?_,
    registers_unusedKey registry _ (some callback)⟩
  simp [addEventCallbackToUser, got, found, made, ProxyUser.addEventCallback, bind, Except.bind,
    pure, Except.pure, key, updated]

/-- A filter's key is withdrawn by its removal alone. -/
theorem filterNaming_withdraws {entry : HookOperation × HookReply} {key : Bytes}
    (withdraws : filterNaming entry = .withdraw key) :
    ∃ proxyID username password,
      entry.1 = .removeChannelFilterByKey proxyID username password key := by
  obtain ⟨operation, err, returned⟩ := entry
  cases operation with
  | addChannelFilter proxyID username password function =>
    simp only [filterNaming] at withdraws
    split at withdraws <;> contradiction
  | removeChannelFilterByKey proxyID username password gone =>
    exact ⟨proxyID, username, password, by rw [Naming.withdraw.inj withdraws]⟩
  | removeChannelFilter | addEventCallback | removeEventCallback | removeEventCallbackByKey =>
    contradiction

theorem callbackNaming_withdraws {entry : HookOperation × HookReply} {key : Bytes}
    (withdraws : callbackNaming entry = .withdraw key) :
    ∃ proxyID username password,
      entry.1 = .removeEventCallbackByKey proxyID username password key := by
  obtain ⟨operation, err, returned⟩ := entry
  cases operation with
  | addEventCallback proxyID username password callback =>
    simp only [callbackNaming] at withdraws
    split at withdraws <;> contradiction
  | removeEventCallbackByKey proxyID username password gone =>
    exact ⟨proxyID, username, password, by rw [Naming.withdraw.inj withdraws]⟩
  | addChannelFilter | removeChannelFilter | removeChannelFilterByKey | removeEventCallback =>
    contradiction

/-- The keys of filters over a run, as names that are given and withdrawn. -/
theorem follows_filters {run : List (HookOperation × HookReply)} {final : ProxyController}
    (follows : Follows Performs controller run final) :
    Follows Naming.Takes controller.channelFilters.content (run.map filterNaming)
      final.channelFilters.content := by
  have each (s entry t) (performs : Performs s entry t) :
      Naming.Takes s.channelFilters.content (filterNaming entry) t.channelFilters.content :=
    (performs_namings performs).1
  exact follows.map (f := fun c : ProxyController => c.channelFilters.content) each

theorem follows_callbacks {run : List (HookOperation × HookReply)} {final : ProxyController}
    (follows : Follows Performs controller run final) :
    Follows Naming.Takes controller.eventCallbacks.content (run.map callbackNaming)
      final.eventCallbacks.content := by
  have each (s entry t) (performs : Performs s entry t) :
      Naming.Takes s.eventCallbacks.content (callbackNaming entry) t.eventCallbacks.content :=
    (performs_namings performs).2
  exact follows.map (f := fun c : ProxyController => c.eventCallbacks.content) each

variable {earlier later : List (HookOperation × HookReply)} {final : ProxyController}
  {err : Option Bytes} {key : Bytes}

/-- A key that came back for a filter stands for it until it is removed. -/
theorem filter_key_stands {function : FilterRef}
    (follows : Follows Performs controller
      (earlier ++ (.addChannelFilter proxyID username password function, err, key) :: later) final)
    (returned : key ≠ [])
    (kept : ∀ entry ∈ later, ∀ other name word,
      entry.1 ≠ .removeChannelFilterByKey other name word key) :
    final.channelFilters.find key = some function := by
  have names := follows_filters follows
  have issued : filterNaming (.addChannelFilter proxyID username password function, err, key) =
      .issue key function := if_neg returned
  rw [List.map_append, List.map_cons, issued] at names
  apply issued_stands names
  intro withdrawn
  obtain ⟨entry, member, withdraws⟩ := List.mem_map.mp withdrawn
  obtain ⟨other, name, word, removal⟩ := filterNaming_withdraws withdraws
  exact kept entry member other name word removal

theorem callback_key_stands {callback : CallbackRef}
    (follows : Follows Performs controller
      (earlier ++ (.addEventCallback proxyID username password callback, err, key) :: later) final)
    (returned : key ≠ [])
    (kept : ∀ entry ∈ later, ∀ other name word,
      entry.1 ≠ .removeEventCallbackByKey other name word key) :
    final.eventCallbacks.find key = some (some callback) := by
  have names := follows_callbacks follows
  have issued : callbackNaming (.addEventCallback proxyID username password callback, err, key) =
      .issue key (some callback) := if_neg returned
  rw [List.map_append, List.map_cons, issued] at names
  apply issued_stands names
  intro withdrawn
  obtain ⟨entry, member, withdraws⟩ := List.mem_map.mp withdrawn
  obtain ⟨other, name, word, removal⟩ := callbackNaming_withdraws withdraws
  exact kept entry member other name word removal

/-- The loop ends with a key that was free and is registered now, and over any run each key that
came back and was not removed since denotes what it came back for. -/
theorem hook_keys_fresh (controller : ProxyController) :
    (∀ (registry : GoMap Bytes FilterRef) (proxyID : UInt64) (username password : Bytes)
      (user : ProxyUser) (function : FilterRef),
      controller.channelFilters = some registry →
      controller.LooksUp proxyID username password user →
      ∃ next key, controller.addChannelFilterToUser proxyID username password function =
          .ok (next, none, key) ∧
        Registers registry (hookKey (lit "filter") proxyID username password
          user.channelFilters.length) function key next.channelFilters) ∧
    (∀ (registry : GoMap Bytes (Option CallbackRef)) (proxyID : UInt64)
      (username password : Bytes) (user : ProxyUser) (callback : CallbackRef),
      controller.eventCallbacks = some registry →
      controller.LooksUp proxyID username password user →
      ∃ next key, controller.addEventCallbackToUser proxyID username password callback =
          .ok (next, none, key) ∧
        Registers registry (hookKey (lit "callback") proxyID username password
          user.eventCallbacks.length) (some callback) key next.eventCallbacks) ∧
    ∀ (earlier later : List (HookOperation × HookReply)) (final : ProxyController)
      (proxyID : UInt64) (username password : Bytes) (err : Option Bytes) (key : Bytes),
      key ≠ [] →
      (∀ function : FilterRef,
        Follows Performs controller (earlier ++
          (.addChannelFilter proxyID username password function, err, key) :: later) final →
        (∀ entry ∈ later, ∀ other name word,
          entry.1 ≠ .removeChannelFilterByKey other name word key) →
        final.channelFilters.find key = some function) ∧
      (∀ callback : CallbackRef,
        Follows Performs controller (earlier ++
          (.addEventCallback proxyID username password callback, err, key) :: later) final →
        (∀ entry ∈ later, ∀ other name word,
          entry.1 ≠ .removeEventCallbackByKey other name word key) →
        final.eventCallbacks.find key = some (some callback)) := by
  refine ⟨?_, ?_, ?_⟩
  · intro registry proxyID username password user function made looked
    exact addChannelFilterToUser_registers made looked function
  · intro registry proxyID username password user callback made looked
    exact addEventCallbackToUser_registers made looked callback
  · intro earlier later final proxyID username password err key returned
    constructor
    · intro function follows kept
      exact filter_key_stands follows returned kept
    · intro callback follows kept
      exact callback_key_stands follows returned kept

/-- Two users whose names and passwords make one text. -/
def dashedUsers : GoMap Bytes (Option ProxyUser) :=
  ((∅ : GoMap Bytes (Option ProxyUser)).insert (lit "a-b:c")
    (some { username := lit "a-b", password := lit "c" })).insert (lit "a:b-c")
    (some { username := lit "a", password := lit "b-c" })

def dashedController : ProxyController :=
  { emptyController with
    proxies := some ((∅ : GoMap UInt64 (Option ProxyContext)).insert 0
      (some { plainProxy with users := some dashedUsers })) }

def dashedRun : List (HookOperation × HookReply) := [
  (.addChannelFilter 0 (lit "a-b") (lit "c") 0, none, lit "filter-proxy0-a-b-c-0"),
  (.addChannelFilter 0 (lit "a") (lit "b-c") 1, none, lit "filter-proxy0-a-b-c-0."),
  (.addEventCallback 0 (lit "a") (lit "b-c") 2, none, lit "callback-proxy0-a-b-c-0")]

theorem dashedRun_follows : ∃ final, Follows Performs dashedController dashedRun final :=
  ⟨_, _, rfl, _, rfl, _, rfl, rfl⟩

theorem dashedController_looksUp : dashedController.LooksUp 0 (lit "a-b") (lit "c")
    { username := lit "a-b", password := lit "c" } := ⟨_, _, _, rfl, rfl⟩

theorem hook_keys_fresh_dashes :
    (∃ next key, dashedController.addChannelFilterToUser 0 (lit "a-b") (lit "c") 0 =
        .ok (next, none, key) ∧
      Registers ∅ (hookKey (lit "filter") 0 (lit "a-b") (lit "c") 0) 0 key
        next.channelFilters) ∧
    (∃ next key, dashedController.addEventCallbackToUser 0 (lit "a-b") (lit "c") 0 =
        .ok (next, none, key) ∧
      Registers ∅ (hookKey (lit "callback") 0 (lit "a-b") (lit "c") 0) (some 0) key
        next.eventCallbacks) ∧
    ∃ final, Follows Performs dashedController dashedRun final ∧
      final.channelFilters.find (lit "filter-proxy0-a-b-c-0") = some 0 ∧
      final.channelFilters.find (lit "filter-proxy0-a-b-c-0.") = some 1 ∧
      final.eventCallbacks.find (lit "callback-proxy0-a-b-c-0") = some (some 2) := by
  obtain ⟨filters, callbacks, runs⟩ := hook_keys_fresh dashedController
  obtain ⟨final, follows⟩ := dashedRun_follows
  refine ⟨filters ∅ 0 _ _ _ 0 rfl dashedController_looksUp,
    callbacks ∅ 0 _ _ _ 0 rfl dashedController_looksUp, final, follows, ?_, ?_, ?_⟩
  · apply (runs [] (dashedRun.drop 1) final 0 (lit "a-b") (lit "c") none _ (by decide)).1 0 follows
    simp [dashedRun]
  · apply (runs (dashedRun.take 1) (dashedRun.drop 2) final 0 (lit "a") (lit "b-c") none _
      (by decide)).1 1 follows
    simp [dashedRun]
  · apply (runs (dashedRun.take 2) [] final 0 (lit "a") (lit "b-c") none _ (by decide)).2 2 follows
    simp

end ProxyController
end SSHProxyPlus
