import SSHProxyPlus.Controller.Invariant

/-! Setting up a controller: every proxy of it is initialized, once, and none is added. -/
namespace SSHProxyPlus
open Go

namespace ProxyController
variable {controller next : ProxyController} {order : RangeOrder UInt64}
variable {f : UInt64 → ProxyContext → Except Panic ProxyContext}

/-- A loop over the proxies made of `next` what it found at `proxyID`. -/
def UpdatedAt (f : UInt64 → ProxyContext → Except Panic ProxyContext)
    (controller next : ProxyController) (proxyID : UInt64) : Prop :=
  (controller.proxies.find proxyID = none ∧ next.proxies.find proxyID = none) ∨
  ∃ proxy updated, controller.proxies.find proxyID = some (some proxy) ∧
    f proxyID proxy = .ok updated ∧ next.proxies.find proxyID = some (some updated)

theorem updateOne_ok {proxyID : UInt64} (ran : updateOne f controller proxyID = .ok next) :
    UpdatedAt f controller next proxyID ∧ (∃ proxies, next = { controller with proxies }) ∧
      (controller.proxies ≠ none → next.proxies ≠ none) ∧
      ∀ other, other ≠ proxyID → next.proxies.find other = controller.proxies.find other := by
  unfold updateOne at ran
  cases found : controller.proxies.find proxyID with
  | none =>
    rw [found] at ran
    obtain rfl := Except.ok.inj ran
    exact ⟨Or.inl ⟨found, found⟩, ⟨_, rfl⟩, id, fun _ _ => rfl⟩
  | some val =>
    rw [found] at ran
    obtain ⟨proxy, followed, rest⟩ := of_bind_ok ran
    obtain rfl := deref_ok followed
    obtain ⟨updated, done, written⟩ := of_bind_ok rest
    obtain rfl := Except.ok.inj written
    have made := MapVar.find_made found
    refine ⟨Or.inr ⟨proxy, updated, found, done, ?_⟩, ⟨_, rfl⟩, fun _ => ?_, fun other differs => ?_⟩
    · rw [updateProxy_find, if_pos ⟨rfl, made⟩]
    · obtain ⟨entries, same⟩ := Option.ne_none_iff_exists'.mp made
      simp [updateProxy, same]
    · rw [updateProxy_find, if_neg fun h => differs h.1]

theorem updateAll_ok {proxyIDs : List UInt64} (distinct : proxyIDs.Nodup)
    (ran : proxyIDs.foldlM (updateOne f) controller = .ok next) :
    (∀ proxyID ∈ proxyIDs, UpdatedAt f controller next proxyID) ∧
      (∃ proxies, next = { controller with proxies }) ∧
      (controller.proxies ≠ none → next.proxies ≠ none) ∧
      ∀ other, other ∉ proxyIDs → next.proxies.find other = controller.proxies.find other := by
  induction proxyIDs generalizing controller with
  | nil =>
    obtain rfl := Except.ok.inj ran
    exact ⟨fun _ none => absurd none List.not_mem_nil, ⟨_, rfl⟩, id, fun _ _ => rfl⟩
  | cons proxyID proxyIDs ih =>
    rw [List.foldlM_cons] at ran
    obtain ⟨middle, first, rest⟩ := of_bind_ok ran
    obtain ⟨unvisited, distinct⟩ := List.nodup_cons.mp distinct
    obtain ⟨here, ⟨_, rfl⟩, made, others⟩ := updateOne_ok first
    obtain ⟨later, ⟨_, rfl⟩, madeLater, kept⟩ := ih distinct rest
    refine ⟨fun other member => ?_, ⟨_, rfl⟩, fun h => madeLater (made h), fun other absent => ?_⟩
    · rcases List.mem_cons.mp member with rfl | visited
      · unfold UpdatedAt at here ⊢
        rwa [kept other unvisited]
      · have differs : other ≠ proxyID := fun same => unvisited (same ▸ visited)
        have there := later other visited
        unfold UpdatedAt at there ⊢
        rwa [others other differs] at there
    · obtain ⟨differs, unlisted⟩ := not_or.mp fun member => absent (List.mem_cons.mpr member)
      rw [kept other unlisted, others other differs]

/-- What a loop over the proxies gives: each of them updated, and nothing else. -/
theorem updateEach_ok (ran : controller.updateEach order f = .ok next) :
    (∀ proxyID, UpdatedAt f controller next proxyID) ∧
      (∃ proxies, next = { controller with proxies }) ∧
      (controller.proxies ≠ none → next.proxies ≠ none) := by
  obtain ⟨updated, changes, made, others⟩ := updateAll_ok (order.nodup _) ran
  refine ⟨fun proxyID => ?_, changes, made⟩
  by_cases visited : proxyID ∈ order.over controller.proxies.content
  · exact updated proxyID visited
  · have absent : controller.proxies.find proxyID = none :=
      Finmap.lookup_eq_none.mpr fun member => visited ((order.mem_over _ _).mpr member)
    exact Or.inl ⟨absent, (others proxyID visited).trans absent⟩

theorem updateAll_returns {proxyIDs : List UInt64} (distinct : proxyIDs.Nodup)
    (each : ∀ proxyID ∈ proxyIDs, ∀ val, controller.proxies.find proxyID = some val →
      ∃ proxy, val = some proxy ∧ Returns (f proxyID proxy) fun _ => True) :
    Returns (proxyIDs.foldlM (updateOne f) controller) fun _ => True := by
  induction proxyIDs generalizing controller with
  | nil => exact returns_pure trivial
  | cons proxyID proxyIDs ih =>
    rw [List.foldlM_cons]
    obtain ⟨unvisited, distinct⟩ := List.nodup_cons.mp distinct
    have first : Returns (updateOne f controller proxyID) fun _ => True := by
      unfold updateOne
      cases found : controller.proxies.find proxyID with
      | none => exact returns_pure trivial
      | some val =>
        obtain ⟨proxy, rfl, returns⟩ := each proxyID List.mem_cons_self val found
        refine (returns_deref (Option.some_ne_none proxy)).bind fun same isProxy => ?_
        obtain rfl := Option.some.inj isProxy
        exact returns.bind fun _ _ => returns_pure trivial
    obtain ⟨middle, ran, -⟩ := first
    rw [ran]
    refine ih distinct fun other visited val found => ?_
    have differs : other ≠ proxyID := fun same => unvisited (same ▸ visited)
    rw [(updateOne_ok ran).2.2.2 other differs] at found
    exact each other (List.mem_cons_of_mem _ visited) val found

theorem updateEach_returns
    (each : ∀ proxyID val, controller.proxies.find proxyID = some val →
      ∃ proxy, val = some proxy ∧ Returns (f proxyID proxy) fun _ => True)
    (order : RangeOrder UInt64) : Returns (controller.updateEach order f) fun _ => True :=
  updateAll_returns (order.nodup _) fun proxyID _ => each proxyID

/-- Loggers are written into the proxies, and that is all. -/
theorem updateProxiesWithCurrentLogger_ok {overwrite : Bool}
    (ran : controller.updateProxiesWithCurrentLogger overwrite order = .ok next) :
    (∀ proxyID, (controller.proxies.find proxyID = none ∧ next.proxies.find proxyID = none) ∨
      ∃ proxy log, controller.proxies.find proxyID = some (some proxy) ∧
        next.proxies.find proxyID = some (some { proxy with log }) ∧
        (controller.log ≠ none → proxy.log ≠ none → log ≠ none)) ∧
      (∃ proxies, next = { controller with proxies }) ∧
      (controller.proxies ≠ none → next.proxies ≠ none) := by
  obtain ⟨each, changes, made⟩ := updateEach_ok ran
  refine ⟨fun proxyID => ?_, changes, made⟩
  rcases each proxyID with absent | ⟨proxy, updated, found, logged, there⟩
  · exact Or.inl absent
  · obtain rfl := Except.ok.inj logged
    split at there
    · exact Or.inr ⟨proxy, _, found, there, fun written _ => written⟩
    · exact Or.inr ⟨proxy, proxy.log, found, there, fun _ kept => kept⟩

theorem updateProxiesWithCurrentLogger_returns
    (pointers : ∀ proxyID, controller.proxies.find proxyID ≠ some none) (overwrite : Bool)
    (order : RangeOrder UInt64) :
    Returns (controller.updateProxiesWithCurrentLogger overwrite order) fun _ => True := by
  refine updateEach_returns (fun proxyID val found => ?_) order
  cases val with
  | none => exact absurd found (pointers proxyID)
  | some proxy => exact ⟨proxy, rfl, returns_pure trivial⟩

variable {setup : Setup}

/-- What setting up made of the proxy of that ID. -/
def InitializedAt (setup : Setup) (controller next : ProxyController) (proxyID : UInt64) : Prop :=
  (controller.proxies.find proxyID = none ∧ next.proxies.find proxyID = none) ∨
  ∃ proxy ready before after, controller.proxies.find proxyID = some (some proxy) ∧
    ProxyContext.initializeProxy { proxy with log := before }
      (controller.defaultSigner.or setup.generated) (setup.viewerOrder proxyID) = .ok ready ∧
    next.proxies.find proxyID = some (some { ready with log := after }) ∧
    (ready.log ≠ none → after ≠ none)

theorem withDefaults_find (controller : ProxyController) (generated : Option Signer)
    (proxyID : UInt64) :
    (controller.withDefaults generated).proxies.find proxyID = controller.proxies.find proxyID := by
  cases made : controller.proxies with
  | none => simp [withDefaults, made]
  | some entries => simp [withDefaults, made]

theorem initializeController_ok (ran : controller.initializeController setup = .ok next) :
    (∀ proxyID, InitializedAt setup controller next proxyID) ∧
      next.log ≠ none ∧ next.channelFilters ≠ none ∧ next.eventCallbacks ≠ none ∧
      next.proxies ≠ none := by
  obtain ⟨logged, first, rest⟩ := of_bind_ok ran
  obtain ⟨visited, second, last⟩ := of_bind_ok rest
  obtain ⟨log, proxies, hasLog, rfl, loggers⟩ : ∃ log proxies, log ≠ none ∧
      logged = { controller with log, proxies } ∧
      ∀ proxyID, (controller.proxies.find proxyID = none ∧ proxies.find proxyID = none) ∨
        ∃ proxy before, controller.proxies.find proxyID = some (some proxy) ∧
          proxies.find proxyID = some (some { proxy with log := before }) := by
    unfold ensureLogger at first
    split at first
    · obtain ⟨each, ⟨proxies, rfl⟩, _⟩ := updateProxiesWithCurrentLogger_ok first
      refine ⟨_, proxies, Option.some_ne_none _, rfl, fun proxyID => ?_⟩
      exact (each proxyID).imp_right fun ⟨proxy, before, found, there, _⟩ =>
        ⟨proxy, before, found, there⟩
    · next noted =>
      obtain rfl := Except.ok.inj first
      refine ⟨_, _, fun absent => noted (by simp [absent]), rfl, fun proxyID => ?_⟩
      cases found : controller.proxies.find proxyID with
      | none => exact Or.inl ⟨rfl, rfl⟩
      | some val =>
        -- a nil proxy does not survive the loop below
        cases val with
        | some proxy => exact Or.inr ⟨proxy, proxy.log, rfl, rfl⟩
        | none =>
          rcases (updateEach_ok second).1 proxyID with ⟨absent, _⟩ | ⟨proxy, _, there, _⟩
          · rw [withDefaults_find, found] at absent
            contradiction
          · rw [withDefaults_find, found] at there
            exact absurd (Option.some.inj there) (Option.some_ne_none proxy).symm
  obtain ⟨initialized, ⟨_, rfl⟩, made⟩ := updateEach_ok second
  obtain ⟨final, ⟨_, rfl⟩, still⟩ := updateProxiesWithCurrentLogger_ok last
  have filled : ∀ {V : Type} (m : MapVar Bytes V), m.or (some ∅) ≠ none := by
    intro V m
    cases m with
    | none => exact Option.some_ne_none _
    | some entries => exact Option.some_ne_none _
  refine ⟨fun proxyID => ?_, hasLog, filled _, filled _, still (made ?_)⟩
  · have here := initialized proxyID
    unfold UpdatedAt at here
    rw [withDefaults_find] at here
    rcases final proxyID with ⟨absent, gone⟩ | ⟨ready, after, found, there, kept⟩
    · rcases here with ⟨unlisted, _⟩ | ⟨_, updated, _, _, present⟩
      · rcases loggers proxyID with ⟨missing, _⟩ | ⟨proxy, before, _, present⟩
        · exact Or.inl ⟨missing, gone⟩
        · rw [present] at unlisted
          contradiction
      · rw [present] at absent
        contradiction
    · rcases here with ⟨_, missing⟩ | ⟨proxy, updated, listed, done, present⟩
      · rw [missing] at found
        contradiction
      · obtain rfl := MapVar.find_unique present found
        rcases loggers proxyID with ⟨_, missing⟩ | ⟨original, before, origin, stored⟩
        · rw [missing] at listed
          contradiction
        · obtain rfl := MapVar.find_unique stored listed
          exact Or.inr ⟨original, updated, before, after, origin, done, there, kept hasLog⟩
  · cases made : proxies with
    | none => simp [withDefaults]
    | some entries => simp [withDefaults]

/-- Setting up returns, in whatever order it visits, when every proxy is there and all its
viewers can be linked. -/
theorem initializeController_returns
    (ready : ∀ proxyID val, controller.proxies.find proxyID = some val →
      ∃ proxy, val = some proxy ∧ proxy.Linkable) (setup : Setup) :
    Returns (controller.initializeController setup) fun _ => True := by
  have logged : Returns (controller.ensureLogger setup.proxyOrder) fun logged =>
      ∀ proxyID val, logged.proxies.find proxyID = some val →
        ∃ proxy, val = some proxy ∧ proxy.Linkable := by
    unfold ensureLogger
    split
    · have pointers : ∀ proxyID, controller.proxies.find proxyID ≠ some none := by
        intro proxyID nil
        obtain ⟨proxy, same, _⟩ := ready proxyID none nil
        contradiction
      obtain ⟨logged, ran, -⟩ := @updateProxiesWithCurrentLogger_returns
        { controller with log := some defaultLogger } pointers true setup.proxyOrder
      refine ⟨logged, ran, fun proxyID val found => ?_⟩
      rcases (updateProxiesWithCurrentLogger_ok ran).1 proxyID with
        ⟨_, absent⟩ | ⟨proxy, log, origin, stored, _⟩
      · rw [absent] at found
        contradiction
      · obtain ⟨original, same, linkable⟩ := ready proxyID _ origin
        obtain rfl := Option.some.inj same
        refine ⟨_, (Option.some.inj (stored.symm.trans found)).symm, fun key => ?_⟩
        exact ⟨(linkable key).notNil, (linkable key).blank⟩
    · exact returns_pure ready
  refine logged.bind fun logged ready => ?_
  have visited : Returns ((logged.withDefaults setup.generated).updateEach setup.proxyOrder
      fun proxyID proxy => proxy.initializeProxy (logged.withDefaults setup.generated).defaultSigner
        (setup.viewerOrder proxyID)) fun visited =>
      ∀ proxyID, visited.proxies.find proxyID ≠ some none := by
    obtain ⟨visited, ran, -⟩ := updateEach_returns (fun proxyID val found => by
      rw [withDefaults_find] at found
      obtain ⟨proxy, same, linkable⟩ := ready proxyID val found
      exact ⟨proxy, same, ProxyContext.initializeProxy_returns linkable
        (logged.withDefaults setup.generated).defaultSigner (setup.viewerOrder proxyID)⟩)
      setup.proxyOrder
    refine ⟨visited, ran, fun proxyID nil => ?_⟩
    rcases (updateEach_ok ran).1 proxyID with ⟨_, absent⟩ | ⟨_, _, _, _, present⟩
    · rw [absent] at nil
      contradiction
    · rw [present] at nil
      exact absurd (Option.some.inj nil) (Option.some_ne_none _)
  exact visited.bind fun visited pointers =>
    updateProxiesWithCurrentLogger_returns pointers false setup.proxyOrder

/-- Before it is set up: the proxies it has are idle. -/
def Idle (controller : ProxyController) : Prop :=
  ∀ proxyID proxy, controller.proxies.find proxyID = some (some proxy) → proxy.Idle

theorem initializeController_proper {filters callbacks : Nat} (idle : controller.Idle)
    (ran : controller.initializeController setup = .ok next) :
    next.Proper filters callbacks := by
  obtain ⟨each, log, channelFilters, eventCallbacks, made⟩ := initializeController_ok ran
  refine ⟨log, channelFilters, eventCallbacks, made, fun proxyID val found => ?_⟩
  rcases each proxyID with ⟨_, absent⟩ | ⟨proxy, ready, before, after, origin, done, there, noted⟩
  · rw [absent] at found
    contradiction
  · have still := idle proxyID proxy origin
    have logged : ProxyContext.Idle { proxy with log := before } :=
      ⟨still.running, still.everyone.registered, still.everyone.viewing⟩
    have proper : ready.Proper filters callbacks := initializeProxy_proper logged done
    obtain rfl := Option.some.inj (there.symm.trans found)
    exact ⟨_, rfl, { proper with log := noted proper.log }⟩

/-- A configuration file holds decoded proxies. -/
def Decoded (controller : ProxyController) : Prop :=
  ∀ proxyID val, controller.proxies.find proxyID = some val →
    True ∧ ∀ proxy, val = some proxy → proxy.Decoded

theorem codec_yields : codec.Yields Decoded := by
  have key : ∀ text id, uint64Key.read text = some id → True := fun _ _ _ => trivial
  have decoded := mapCodec_yields key (pointerCodec_yields ProxyContext.codec_yields)
  refine structCodec_yields decoded.zero ?_
  simp only [fields, List.forall_mem_cons]
  exact ⟨field_yields decoded (fun a held => held) fun x a _ held => held,
    field_keeps fun _ _ => id, field_keeps fun _ _ => id, field_keeps fun _ _ => id,
    field_keeps fun _ _ => id, field_keeps fun _ _ => id, field_keeps fun _ _ => id,
    field_keeps fun _ _ => id, field_keeps fun _ _ => id, field_keeps fun _ _ => id,
    field_keeps fun _ _ => id, fun f none => absurd none List.not_mem_nil⟩

theorem unmarshal_idle {data : Bytes} (decoded : codec.unmarshal data {} = some controller) :
    controller.Idle := fun proxyID proxy found =>
  ((codec_yields.unmarshal codec_yields.zero decoded) proxyID _ found).2 proxy rfl |>.idle

end ProxyController

theorem loadControllerConfigFromFile_ok {data : Bytes} {signer : Option Signer} {setup : Setup}
    {ready : ProxyController}
    (loaded : loadControllerConfigFromFile data signer setup = .ok (some ready)) :
    ∃ decoded : ProxyController, ProxyController.codec.unmarshal data {} = some decoded ∧
      ProxyController.initializeController
        { decoded with defaultSigner := signer.or decoded.defaultSigner } setup = .ok ready := by
  unfold loadControllerConfigFromFile at loaded
  split at loaded
  · next decoded read =>
    obtain ⟨initialized, ran, done⟩ := of_bind_ok loaded
    obtain rfl := Option.some.inj (Except.ok.inj done)
    exact ⟨decoded, read, ran⟩
  · exact absurd (Except.ok.inj loaded) (Option.some_ne_none ready).symm

end SSHProxyPlus
