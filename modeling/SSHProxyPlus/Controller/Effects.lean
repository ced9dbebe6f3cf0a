import SSHProxyPlus.Controller.Clients

/-! What commands do to the table of proxies, entry by entry. Commands about one entry keep
their order; those about different ones can be brought into the order in which IDs were
handed out. -/
namespace SSHProxyPlus
open Go Transition

/-- The command comes down to adding that proxy. -/
def ClientCommand.Adds (proxy : ProxyRef) (logged : Bool) : ClientCommand → Prop
  | .createProxy allocated => proxy = allocated ∧ logged = true
  | .addProxy added => proxy = added ∧ logged = true
  | .addProxyFromJSON data _ allocated =>
      ProxyContext.codec.unmarshal data {} ≠ none ∧ proxy = allocated ∧ logged = true
  | .addExistingProxy added => proxy = added ∧ logged = false
  | _ => False

theorem ClientCommand.Adds.serve {command : ClientCommand} {proxy : ProxyRef} {logged : Bool}
    (adds : command.Adds proxy logged) (registry : Registry) :
    registry.serve command = registry.add proxy := by
  cases command with
  | createProxy allocated => exact adds.1 ▸ rfl
  | addProxy added => exact adds.1 ▸ rfl
  | addProxyFromJSON data order allocated =>
    obtain ⟨decoded, read⟩ := Option.ne_none_iff_exists'.mp adds.1
    simp only [Registry.serve, read, adds.2.1]
  | addExistingProxy added => exact adds.1 ▸ rfl
  | destroyProxy proxyID order now => exact adds.elim
  | getProxy proxyID => exact adds.elim

/-- The command looks at the entry of one ID only, and changes no other. -/
structure Registry.Local (command : ClientCommand) (proxyID : UInt64) : Prop where
  counter : ∀ registry : Registry, (registry.serve command).1.counter = registry.counter
  created : ∀ (registry : Registry) (id : UInt64), (registry.serve command).2 ≠ .created id
  frame : ∀ (registry : Registry) (other : UInt64), other ≠ proxyID →
    (registry.serve command).1.entries other = registry.entries other
  entry : ∀ registry registry' : Registry,
    registry.entries proxyID = registry'.entries proxyID →
    (registry.serve command).1.entries proxyID = (registry'.serve command).1.entries proxyID ∧
      (registry.serve command).2 = (registry'.serve command).2

theorem local_destroyProxy (proxyID : UInt64) (order : RangeOrder Bytes) (now : Time) :
    Registry.Local (.destroyProxy proxyID order now) proxyID where
  counter _ := rfl
  created _ _ := CommandResult.noConfusion
  frame _ _ other := if_neg other
  entry registry registry' same := by
    refine ⟨(if_pos rfl).trans (if_pos rfl).symm, ?_⟩
    simp only [Registry.serve, same]

theorem local_getProxy (proxyID : UInt64) : Registry.Local (.getProxy proxyID) proxyID where
  counter _ := rfl
  created _ _ := CommandResult.noConfusion
  frame _ _ _ := rfl
  entry registry registry' same := by
    refine ⟨same, ?_⟩
    simp only [Registry.serve, same]

theorem local_notDecoded {data : Bytes} {order : RangeOrder Bytes} {allocated : ProxyRef}
    (undecoded : ProxyContext.codec.unmarshal data {} = none) (proxyID : UInt64) :
    Registry.Local (.addProxyFromJSON data order allocated) proxyID where
  counter _ := by simp only [Registry.serve, undecoded]
  created _ _ := by simp [Registry.serve, undecoded]
  frame _ _ _ := by simp only [Registry.serve, undecoded]
  entry _ _ same := by
    simp only [Registry.serve, undecoded]
    exact ⟨same, trivial⟩

/-- What calls have done so far, in the order in which they did it, each under the ID whose
entry it was about. -/
abbrev Effects := List (UInt64 × ClientCommand × CommandResult)

namespace Effects

def about (proxyID : UInt64) (effects : Effects) : List (ClientCommand × CommandResult) :=
  (effects.filter (·.1 = proxyID)).map Prod.snd

/-- The ID under which a proxy was added. -/
def added : UInt64 × ClientCommand × CommandResult → Option UInt64
  | (proxyID, _, .created _) => some proxyID
  | _ => none

variable {proxyID : UInt64} {effects : Effects}

theorem about_append (effects later : Effects) :
    about proxyID (effects ++ later) = about proxyID effects ++ about proxyID later := by
  simp [about]

theorem about_cons (effect : UInt64 × ClientCommand × CommandResult) : about proxyID (effect :: effects) =
    if effect.1 = proxyID then effect.2 :: about proxyID effects else about proxyID effects := by
  unfold about
  by_cases here : effect.1 = proxyID <;> simp [here]

theorem about_eq_nil (elsewhere : ∀ effect ∈ effects, effect.1 ≠ proxyID) :
    about proxyID effects = [] := by
  unfold about
  rw [List.filter_eq_nil_iff.mpr fun effect member => by simpa using elsewhere effect member]
  rfl

theorem added_eq_some {effect : UInt64 × ClientCommand × CommandResult}
    (adds : added effect = some proxyID) : effect.1 = proxyID := by
  obtain ⟨id, command, result⟩ := effect
  cases result <;> simp_all [added]

theorem added_none {result : CommandResult} (other : ∀ id, result ≠ .created id)
    (command : ClientCommand) : added (proxyID, command, result) = none := by
  cases result with
  | created id => exact absurd rfl (other id)
  | notDecoded => rfl
  | destroyed err => rfl
  | got proxy err => rfl

/-- The effect that first adds something under an ID. -/
theorem first_added (adds : proxyID ∈ effects.filterMap added) :
    ∃ before effect after, effects = before ++ effect :: after ∧ added effect = some proxyID ∧
      ∀ effect ∈ before, added effect ≠ some proxyID := by
  obtain ⟨effect, member, adds⟩ := List.mem_filterMap.mp adds
  have found : (effects.find? fun effect => added effect = some proxyID).isSome :=
    List.find?_isSome.mpr ⟨effect, member, by simpa using adds⟩
  obtain ⟨first, found⟩ := Option.isSome_iff_exists.mp found
  obtain ⟨adds', before, after, same, earlier⟩ := List.find?_eq_some_iff_append.mp found
  exact ⟨before, first, after, same, by simpa using adds',
    fun effect member => by simpa using earlier effect member⟩

def own (proxyID : UInt64) (effects : Effects) : Effects := effects.filter (·.1 = proxyID)

def others (proxyID : UInt64) (effects : Effects) : Effects :=
  effects.filter fun effect => !decide (effect.1 = proxyID)

theorem own_append_others (proxyID : UInt64) (effects : Effects) :
    (own proxyID effects ++ others proxyID effects).Perm effects :=
  List.filter_append_perm _ effects

theorem about_own (proxyID : UInt64) (effects : Effects) :
    about proxyID (own proxyID effects) = about proxyID effects := by
  simp [about, own]

theorem about_own_other {other : UInt64} (different : other ≠ proxyID) :
    about other (own proxyID effects) = [] :=
  about_eq_nil fun effect member => by
    have here : effect.1 = proxyID := by simpa using (List.mem_filter.mp member).2
    exact fun there => different (there.symm.trans here)

theorem about_others (proxyID : UInt64) (effects : Effects) :
    about proxyID (others proxyID effects) = [] :=
  about_eq_nil fun effect member => by simpa using (List.mem_filter.mp member).2

theorem about_others_other {other : UInt64} (different : other ≠ proxyID) :
    about other (others proxyID effects) = about other effects := by
  unfold about others
  rw [List.filter_filter]
  refine congrArg (List.map Prod.snd) (List.filter_congr fun effect _ => ?_)
  by_cases here : effect.1 = other <;> simp [here, different]

theorem own_unadded (unadded : ∀ effect ∈ effects, added effect ≠ some proxyID) :
    (own proxyID effects).filterMap added = [] := by
  refine List.filterMap_eq_nil_iff.mpr fun effect member => ?_
  obtain ⟨inside, here⟩ := List.mem_filter.mp member
  by_contra adds
  obtain ⟨id, adds⟩ := Option.ne_none_iff_exists'.mp adds
  have same : proxyID = id := (of_decide_eq_true here).symm.trans (added_eq_some adds)
  exact unadded effect inside (same ▸ adds)

end Effects

/-- What a command does to the entry of an ID that it is about. -/
inductive Registry.Touches (proxyID : UInt64) :
    Option ProxyRef → ClientCommand × CommandResult → Option ProxyRef → Prop where
  | added {command : ClientCommand} {proxy : ProxyRef} {logged : Bool}
      (adds : command.Adds proxy logged) (entry : Option ProxyRef) :
      Touches proxyID entry (command, .created proxyID) (some proxy)
  | served {command : ClientCommand} {registry next : Registry} {result : CommandResult}
      (local' : Registry.Local command proxyID) (served : registry.serve command = (next, result)) :
      Touches proxyID (registry.entries proxyID) (command, result) (next.entries proxyID)

namespace Registry
variable {registry : Registry} {proxyID : UInt64} {command : ClientCommand} {result : CommandResult}
  {entry entry' : Option ProxyRef}

def put (registry : Registry) (proxyID : UInt64) (entry : Option ProxyRef) : Registry :=
  { registry with entries := fun id => if id = proxyID then entry else registry.entries id }

@[simp] theorem put_self : (registry.put proxyID entry).entries proxyID = entry := if_pos rfl

theorem put_other {id : UInt64} (other : id ≠ proxyID) :
    (registry.put proxyID entry).entries id = registry.entries id := if_neg other

/-- A command that adds nothing can be served by any registry with the same entry. -/
theorem Touches.serve (touches : Touches proxyID (registry.entries proxyID) (command, result) entry')
    (adds : Effects.added (proxyID, command, result) = none) :
    registry.serve command = (registry.put proxyID entry', result) := by
  generalize same : registry.entries proxyID = entry at touches
  cases touches with
  | added adds' entry => contradiction
  | served local' served =>
    rename_i registry' next
    obtain ⟨entries, results⟩ := local'.entry registry registry' same
    rw [served] at entries results
    refine Prod.ext (Registry.ext (funext fun id => ?_) (local'.counter registry)) results
    by_cases here : id = proxyID
    · rw [here]
      exact entries.trans put_self.symm
    · exact (local'.frame registry id here).trans (put_other here).symm

/-- A command that adds a proxy can be served when it is the turn of the ID. -/
theorem Touches.serve_added (touches : Touches proxyID entry (command, result) entry')
    (adds : Effects.added (proxyID, command, result) = some proxyID)
    (turn : registry.counter = proxyID) : registry.serve command =
      ({ registry.put proxyID entry' with counter := proxyID + 1 }, result) := by
  subst turn
  cases touches with
  | added adds' entry =>
    rw [adds'.serve]
    rfl
  | served local' served =>
    rename_i registry' next
    have kept := local'.created registry'
    rw [served] at kept
    rw [Effects.added_none kept] at adds
    contradiction

/-- Where nothing is added, the effects on the entries can keep their order. -/
theorem explains_unadded {effects : Effects} {final : Registry}
    (none' : effects.filterMap Effects.added = [])
    (touched : ∀ id, Follows (Touches id) (registry.entries id) (effects.about id)
      (final.entries id))
    (counter : registry.counter = final.counter) :
    object.Explains registry (effects.map Prod.snd) final := by
  induction effects generalizing registry with
  | nil => exact Registry.ext (funext touched) counter
  | cons effect effects ih =>
    obtain ⟨proxyID, command, result⟩ := effect
    have alone : Effects.added (proxyID, command, result) = none ∧
        effects.filterMap Effects.added = [] := by
      simpa [List.filterMap_eq_nil_iff] using none'
    have here := touched proxyID
    rw [Effects.about_cons, if_pos rfl] at here
    obtain ⟨entry', touches, later⟩ := here
    refine ⟨_, touches.serve alone.1, ih alone.2 (fun id => ?_) counter⟩
    by_cases same : id = proxyID
    · subst same
      rw [put_self]
      exact later
    · rw [put_other same]
      have there := touched id
      rw [Effects.about_cons, if_neg (Ne.symm same)] at there
      exact there

/-- An ID is handed out. -/
def Hands (counter proxyID next : UInt64) : Prop := proxyID = counter ∧ next = counter + 1

/-- Effects on different entries can be brought into the order in which the IDs were handed
out to those that add a proxy. -/
theorem explains_sorted {effects : Effects} {ids : List UInt64} {final : Registry}
    (touched : ∀ id, Follows (Touches id) (registry.entries id) (effects.about id)
      (final.entries id))
    (handed : Follows Hands registry.counter ids final.counter)
    (counted : (effects.filterMap Effects.added).Perm ids) :
    ∃ history, history.Perm (effects.map Prod.snd) ∧ object.Explains registry history final := by
  induction ids generalizing registry effects with
  | nil => exact ⟨_, .refl _, explains_unadded counted.eq_nil touched handed⟩
  | cons proxyID ids ih =>
    obtain ⟨_, ⟨rfl, rfl⟩, handed⟩ := handed
    obtain ⟨before, ⟨_, command, result⟩, after, rfl, adds, earlier⟩ :=
      Effects.first_added (counted.mem_iff.mpr List.mem_cons_self)
    obtain rfl := Effects.added_eq_some adds
    -- what happened to this entry goes first, then it is added, then all the rest
    have here := touched registry.counter
    rw [Effects.about_append, Effects.about_cons, if_pos rfl, follows_append] at here
    obtain ⟨mid, first, entry', touches, last⟩ := here
    have owned : object.Explains registry ((Effects.own registry.counter before).map Prod.snd)
        (registry.put registry.counter mid) := by
      refine explains_unadded (Effects.own_unadded earlier) (fun id => ?_) rfl
      by_cases same : id = registry.counter
      · rw [same, Effects.about_own, put_self]
        exact first
      · rw [Effects.about_own_other same, put_other same]
        rfl
    have served := @Touches.serve_added (registry.put registry.counter mid) _ _ _ _ _ touches adds rfl
    have later : ∀ id, Follows (Touches id)
        (((registry.put registry.counter mid).put registry.counter entry').entries id)
        (Effects.about id (Effects.others registry.counter before ++ after)) (final.entries id) := by
      intro id
      rw [Effects.about_append]
      by_cases same : id = registry.counter
      · rw [same, Effects.about_others, put_self]
        exact last
      · have there := touched id
        rw [Effects.about_append, Effects.about_cons, if_neg (Ne.symm same)] at there
        rw [Effects.about_others_other same, put_other same, put_other same]
        exact there
    have fewer : ((Effects.others registry.counter before ++ after).filterMap Effects.added).Perm
        ids := by
      have split := (Effects.own_append_others registry.counter before).filterMap Effects.added
      rw [List.filterMap_append, Effects.own_unadded earlier, List.nil_append] at split
      rw [List.filterMap_append, List.filterMap_cons_some adds] at counted
      rw [List.filterMap_append]
      exact ((split.append_right _).cons _).trans (List.perm_middle.symm.trans counted) |>.cons_inv
    obtain ⟨history, sorted, explained⟩ := @ih
      { (registry.put registry.counter mid).put registry.counter entry' with
        counter := registry.counter + 1 } _ later handed fewer
    refine ⟨(Effects.own registry.counter before).map Prod.snd ++ (command, result) :: history, ?_,
      follows_append.mpr ⟨_, owned, _, served, explained⟩⟩
    have split := ((Effects.own_append_others registry.counter before).map Prod.snd).append_right
      ((command, result) :: after.map Prod.snd)
    simp only [List.map_append, List.map_cons] at sorted split ⊢
    refine .trans ?_ split
    rw [List.append_assoc]
    exact ((sorted.cons _).trans List.perm_middle.symm).append_left _

end Registry

end SSHProxyPlus
