import SSHProxyPlus.Go.SharedSlice
import SSHProxyPlus.Proxy.User

/-! The filters of a session whose user is a copy of a registered one: the copy has a slice of its
own, over the array of the other. -/
namespace SSHProxyPlus
open Go Arrays

structure SharedFilters where
  arrays : Arrays FilterRef
  user : Option SliceHeader
  session : Option SliceHeader

/-- The size of a new array is up to `append`. -/
inductive FilterCall where
  | add (function : FilterRef) (spare : Nat)
  | remove (function : FilterRef)

def FilterCall.installs : FilterCall → Option FilterRef
  | .add function _ => some function
  | .remove _ => none

/-- A nil slice has no elements. -/
def filtersIn (arrays : Arrays FilterRef) : Option SliceHeader → List FilterRef
  | some header => arrays.list header
  | none => []

namespace SharedFilters

def userFilters (s : SharedFilters) : List FilterRef := filtersIn s.arrays s.user

/-- What `Read` ranges over. -/
def sessionFilters (s : SharedFilters) : List FilterRef := filtersIn s.arrays s.session

/-- `GetProxyUser` hands out a copy of the user that is registered. -/
def cloneUser (arrays : Arrays FilterRef) (user : Option SliceHeader) : SharedFilters :=
  { arrays, user, session := user }

/-- A slice is made where there is none yet. -/
def madeFilters (s : SharedFilters) : Arrays FilterRef × SliceHeader :=
  match s.user with
  | some header => (s.arrays, header)
  | none => (s.arrays ++ [{}], { array := s.arrays.length, length := 0 })

def addChannelFilter (s : SharedFilters) (function : FilterRef) (spare : Nat) : SharedFilters :=
  let (made, header) := s.madeFilters
  let (arrays, channelFilters) := made.push header function spare
  { s with arrays, user := some channelFilters }

def removeChannelFilter (s : SharedFilters) (function : FilterRef) : Except Panic SharedFilters :=
  match s.user with
  | some header => do
      let (arrays, channelFilters) ← s.arrays.swapRemove header function
      return { s with arrays, user := some channelFilters }
  | none => return s

def call (s : SharedFilters) : FilterCall → Except Panic SharedFilters
  | .add function spare => .ok (s.addChannelFilter function spare)
  | .remove function => s.removeChannelFilter function

def run (s : SharedFilters) (calls : List FilterCall) : Except Panic SharedFilters :=
  calls.foldlM call s

/-- The session runs the filters its user had at login, or those that it has now. -/
def Configured (login : List FilterRef) (s : SharedFilters) : Prop :=
  s.sessionFilters = login ∨ s.sessionFilters = s.userFilters

/-- The user and the session have slices over one array. -/
def Shares (s : SharedFilters) (user session : SliceHeader) : Prop :=
  s.user = some user ∧ s.session = some session ∧ user.array = session.array

def Changes (s : SharedFilters) : FilterCall → Prop
  | .add _ _ => True
  | .remove function => function ∈ s.userFilters

/-- The call writes to an element that the session's slice covers. -/
def Overwrites (s : SharedFilters) : FilterCall → Prop
  | .add _ _ => ∃ user session, s.Shares user session ∧
      user.length < (s.arrays.backing user.array).capacity ∧ user.length < session.length
  | .remove function => ∃ user session, s.Shares user session ∧
      ∃ i, s.userFilters[i]? = some function ∧ i + 1 < user.length ∧ i < session.length

def lengthAfter (s : SharedFilters) : FilterCall → Nat
  | .add _ _ => s.userFilters.length + 1
  | .remove _ => s.userFilters.length - 1

/-- A call that changes the user's list finds the session with the filters of its login, and
where it overwrites one of those, it makes the two lists equal in length. -/
def Meets (login : List FilterRef) (s : SharedFilters) (call : FilterCall) : Prop :=
  s.Changes call → s.sessionFilters = login ∧
    (s.Overwrites call → s.lengthAfter call = s.sessionFilters.length)

structure Sound (s : SharedFilters) : Prop where
  user : ∀ header, s.user = some header → header.Within s.arrays
  session : ∀ header, s.session = some header → header.Within s.arrays
  distinct : s.userFilters.Nodup

/-- What a call makes of the two lists. -/
structure Effect (s : SharedFilters) (call : FilterCall) (next : SharedFilters) : Prop where
  sound : next.Sound
  user : ∀ f ∈ next.userFilters, f ∈ s.userFilters ∨ call.installs = some f
  idle : ¬ s.Changes call → next = s
  length : s.Changes call → next.userFilters.length = s.lengthAfter call
  sessionLength : next.sessionFilters.length = s.sessionFilters.length
  untouched : ¬ s.Overwrites call → next.sessionFilters = s.sessionFilters
  touched : (∀ f, call.installs = some f → f ∉ s.sessionFilters) → s.Overwrites call →
    next.sessionFilters ≠ s.sessionFilters
  repeated : s.sessionFilters = s.userFilters → s.Overwrites call → ¬ next.sessionFilters.Nodup
  aligned : s.Overwrites call → s.lengthAfter call = s.sessionFilters.length →
    next.sessionFilters = next.userFilters

/-- Where a slice had to be made for it, the user shares no array, and has no room in its own. -/
structure Made (s : SharedFilters) (arrays : Arrays FilterRef) (header : SliceHeader) : Prop where
  within : header.Within arrays
  list : arrays.list header = s.userFilters
  others : ∀ other : SliceHeader, other.Within s.arrays →
    other.Within arrays ∧ arrays.list other = s.arrays.list other
  user : (s.user = some header ∧ arrays = s.arrays) ∨
    (s.user = none ∧ (arrays.backing header.array).capacity = 0)

theorem madeFilters_made {s : SharedFilters} (sound : s.Sound) :
    Made s s.madeFilters.1 s.madeFilters.2 := by
  obtain ⟨arrays, user, session⟩ := s
  cases user with
  | some header =>
    exact ⟨sound.user header rfl, rfl, fun _ within => ⟨within, rfl⟩, .inl ⟨rfl, rfl⟩⟩
  | none =>
    have fresh : Arrays.backing (arrays ++ [({} : BackingArray FilterRef)]) arrays.length = {} :=
      backing_new {}
    refine ⟨⟨?_, Nat.zero_le _⟩, ?_, fun other within => ⟨⟨?_, ?_⟩, ?_⟩, .inr ⟨rfl, ?_⟩⟩
    · simp [madeFilters]
    · simp [madeFilters, Arrays.list, userFilters, filtersIn]
    · simpa [madeFilters] using Nat.lt_succ_of_lt within.allocated
    · simpa only [madeFilters, backing_append within.allocated] using within.written
    · simp only [madeFilters, Arrays.list, backing_append within.allocated]
    · simp only [madeFilters, fresh]

theorem Overwrites.add_iff {s : SharedFilters} {user session : SliceHeader}
    (registered : s.user = some user) (entered : s.session = some session) {function spare : Nat} :
    s.Overwrites (.add function spare) ↔ user.array = session.array ∧
      user.length < (s.arrays.backing user.array).capacity ∧ user.length < session.length := by
  constructor
  · rintro ⟨user', session', ⟨same, same', shared⟩, room, covered⟩
    obtain rfl := Option.some.inj (registered.symm.trans same)
    obtain rfl := Option.some.inj (entered.symm.trans same')
    exact ⟨shared, room, covered⟩
  · exact fun ⟨shared, room, covered⟩ =>
      ⟨user, session, ⟨registered, entered, shared⟩, room, covered⟩

/-- What the session sees of an addition. -/
theorem add_session {s : SharedFilters} (sound : s.Sound) (function : FilterRef) (spare : Nat) :
    (s.Overwrites (.add function spare) →
      (s.addChannelFilter function spare).sessionFilters =
        s.sessionFilters.set s.userFilters.length function ∧
      s.userFilters.length < s.sessionFilters.length) ∧
    (¬ s.Overwrites (.add function spare) →
      (s.addChannelFilter function spare).sessionFilters = s.sessionFilters) := by
  have made := madeFilters_made sound
  have pushed := push_pushed made.within function spare
  have place := push_array s.madeFilters.1 s.madeFilters.2 function spare
  have size : s.madeFilters.2.length = s.userFilters.length := by
    rw [← length_list made.within, made.list]
  cases entered : s.session with
  | none =>
    have noFilters : s.sessionFilters = [] := by rw [sessionFilters, entered, filtersIn]
    have still : (s.addChannelFilter function spare).sessionFilters = [] := by
      rw [sessionFilters, show (s.addChannelFilter function spare).session = none from entered,
        filtersIn]
    constructor
    · rintro ⟨user, session, ⟨-, some, -⟩, -⟩
      rw [entered] at some
      contradiction
    · exact fun _ => still.trans noFilters.symm
  | some session =>
    have within := sound.session session entered
    obtain ⟨withinMade, sameList⟩ := made.others session within
    have before : s.sessionFilters = s.arrays.list session := by
      rw [sessionFilters, entered, filtersIn]
    have seen := pushed.list_other withinMade
    have after : (s.addChannelFilter function spare).sessionFilters =
        (s.madeFilters.1.push s.madeFilters.2 function spare).1.list session := by
      rw [sessionFilters, show (s.addChannelFilter function spare).session = some session from entered,
        filtersIn]
      rfl
    rw [sameList, size] at seen
    rw [after, before, length_list within, seen, place]
    obtain ⟨registered, same⟩ | ⟨missing, full⟩ := made.user
    · rw [Overwrites.add_iff registered entered, same, size]
      have elsewhere : session.array ≠ s.arrays.length := Nat.ne_of_lt within.allocated
      constructor
      · rintro ⟨shared, room, covered⟩
        rw [if_pos room, if_pos shared.symm]
        exact ⟨rfl, covered⟩
      · intro spared
        by_cases room : s.userFilters.length < (s.arrays.backing s.madeFilters.2.array).capacity
        · rw [if_pos room]
          split
          · next shared =>
            refine List.set_eq_of_length_le ?_
            rw [length_list within]
            exact Nat.le_of_not_lt fun covered => spared ⟨shared.symm, room, covered⟩
          · rfl
        · rw [if_neg room, if_neg elsewhere]
    · have elsewhere : session.array ≠ s.madeFilters.1.length := Nat.ne_of_lt withinMade.allocated
      rw [full, if_neg (Nat.not_lt_zero _), if_neg elsewhere]
      constructor
      · rintro ⟨user, session, ⟨registered, -, -⟩, -⟩
        rw [missing] at registered
        contradiction
      · exact fun _ => rfl

theorem add_effect {s : SharedFilters} (sound : s.Sound) {function : FilterRef} (spare : Nat)
    (fresh : function ∉ s.userFilters) :
    Effect s (.add function spare) (s.addChannelFilter function spare) := by
  have made := madeFilters_made sound
  have pushed := push_pushed made.within function spare
  have users : (s.addChannelFilter function spare).userFilters = s.userFilters ++ [function] :=
    (pushed.list made.within).trans (congrArg (· ++ [function]) made.list)
  obtain ⟨overwritten, untouched⟩ := add_session sound function spare
  refine ⟨⟨?_, ?_, ?_⟩, ?_, ?_, ?_, ?_, untouched, ?_, ?_, ?_⟩
  · rintro header same
    obtain rfl := Option.some.inj same
    exact pushed.within
  · exact fun header same => pushed.within_other (made.others header (sound.session header same)).1
  · rw [users]
    exact List.nodup_append.mpr ⟨sound.distinct, List.nodup_singleton function, by
      rintro f member g only rfl
      exact fresh (List.mem_singleton.mp only ▸ member)⟩
  · intro f member
    rw [users] at member
    exact (List.mem_append.mp member).imp_right fun only =>
      congrArg some (List.mem_singleton.mp only).symm
  · exact fun idle => absurd trivial idle
  · intro _
    rw [users, List.length_append, List.length_singleton]
    rfl
  · by_cases overwrites : s.Overwrites (.add function spare)
    · rw [(overwritten overwrites).1, List.length_set]
    · rw [untouched overwrites]
  · intro new overwrites same
    obtain ⟨set, covered⟩ := overwritten overwrites
    refine new function rfl ?_
    rw [← same, set]
    exact List.mem_set covered function
  · intro equal overwrites
    obtain ⟨-, covered⟩ := overwritten overwrites
    exact absurd covered (equal ▸ Nat.lt_irrefl _)
  · rintro ⟨user, session, ⟨registered, entered, shared⟩, room, covered⟩ lengths
    have place := push_array s.madeFilters.1 s.madeFilters.2 function spare
    have same : s.madeFilters = (s.arrays, user) := by rw [madeFilters, registered]
    have header : (s.madeFilters.1.push s.madeFilters.2 function spare).2 = session := by
      have size : session.length = user.length + 1 := by
        rw [← length_list (sound.session session entered), ← length_list (sound.user user registered)]
        simpa [lengthAfter, userFilters, sessionFilters, registered, entered, filtersIn] using
          lengths.symm
      obtain ⟨array, length⟩ := session
      rw [same, if_pos room] at place
      have grown := pushed.length
      rw [same] at grown ⊢
      exact SliceHeader.ext (place.trans shared) (grown.trans size.symm)
    rw [sessionFilters, userFilters,
      show (s.addChannelFilter function spare).session = some session from entered, ← header]
    rfl

theorem Overwrites.remove_iff {s : SharedFilters} (sound : s.Sound) {user session : SliceHeader}
    (registered : s.user = some user) (entered : s.session = some session) {function : FilterRef}
    {i : Nat} (found : s.userFilters[i]? = some function) :
    s.Overwrites (.remove function) ↔
      user.array = session.array ∧ i + 1 < user.length ∧ i < session.length := by
  constructor
  · rintro ⟨user', session', ⟨same, same', shared⟩, j, found', notLast, covered⟩
    obtain rfl := Option.some.inj (registered.symm.trans same)
    obtain rfl := Option.some.inj (entered.symm.trans same')
    have within : i < s.userFilters.length := (List.getElem?_eq_some_iff.mp found).1
    obtain rfl := (List.getElem?_inj within sound.distinct).mp (found.trans found'.symm)
    exact ⟨shared, notLast, covered⟩
  · exact fun ⟨shared, notLast, covered⟩ =>
      ⟨user, session, ⟨registered, entered, shared⟩, i, found, notLast, covered⟩

/-- What the loop of `RemoveChannelFilter` makes of a list that has the filter at `i`. -/
structure Removal (s : SharedFilters) (function : FilterRef) (i : Nat) (init : List FilterRef)
    (last : FilterRef) (next : SharedFilters) : Prop where
  sound : next.Sound
  split : s.userFilters = init ++ [last]
  user : next.userFilters = init.set i last
  untouched : ¬ s.Overwrites (.remove function) → next.sessionFilters = s.sessionFilters
  touched : s.Overwrites (.remove function) → next.sessionFilters = s.sessionFilters.set i last ∧
    i < init.length ∧ i < s.sessionFilters.length ∧ s.sessionFilters[i]? = some function
  aligned : s.Overwrites (.remove function) → init.length = s.sessionFilters.length →
    next.sessionFilters = next.userFilters

theorem remove_removal {s : SharedFilters} (sound : s.Sound) {function : FilterRef} {i : Nat}
    (found : s.userFilters[i]? = some function) : ∃ next init last,
      s.removeChannelFilter function = .ok next ∧ Removal s function i init last next := by
  cases registered : s.user with
  | none => simp [userFilters, registered, filtersIn] at found
  | some header =>
    have within := sound.user header registered
    have list : s.userFilters = s.arrays.list header := by rw [userFilters, registered, filtersIn]
    have inside : i < s.userFilters.length := (List.getElem?_eq_some_iff.mp found).1
    have covered : i < header.length := by rwa [list, length_list within] at inside
    have slots (j : Nat) (inner : j < header.length) :
        s.arrays.slot header.array j = s.userFilters[j]? := by
      rw [list, list_getElem?, if_pos inner]
    have here := (slots i covered).trans found
    have unique (j : Nat) (inner : j < header.length)
        (same : s.arrays.slot header.array j = some function) : j = i := by
      have within' : j < s.userFilters.length := by rwa [list, length_list within]
      rw [slots j inner] at same
      exact (List.getElem?_inj within' sound.distinct).mp (same.trans found.symm)
    have removed := swapRemoveFirst_removed within covered here unique
    obtain empty | ⟨init, last, split⟩ := List.eq_nil_or_concat' s.userFilters
    · rw [empty] at inside
      contradiction
    have size : header.length = init.length + 1 := by
      rw [← length_list within, ← list, split, List.length_append, List.length_singleton]
    have rest : ({ s with
        arrays := (s.arrays.swapRemoveFirst header function).1
        user := some (s.arrays.swapRemoveFirst header function).2 } : SharedFilters).userFilters =
          init.set i last := removed.list within (list ▸ split)
    refine ⟨{ s with
        arrays := (s.arrays.swapRemoveFirst header function).1
        user := some (s.arrays.swapRemoveFirst header function).2 }, init, last, ?_, ?_⟩
    · rw [removeChannelFilter, registered]
      simp only [swapRemove_eq_first within covered here unique]
      rfl
    have distinct := sound.distinct
    rw [split] at distinct
    have alone : last ∉ init := fun member =>
      List.disjoint_of_nodup_append distinct member List.mem_cons_self
    refine ⟨⟨?_, ?_, ?_⟩, split, rest, ?_, ?_, ?_⟩
    · rintro _ ⟨⟩
      exact removed.within
    · exact fun other same => removed.within_other covered within (sound.session other same)
    · rw [rest]
      exact (List.nodup_append.mp distinct).1.set alone
    · intro spared
      cases entered : s.session with
      | none => simp [sessionFilters, entered, filtersIn]
      | some session =>
        have within' := sound.session session entered
        rw [Overwrites.remove_iff sound registered entered found] at spared
        simp only [sessionFilters, entered, filtersIn, removed.list_other within within' (list ▸ split)]
        split
        · next shared =>
          obtain before | ends : i + 1 < header.length ∨ i + 1 = header.length := by omega
          · refine List.set_eq_of_length_le ?_
            rw [length_list within']
            exact Nat.le_of_not_lt fun covered' => spared ⟨shared.symm, before, covered'⟩
          · -- The filter is the last one, and takes its own place.
            have itself : last = function := by
              have stands : s.userFilters[i]? = some last := by
                rw [split, show i = init.length by omega, List.getElem?_concat_length]
              exact Option.some.inj (stands.symm.trans found)
            refine List.ext_getElem? fun j => ?_
            rw [List.getElem?_set]
            split
            · next same =>
              subst same
              rw [list_getElem?, length_list within', shared, here, itself]
            · rfl
        · rfl
    · rintro ⟨user, session, shares, j, found', notLast, covered'⟩
      have overwrites : s.Overwrites (.remove function) :=
        ⟨user, session, shares, j, found', notLast, covered'⟩
      rw [Overwrites.remove_iff sound registered shares.2.1 found] at overwrites
      obtain ⟨shared, before, inner⟩ := overwrites
      have within' := sound.session session shares.2.1
      simp only [sessionFilters, shares.2.1, filtersIn,
        removed.list_other within within' (list ▸ split), if_pos shared.symm, length_list within']
      refine ⟨trivial, by omega, inner, ?_⟩
      rw [list_getElem?, if_pos inner, ← shared, here]
    · rintro ⟨user, session, ⟨registered', entered, shared⟩, -⟩ lengths
      obtain rfl := Option.some.inj (registered.symm.trans registered')
      have same : (s.arrays.swapRemoveFirst header function).2 = session := by
        refine SliceHeader.ext (removed.array.trans shared) (removed.length.trans ?_)
        rw [sessionFilters, entered, filtersIn, length_list (sound.session session entered)] at lengths
        omega
      simp only [sessionFilters, userFilters, entered, same]

theorem remove_effect {s : SharedFilters} (sound : s.Sound) (function : FilterRef) :
    ∃ next, s.removeChannelFilter function = .ok next ∧ Effect s (.remove function) next := by
  by_cases member : function ∈ s.userFilters
  · obtain ⟨i, found⟩ := List.mem_iff_getElem?.mp member
    obtain ⟨next, init, last, removed, removal⟩ := remove_removal sound found
    have distinct := sound.distinct
    rw [removal.split] at distinct
    have lengths : init.length = s.lengthAfter (.remove function) := by
      rw [lengthAfter, removal.split, List.length_append, List.length_singleton, Nat.add_sub_cancel]
    refine ⟨next, removed, removal.sound, ?_, fun idle => absurd member idle, ?_, ?_,
      removal.untouched, ?_, ?_, ?_⟩
    · intro f kept
      rw [removal.user] at kept
      rw [removal.split]
      obtain same | rfl := List.mem_or_eq_of_mem_set kept
      · exact .inl (List.mem_append_left _ same)
      · exact .inl (List.mem_append_right _ List.mem_cons_self)
    · intro _
      rw [removal.user, List.length_set, lengths]
    · by_cases overwrites : s.Overwrites (.remove function)
      · rw [(removal.touched overwrites).1, List.length_set]
      · rw [removal.untouched overwrites]
    · intro _ overwrites same
      obtain ⟨set, before, covered, stood⟩ := removal.touched overwrites
      have moved : s.sessionFilters[i]? = some last := by
        rw [← same, set, List.getElem?_set_self covered]
      have twice : init[i]? = some last := by
        rw [removal.split, List.getElem?_append_left before] at found
        rw [found, ← stood, moved]
      exact List.disjoint_of_nodup_append distinct (List.mem_of_getElem? twice) List.mem_cons_self
    · intro equal overwrites
      obtain ⟨set, before, -, -⟩ := removal.touched overwrites
      rw [set, equal, removal.split, List.set_append_left _ _ before]
      intro distinct
      exact List.disjoint_of_nodup_append distinct (List.mem_set before last) List.mem_cons_self
    · exact fun overwrites same => removal.aligned overwrites (lengths.trans same)
  · have never : ¬ s.Overwrites (.remove function) :=
      fun ⟨_, _, _, _, found, _⟩ => member (List.mem_of_getElem? found)
    refine ⟨s, ?_, sound, fun f kept => .inl kept, fun _ => rfl, fun h => absurd h member, rfl,
      fun _ => rfl, fun _ h => absurd h never, fun _ h => absurd h never, fun h => absurd h never⟩
    · rw [removeChannelFilter]
      cases registered : s.user with
      | none => rfl
      | some header =>
        have absent : function ∉ s.arrays.list header := by
          rwa [userFilters, registered, filtersIn] at member
        simp only [swapRemove_absent (sound.user header registered) absent]
        show Except.ok ({ s with arrays := s.arrays, user := some header } : SharedFilters) = .ok s
        rw [← registered]

theorem Effect.configured {s next : SharedFilters} {call : FilterCall} {login : List FilterRef}
    (effect : Effect s call next) (distinct : login.Nodup)
    (fresh : ∀ f, call.installs = some f → f ∉ login) (configured : Configured login s) :
    Configured login next ↔ Meets login s call := by
  by_cases changes : s.Changes call
  · by_cases stays : s.sessionFilters = login
    · by_cases overwrites : s.Overwrites call
      · have other : next.sessionFilters ≠ login := stays ▸ effect.touched (stays ▸ fresh) overwrites
        constructor
        · rintro (same | same)
          · exact absurd same other
          · refine fun _ => ⟨stays, fun _ => ?_⟩
            rw [← effect.length changes, ← same, effect.sessionLength]
        · exact fun meets => .inr (effect.aligned overwrites ((meets changes).2 overwrites))
      · have kept := (effect.untouched overwrites).trans stays
        exact ⟨fun _ _ => ⟨stays, fun h => absurd h overwrites⟩, fun _ => .inl kept⟩
    · have equal : s.sessionFilters = s.userFilters := configured.resolve_left stays
      constructor
      · rintro (same | same)
        · by_cases overwrites : s.Overwrites call
          · exact absurd (same ▸ distinct) (effect.repeated equal overwrites)
          · exact absurd ((effect.untouched overwrites).symm.trans same) stays
        · have lengths := effect.length changes
          rw [← same, effect.sessionLength, equal] at lengths
          cases call with
          | add function spare => simp [lengthAfter] at lengths
          | remove function =>
            have some := List.length_pos_of_mem changes
            simp only [lengthAfter] at lengths
            omega
      · exact fun meets => absurd (meets changes).1 stays
  · rw [effect.idle changes]
    exact ⟨fun _ h => absurd h changes, fun _ => configured⟩

theorem call_effect {s : SharedFilters} (sound : s.Sound) (call : FilterCall)
    (fresh : ∀ f, call.installs = some f → f ∉ s.userFilters) :
    ∃ next, s.call call = .ok next ∧ Effect s call next :=
  match call with
  | .add function spare => ⟨_, rfl, add_effect sound spare (fresh function rfl)⟩
  | .remove function => remove_effect sound function

theorem run_concat (s : SharedFilters) (calls : List FilterCall) (call : FilterCall) :
    s.run (calls ++ [call]) = s.run calls >>= fun mid => mid.call call := by
  simp only [run, List.foldlM_append, List.foldlM_cons, List.foldlM_nil, bind_pure]

variable {arrays : Arrays FilterRef} {user : Option SliceHeader}

/-- No call panics, and the user has no filters but those of its login and the ones installed
since. -/
theorem run_sound (within : ∀ header, user = some header → header.Within arrays)
    (calls : List FilterCall)
    (once : (filtersIn arrays user ++ calls.filterMap FilterCall.installs).Nodup) :
    ∃ s, (cloneUser arrays user).run calls = .ok s ∧ s.Sound ∧
      ∀ f ∈ s.userFilters, f ∈ filtersIn arrays user ++ calls.filterMap FilterCall.installs := by
  induction calls using List.reverseRecOn with
  | nil =>
    rw [List.filterMap_nil, List.append_nil] at once ⊢
    exact ⟨_, rfl, ⟨within, within, once⟩, fun f member => member⟩
  | append_singleton calls call ih =>
    rw [List.filterMap_append, ← List.append_assoc] at once ⊢
    obtain ⟨before, -, apart⟩ := List.nodup_append.mp once
    obtain ⟨mid, ran, sound, known⟩ := ih before
    have fresh : ∀ f, call.installs = some f → f ∉ mid.userFilters := fun f installs member =>
      apart f (known f member) f (List.mem_filterMap.mpr ⟨call, List.mem_cons_self, installs⟩) rfl
    obtain ⟨next, called, effect⟩ := call_effect sound call fresh
    refine ⟨next, ?_, effect.sound, fun f member => ?_⟩
    · rw [run_concat, ran]
      exact called
    · obtain old | new := effect.user f member
      · exact List.mem_append_left _ (known f old)
      · exact List.mem_append_right _ (List.mem_filterMap.mpr ⟨call, List.mem_cons_self, new⟩)

/-- In the runs of which every step meets the condition, and in no others, the session always
runs a list that was configured. -/
theorem session_configured (within : ∀ header, user = some header → header.Within arrays)
    (calls : List FilterCall)
    (once : (filtersIn arrays user ++ calls.filterMap FilterCall.installs).Nodup) :
    (∀ earlier, earlier <+: calls → ∃ s, (cloneUser arrays user).run earlier = .ok s ∧
      Configured (filtersIn arrays user) s) ↔
    ∀ earlier call, earlier ++ [call] <+: calls →
      ∃ s, (cloneUser arrays user).run earlier = .ok s ∧ Meets (filtersIn arrays user) s call := by
  induction calls using List.reverseRecOn with
  | nil =>
    constructor
    · intro _ earlier call inside
      exact absurd (List.prefix_nil.mp inside) (by simp)
    · intro _ earlier inside
      obtain rfl := List.prefix_nil.mp inside
      exact ⟨_, rfl, .inl rfl⟩
  | append_singleton calls call ih =>
    rw [List.filterMap_append, ← List.append_assoc] at once
    obtain ⟨before, -, apart⟩ := List.nodup_append.mp once
    have installed {f : FilterRef} (installs : call.installs = some f) :
        f ∈ [call].filterMap FilterCall.installs :=
      List.mem_filterMap.mpr ⟨call, List.mem_cons_self, installs⟩
    obtain ⟨mid, ran, sound, known⟩ := run_sound within calls before
    obtain ⟨next, called, effect⟩ := call_effect sound call fun f installs member =>
      apart f (known f member) f (installed installs) rfl
    have distinct : (filtersIn arrays user).Nodup := (List.nodup_append.mp before).1
    have new : ∀ f, call.installs = some f → f ∉ filtersIn arrays user := fun f installs member =>
      apart f (List.mem_append_left _ member) f (installed installs) rfl
    have ends : (cloneUser arrays user).run (calls ++ [call]) = .ok next := by
      rw [run_concat, ran]
      exact called
    constructor
    · intro always earlier last inside
      have configured : Configured (filtersIn arrays user) mid := by
        obtain ⟨s, same, configured⟩ := always calls (List.prefix_append calls [call])
        exact Except.ok.inj (ran.symm.trans same) ▸ configured
      obtain whole | part := List.prefix_concat_iff.mp inside
      · obtain ⟨rfl, only⟩ := List.append_inj' whole rfl
        obtain rfl := List.singleton_inj.mp only
        obtain ⟨s, same, after⟩ := always _ (List.prefix_refl _)
        obtain rfl := Except.ok.inj (ends.symm.trans same)
        exact ⟨mid, ran, (effect.configured distinct new configured).mp after⟩
      · exact (ih before).mp
          (fun earlier part => always earlier (part.trans (List.prefix_append calls [call])))
          earlier last part
    · intro meets earlier inside
      have settled := (ih before).mpr fun earlier last part =>
        meets earlier last (part.trans (List.prefix_append calls [call]))
      obtain rfl | part := List.prefix_concat_iff.mp inside
      · obtain ⟨s, same, configured⟩ := settled calls (List.prefix_refl calls)
        obtain rfl := Except.ok.inj (ran.symm.trans same)
        obtain ⟨s, same, condition⟩ := meets calls call (List.prefix_refl _)
        obtain rfl := Except.ok.inj (ran.symm.trans same)
        exact ⟨next, ends, (effect.configured distinct new configured).mpr condition⟩
      · exact settled earlier part

/-- A filter is added where the array has no room for it: the session keeps the old one. -/
theorem session_configured_full :
    filtersIn [{ elements := [0], capacity := 1 }] (some { array := 0, length := 1 }) = [0] ∧
      ∀ earlier, earlier <+: [FilterCall.add 1 1] →
        ∃ s, (cloneUser [{ elements := [0], capacity := 1 }]
          (some { array := 0, length := 1 })).run earlier = .ok s ∧ Configured [0] s := by
  refine ⟨by decide, ?_⟩
  refine (session_configured ?_ [.add 1 1] (by decide)).mpr fun earlier call inside => ?_
  · rintro _ ⟨⟩
    exact ⟨by decide, by decide⟩
  · obtain ⟨rest, same⟩ := inside
    cases earlier with
    | nil =>
      obtain ⟨rfl, -⟩ := List.cons.inj same
      refine ⟨_, rfl, fun _ => ⟨rfl, ?_⟩⟩
      rintro ⟨user, session, ⟨registered, -, -⟩, room, -⟩
      obtain rfl := Option.some.inj registered
      exact absurd room (by decide)
    | cons first earlier => simp at same

/-- Of two filters the first is removed: the session runs the second one twice. -/
theorem removed_filter_replaced :
    ¬ ∀ (arrays : Arrays FilterRef) (user : Option SliceHeader),
      (∀ header, user = some header → header.Within arrays) → ∀ calls : List FilterCall,
      (filtersIn arrays user ++ calls.filterMap FilterCall.installs).Nodup →
      ∀ earlier, earlier <+: calls → ∃ s, (cloneUser arrays user).run earlier = .ok s ∧
        Configured (filtersIn arrays user) s := by
  intro always
  have within : ∀ header, some ({ array := 0, length := 2 } : SliceHeader) = some header →
      header.Within ([{ elements := [0, 1], capacity := 2 }] : Arrays FilterRef) := by
    rintro _ ⟨⟩
    exact ⟨by decide, by decide⟩
  obtain ⟨s, ran, configured⟩ := always _ _ within [.remove 0] (by decide) [.remove 0]
    (List.prefix_refl _)
  obtain rfl := Except.ok.inj ran
  exact absurd configured (by unfold Configured; decide)

end SharedFilters
end SSHProxyPlus
