import SSHProxyPlus.Session.Enrollment

/-! The round that tells the viewers of the end: it goes over the signals that it has found, while
viewers return and take theirs away, and others come. -/
namespace SSHProxyPlus
open Go Transition

namespace Statement

/-- Of the way of `End` to where all viewers are told. -/
def farewells : Statement → Nat
  | .deactivate | .signalClients .sessionEnd | .ranging .sessionEnd _ _
  | .sending .sessionEnd _ _ _ => 1
  | _ => 0

/-- Of the round. -/
def rounds : Statement → Nat
  | .ranging .sessionEnd _ _ | .sending .sessionEnd _ _ _ => 1
  | _ => 0

theorem rounds_le_farewells (statement : Statement) : rounds statement ≤ farewells statement := by
  unfold rounds
  split
  · exact Nat.le_refl 1
  · exact Nat.le_refl 1
  · exact Nat.zero_le _

/-- A call of `End` is next. -/
def endsNext : List Statement → Bool
  | .endSession :: _ => true
  | _ => false

/-- The signals that the round ranges over, and the slot that it takes next. -/
def atRound : List Statement → Option (SliceHeader × Nat)
  | .ranging .sessionEnd header index :: _ => some (header, index)
  | .sending .sessionEnd header index _ :: _ => some (header, index + 1)
  | _ => none

end Statement

/-- A session, the viewers whose signals the round has found as it began, and those that it has
told so far. -/
structure Round where
  live : LiveSession
  before : Option (List Nat) := none
  told : List Nat := []

namespace LiveSession
open Statement

/-- `End` is entered once. -/
def Once (live : LiveSession) : LiveAction → Prop
  | .run thread _ => ∀ waits ∈ live.threads[thread]?, endsNext waits = true →
      live.logged.session.active = true → total farewells live.threads = 0
  | _ => True

/-- `append` takes a slot of the array that the round ranges over, and the round has still to
come to it. -/
def Reuses (live : LiveSession) (header : SliceHeader) (upcoming : Nat) : Prop :=
  header.array = live.msgSignal.array ∧
    live.msgSignal.length < (live.arrays.backing live.msgSignal.array).capacity ∧
    upcoming ≤ live.msgSignal.length ∧ live.msgSignal.length < header.length

/-- A viewer that registers takes no slot that the round has still to come to. -/
def Spared (live : LiveSession) : LiveAction → Prop
  | .view viewer _ _ => ∀ viewing ∈ live.viewers[viewer]?, viewing.registering = true →
      ∀ thread ∈ live.threads, ∀ round ∈ atRound thread, ¬ live.Reuses round.1 round.2
  | _ => True

instance (live : LiveSession) : (action : LiveAction) → Decidable (live.Once action)
  | .run thread _ => inferInstanceAs (Decidable (∀ waits ∈ live.threads[thread]?,
      endsNext waits = true → live.logged.session.active = true →
        total farewells live.threads = 0))
  | .stop | .playSession | .view .. => isTrue trivial

instance (live : LiveSession) (header : SliceHeader) (upcoming : Nat) :
    Decidable (live.Reuses header upcoming) := inferInstanceAs (Decidable (_ ∧ _ ∧ _ ∧ _))

instance (live : LiveSession) : (action : LiveAction) → Decidable (live.Spared action)
  | .view viewer _ _ => inferInstanceAs (Decidable (∀ viewing ∈ live.viewers[viewer]?,
      viewing.registering = true → ∀ thread ∈ live.threads, ∀ round ∈ atRound thread,
        ¬ live.Reuses round.1 round.2))
  | .run .. | .stop | .playSession => isTrue trivial

end LiveSession

namespace Round
open Statement LiveSession

/-- What the step of a thread adds to what is known of the round. -/
def noting (round : Round) (next : LiveSession) : List Statement → Round
  | .signalClients .sessionEnd :: _ =>
      { live := next, before := some (round.live.arrays.list round.live.msgSignal), told := [] }
  | .sending .sessionEnd _ _ viewer :: _ =>
      { round with live := next, told := round.told ++ [viewer] }
  | _ => { round with live := next }

def perform (round : Round) (action : LiveAction) : Option Round :=
  (round.live.perform action).map fun next =>
    match action with
    | .run thread _ => round.noting next (round.live.threads[thread]?.getD [])
    | _ => { round with live := next }

/-- The runs of a session that has just begun, in which `End` is entered once, and every step is
`Admitted`. -/
def runs (Admitted : LiveSession → LiveAction → Prop) (sessionFolder : Bytes)
    (session : SessionContext) (files : Files) : System Round LiveAction where
  init round := ∃ live, round = { live } ∧
    (LiveSession.runs Admitted sessionFolder session files).init live
  step round action next := round.live.Once action ∧ Admitted round.live action ∧
    round.perform action = some next

/-- The viewer's signal is still there, or has been sent to. -/
def Stays (round : Round) (viewer : Nat) : Prop :=
  viewer ∈ round.told ∨
    ∃ viewing, round.live.viewers[viewer]? = some viewing ∧ viewing.registered = true

/-- Each viewer whose signal the round has found is told at most once, and has been when the round
is over. -/
def TellsOnce (round : Round) : Prop :=
  ∀ found, round.before = some found → ∀ viewer ∈ found, round.told.count viewer ≤ 1 ∧
    (total farewells round.live.threads = 0 → round.Stays viewer → round.told.count viewer = 1)

/-- A round over the signals of these viewers, after the turns before `index`: what it has still to
come to is as it was. -/
structure Midway (round : Round) (found : List Nat) (header : SliceHeader) (index upcoming : Nat) :
    Prop where
  before : round.before = some found
  length : header.length = found.length
  told : round.told = found.take index
  allocated : header.array < round.live.arrays.length
  order : index ≤ upcoming
  slots : ∀ k, upcoming ≤ k → k < header.length →
    round.live.arrays.slot header.array k = found[k]?

/-- How far a thread is with telling the viewers. -/
inductive Informs (round : Round) : List Statement → Prop where
  | away {thread : List Statement} (past : weights farewells thread = 0) : Informs round thread
  | awaiting {thread : List Statement} (ahead : weights rounds thread = 0)
      (unbegun : round.before = none) : Informs round thread
  | ranging {found : List Nat} {header : SliceHeader} {index : Nat} {rest : List Statement}
      (past : weights farewells rest = 0) (midway : round.Midway found header index index) :
      Informs round (.ranging .sessionEnd header index :: rest)
  | sending {found : List Nat} {header : SliceHeader} {index viewer : Nat} {rest : List Statement}
      (past : weights farewells rest = 0) (midway : round.Midway found header index (index + 1))
      (current : found[index]? = some viewer) :
      Informs round (.sending .sessionEnd header index viewer :: rest)

/-- Those that have returned were told, each in its turn. -/
structure Sound (round : Round) : Prop where
  enrolled : round.live.Enrolled
  single : total farewells round.live.threads ≤ 1
  fresh : round.live.logged.session.active = true →
    round.before = none ∧ total leaves round.live.threads = 0
  unbegun : round.before = none → round.told = []
  threads : ∀ thread ∈ round.live.threads, round.Informs thread
  returned : ∀ (viewer : Nat) viewing, round.live.viewers[viewer]? = some viewing →
    viewing.playback.step = .returned → viewer ∈ round.told
  distinct : ∀ found, round.before = some found → found.Nodup
  within : ∀ found, round.before = some found → ∃ index, round.told = found.take index
  finished : ∀ found, round.before = some found → total farewells round.live.threads = 0 →
    round.told = found

variable {round after : Round} {next : LiveSession} {action : LiveAction}
  {thread rest : List Statement} {found : List Nat} {header : SliceHeader} {index upcoming : Nat}

theorem Midway.keeps (midway : round.Midway found header index upcoming)
    (before : after.before = round.before) (told : after.told = round.told)
    (grown : round.live.arrays.length ≤ after.live.arrays.length)
    (slots : ∀ k, upcoming ≤ k → k < header.length →
      after.live.arrays.slot header.array k = round.live.arrays.slot header.array k) :
    after.Midway found header index upcoming where
  before := before.trans midway.before
  length := midway.length
  told := told.trans midway.told
  allocated := midway.allocated.trans_le grown
  order := midway.order
  slots k later covered := (slots k later covered).trans (midway.slots k later covered)

theorem Informs.keeps (informs : round.Informs thread) (before : after.before = round.before)
    (midway : ∀ found header index upcoming, atRound thread = some (header, upcoming) →
      round.Midway found header index upcoming → after.Midway found header index upcoming) :
    after.Informs thread := by
  cases informs with
  | away past => exact .away past
  | awaiting ahead unbegun => exact .awaiting ahead (before.trans unbegun)
  | ranging past halfway => exact .ranging past (midway _ _ _ _ rfl halfway)
  | sending past halfway current => exact .sending past (midway _ _ _ _ rfl halfway) current

/-- Whom the round has told is not in a slot that it has still to come to. -/
theorem Midway.ahead_ne {viewer k : Nat} (midway : round.Midway found header index upcoming)
    (distinct : found.Nodup) (told : viewer ∈ round.told) (later : upcoming ≤ k)
    (covered : k < header.length) :
    round.live.arrays.slot header.array k ≠ some viewer := by
  intro slot
  rw [midway.slots k later covered] at slot
  rw [midway.told] at told
  obtain ⟨j, inside, same⟩ := List.mem_take_iff_getElem.mp told
  obtain ⟨early, within⟩ := Nat.lt_min.mp inside
  have equal : found[j]? = found[k]? := by rw [slot, List.getElem?_eq_getElem within, same]
  have place := (List.getElem?_inj within distinct).mp equal
  have order := midway.order
  omega

/-- No slot that the round has still to come to is written. -/
theorem Sound.slots (sound : round.Sound) (spared : round.live.Spared action)
    (stirs : Stirs round.live next action) (member : thread ∈ round.live.threads)
    (stands : atRound thread = some (header, upcoming))
    (midway : round.Midway found header index upcoming) :
    round.live.arrays.length ≤ next.arrays.length ∧ ∀ k, upcoming ≤ k → k < header.length →
      next.arrays.slot header.array k = round.live.arrays.slot header.array k := by
  cases stirs with
  | unnoticed same => exact same.arrays ▸ ⟨Nat.le_refl _, fun _ _ _ => rfl⟩
  | records _ arrays => exact arrays ▸ ⟨Nat.le_refl _, fun _ _ _ => rfl⟩
  | takes here received goes | goesOn advanced placed stays goes =>
    exact goes.arrays ▸ ⟨Nat.le_refl _, fun _ _ _ => rfl⟩
  | joins joins => exact joins.arrays ▸ ⟨Nat.le_refl _, fun _ _ _ => rfl⟩
  | registers stands' registers room =>
    have pushed := registers.pushed
    refine ⟨pushed.grown, fun k later covered => ?_⟩
    refine pushed.others _ _ midway.allocated fun same last => ?_
    have inPlace : next.msgSignal.array = round.live.msgSignal.array := by
      obtain kept | moved := pushed.place
      · exact kept
      · have allocated := midway.allocated
        rw [same, moved] at allocated
        exact absurd allocated (Nat.lt_irrefl _)
    have apart := spared _ (Option.mem_def.mpr registers.here)
      (by simp [Viewing.registering, stands']) thread member (header, upcoming) stands
    exact apart ⟨same.trans inPlace, room inPlace, last ▸ later, last ▸ covered⟩
  | exits exits =>
    refine ⟨Nat.le_of_eq exits.removed.allocated.symm, fun k later covered => ?_⟩
    refine exits.removed.others _ _ fun same place => ?_
    have told := sound.returned _ _ exits.here exits.returned
    refine midway.ahead_ne (sound.distinct _ midway.before) told later covered ?_
    rw [same, place, exits.slot]

/-- What neither begins the round nor tells a viewer. -/
def plain : Statement → Bool
  | .signalClients .sessionEnd | .sending .sessionEnd _ _ _ => false
  | _ => true

theorem noting_plain {statement : Statement} (ordinary : plain statement = true) :
    round.noting next (statement :: rest) = { round with live := next } := by
  cases statement with
  | signalClients signal | sending signal => cases signal <;> first | rfl | contradiction
  | _ => rfl

variable {i : Nat} {now : Time} {statement : Statement} {changed : LiveSession}
  {left : List Statement} {spawned : List (List Statement)}

/-- `End` is entered, or the round has come to its end, or goes on its way. -/
theorem farewells_ran (ran : round.live.Ran i now statement rest changed left spawned next)
    (ordinary : plain statement = true) :
    total farewells next.threads = total farewells round.live.threads ∨
      statement = .endSession ∧ round.live.logged.session.active = true ∧
        total farewells next.threads = total farewells round.live.threads + 1 ∨
      ∃ header index, statement = .ranging .sessionEnd header index ∧ ¬ index < header.length ∧
        total farewells next.threads + 1 = total farewells round.live.threads := by
  have sums := ran.sums farewells
  have executes := ran.executes
  cases executes with
  | endActive active =>
    simp [weight, weights, farewells] at sums
    exact .inr (.inl ⟨rfl, active, sums⟩)
  | @allSignalled signal header index ended =>
    cases signal with
    | newMessage =>
      simp [weight, weights, farewells] at sums
      exact .inl sums
    | sessionEnd =>
      simp [weight, weights, farewells] at sums
      exact .inr (.inr ⟨header, index, rfl, ended, sums⟩)
  | signalClients signal | @turn signal | @sending signal =>
    cases signal <;> simp [weight, weights, farewells, plain] at sums ordinary <;> exact .inl sums
  | go thread =>
    simp [weight, weights, total_singleton] at sums
    exact .inl sums
  | _ =>
    simp [weight, weights, farewells] at sums
    exact .inl sums

theorem rounds_zero {thread : List Statement} (past : weights farewells thread = 0) :
    weights Statement.rounds thread = 0 :=
  Nat.le_zero.mp (past ▸ weights_mono rounds_le_farewells thread)

/-- How the thread that takes the step goes on, and what it starts. -/
theorem Informs.ran (informs : round.Informs (statement :: rest))
    (ran : round.live.Ran i now statement rest changed left spawned next)
    (ordinary : plain statement = true)
    (fresh : round.live.logged.session.active = true → round.before = none)
    (arrays : next.arrays = round.live.arrays) :
    Informs { round with live := next } (left ++ rest) ∧
      ∀ thread ∈ spawned, Informs { round with live := next } thread := by
  have executes := ran.executes
  cases informs with
  | away past =>
    obtain ⟨none, later⟩ := Nat.add_eq_zero_iff.mp past
    cases executes with
    | endActive active =>
      refine ⟨.awaiting ?_ (fresh active), fun _ none => nomatch none⟩
      exact (zero_add _).trans (rounds_zero later)
    | go thread => exact ⟨.away later, List.forall_mem_singleton.mpr (.away none)⟩
    | deactivate => contradiction
    | signalClients signal | @turn signal | @sending signal =>
      cases signal with
      | sessionEnd => contradiction
      | newMessage => exact ⟨.away ((zero_add _).trans later), fun _ none => nomatch none⟩
    | _ =>
      refine ⟨.away ?_, fun _ none => nomatch none⟩
      rw [weights_append, later]
      rfl
  | awaiting ahead unbegun =>
    obtain ⟨none, later⟩ := Nat.add_eq_zero_iff.mp ahead
    cases executes with
    | go thread =>
      exact ⟨.awaiting later unbegun, List.forall_mem_singleton.mpr (.awaiting none unbegun)⟩
    | signalClients signal | @turn signal | @sending signal =>
      cases signal with
      | sessionEnd => contradiction
      | newMessage =>
        exact ⟨.awaiting ((zero_add _).trans later) unbegun, fun _ none => nomatch none⟩
    | _ =>
      refine ⟨.awaiting ?_ unbegun, fun _ none => nomatch none⟩
      rw [weights_append, later]
      rfl
  | ranging past midway =>
    cases executes with
    | turn more slot =>
      have turned : Midway { round with live := next } _ _ _ _ := midway.keeps rfl rfl
        (Nat.le_of_eq (congrArg List.length arrays.symm)) fun _ _ _ => by rw [arrays]
      refine ⟨.sending past { turned with order := ?_, slots := ?_ } ?_,
        fun _ none => nomatch none⟩
      · exact Nat.le_succ _
      · exact fun k later => turned.slots k (Nat.le_of_succ_le later)
      · exact (midway.slots _ (Nat.le_refl _) more).symm.trans slot
    | allSignalled ended => exact ⟨.away past, fun _ none => nomatch none⟩
  | sending => contradiction

/-- The others are where they were. -/
theorem Sound.others (sound : round.Sound) (before : after.before = round.before)
    (told : after.told = round.told) (spared : round.live.Spared action)
    (stirs : Stirs round.live after.live action) :
    ∀ thread ∈ round.live.threads, after.Informs thread := by
  intro thread member
  refine (sound.threads thread member).keeps before fun found header index upcoming stands midway => ?_
  obtain ⟨grown, slots⟩ := sound.slots spared stirs member stands midway
  exact midway.keeps before told grown slots

/-- Viewers return only when they are told of the end. -/
theorem returned_stirs (stirs : Stirs round.live next action)
    (returned : ∀ (viewer : Nat) viewing, round.live.viewers[viewer]? = some viewing →
      viewing.playback.step = .returned → viewer ∈ round.told)
    (other : ∀ i now header index viewer rest, action = .run i now →
      round.live.threads[i]? ≠ some (.sending .sessionEnd header index viewer :: rest)) :
    ∀ (viewer : Nat) viewing, next.viewers[viewer]? = some viewing →
      viewing.playback.step = .returned → viewer ∈ round.told := by
  intro viewer viewing there gone
  cases stirs with
  | unnoticed same => exact returned viewer viewing (same.viewers ▸ there) gone
  | records viewers => exact returned viewer viewing (viewers ▸ there) gone
  | takes here received goes =>
    rw [goes.viewers] at there
    obtain ⟨rfl, rfl⟩ | ⟨-, there⟩ := getElem?_set_cases there
    · obtain ⟨-, ⟨-, rfl⟩ | ⟨rfl, -⟩⟩ := Viewing.receiveSignal_cases received
      · contradiction
      · exact absurd here (other _ _ _ _ _ _ rfl)
    · exact returned viewer viewing there gone
  | joins joins =>
    rw [joins.viewers] at there
    obtain ⟨-, rfl⟩ | there := getElem?_concat_cases there
    · contradiction
    · exact returned viewer viewing there gone
  | registers stands registers =>
    rw [registers.viewers] at there
    obtain ⟨-, rfl⟩ | ⟨-, there⟩ := getElem?_set_cases there
    · contradiction
    · exact returned viewer viewing there gone
  | exits exits =>
    rw [exits.viewers] at there
    obtain ⟨rfl, rfl⟩ | ⟨-, there⟩ := getElem?_set_cases there
    · exact returned _ _ exits.here gone
    · exact returned viewer viewing there gone
  | goesOn advanced placed stays goes =>
    rw [goes.viewers] at there
    obtain ⟨rfl, rfl⟩ | ⟨-, there⟩ := getElem?_set_cases there
    · exact absurd gone stays
    · exact returned viewer viewing there gone

theorem leaves_ran (ran : round.live.Ran i now statement rest changed left spawned next)
    (none : total leaves round.live.threads = 0) (other : statement ≠ .deactivate) :
    total leaves next.threads = 0 := by
  have sums := ran.sums leaves
  have bound := head_le_total (f := leaves) ran.here
  have executes := ran.executes
  cases executes with
  | deactivate => exact absurd rfl other
  | signalClients signal | @turn signal | @allSignalled signal | @sending signal =>
    cases signal with
    | sessionEnd => simp [weight, leaves, none] at bound
    | newMessage =>
      simp [weight, weights, leaves, none] at sums ⊢
      omega
  | go thread =>
    simp [weight, weights, total_singleton, none] at sums ⊢
    omega
  | _ =>
    simp [weight, weights, leaves, none] at sums ⊢
    omega

/-- Once `End` is on its way, the session is not active. -/
theorem Sound.fresh_ran (sound : round.Sound)
    (ran : round.live.Ran i now statement rest changed left spawned next)
    (active : next.logged.session.active = true) :
    round.before = none ∧ total leaves next.threads = 0 := by
  have other : statement ≠ .deactivate := by
    rintro rfl
    obtain ⟨-, executes, rfl⟩ := ran
    cases executes
    contradiction
  obtain ⟨unbegun, none⟩ := sound.fresh ((ran.active other).symm.trans active)
  exact ⟨unbegun, leaves_ran ran none other⟩

/-- A thread that is in the round knows who was found. -/
theorem Informs.midway (informs : round.Informs (.ranging .sessionEnd header index :: rest)) :
    ∃ found, round.Midway found header index index ∧ weights farewells rest = 0 := by
  cases informs with
  | away past => exact absurd (Nat.add_eq_zero_iff.mp past).1 Nat.one_ne_zero
  | awaiting ahead => exact absurd (Nat.add_eq_zero_iff.mp ahead).1 Nat.one_ne_zero
  | ranging past midway => exact ⟨_, midway, past⟩

theorem Informs.inHand {viewer : Nat}
    (informs : round.Informs (.sending .sessionEnd header index viewer :: rest)) :
    ∃ found, round.Midway found header index (index + 1) ∧ found[index]? = some viewer ∧
      weights farewells rest = 0 := by
  cases informs with
  | away past => exact absurd (Nat.add_eq_zero_iff.mp past).1 Nat.one_ne_zero
  | awaiting ahead => exact absurd (Nat.add_eq_zero_iff.mp ahead).1 Nat.one_ne_zero
  | sending past midway current => exact ⟨_, midway, current, past⟩

theorem Stirs.run_arrays (stirs : Stirs round.live next (.run i now)) :
    next.arrays = round.live.arrays := by
  cases stirs with
  | unnoticed same => exact same.arrays
  | records _ arrays => exact arrays
  | takes _ _ goes => exact goes.arrays

theorem Sound.ran (sound : round.Sound) (once : round.live.Once (.run i now))
    (enrolled : next.Enrolled) (stirs : Stirs round.live next (.run i now))
    (ran : round.live.Ran i now statement rest changed left spawned next)
    (ordinary : plain statement = true) : Sound { round with live := next } := by
  have member := List.mem_of_getElem? ran.here
  have informs := sound.threads _ member
  have count := farewells_ran ran ordinary
  refine ⟨enrolled, ?_, sound.fresh_ran ran, sound.unbegun, ?_, ?_, sound.distinct, sound.within,
    fun found before over' => ?_⟩
  · have single := sound.single
    obtain same | ⟨rfl, active, more⟩ | ⟨header, index, -, -, less⟩ := count
    · exact same ▸ single
    · have none := once _ (Option.mem_def.mpr ran.here) rfl active
      exact Nat.le_of_eq (by rw [more, none])
    · dsimp only
      omega
  · obtain ⟨own, starts⟩ := informs.ran ran ordinary (fun active => (sound.fresh active).1)
      (Stirs.run_arrays stirs)
    have spared : round.live.Spared (.run i now) := trivial
    have others : ∀ thread ∈ round.live.threads, Informs { round with live := next } thread :=
      sound.others rfl rfl spared stirs
    intro thread present
    rw [ran.next_eq] at present
    obtain old | new := List.mem_append.mp present
    · exact each_set others own thread old
    · exact starts thread new
  · have returned := returned_stirs stirs sound.returned
    refine returned fun j time header index viewer rest' same here => ?_
    obtain ⟨rfl, -⟩ := LiveAction.run.inj same
    obtain ⟨rfl, -⟩ := List.cons.inj (Option.some.inj (ran.here.symm.trans here))
    contradiction
  · change total farewells next.threads = 0 at over'
    obtain same | ⟨-, -, more⟩ | ⟨header, index, rfl, ended, less⟩ := count
    · exact sound.finished found before (same ▸ over')
    · omega
    · obtain ⟨found', midway, -⟩ := informs.midway
      obtain rfl := Option.some.inj (before.symm.trans midway.before)
      have all : found.length ≤ index := midway.length ▸ Nat.not_lt.mp ended
      exact midway.told.trans (List.take_of_length_le all)

/-- The work of `End` is done by one thread. -/
theorem Sound.past_others (sound : round.Sound) {j : Nat}
    (here : round.live.threads[i]? = some (statement :: rest)) (busy : weight farewells statement = 1)
    (apart : i ≠ j) (there : round.live.threads[j]? = some thread) :
    weights farewells thread = 0 ∧ weights farewells rest = 0 := by
  have both := weights_add_le_total (f := farewells) apart here there
  have single := sound.single
  rw [weights, busy] at both
  omega

/-- The signals that the round finds are of different viewers. -/
theorem found_nodup (enrolled : round.live.Enrolled) :
    (round.live.arrays.list round.live.msgSignal).Nodup := by
  rw [List.nodup_iff_getElem?_ne_getElem?]
  intro j k before within same
  have size := Arrays.length_list enrolled.within
  obtain ⟨viewer, slot⟩ := Arrays.slot_written enrolled.within (size ▸ within)
  have first : round.live.arrays.slot round.live.msgSignal.array j = some viewer := by
    rw [Arrays.list_getElem?, Arrays.list_getElem?, if_pos (by omega), if_pos (by omega)] at same
    exact same.trans slot
  have equal := enrolled.unique j k viewer (by omega) (by omega) first slot
  omega

/-- The round begins. -/
theorem Sound.begins (sound : round.Sound) (enrolled : next.Enrolled)
    (stirs : Stirs round.live next (.run i now))
    (ran : round.live.Ran i now (.signalClients .sessionEnd) rest changed left spawned next) :
    Sound {
      live := next
      before := some (round.live.arrays.list round.live.msgSignal)
      told := [] } := by
  have member := List.mem_of_getElem? ran.here
  have sums := ran.sums farewells
  have arrays := Stirs.run_arrays stirs
  have unbegun : round.before = none := by
    cases sound.threads _ member with
    | away past => exact absurd (Nat.add_eq_zero_iff.mp past).1 Nat.one_ne_zero
    | awaiting _ unbegun => exact unbegun
  have untold := sound.unbegun unbegun
  have leaving := head_le_total (f := leaves) ran.here
  have executes := ran.executes
  cases executes with
  | signalClients =>
    simp [weight, weights, farewells] at sums
    have single := sound.single
    refine ⟨enrolled, ?_, fun active => ?_, fun none => ?_, ?_, ?_, ?_, ?_, ?_⟩
    · exact sums ▸ single
    · have still := sound.fresh ((ran.active (by simp)).symm.trans active)
      have counted : weight leaves (.signalClients .sessionEnd) = 1 := rfl
      omega
    · contradiction
    · intro thread present
      rw [ran.next_eq, List.append_nil] at present
      obtain ⟨j, there⟩ := List.mem_iff_getElem?.mp present
      obtain ⟨-, rfl⟩ | ⟨apart, there⟩ := getElem?_set_cases there
      · have counted := head_le_total (f := farewells) ran.here
        have one : weight farewells (.signalClients .sessionEnd) = 1 := rfl
        have past : weights farewells rest = 0 := by omega
        have size := Arrays.length_list sound.enrolled.within
        refine .ranging past ⟨rfl, size.symm, rfl, ?_, Nat.le_refl 0, fun k _ covered => ?_⟩
        · exact arrays ▸ sound.enrolled.within.allocated
        · rw [Arrays.list_getElem?, if_pos covered, arrays]
      · exact .away (sound.past_others ran.here rfl (Ne.symm apart) there).1
    · have returned := returned_stirs stirs sound.returned
      rw [untold] at returned
      refine returned fun j time header index viewer rest' same here => ?_
      obtain ⟨rfl, -⟩ := LiveAction.run.inj same
      have both := (List.cons.inj (Option.some.inj (ran.here.symm.trans here))).1
      contradiction
    · rintro found ⟨⟩
      exact found_nodup sound.enrolled
    · exact fun found _ => ⟨0, rfl⟩
    · intro found _ over'
      have busy := weights_le_total (f := farewells) ran.here
      have counted : weights farewells (.signalClients .sessionEnd :: rest) ≥ 1 :=
        Nat.le_add_right 1 _
      change total farewells next.threads = 0 at over'
      omega

/-- The round tells the viewer that it has in hand. -/
theorem Sound.tells {viewer : Nat} (sound : round.Sound) (enrolled : next.Enrolled)
    (stirs : Stirs round.live next (.run i now))
    (ran : round.live.Ran i now (.sending .sessionEnd header index viewer) rest changed left spawned
      next) : Sound { round with live := next, told := round.told ++ [viewer] } := by
  have sums := ran.sums farewells
  have arrays := Stirs.run_arrays stirs
  have fresh := sound.fresh_ran ran
  have single := sound.single
  have same := ran.next_eq
  obtain ⟨found, midway, current, past⟩ :=
    (sound.threads _ (List.mem_of_getElem? ran.here)).inHand
  have told : round.told ++ [viewer] = found.take (index + 1) := by
    rw [midway.told, List.take_add_one, current]
    rfl
  have executes := ran.executes
  cases executes with
  | sending there received =>
    simp [weight, weights, farewells] at sums
    refine ⟨enrolled, sums ▸ single, fresh, ?_, ?_, ?_, sound.distinct, ?_, ?_⟩
    · intro none
      have both := none.symm.trans midway.before
      contradiction
    · intro thread present
      rw [same, List.append_nil] at present
      obtain ⟨j, there⟩ := List.mem_iff_getElem?.mp present
      obtain ⟨-, rfl⟩ | ⟨apart, there⟩ := getElem?_set_cases there
      · refine .ranging past ⟨midway.before, midway.length, told, ?_, Nat.le_refl _, ?_⟩
        · exact arrays ▸ midway.allocated
        · exact arrays ▸ midway.slots
      · exact .away (sound.past_others ran.here rfl (Ne.symm apart) there).1
    · intro other viewing here gone
      rw [same] at here
      obtain ⟨rfl, -⟩ | ⟨-, here⟩ := getElem?_set_cases here
      · exact List.mem_append_right _ List.mem_cons_self
      · exact List.mem_append_left _ (sound.returned other viewing here gone)
    · intro found' before
      obtain rfl := Option.some.inj (midway.before.symm.trans before)
      exact ⟨index + 1, told⟩
    · intro found' _ over'
      have busy := head_le_total (f := farewells) ran.here
      have one : weight farewells (.sending .sessionEnd header index viewer) = 1 := rfl
      change total farewells next.threads = 0 at over'
      omega

/-- Steps that are not of a thread. -/
theorem Sound.aside (sound : round.Sound) (enrolled : next.Enrolled)
    (stirs : Stirs round.live next action) (spared : round.live.Spared action)
    (aside : Aside round.live next) (viewers : ∀ i now, action ≠ .run i now) :
    Sound { round with live := next } := by
  have counts (f : Statement → Nat) (zero : f .endSession = 0) := aside.total f zero
  have others : ∀ thread ∈ round.live.threads, Informs { round with live := next } thread :=
    sound.others rfl rfl spared stirs
  refine ⟨enrolled, ?_, fun active => ?_, sound.unbegun, ?_, ?_, sound.distinct, sound.within, ?_⟩
  · exact counts farewells rfl ▸ sound.single
  · obtain ⟨unbegun, none⟩ := sound.fresh (aside.logged ▸ active)
    exact ⟨unbegun, (counts leaves rfl).trans none⟩
  · intro thread present
    obtain same | same := aside.threads
    · exact others thread (same ▸ present)
    · change thread ∈ next.threads at present
      rw [same] at present
      obtain old | new := List.mem_append.mp present
      · exact others thread old
      · rw [List.mem_singleton.mp new]
        exact .away rfl
  · have returned := returned_stirs stirs sound.returned
    exact returned fun i now _ _ _ _ same => absurd same (viewers i now)
  · exact fun found before over' => sound.finished found before ((counts farewells rfl).symm.trans over')

theorem Sound.perform (sound : round.Sound) (once : round.live.Once action)
    (spared : round.live.Spared action) (performed : round.perform action = some after) :
    after.Sound := by
  obtain ⟨next, stepped, rfl⟩ := Option.map_eq_some_iff.mp performed
  have enrolled := sound.enrolled.perform stepped
  have stirs := sound.enrolled.stirs stepped
  cases action with
  | run i now =>
    obtain ⟨statement, rest, changed, left, spawned, ran⟩ := ran_of_perform stepped
    dsimp only
    rw [ran.here, Option.getD_some]
    by_cases ordinary : plain statement = true
    · rw [noting_plain ordinary]
      exact sound.ran once enrolled stirs ran ordinary
    · unfold plain at ordinary
      split at ordinary
      · exact sound.begins enrolled stirs ran
      · exact sound.tells enrolled stirs ran
      · contradiction
  | stop | playSession | view =>
    obtain ⟨_, _, _, _, _, _, _, same, _⟩ | aside := perform_cases stepped
    · contradiction
    · exact sound.aside enrolled stirs spared aside fun _ _ => LiveAction.noConfusion

variable {sessionFolder : Bytes} {session : SessionContext} {files : Files}

theorem farewells_unseen : Unseen farewells := ⟨rfl, fun _ => rfl⟩

theorem loggedIn_sound (connected : Option ConnectedClient) :
    Sound { live := loggedIn sessionFolder session files connected } := by
  have none : weights farewells (handleClientConn connected) = 0 :=
    farewells_unseen.handleClientConn (fun _ _ => rfl) connected
  have unleft : weights leaves (handleClientConn connected) = 0 :=
    leaves_unseen.handleClientConn (fun _ _ => rfl) connected
  refine ⟨loggedIn_enrolled _ _ _ _, ?_, fun _ => ⟨rfl, ?_⟩, fun _ => rfl, ?_, nofun, nofun, nofun,
    nofun⟩
  · exact (total_singleton _ _).trans none ▸ Nat.zero_le 1
  · exact (total_singleton _ _).trans unleft
  · exact List.forall_mem_singleton.mpr (.away none)

/-- Where nobody who registers takes a slot that the round has still to come to, it tells each of
those that it has found once. -/
theorem spared_tells_once (reached : (runs Spared sessionFolder session files).Reachable round) :
    round.TellsOnce := by
  have sound : round.Sound := by
    induction reached with
    | start first =>
      obtain ⟨live, rfl, -, -, connected, rfl⟩ := first
      exact loggedIn_sound connected
    | next _ step ih => exact ih.perform step.1 step.2.1 step.2.2
  intro found before viewer member
  have distinct := sound.distinct found before
  refine ⟨?_, fun over' _ => ?_⟩
  · obtain ⟨index, told⟩ := sound.within found before
    rw [told]
    exact List.nodup_iff_count_le_one.mp (distinct.sublist (List.take_sublist _ _)) viewer
  · rw [sound.finished found before over']
    exact List.count_eq_one_of_mem distinct member

/-- A step, if it is admitted. -/
def performing (Admitted : LiveSession → LiveAction → Prop)
    [∀ live action, Decidable (Admitted live action)] (round : Round) (action : LiveAction) :
    Option Round :=
  if round.live.Once action ∧ Admitted round.live action then round.perform action else none

theorem performing_step {Admitted : LiveSession → LiveAction → Prop}
    [∀ live action, Decidable (Admitted live action)] (round : Round) (action : LiveAction)
    (after : Round) (performed : round.performing Admitted action = some after) :
    (runs Admitted sessionFolder session files).step round action after := by
  obtain ⟨⟨once, admitted⟩, stepped⟩ := Option.ite_none_right_eq_some.mp performed
  exact ⟨once, admitted, stepped⟩

theorem freshSession_rounds {Admitted : LiveSession → LiveAction → Prop} :
    (runs Admitted (lit "logs") freshSession ∅).Reachable
      { live := loggedIn (lit "logs") freshSession ∅ none } :=
  .start ⟨_, rfl, rfl, rfl, none, rfl⟩

/-- A viewer comes while the proxy is being stopped, and is sent the stop event. -/
def joining (viewer : Nat) : List LiveAction :=
  .playSession :: List.replicate 4 (.view viewer (some (lit "ack")) 0)

def stopping (turns : Nat) : List LiveAction := List.replicate turns (.run 1 0)

/-- The round tells the first of two viewers, which returns. -/
def firstTold : List LiveAction :=
  .stop :: stopping 6 ++ joining 0 ++ joining 1 ++ stopping 3 ++ [.view 0 none 0]

theorem spared_tells_once_two : ∃ round : Round,
    (runs Spared (lit "logs") freshSession ∅).Reachable round ∧ round.before = some [0, 1] ∧
      total farewells round.live.threads = 0 ∧ round.TellsOnce := by
  have ran : (((firstTold ++ stopping 3).foldlM (performing Spared)
      { live := loggedIn (lit "logs") freshSession ∅ none }).any fun round : Round =>
        round.before = some [0, 1] ∧ total farewells round.live.threads = 0) = true := by
    decide +kernel
  obtain ⟨round, same, facts⟩ := (Option.any_eq_true _ _).mp ran
  obtain ⟨before, over'⟩ := of_decide_eq_true facts
  have reached := freshSession_rounds.foldlM performing_step same
  exact ⟨round, reached, before, over', spared_tells_once reached⟩

/-- A third viewer comes then, and its signal takes the slot of the second, which has been moved to
where the first one's was. -/
theorem second_viewer_missed : ¬ ∀ (sessionFolder : Bytes) (session : SessionContext) (files : Files)
    (round : Round), (runs (fun _ _ => True) sessionFolder session files).Reachable round →
      round.TellsOnce := by
  intro claim
  have ran : (((firstTold ++ joining 2 ++ stopping 3).foldlM (performing fun _ _ => True)
      { live := loggedIn (lit "logs") freshSession ∅ none }).any fun round : Round =>
        round.before = some [0, 1] ∧ total farewells round.live.threads = 0 ∧
          round.told = [0, 2] ∧ round.live.viewers[1]?.any Viewing.registered) = true := by
    decide +kernel
  obtain ⟨round, same, facts⟩ := (Option.any_eq_true _ _).mp ran
  obtain ⟨before, over', told, there⟩ := of_decide_eq_true facts
  have stays : round.Stays 1 := .inr ((Option.any_eq_true _ _).mp there)
  have once := claim _ _ _ round (freshSession_rounds.foldlM performing_step same) [0, 1] before 1
    (by decide)
  have counted := once.2 over' stays
  rw [told] at counted
  contradiction

end Round
end SSHProxyPlus
