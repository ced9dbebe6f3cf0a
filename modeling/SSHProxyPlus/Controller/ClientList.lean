import SSHProxyPlus.Controller.Listening
import SSHProxyPlus.Go.ShiftRemoval

/-! The list of clients of a control socket, with the array behind it and a count of how often
the socket has closed each of them. -/
namespace SSHProxyPlus
open Go Transition

/-- Connections are numbered in the order in which they were appended. -/
structure ClientList where
  active : Bool := false
  arrays : Arrays ConnRef := [{}]
  clients : SliceHeader := {}
  appended : Nat := 0
  closes : ConnRef → Nat := fun _ => 0
  stops : List StopCall := []

/-- The sections under the client mutex, and the steps of `Stop` and `ListenAndServe` around
them. -/
inductive ClientAction where
  | activate
  | append (spare : Nat)
  | clientClose (client : ConnRef)
  | stop
  | runStop (call : Nat)

namespace ClientList

/-- The clients that the slice shows. -/
def shown (list : ClientList) : List ConnRef := list.arrays.list list.clients

def append (list : ClientList) (spare : Nat) : ClientList :=
  let (arrays, clients) := list.arrays.push list.clients list.appended spare
  { list with arrays, clients, appended := list.appended + 1 }

def closeOne (list : ClientList) (client : ConnRef) : ClientList :=
  { list with
    closes := fun other => if other = client then list.closes other + 1 else list.closes other }

def clientClose (list : ClientList) (client : ConnRef) : ClientList :=
  match list.arrays.firstIndex list.clients client with
  | some index =>
      let (arrays, clients) :=
        if list.clients.length > index + 1 then list.arrays.shiftRemove list.clients index
        else (list.arrays, { list.clients with length := index })
      { list with arrays, clients }.closeOne client
  | none => list

/-- `make([]net.Conn,0)` is an array of its own. -/
def closeAll (list : ClientList) : ClientList :=
  let closed := list.shown.foldl closeOne list
  { closed with arrays := list.arrays ++ [{}], clients := { array := list.arrays.length } }

/-- The next step of a call of `Stop`. -/
def runStop (list : ClientList) : StopCall → Option (ClientList × StopCall)
  | .checking => some (list, if list.active then .deactivating else .returning)
  | .deactivating => some ({ list with active := false }, .closing)
  | .closing => some (list.closeAll, .returning)
  | .returning => some (list, .returned)
  | .returned => none

def perform (list : ClientList) : ClientAction → Option ClientList
  | .activate => some { list with active := true }
  | .append spare => some (list.append spare)
  | .clientClose client => some (list.clientClose client)
  | .stop => some { list with stops := list.stops ++ [.checking] }
  | .runStop call => do
      let stop ← list.stops[call]?
      let (next, stop) ← list.runStop stop
      return { next with stops := list.stops.set call stop }

/-- A socket that has not served yet. -/
def runs : System ClientList ClientAction where
  init list := list = {}
  step list action next := list.perform action = some next

/-- The slice shows connections in order, each once, and those it does not show any more have
been closed. -/
structure Exact (list : ClientList) : Prop where
  within : list.clients.Within list.arrays
  ordered : list.shown.Sublist (List.range list.appended)
  closed : ∀ client, list.closes client =
    if client < list.appended ∧ client ∉ list.shown then 1 else 0

variable {list next : ClientList} {action : ClientAction}

theorem Exact.nodup (exact : list.Exact) : list.shown.Nodup :=
  exact.ordered.nodup List.nodup_range

theorem Exact.known (exact : list.Exact) {client : ConnRef} (shows' : client ∈ list.shown) :
    client < list.appended := List.mem_range.mp (exact.ordered.subset shows')

theorem Exact.append (exact : list.Exact) (spare : Nat) : (list.append spare).Exact := by
  have pushed := Arrays.push_pushed exact.within list.appended spare
  have shows' : (list.append spare).shown = list.shown ++ [list.appended] :=
    pushed.list exact.within
  refine ⟨pushed.within, ?_, fun client => ?_⟩
  · rw [shows', ClientList.append, List.range_succ]
    exact exact.ordered.append (List.Sublist.refl _)
  · have closed := exact.closed client
    rw [shows']
    simp only [ClientList.append, List.mem_append, List.mem_singleton]
    rw [closed]
    by_cases old : client < list.appended
    · simp [old, Nat.lt_succ_of_lt old, Nat.ne_of_lt old]
    · by_cases new : client = list.appended
      · simp [new]
      · have beyond : ¬ client < list.appended + 1 :=
          fun below => (Nat.lt_succ_iff_lt_or_eq.mp below).elim old new
        simp [old, new, beyond]

/-- One client less, and the others where they were. -/
theorem clientClose_cases (within : list.clients.Within list.arrays) (client : ConnRef) :
    (client ∉ list.shown ∧ list.clientClose client = list) ∨
    ∃ before after, list.shown = before ++ client :: after ∧ client ∉ before ∧
      (list.clientClose client).shown = before ++ after ∧
      (list.clientClose client).clients.Within (list.clientClose client).arrays ∧
      (list.clientClose client).closes = (list.closeOne client).closes ∧
      (list.clientClose client).appended = list.appended := by
  unfold clientClose
  cases found : list.arrays.firstIndex list.clients client with
  | none => exact .inl ⟨Arrays.firstIndex_none found, rfl⟩
  | some index =>
    obtain ⟨before, after, split, place, absent⟩ := Arrays.firstIndex_some found
    refine .inr ⟨before, after, split, absent, ?_⟩
    have size : list.clients.length = before.length + (after.length + 1) := by
      rw [← Arrays.length_list within, split, List.length_append, List.length_cons]
    dsimp only
    split
    · obtain ⟨stays, shows'⟩ := Arrays.shiftRemove_list within split place
      exact ⟨shows', stays, rfl, rfl⟩
    · next last =>
      obtain rfl : after = [] := List.eq_nil_of_length_eq_zero (by omega)
      obtain ⟨stays, shows'⟩ := Arrays.shorten_list within split place
      exact ⟨shows'.trans (List.append_nil _).symm, stays, rfl, rfl⟩

theorem Exact.clientClose (exact : list.Exact) (client : ConnRef) :
    (list.clientClose client).Exact := by
  obtain ⟨-, same⟩ | ⟨before, after, split, absent, shows', within, closes, appended⟩ :=
    clientClose_cases exact.within client
  · rwa [same]
  · have nodup := exact.nodup
    rw [split] at nodup
    have gone : client ∉ before ++ after := (List.nodup_middle.mp nodup).notMem
    refine ⟨within, ?_, fun other => ?_⟩
    · rw [shows', appended]
      refine List.Sublist.trans ?_ (split ▸ exact.ordered)
      exact (List.Sublist.refl before).append (List.sublist_cons_self client after)
    · have known : client < list.appended :=
        exact.known (split ▸ List.mem_append_right _ List.mem_cons_self)
      have closed := exact.closed other
      rw [closes, shows', appended, closeOne]
      dsimp only
      rw [closed, split]
      by_cases same : other = client
      · subst same
        simp [known, gone]
      · simp [same]

theorem foldl_closeOne (clients : List ConnRef) (list : ClientList) :
    clients.foldl closeOne list =
      { list with closes := fun client => list.closes client + clients.count client } := by
  induction clients generalizing list with
  | nil => rfl
  | cons first clients ih =>
    rw [List.foldl_cons, ih]
    simp only [closeOne, mk.injEq, true_and, and_true]
    funext client
    by_cases same : client = first
    · subst same
      rw [if_pos rfl, List.count_cons_self]
      omega
    · rw [if_neg same, List.count_cons_of_ne (Ne.symm same)]

theorem Exact.closeAll (exact : list.Exact) : list.closeAll.Exact := by
  have shows' : list.closeAll.shown = [] := by
    rw [shown, ClientList.closeAll, Arrays.list, List.take_zero]
  refine ⟨⟨?_, Nat.zero_le _⟩, ?_, fun client => ?_⟩
  · simp [ClientList.closeAll]
  · rw [shows']
    exact List.nil_sublist _
  · rw [shows']
    simp only [ClientList.closeAll, foldl_closeOne]
    rw [exact.closed client]
    by_cases stands : client ∈ list.shown
    · rw [List.count_eq_one_of_mem exact.nodup stands]
      simp [stands, exact.known stands]
    · rw [List.count_eq_zero_of_not_mem stands]
      simp [stands]

theorem Exact.perform (exact : list.Exact) (performed : list.perform action = some next) :
    next.Exact := by
  cases action with
  | activate | stop =>
    obtain rfl := Option.some.inj performed
    exact ⟨exact.within, exact.ordered, exact.closed⟩
  | append spare => exact Option.some.inj performed ▸ exact.append spare
  | clientClose client => exact Option.some.inj performed ▸ exact.clientClose client
  | runStop call =>
    simp only [ClientList.perform, Option.bind_eq_bind, Option.bind_eq_some_iff] at performed
    obtain ⟨stop, -, ⟨changed, later⟩, ran, same⟩ := performed
    obtain rfl := Option.some.inj same
    cases stop with
    | checking | deactivating | returning =>
      obtain ⟨rfl, -⟩ := Prod.mk.inj (Option.some.inj ran)
      exact ⟨exact.within, exact.ordered, exact.closed⟩
    | closing =>
      obtain ⟨rfl, -⟩ := Prod.mk.inj (Option.some.inj ran)
      have closed := exact.closeAll
      exact ⟨closed.within, closed.ordered, closed.closed⟩
    | returned => contradiction

/-- In every run each connection is either among the clients, once, and was not closed, or it is
not and was closed once; and those that remain are in the order in which they came. -/
theorem clients_exact (reached : runs.Reachable list) :
    (∀ client < list.appended,
      (list.shown.count client = 1 ∧ list.closes client = 0) ∨
        (client ∉ list.shown ∧ list.closes client = 1)) ∧
      list.shown.Sublist (List.range list.appended) := by
  have exact : list.Exact := by
    refine reached.invariant ?_ fun _ _ _ exact performed => exact.perform performed
    rintro _ rfl
    exact ⟨⟨Nat.one_pos, Nat.le_refl 0⟩, List.Sublist.refl _, fun _ => by simp⟩
  refine ⟨fun client known => ?_, exact.ordered⟩
  rw [exact.closed client]
  by_cases stands : client ∈ list.shown
  · exact .inl ⟨List.count_eq_one_of_mem exact.nodup stands, by simp [stands]⟩
  · exact .inr ⟨stands, by simp [stands, known]⟩

/-- Three connections; the handler of the first one ends, the socket is stopped, and the handler of
the second one ends. -/
def stoppedActions : List ClientAction :=
  [.activate, .append 0, .append 1, .append 0, .clientClose 0, .stop, .runStop 0, .runStop 0,
    .runStop 0, .clientClose 1]

theorem clients_exact_stopped : ∃ list, runs.Reachable list ∧ list.appended = 3 ∧
    ∀ client < 3, (list.shown.count client = 1 ∧ list.closes client = 0) ∨
      (client ∉ list.shown ∧ list.closes client = 1) := by
  have start : runs.Reachable {} := .start rfl
  have ran : Follows runs.step {} stoppedActions _ :=
    ⟨_, rfl, _, rfl, _, rfl, _, rfl, _, rfl, _, rfl, _, rfl, _, rfl, _, rfl, _, rfl, rfl⟩
  have reached := start.follows ran
  exact ⟨_, reached, rfl, (clients_exact reached).1⟩

end ClientList
end SSHProxyPlus
