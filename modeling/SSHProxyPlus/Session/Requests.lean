import SSHProxyPlus.Go.Binary
import SSHProxyPlus.Session.Context

/-! The requests of a connection or a channel: how they are recorded, forwarded to the other
side, and answered. -/
namespace SSHProxyPlus
open Go

/-- A request as it arrives. -/
structure Request where
  requestType : Bytes
  wantReply : Bool
  payload : Bytes

/-- What `SendRequest` returns. -/
structure SendOutcome where
  ok : Bool
  product : Bytes
  err : Option Bytes

/-- What a request meets with: the clock as it is taken and as it is recorded, the other side, and
the error that replying to it returns. -/
structure RequestOutcome where
  taken : Time
  recorded : Time
  sent : SendOutcome
  replyErr : Option Bytes

structure RequestData where
  reqType : Bytes
  reqPayload : Bytes
  msgType : Bytes
  offset : Int64

/-- A session with what its requests change of it. -/
structure RequestSession where
  session : SessionContext
  requestCount : Int64 := 1
  requests : List RequestData := []
  termRows : UInt32 := 0
  termCols : UInt32 := 0

/-- `SendRequest` on the other side, and `Reply` on the request. -/
inductive RequestCall where
  | sendRequest (name : Bytes) (wantReply : Bool) (payload : Bytes)
  | reply (ok : Bool) (payload : Bytes)
deriving DecidableEq

/-- Width and height. -/
def parseDims (b : Bytes) : Except Panic (UInt32 × UInt32) := do
  let w ← bigEndianUint32 b
  let h ← bigEndianUint32 (← sliceFrom b 4)
  return (w, h)

namespace Request
variable (request : Request)

/-- Width and height, where the request sets them. Of the length of the terminal's name only the
last byte is read. -/
def dimensions : Except Panic (Option (UInt32 × UInt32)) := do
  if request.requestType = lit "pty-req" then
    if request.payload.length > 4 then
      let termLen := (← byteAt request.payload 3).toNat
      if request.payload.length ≥ 4 + termLen + 8 then
        return some (← parseDims (← sliceFrom request.payload (termLen + 4)))
      else return none
    else return none
  else if request.requestType = lit "window-change" ∧ request.payload.length ≥ 8 then
    return some (← parseDims request.payload)
  else return none

/-- Requests that are not passed on. -/
def skipped : Bool :=
  request.requestType = lit "no-more-sessions@openssh.com" ||
    request.requestType = lit "hostkeys-00@openssh.com"

/-- The calls that the request leads to, and the error that is returned. -/
def forward (outcome : RequestOutcome) : List RequestCall × Option Bytes :=
  if request.skipped then ([], none)
  else
    let send := .sendRequest request.requestType request.wantReply request.payload
    let reply := .reply outcome.sent.ok outcome.sent.product
    match outcome.sent.err with
    | some err =>
        if request.wantReply then
          match outcome.replyErr with
          | some replyErr => ([send, reply], some (lit "reply after send failure: " ++ replyErr))
          | none => ([send, reply], some (lit "send request: " ++ err))
        else ([send], some (lit "send request: " ++ err))
    | none =>
        if request.wantReply then
          ([send, reply], outcome.replyErr.map fun replyErr => lit "reply: " ++ replyErr)
        else ([send], none)

end Request

structure Forwarded where
  state : RequestSession
  /-- The events that goroutines are to handle. -/
  spawned : List SessionEvent
  calls : List RequestCall
  err : Option Bytes

namespace RequestSession

/-- The session has its user, so that handling the event goes through. -/
def forwardRequest (state : RequestSession) (channelID : Int64) (request : Request)
    (outcome : RequestOutcome) : Except Panic Forwarded := do
  let requestID := state.requestCount
  let entry := {
    reqType := request.requestType
    reqPayload := request.payload
    msgType := lit "request-data"
    offset := state.session.getTimeOffset outcome.taken }
  let event := {
    type := eventNewRequest
    requestType := request.requestType
    requestPayload := request.payload
    requestID
    channelID }
  let recorded := { state with
    session := state.session.addEvent event outcome.recorded
    requestCount := state.requestCount + 1
    requests := state.requests ++ [entry] }
  let (calls, err) := request.forward outcome
  match ← request.dimensions with
  | some (width, height) =>
      let resize :=
        { type := eventWindowResize, termRows := height, termCols := width, requestID }
      let resized := { recorded with termRows := height, termCols := width }
      return { state := resized, spawned := [resize], calls, err }
  | none => return { state := recorded, spawned := [], calls, err }

end RequestSession

/-- What comes of a list of requests. A call is shown with the position of its request. -/
structure Handled where
  state : RequestSession
  spawned : List SessionEvent
  calls : List (Nat × RequestCall)

namespace RequestSession

/-- The loop from some position on. Errors are only reported. -/
def handleFrom (channelID : Int64) : Nat → RequestSession → List (Request × RequestOutcome) →
    Except Panic Handled
  | _, state, [] => return { state, spawned := [], calls := [] }
  | position, state, (request, outcome) :: later => do
      let forwarded ← state.forwardRequest channelID request outcome
      let rest ← handleFrom channelID (position + 1) forwarded.state later
      return {
        state := rest.state
        spawned := forwarded.spawned ++ rest.spawned
        calls := forwarded.calls.map (fun call => (position, call)) ++ rest.calls }

def handleRequests (state : RequestSession) (channelID : Int64)
    (arrivals : List (Request × RequestOutcome)) : Except Panic Handled :=
  handleFrom channelID 0 state arrivals

end RequestSession

theorem parseDims_ok {b : Bytes} (long : 8 ≤ b.length) :
    ∃ w h, parseDims b = .ok (w, h) ∧ uint32Bytes w ++ uint32Bytes h = b.take 8 := by
  have rest : 4 ≤ (b.drop 4).length := by
    rw [List.length_drop]
    omega
  obtain ⟨w, first, wide⟩ := bigEndianUint32_ok (by omega : 4 ≤ b.length)
  obtain ⟨h, second, high⟩ := bigEndianUint32_ok rest
  refine ⟨w, h, ?_, ?_⟩
  · rw [parseDims, first, sliceFrom_ok (by omega : 4 ≤ b.length)]
    simp only [bind, Except.bind, second]
    rfl
  · rw [wide, high, List.take_drop]
    have front : b.take 4 = (b.take 8).take 4 := by
      rw [List.take_take]
      rfl
    rw [front, List.take_append_drop]

namespace Request
variable {request : Request}

/-- The bounds are checked before any byte is read. -/
theorem dimensions_returns (request : Request) : ∃ dims, request.dimensions = .ok dims := by
  unfold dimensions
  split
  · split
    · next long =>
      rw [byteAt_ok (by omega : 3 < request.payload.length)]
      simp only [bind, Except.bind]
      split
      · next fits =>
        have inside : (request.payload[3]).toNat + 4 ≤ request.payload.length := by omega
        have enough : 8 ≤ (request.payload.drop ((request.payload[3]).toNat + 4)).length := by
          rw [List.length_drop]
          omega
        obtain ⟨w, h, parsed, -⟩ := parseDims_ok enough
        rw [sliceFrom_ok inside]
        simp only [parsed]
        exact ⟨_, rfl⟩
      · exact ⟨none, rfl⟩
    · exact ⟨none, rfl⟩
  · split
    · next fits =>
      obtain ⟨w, h, parsed, -⟩ := parseDims_ok fits.2
      rw [parsed]
      exact ⟨_, rfl⟩
    · exact ⟨none, rfl⟩

/-- Whether the request has been answered once it is forwarded. -/
def answered (request : Request) : Bool := request.wantReply && !request.skipped

/-- One reply at most, and it comes last. -/
theorem forward_replies (request : Request) (outcome : RequestOutcome) :
    (request.forward outcome).1.filter (fun call => call matches .reply _ _) =
      if request.answered then [.reply outcome.sent.ok outcome.sent.product] else [] := by
  unfold forward answered
  cases skip : request.skipped with
  | true => simp
  | false =>
    cases want : request.wantReply with
    | true =>
      cases outcome.sent.err with
      | none => simp
      | some err => cases outcome.replyErr <;> simp
    | false => cases outcome.sent.err <;> simp

end Request

namespace RequestSession

/-- Forwarding never panics. -/
theorem forwardRequest_returns (state : RequestSession) (channelID : Int64) (request : Request)
    (outcome : RequestOutcome) : ∃ forwarded,
      state.forwardRequest channelID request outcome = .ok forwarded ∧
      forwarded.calls = (request.forward outcome).1 ∧
      (∀ dims, request.dimensions = .ok dims →
        (forwarded.state.termCols, forwarded.state.termRows) =
          dims.getD (state.termCols, state.termRows)) := by
  obtain ⟨dims, read⟩ := request.dimensions_returns
  unfold forwardRequest
  rw [read]
  cases dims with
  | none =>
    refine ⟨_, rfl, rfl, ?_⟩
    rintro _ ⟨⟩
    rfl
  | some size =>
    refine ⟨_, rfl, rfl, ?_⟩
    rintro _ ⟨⟩
    rfl

/-- Every request is counted and recorded. -/
theorem forwardRequest_records {state : RequestSession} {channelID : Int64} {request : Request}
    {outcome : RequestOutcome} {forwarded : Forwarded}
    (returned : state.forwardRequest channelID request outcome = .ok forwarded) :
    forwarded.state.requestCount = state.requestCount + 1 ∧
    forwarded.state.session = state.session.addEvent {
      type := eventNewRequest
      requestType := request.requestType
      requestPayload := request.payload
      requestID := state.requestCount
      channelID } outcome.recorded := by
  obtain ⟨dims, read⟩ := request.dimensions_returns
  unfold forwardRequest at returned
  rw [read] at returned
  cases dims with
  | none =>
    obtain rfl := Except.ok.inj returned
    exact ⟨rfl, rfl⟩
  | some size =>
    obtain rfl := Except.ok.inj returned
    exact ⟨rfl, rfl⟩

end RequestSession

/-- The requests that were replied to, by their positions, in the order of the replies. -/
def Handled.answered (handled : Handled) : List Nat :=
  (handled.calls.filter fun call => call.2 matches .reply _ _).map Prod.fst

/-- The positions of the requests that pass a test. -/
def positionsFrom (start : Nat) (test : Request → Bool)
    (arrivals : List (Request × RequestOutcome)) : List Nat :=
  ((arrivals.zipIdx start).filter fun arrival => test arrival.1.1).map Prod.snd

theorem positionsFrom_cons (start : Nat) (test : Request → Bool)
    (arrival : Request × RequestOutcome) (later : List (Request × RequestOutcome)) :
    positionsFrom start test (arrival :: later) =
      (if test arrival.1 then [start] else []) ++ positionsFrom (start + 1) test later := by
  unfold positionsFrom
  rw [List.zipIdx_cons, List.filter_cons]
  split
  · rfl
  · rfl

/-- Where one test is stricter than another, the same requests pass them exactly if those that
pass the other pass it too. -/
theorem positionsFrom_eq_iff {start : Nat} {strict loose : Request → Bool}
    (stricter : ∀ request, strict request = true → loose request = true)
    (arrivals : List (Request × RequestOutcome)) :
    positionsFrom start strict arrivals = positionsFrom start loose arrivals ↔
      ∀ arrival ∈ arrivals, loose arrival.1 = true → strict arrival.1 = true := by
  induction arrivals generalizing start with
  | nil =>
    constructor
    · intro _ arrival none
      exact absurd none List.not_mem_nil
    · intro _
      rfl
  | cons arrival later ih =>
    rw [positionsFrom_cons, positionsFrom_cons, List.forall_mem_cons, ← @ih (start + 1)]
    cases passes : loose arrival.1 with
    | false =>
      have fails : strict arrival.1 = false := by
        by_contra strictly
        have loosely := stricter arrival.1 (by simpa using strictly)
        rw [passes] at loosely
        contradiction
      simp [fails]
    | true =>
      cases strict arrival.1 with
      | true => simp
      | false =>
        constructor
        · intro same
          -- the position of this request is before all others
          have here : start ∈ positionsFrom (start + 1) strict later := by
            simp only [Bool.false_eq_true, if_false, List.nil_append, if_true] at same
            rw [same]
            exact List.mem_append_left _ (List.mem_singleton_self start)
          obtain ⟨entry, inside, same⟩ := List.mem_map.mp here
          have after := List.le_snd_of_mem_zipIdx (List.mem_filter.mp inside).1
          omega
        · intro contra
          exact absurd (contra.1 rfl) Bool.false_ne_true

namespace RequestSession

/-- Every request with `WantReply` is replied to once, in the order of arrival, and no other. -/
def AnswersInOrder (state : RequestSession) (channelID : Int64)
    (arrivals : List (Request × RequestOutcome)) : Prop :=
  ∃ handled, state.handleRequests channelID arrivals = .ok handled ∧
    handled.answered = positionsFrom 0 Request.wantReply arrivals

theorem handleFrom_answered (channelID : Int64) (start : Nat) (state : RequestSession)
    (arrivals : List (Request × RequestOutcome)) : ∃ handled,
      handleFrom channelID start state arrivals = .ok handled ∧
        handled.answered = positionsFrom start Request.answered arrivals := by
  induction arrivals generalizing start state with
  | nil => exact ⟨_, rfl, rfl⟩
  | cons arrival later ih =>
    obtain ⟨request, outcome⟩ := arrival
    obtain ⟨forwarded, returned, calls, -⟩ :=
      state.forwardRequest_returns channelID request outcome
    obtain ⟨rest, goesOn, answered⟩ := ih (start + 1) forwarded.state
    rw [handleFrom, returned]
    simp only [bind, Except.bind, goesOn]
    refine ⟨_, rfl, ?_⟩
    have own : ((forwarded.calls.map fun call => (start, call)).filter
        fun call => call.2 matches .reply _ _).map Prod.fst =
          if request.answered then [start] else [] := by
      rw [List.filter_map, List.map_map, calls]
      have replies := request.forward_replies outcome
      simp only [Function.comp_def]
      rw [replies]
      split
      · rfl
      · rfl
    rw [positionsFrom_cons, ← answered, ← own, Handled.answered, Handled.answered,
      List.filter_append, List.map_append]

/-- The requests are answered in order exactly where nobody waits for a reply to one that is
skipped. -/
theorem handleRequests_answers_iff (state : RequestSession) (channelID : Int64)
    (arrivals : List (Request × RequestOutcome)) :
    state.AnswersInOrder channelID arrivals ↔
      ∀ arrival ∈ arrivals, arrival.1.wantReply = true → arrival.1.skipped = false := by
  obtain ⟨handled, returned, answered⟩ := state.handleFrom_answered channelID 0 arrivals
  have stricter : ∀ request : Request, request.answered = true → request.wantReply = true :=
    fun request both => (Bool.and_eq_true_iff.mp both).1
  have same : state.AnswersInOrder channelID arrivals ↔
      positionsFrom 0 Request.answered arrivals = positionsFrom 0 Request.wantReply arrivals := by
    constructor
    · rintro ⟨other, returned', replies⟩
      obtain rfl := Except.ok.inj (returned.symm.trans returned')
      exact answered.symm.trans replies
    · intro same
      exact ⟨handled, returned, answered.trans same⟩
  rw [same, positionsFrom_eq_iff stricter]
  simp only [Request.answered, Bool.and_eq_true, Bool.not_eq_true']
  constructor
  · intro all arrival member waits
    exact (all arrival member waits).2
  · intro all arrival member waits
    exact ⟨waits, all arrival member waits⟩

/-- Nobody answers a client that wants to know whether there will be no more sessions. -/
theorem no_more_sessions_unanswered :
    ¬∀ (state : RequestSession) (channelID : Int64) (arrivals : List (Request × RequestOutcome)),
      state.AnswersInOrder channelID arrivals := by
  intro claim
  let request : Request := ⟨lit "no-more-sessions@openssh.com", true, []⟩
  obtain ⟨handled, returned, answered⟩ := claim { session := {} } 0
    [(request, ⟨0, 0, ⟨true, [], none⟩, none⟩)]
  have calls : handled.calls = [] := by
    obtain rfl := Except.ok.inj returned
    rfl
  rw [Handled.answered, calls] at answered
  exact absurd answered (by decide)

end RequestSession
end SSHProxyPlus
