import SSHProxyPlus.Controller.Settings
import SSHProxyPlus.Controller.Socket
import SSHProxyPlus.Transition.Erasure

/-! Lines of any number of clients, interleaved, and what is left when those that nobody
signed with the preshared key are taken out. The decoders and the authentication code are
any functions. -/
namespace SSHProxyPlus
open Go Transition

/-- `json.Unmarshal` into the two types that a line is decoded to. -/
structure Decoding where
  wrapper : Bytes → Option ControllerHMAC
  message : Bytes → Option ControllerMessage

/-- The decoder of `encoding/json`. -/
def jsonDecoding : Decoding where
  wrapper data := ControllerHMAC.codec.unmarshal data ⟨[], []⟩
  message data := ControllerMessage.codec.unmarshal data {}

def ControllerHMAC.verifyBy (decoding : Decoding) (mac : Bytes → Bytes → Bytes)
    (messageWrapper : ControllerHMAC) (key : Bytes) : Except VerifyError ControllerMessage :=
  if messageWrapper.hmac = mac key messageWrapper.message then
    match decoding.message messageWrapper.message with
    | some message => .ok message
    | none => .error .unmarshal
  else .error .hmacDoesNotMatch

/-- The commands that range over a map, draw secrets, read the clock or name a decoding
error. -/
def Command.consultsWorld : Command → Bool
  | .createProxy | .stopProxy | .destroyProxy => true
  | .getProxyViewer | .getProxyViewers | .newProxyViewer => true
  | _ => false

def ControllerMessage.consultsWorld (message : ControllerMessage) : Bool :=
  ((Command.read message.messageType).map Command.consultsWorld).getD false

/-- The others do the same in every world. -/
theorem ControllerMessage.handleMessage_world {message : ControllerMessage}
    (alone : message.consultsWorld = false) (s : ControllerState) (world world' : World) :
    message.handleMessage s world = message.handleMessage s world' := by
  unfold consultsWorld at alone
  unfold handleMessage dispatch
  cases read : Command.read message.messageType with
  | none => rfl
  | some command =>
    rw [read] at alone
    cases command <;> first | rfl | exact absurd alone (by decide)

/-- The state of the controller, and how many entries of the oracle have been used. -/
abbrev Consulted := ControllerState × Nat

section lines
variable (decoding : Decoding) (mac : Bytes → Bytes → Bytes) (oracle : Nat → World)

/-- A message takes the next world of the oracle if its command consults one. -/
def ControllerMessage.handleNext (message : ControllerMessage) (s : Consulted) :
    Except Panic (Consulted × Bytes) := do
  let (next, reply) ← message.handleMessage s.1 (oracle s.2)
  return ((next, if message.consultsWorld then s.2 + 1 else s.2), reply)

/-- One turn of `clientHandler`. -/
def handleNextLine (s : Consulted) (data : Bytes) : Except Panic (Consulted × Bytes) :=
  match decoding.wrapper data with
  | some messageWrapper =>
      match messageWrapper.verifyBy decoding mac s.1.controller.presharedKey with
      | .ok message => message.handleNext oracle s
      | .error _ => do
          let _ ← deref s.1.controller.log
          return (s, data)
  | none => do
      let _ ← deref s.1.controller.log
      return (s, data)

theorem handleNextLine_json (s : Consulted) (data : Bytes) :
    (handleNextLine jsonDecoding mac oracle s data).map (fun (next, reply) => (next.1, reply)) =
      s.1.handleLine mac (oracle s.2) data := by
  unfold handleNextLine ControllerState.handleLine
  simp only [jsonDecoding]
  cases ControllerHMAC.codec.unmarshal data ⟨[], []⟩ with
  | none => cases s.1.controller.log <;> rfl
  | some messageWrapper =>
    have same : messageWrapper.verifyBy jsonDecoding mac s.1.controller.presharedKey =
      messageWrapper.verify mac s.1.controller.presharedKey := rfl
    simp only [jsonDecoding] at same
    simp only [same]
    cases messageWrapper.verify mac s.1.controller.presharedKey with
    | error failure => cases s.1.controller.log <;> rfl
    | ok message =>
      simp only [ControllerMessage.handleNext]
      cases message.handleMessage s.1 (oracle s.2) <;> rfl

/-- The message that a line carries, where it is signed with the key. -/
def signedMessage (key data : Bytes) : Option ControllerMessage :=
  (decoding.wrapper data).bind fun messageWrapper =>
    if messageWrapper.hmac = mac key messageWrapper.message then
      decoding.message messageWrapper.message
    else none

variable {Client : Type}

/-- The line decodes, its HMAC is that of its message under the key, and its message
decodes. -/
def authenticated (key : Bytes) (line : Client × Bytes) : Bool :=
  (signedMessage decoding mac key line.2).isSome

/-- The reply goes to the client that sent the line. -/
def answerLine (s : Consulted) (line : Client × Bytes) :
    Except Panic (Consulted × Client × Bytes) := do
  let (next, reply) ← handleNextLine decoding mac oracle s line.2
  return (next, line.1, reply)

variable {decoding mac oracle} {s next : Consulted} {line reply : Client × Bytes}

theorem authenticated_iff {key : Bytes} : authenticated decoding mac key line = true ↔
    ∃ messageWrapper message, decoding.wrapper line.2 = some messageWrapper ∧
      messageWrapper.hmac = mac key messageWrapper.message ∧
      decoding.message messageWrapper.message = some message := by
  unfold authenticated signedMessage
  cases decoding.wrapper line.2 with
  | none => simp
  | some messageWrapper =>
    by_cases genuine : messageWrapper.hmac = mac key messageWrapper.message
    · simp [genuine, Option.isSome_iff_exists]
    · simp [genuine]

/-- Any other line is echoed, and changes nothing. -/
theorem answerLine_unauthenticated (logs : s.1.controller.log ≠ none)
    (unsigned : authenticated decoding mac s.1.controller.presharedKey line = false) :
    answerLine decoding mac oracle s line = .ok (s, line) := by
  obtain ⟨logger, log⟩ := Option.ne_none_iff_exists'.mp logs
  have echoed : handleNextLine decoding mac oracle s line.2 = .ok (s, line.2) := by
    unfold authenticated signedMessage at unsigned
    unfold handleNextLine
    cases decoded : decoding.wrapper line.2 with
    | none => simp [log, deref, bind, Except.bind, pure, Except.pure]
    | some messageWrapper =>
      rw [decoded, Option.bind_some] at unsigned
      simp only [ControllerHMAC.verifyBy]
      by_cases genuine : messageWrapper.hmac =
          mac s.1.controller.presharedKey messageWrapper.message
      · rw [if_pos genuine] at unsigned ⊢
        rw [Option.isSome_eq_false_iff, Option.isNone_iff_eq_none] at unsigned
        simp [unsigned, log, deref, bind, Except.bind, pure, Except.pure]
      · rw [if_neg genuine]
        simp [log, deref, bind, Except.bind, pure, Except.pure]
  simp only [answerLine, echoed, bind, Except.bind, pure, Except.pure]

theorem answerLine_settings (answered : answerLine decoding mac oracle s line = .ok (next, reply)) :
    next.1.controller.SameSettings s.1.controller := by
  obtain ⟨⟨after, data⟩, handled, done⟩ := of_bind_ok answered
  obtain ⟨rfl, rfl⟩ := Prod.mk.inj (Except.ok.inj done)
  have kept := ProxyController.SameSettings.refl s.1.controller
  unfold handleNextLine at handled
  split at handled
  · split at handled
    · obtain ⟨result, ran, same⟩ := of_bind_ok handled
      obtain ⟨rfl, rfl⟩ := Prod.mk.inj (Except.ok.inj same)
      exact ControllerMessage.handleMessage_settings _ ran
    · obtain ⟨_, _, same⟩ := of_bind_ok handled
      obtain ⟨rfl, -⟩ := Prod.mk.inj (Except.ok.inj same)
      exact kept
  · obtain ⟨_, _, same⟩ := of_bind_ok handled
    obtain ⟨rfl, -⟩ := Prod.mk.inj (Except.ok.inj same)
    exact kept

/-- What the controller checks signatures with, and that it can note a failure. -/
def Listens (key : Bytes) (s : Consulted) : Prop :=
  s.1.controller.presharedKey = key ∧ s.1.controller.log ≠ none

theorem answerLine_listens {key : Bytes} (listens : Listens key s)
    (answered : answerLine decoding mac oracle s line = .ok (next, reply)) : Listens key next := by
  have kept := answerLine_settings answered
  exact ⟨kept.presharedKey.trans listens.1, kept.log ▸ listens.2⟩

theorem answerLine_idle {key : Bytes} (listens : Listens key s)
    (unsigned : authenticated decoding mac key line = false) :
    answerLine decoding mac oracle s line = .ok (s, line) :=
  answerLine_unauthenticated listens.2 (listens.1.symm ▸ unsigned)

end lines

variable {Client : Type} {s : ControllerState}

/-- Lines that are not authenticated change nothing and are echoed to their senders; without
them the controller ends in the same state, and the others have the same replies. -/
theorem unauthenticated_erased (reached : (controllerRuns fun _ _ _ => True).Reachable s)
    (decoding : Decoding) (mac : Bytes → Bytes → Bytes) (oracle : Nat → World) (used : Nat)
    (lines : List (Client × Bytes)) :
    let authentic := authenticated decoding mac s.controller.presharedKey
    let serve := serveAll (answerLine decoding mac oracle) (s, used)
    (serve lines).map Prod.fst = (serve (lines.filter authentic)).map Prod.fst ∧
    (∀ final replies, serve lines = .ok (final, replies) → replies.length = lines.length ∧
      serve (lines.filter authentic) =
        .ok (final, ((lines.zip replies).filter (authentic ·.1)).map Prod.snd) ∧
      ∀ entry ∈ lines.zip replies, authentic entry.1 = false → entry.2 = entry.1) ∧
    ∀ before line mid replies, serve before = .ok (mid, replies) → authentic line = false →
      answerLine decoding mac oracle mid line = .ok (mid, line) := by
  intro authentic serve
  have start : Listens s.controller.presharedKey (s, used) := ⟨rfl, reachable_logs reached⟩
  have kept : ∀ before (line : Client × Bytes) after reply,
      Listens s.controller.presharedKey before →
      answerLine decoding mac oracle before line = .ok (after, reply) →
      Listens s.controller.presharedKey after := fun _ _ _ _ => answerLine_listens
  have idle : ∀ before line, Listens s.controller.presharedKey before →
      authentic line = false → answerLine decoding mac oracle before line =
        .ok (before, id line) := fun _ _ => answerLine_idle
  exact ⟨serveAll_erase_state kept idle start lines,
    fun final replies served =>
      ⟨serveAll_length served, serveAll_erase_replies kept idle start served⟩,
    fun before line mid replies => serveAll_erase_step kept idle start⟩

/-- Two clients send lines that are no messages. -/
theorem unauthenticated_erased_junk :
    let lines := [(true, lit "x"), (false, lit "")]
    let authentic := authenticated jsonDecoding (fun _ data => data) emptyController.presharedKey
    let serve := serveAll (answerLine jsonDecoding (fun _ data => data) fun _ => sortedWorld)
      ({ controller := emptyController }, 0)
    (serve lines).map Prod.fst = (serve (lines.filter authentic)).map Prod.fst ∧
    (∀ final replies, serve lines = .ok (final, replies) → replies.length = lines.length ∧
      serve (lines.filter authentic) =
        .ok (final, ((lines.zip replies).filter (authentic ·.1)).map Prod.snd) ∧
      ∀ entry ∈ lines.zip replies, authentic entry.1 = false → entry.2 = entry.1) ∧
    ∀ before line mid replies, serve before = .ok (mid, replies) → authentic line = false →
      answerLine jsonDecoding (fun _ data => data) (fun _ => sortedWorld) mid line =
        .ok (mid, line) :=
  unauthenticated_erased (.start ⟨emptyController, emptyController_setUp, rfl⟩) jsonDecoding
    (fun _ data => data) (fun _ => sortedWorld) 0 [(true, lit "x"), (false, lit "")]

end SSHProxyPlus
