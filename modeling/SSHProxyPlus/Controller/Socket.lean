import SSHProxyPlus.Controller.Commands
import SSHProxyPlus.Go.Bufio

/-! The control socket: the lines a client's connection gives, and what the controller
does with them. -/
namespace SSHProxyPlus
open Go

/-- A client's connection; every line that is read leaves less to come. -/
structure ProxyControllerSocketClient (C : Type) where
  readLine : C → Option (Bytes × C)
  pending : C → Nat
  advances : ∀ client line rest, readLine client = some (line, rest) →
    pending rest < pending client

def newline : UInt8 := 10

/-- Each call makes a new reader, and what is left in the reader's buffer goes with it. -/
def ProxyControllerSocketTCPClient.readLine (conn : Conn) : Option (Bytes × Conn) :=
  (readBytes newline [] [] conn).map fun (line, _, rest) => (line, rest)

theorem ProxyControllerSocketTCPClient.readLine_some {conn rest : Conn} {line : Bytes}
    (got : readLine conn = some (line, rest)) :
    ∃ left, readBytes newline [] [] conn = some (line, left, rest) ∧
      conn.flatten = line ++ left ++ rest.flatten ∧ IsLine newline line := by
  obtain ⟨⟨front, left, next⟩, read, same⟩ := Option.map_eq_some_iff.mp got
  obtain ⟨rfl, rfl⟩ := Prod.mk.inj same
  exact ⟨left, read, readBytes_some List.not_mem_nil read⟩

theorem ProxyControllerSocketTCPClient.readLine_advances {conn rest : Conn} {line : Bytes}
    (got : readLine conn = some (line, rest)) : rest.pending < conn.pending := by
  obtain ⟨left, -, same, body, rfl, -⟩ := readLine_some got
  simp only [Conn.pending, same, List.length_append, List.length_singleton]
  omega

def tcpClient : ProxyControllerSocketClient Conn where
  readLine := ProxyControllerSocketTCPClient.readLine
  pending := Conn.pending
  advances _ _ _ := ProxyControllerSocketTCPClient.readLine_advances

/-- A websocket gives one message at a time. -/
def ProxyControllerSocketWebClient.readLine : List Bytes → Option (Bytes × List Bytes)
  | [] => none
  | message :: messages => some (message, messages)

def webClient : ProxyControllerSocketClient (List Bytes) where
  readLine := ProxyControllerSocketWebClient.readLine
  pending := List.length
  advances messages line rest got := by
    cases messages with
    | nil => contradiction
    | cons message messages =>
      obtain ⟨rfl, rfl⟩ := Prod.mk.inj (Option.some.inj got)
      exact Nat.lt_succ_self _

/-- What one turn of the handler's loop depends on besides the line: the world, and whether
the reply can be sent. -/
structure Turn where
  world : World
  sent : Bool

def ControllerHMAC.fields : List (StructField ControllerHMAC) := [
  field "Message" none dataCodec message fun x m => { m with message := x },
  field "HMAC" none dataCodec hmac fun x m => { m with hmac := x }]

def ControllerHMAC.codec : Codec ControllerHMAC := structCodec ⟨[], []⟩ fields

namespace ControllerState

/-- A line that does not decode or does not verify is noted and sent back. -/
def handleLine (mac : Bytes → Bytes → Bytes) (world : World) (s : ControllerState) (data : Bytes) :
    Except Panic (ControllerState × Bytes) :=
  match ControllerHMAC.codec.unmarshal data ⟨[], []⟩ with
  | some messageWrapper =>
      match messageWrapper.verify mac s.controller.presharedKey with
      | .ok message => message.handleMessage s world
      | .error _ => do
          let _ ← deref s.controller.log
          return (s, data)
  | none => do
      let _ ← deref s.controller.log
      return (s, data)

/-- The handler's loop on a queue of lines. -/
def handleLines (mac : Bytes → Bytes → Bytes) (turns : Nat → Turn) :
    Nat → ControllerState → List Bytes → Except Panic (ControllerState × List Bytes)
  | _, s, [] => return (s, [])
  | turn, s, data :: lines => do
      let (s, reply) ← s.handleLine mac (turns turn).world data
      if (turns turn).sent then
        let (s, replies) ← handleLines mac turns (turn + 1) s lines
        return (s, reply :: replies)
      else return (s, [])

end ControllerState

namespace ProxyControllerSocketClient
variable {C : Type} (socket : ProxyControllerSocketClient C)

/-- `clientHandler`: it ends with the connection, or with a reply that cannot be sent. -/
def clientHandler (mac : Bytes → Bytes → Bytes) (turns : Nat → Turn) (turn : Nat)
    (s : ControllerState) (client : C) : Except Panic (ControllerState × List Bytes) :=
  match _got : socket.readLine client with
  | none => return (s, [])
  | some (data, rest) => do
      let (s, reply) ← s.handleLine mac (turns turn).world data
      if (turns turn).sent then
        let (s, replies) ← clientHandler mac turns (turn + 1) s rest
        return (s, reply :: replies)
      else return (s, [])
termination_by socket.pending client
decreasing_by exact socket.advances _ _ _ _got

/-- The results of `ReadLine`, one after the other. -/
def received (client : C) : List Bytes :=
  match _got : socket.readLine client with
  | none => []
  | some (line, rest) => line :: received rest
termination_by socket.pending client
decreasing_by exact socket.advances _ _ _ _got

variable {socket} {client rest : C} {line : Bytes}

theorem received_none (nothing : socket.readLine client = none) : socket.received client = [] := by
  unfold received
  split
  · rfl
  · next got =>
    rw [nothing] at got
    contradiction

theorem received_some (got : socket.readLine client = some (line, rest)) :
    socket.received client = line :: socket.received rest := by
  rw [received]
  split
  · next nothing =>
    rw [got] at nothing
    contradiction
  · next same =>
    obtain ⟨rfl, rfl⟩ := Prod.mk.inj (Option.some.inj (got.symm.trans same))
    rfl

/-- The handler sees nothing of a client but the lines it gives. -/
theorem clientHandler_received (mac : Bytes → Bytes → Bytes) (turns : Nat → Turn) (turn : Nat)
    (s : ControllerState) (client : C) :
    socket.clientHandler mac turns turn s client =
      s.handleLines mac turns turn (socket.received client) := by
  induction before : socket.pending client using Nat.strong_induction_on generalizing turn s client with
  | _ n ih =>
    subst before
    rw [clientHandler]
    split
    · next nothing =>
      rw [received_none nothing]
      rfl
    · next data rest got =>
      have later := fun turn s => ih _ (socket.advances _ _ _ got) turn s rest rfl
      rw [received_some got]
      simp only [later, ControllerState.handleLines]

end ProxyControllerSocketClient

open ProxyControllerSocketClient

theorem webClient_received (messages : List Bytes) : webClient.received messages = messages := by
  induction messages with
  | nil => exact received_none rfl
  | cons message messages ih =>
    rw [received_some (show webClient.readLine (message :: messages) = some (message, messages) from rfl),
      ih]

/-- Nothing is read twice. -/
theorem tcpClient_received_length (conn : Conn) :
    (tcpClient.received conn).flatten.length ≤ conn.flatten.length := by
  induction before : conn.pending using Nat.strong_induction_on generalizing conn with
  | _ n ih =>
    subst before
    cases got : tcpClient.readLine conn with
    | none =>
      rw [received_none got]
      exact Nat.zero_le _
    | some pair =>
      obtain ⟨line, rest⟩ := pair
      have later := ih _ (tcpClient.advances _ _ _ got) rest rfl
      obtain ⟨left, -, same, -⟩ := ProxyControllerSocketTCPClient.readLine_some got
      rw [received_some got, same]
      simp only [List.flatten_cons, List.length_append]
      omega

/-- All lines arrive if and only if no read goes past the end of a line. -/
theorem tcpClient_received_aligned {lines : List Bytes} (isLine : ∀ line ∈ lines, IsLine newline line)
    {conn : Conn} (sent : conn.flatten = lines.flatten) :
    tcpClient.received conn = lines ↔ Aligned newline 0 conn := by
  induction lines generalizing conn with
  | nil =>
    have nothing : tcpClient.readLine conn = none := by
      cases got : tcpClient.readLine conn with
      | none => rfl
      | some pair =>
        obtain ⟨line, rest⟩ := pair
        obtain ⟨left, -, same, body, rfl, -⟩ := ProxyControllerSocketTCPClient.readLine_some got
        rw [same] at sent
        simp at sent
    have none : readBytes newline [] [] conn = none := Option.map_eq_none_iff.mp nothing
    rw [received_none nothing]
    exact iff_of_true rfl (readBytes_none_aligned none 0)
  | cons line lines ih =>
    obtain ⟨first, others⟩ := List.forall_mem_cons.mp isLine
    cases got : tcpClient.readLine conn with
    | none =>
      obtain ⟨body, rfl, -⟩ := first
      have absent := readBytes_none (Option.map_eq_none_iff.mp got)
      rw [sent] at absent
      exact absurd (by simp) absent
    | some pair =>
      obtain ⟨front, rest⟩ := pair
      obtain ⟨left, read, same, ends⟩ := ProxyControllerSocketTCPClient.readLine_some got
      rw [sent, List.flatten_cons, List.append_assoc] at same
      obtain ⟨rfl, later⟩ := first.unique ends same
      have aligned := (readBytes_aligned (Nat.zero_le _) read).2 List.not_mem_nil
      rw [List.length_nil] at aligned
      rw [received_some got, aligned]
      by_cases none : left = []
      · subst none
        rw [List.nil_append] at later
        rw [List.cons_inj_right, ih others later.symm]
        simp
      · refine iff_of_false (fun all => ?_) fun h => none h.1
        have short := tcpClient_received_length rest
        rw [(List.cons.inj all).2, later, List.length_append] at short
        have lost := List.length_pos_iff.mpr none
        omega

/-- The lines arrive one by one, and the controller does with them what it does with the
messages of a websocket, if and only if no read goes past the end of a line. -/
theorem tcpClient_refines_lines {lines : List Bytes} (isLine : ∀ line ∈ lines, IsLine newline line)
    {conn : Conn} (sent : conn.flatten = lines.flatten) :
    (tcpClient.received conn = lines ∧ ∀ mac turns s,
      tcpClient.clientHandler mac turns 0 s conn = webClient.clientHandler mac turns 0 s lines) ↔
    Aligned newline 0 conn := by
  rw [← tcpClient_received_aligned isLine sent]
  refine and_iff_left_of_imp fun arrived mac turns s => ?_
  rw [clientHandler_received, clientHandler_received, arrived, webClient_received]

theorem tcpClient_refines_lines_two :
    (tcpClient.received [lit "a", lit "\nb\n"] = [lit "a\n", lit "b\n"] ∧ ∀ mac turns s,
      tcpClient.clientHandler mac turns 0 s [lit "a", lit "\nb\n"] =
        webClient.clientHandler mac turns 0 s [lit "a\n", lit "b\n"]) ↔
    Aligned newline 0 [lit "a", lit "\nb\n"] := by
  refine tcpClient_refines_lines ?_ rfl
  refine List.forall_mem_cons.mpr ⟨⟨lit "a", rfl, by decide⟩, ?_⟩
  exact List.forall_mem_cons.mpr ⟨⟨lit "b", rfl, by decide⟩, fun _ none => absurd none List.not_mem_nil⟩

/-- Of two lines in one segment the second is lost. -/
theorem tcpClient_loses_line :
    ¬ ∀ (lines : List Bytes) (conn : Conn), (∀ line ∈ lines, IsLine newline line) →
      conn.flatten = lines.flatten → tcpClient.received conn = lines ∧ ∀ mac turns s,
        tcpClient.clientHandler mac turns 0 s conn =
          webClient.clientHandler mac turns 0 s lines := by
  intro arrives
  have lines : ∀ line ∈ [lit "a\n", lit "b\n"], IsLine newline line :=
    List.forall_mem_cons.mpr ⟨⟨lit "a", rfl, by decide⟩,
      List.forall_mem_cons.mpr ⟨⟨lit "b", rfl, by decide⟩, fun _ none => absurd none List.not_mem_nil⟩⟩
  have segment : List.flatten [lit "a\nb\n"] = List.flatten [lit "a\n", lit "b\n"] := rfl
  have aligned := (tcpClient_received_aligned lines segment).mp (arrives _ _ lines segment).1
  have read : Conn.read (defaultBufSize - 0 % defaultBufSize) [lit "a\nb\n"] =
      some (lit "a\nb\n", []) := rfl
  have first : lit "a\nb\n" ∈ reads newline 0 [lit "a\nb\n"] := by
    rw [reads_some read]
    exact List.mem_cons_self
  exact aligned _ first (by decide)

end SSHProxyPlus
