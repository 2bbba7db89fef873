import WgKotlin.Ipc.Agreement
import WgKotlin.Ipc.Wire

/-!
# Messages over the connection

The frames of `ipc/mod.rs` and `IpcProtocol.kt` with the messages that they carry.  The
payloads are written and read by prost in the daemon and by the generated marshaller in the
client, of which only the agreement is assumed.  Each side reads what the other has written,
however the stream is cut into pieces.  A message is refused by the writer if it has no payload
or is too long, and a packet of the TUN never is.
-/

namespace WgKotlin

open Library Library.Tagged Daemon Wire

/-- The message of `error_response` and its kind, with the text that a code has. -/
def wirePayload (describe : Code → String) : Daemon.ServerPayload → Wire.ServerPayload
  | .ready ready => .ready ready
  | .started name => .started name
  | .incomingPacket data => .incomingPacket data
  | .error error => .error { code := describe error.code, message := error.message }

def wire (describe : Code → String) (m : Daemon.ServerMessage) : Wire.ServerMessage where
  payload := m.payload.map (wirePayload describe)

/-! ### The runtimes of protobuf -/

/-- One direction: the encoder of its writer and the decoder of its reader. -/
structure Protobuf (M : Type) where
  encode : M → Bytes
  decode : Bytes → Except String M

/-- The reader decodes what the writer encodes, and only a message without a payload is
encoded as nothing. -/
structure Protobuf.Agrees {M : Type} (protobuf : Protobuf M) (hasPayload : M → Bool) : Prop where
  decodes : ∀ m, FitsFrame (protobuf.encode m).length →
    protobuf.decode (protobuf.encode m) = .ok m
  empty : ∀ m, protobuf.encode m = [] ↔ hasPayload m = false

/-- Both directions. -/
structure Runtimes where
  client : Protobuf ClientMessage
  server : Protobuf Wire.ServerMessage

/-- The two runtimes agree, the message of a packet is at most ten bytes longer than the
packet, and that of the readiness is short. -/
structure Runtimes.Conform (runtimes : Runtimes) : Prop where
  client : runtimes.client.Agrees fun m => m.payload.isSome
  server : runtimes.server.Agrees fun m => m.payload.isSome
  outgoing_le : ∀ data : Bytes, data.length ≤ 4194294 →
    (runtimes.client.encode { payload := some (.outgoingPacket data) }).length ≤ data.length + 10
  incoming_le : ∀ data : Bytes, data.length ≤ 4194294 →
    (runtimes.server.encode { payload := some (.incomingPacket data) }).length ≤ data.length + 10
  ready_le : ∀ ready : DaemonReady,
    (runtimes.server.encode { payload := some (.ready ready) }).length ≤ 27

/-! ### One direction -/

/-- What is written arrives, in order and complete.  A frame is read as the message that the
decoder finds in it, and the writer takes what has a payload and fits. -/
structure Carries {M R ε ε' : Type} (protobuf : Protobuf M) (hasPayload : M → Bool)
    (write : M → Except ε Bytes) (read : Input → Except ε' (R × Input)) (result : M → R)
    (ended : Input → Prop) : Prop where
  delivered : ∀ messages frames, mapAll write messages = .ok frames →
    ∀ s : Input, s.content = frames.flatten → s.failure = none →
      ∃ t, InputStream.readMany read messages.length s = .ok (messages.map result, t) ∧ ended t
  decoded : ∀ payload m, FitsFrame payload.length → protobuf.decode payload = .ok m →
    InputStream.Delivers read (frame payload) (result m)
  accepted : ∀ m, (∃ bytes, write m = .ok bytes) ↔
    hasPayload m = true ∧ (protobuf.encode m).length ≤ 4194304

section Directions

variable {M : Type} {protobuf : Protobuf M} {hasPayload : M → Bool}

/-- A frame is for what is not empty and not too long. -/
theorem Protobuf.Agrees.fitsFrame (h : protobuf.Agrees hasPayload) (m : M) :
    FitsFrame (protobuf.encode m).length ↔
      hasPayload m = true ∧ (protobuf.encode m).length ≤ 4194304 := by
  have hpos : 1 ≤ (protobuf.encode m).length ↔ hasPayload m = true := by
    rw [Nat.one_le_iff_ne_zero, ne_eq, List.length_eq_zero_iff, h.empty, Bool.not_eq_false]
  rw [FitsFrame, hpos]
  rfl

/-- Both writers refuse what does not fit, and nothing else. -/
theorem exists_ok_iff_fits {ε : Type} {payload : Bytes} {e : ε} :
    (∃ bytes, (if FitsFrame payload.length then Except.ok (frame payload) else .error e) =
      .ok bytes) ↔ FitsFrame payload.length := by
  split
  next hfits => exact ⟨fun _ => hfits, fun _ => ⟨_, rfl⟩⟩
  next hfits => exact ⟨fun ⟨_, h⟩ => (by cases h), fun h => absurd h hfits⟩

/-- What a writer has written is delivered, if frames are. -/
theorem Protobuf.Agrees.forall₂_written {ε : Type} {e : ε} {write : M → Except ε Bytes}
    {R : Bytes → M → Prop} (h : protobuf.Agrees hasPayload)
    (hwrite : ∀ m, write m = if FitsFrame (protobuf.encode m).length then
      .ok (frame (protobuf.encode m)) else .error e)
    (hframe : ∀ payload m, FitsFrame payload.length → protobuf.decode payload = .ok m →
      R (frame payload) m)
    {messages : List M} {frames : List Bytes} (hwritten : mapAll write messages = .ok frames) :
    List.Forall₂ R frames messages := by
  refine (mapAll_eq_ok.mp hwritten).flip.imp fun bytes m hm => ?_
  have hm : write m = .ok bytes := hm
  rw [hwrite] at hm
  split at hm
  next hfits =>
    cases hm
    exact hframe _ m hfits (h.decodes m hfits)
  next => cases hm

theorem client_to_daemon (h : protobuf.Agrees hasPayload) :
    Carries protobuf hasPayload (IpcProtocol.writeMessage protobuf.encode)
      (Daemon.Ipc.readFrame protobuf.decode) some
      (fun t => Daemon.Ipc.readFrame protobuf.decode t = .ok (none, t)) where
  delivered := fun _ _ hwritten _ hs hclean =>
    Daemon.Ipc.readMany_frames hs hclean <|
      h.forall₂_written (IpcProtocol.writeMessage_eq protobuf.encode)
        (fun _ _ => Daemon.Ipc.readFrame_delivers) hwritten
  decoded := fun _ _ => Daemon.Ipc.readFrame_delivers
  accepted := fun m => by
    rw [IpcProtocol.writeMessage_eq, exists_ok_iff_fits, h.fitsFrame]

theorem daemon_to_client (h : protobuf.Agrees hasPayload) :
    Carries protobuf hasPayload (Daemon.Ipc.writeFrame protobuf.encode)
      (IpcProtocol.readMessage protobuf.decode) id
      (fun t => IpcProtocol.readFrame t = .error .eof) where
  delivered := fun messages _ hwritten _ hs hclean => by
    rw [List.map_id]
    exact IpcProtocol.readMany_frames hs hclean <|
      h.forall₂_written (Daemon.Ipc.writeFrame_eq protobuf.encode)
        (fun _ _ => IpcProtocol.readMessage_delivers) hwritten
  decoded := fun _ _ => IpcProtocol.readMessage_delivers
  accepted := fun m => by
    rw [Daemon.Ipc.writeFrame_eq, exists_ok_iff_fits, h.fitsFrame]

end Directions

/-! ### Both directions -/

/-- The messages of `daemon-protocol` cross the connection in both directions, if the runtimes
of protobuf conform. -/
theorem messages_cross_ipc (runtimes : Runtimes) (hconform : runtimes.Conform)
    (describe : Code → String) :
    Carries runtimes.client (fun m => m.payload.isSome)
        (IpcProtocol.writeMessage runtimes.client.encode)
        (Daemon.Ipc.readFrame runtimes.client.decode) some
        (fun t => Daemon.Ipc.readFrame runtimes.client.decode t = .ok (none, t)) ∧
      Carries runtimes.server (fun m => m.payload.isSome)
        (Daemon.Ipc.writeFrame runtimes.server.encode)
        (IpcProtocol.readMessage runtimes.server.decode) id
        (fun t => IpcProtocol.readFrame t = .error .eof) ∧
      (∀ data : Bytes, data.length ≤ 4194294 →
        (∃ bytes, IpcProtocol.writeMessage runtimes.client.encode
          { payload := some (.outgoingPacket data) } = .ok bytes) ∧
        ∃ bytes, Daemon.Ipc.writeFrame runtimes.server.encode
          (wire describe (packetMessage data)) = .ok bytes) ∧
      ∀ pid : UInt32, ∃ bytes, Daemon.Ipc.writeFrame runtimes.server.encode
        (wire describe (readyMessage pid)) = .ok bytes := by
  have hclient := client_to_daemon hconform.client
  have hserver := daemon_to_client hconform.server
  refine ⟨hclient, hserver, fun data hdata => ⟨?_, ?_⟩, fun pid => ?_⟩
  · have hle := hconform.outgoing_le data hdata
    exact (hclient.accepted _).mpr ⟨rfl, by omega⟩
  · have hle := hconform.incoming_le data hdata
    refine (hserver.accepted _).mpr ⟨rfl, ?_⟩
    show (runtimes.server.encode { payload := some (.incomingPacket data) }).length ≤ 4194304
    omega
  · have hle := hconform.ready_le { protocolVersion := protocolVersion, pid := pid }
    refine (hserver.accepted _).mpr ⟨rfl, Nat.le_trans hle (by decide)⟩

/-! ### The encoding of proto3 -/

/-- A message as its schema reads it, with a text for a malformed one. -/
def decodeWith {M : Type} (malformed : String) (schema : Schema M) (bytes : Bytes) :
    Except String M :=
  match schema.decode bytes with
  | some m => .ok m
  | none => .error malformed

def proto3 : Runtimes where
  client :=
    { encode := clientMessage.encode
      decode := decodeWith "failed to decode Protobuf message" clientMessage }
  server :=
    { encode := serverMessage.encode
      decode := decodeWith "Protocol message is malformed" serverMessage }

/-- A payload that fits a frame is short enough for its lengths to be written. -/
theorem decodeWith_encode {M : Type} (malformed : String) {schema : Schema M} {m : M}
    (hfits : FitsFrame (schema.encode m).length) :
    decodeWith malformed schema (schema.encode m) = .ok m := by
  have hdecode : schema.decode (schema.encode m) = some m :=
    schema.decode_encode (Nat.lt_trans hfits.lt (by decide))
  rw [decodeWith, hdecode]

theorem encode_client_eq_nil {m : ClientMessage} :
    clientMessage.encode m = [] ↔ m.payload.isSome = false := by
  refine writeFields_eq_nil.trans ?_
  show clientFields m = [] ↔ _
  obtain ⟨payload⟩ := m
  cases payload with
  | none => exact ⟨fun _ => rfl, fun _ => rfl⟩
  | some payload =>
      cases payload <;> exact ⟨fun h => (by cases h), fun h => (by cases h)⟩

theorem encode_server_eq_nil {m : Wire.ServerMessage} :
    serverMessage.encode m = [] ↔ m.payload.isSome = false := by
  refine writeFields_eq_nil.trans ?_
  show serverFields m = [] ↔ _
  obtain ⟨payload⟩ := m
  cases payload with
  | none => exact ⟨fun _ => rfl, fun _ => rfl⟩
  | some payload =>
      cases payload <;> exact ⟨fun h => (by cases h), fun h => (by cases h)⟩

/-- A field with a short number and a message in it takes at most five bytes more. -/
theorem length_messageBytes_le {number n : Nat} {bytes : Bytes} (hnumber : number < 16)
    (hbytes : bytes.length ≤ n) (hn : n < 128 ^ 4) :
    (writeFields [{ number := number, value := .bytes bytes }]).length ≤ n + 5 := by
  have hle := length_write_bytes_le bytes hnumber (Nat.lt_of_le_of_lt hbytes hn)
  rw [writeFields, List.flatMap_singleton]
  omega

theorem length_encode_packet_le {data : Bytes} (hdata : data.length ≤ 4194294) :
    (packet.encode data).length ≤ data.length + 5 := by
  show (writeFields (bytesField 1 data)).length ≤ _
  unfold bytesField
  split
  · exact Nat.zero_le _
  · exact length_messageBytes_le (by decide) (Nat.le_refl _) (by omega)

theorem length_encode_ready_le (ready : DaemonReady) : (daemonReady.encode ready).length ≤ 22 := by
  have hversion : (writeFields (varintField 1 ready.protocolVersion.toNat)).length ≤ 11 :=
    length_varintField_le (by decide) (Nat.lt_trans ready.protocolVersion.toNat_lt (by decide))
  have hpid : (writeFields (varintField 2 ready.pid.toNat)).length ≤ 11 :=
    length_varintField_le (by decide) (Nat.lt_trans ready.pid.toNat_lt (by decide))
  show (writeFields (varintField 1 ready.protocolVersion.toNat ++
    varintField 2 ready.pid.toNat)).length ≤ 22
  rw [writeFields, List.flatMap_append, List.length_append]
  exact Nat.add_le_add hversion hpid

/-- The schemas conform. -/
theorem conform_proto3 : proto3.Conform where
  client := ⟨fun _ => decodeWith_encode _, fun _ => encode_client_eq_nil⟩
  server := ⟨fun _ => decodeWith_encode _, fun _ => encode_server_eq_nil⟩
  outgoing_le := fun data hdata =>
    length_messageBytes_le (by decide) (length_encode_packet_le hdata) (by omega)
  incoming_le := fun data hdata =>
    length_messageBytes_le (by decide) (length_encode_packet_le hdata) (by omega)
  ready_le := fun ready =>
    length_messageBytes_le (by decide) (length_encode_ready_le ready) (by decide)

/-- A packet is written, and a field with the unknown number 9 does not hide a shutdown. -/
theorem messages_cross_ipc_proto3 :
    (∃ bytes, IpcProtocol.writeMessage proto3.client.encode
        { payload := some (.outgoingPacket [0x45, 0, 0, 20]) } = .ok bytes) ∧
      InputStream.Delivers (Daemon.Ipc.readFrame proto3.client.decode)
        (frame [0x48, 7, 0x20, 1]) (some { payload := some (.shutdown true) }) := by
  obtain ⟨hclient, _, hpackets, _⟩ := messages_cross_ipc proto3 conform_proto3 fun _ => ""
  refine ⟨(hpackets _ (by decide)).1, hclient.decoded _ _ (by decide) ?_⟩
  decide +kernel

end WgKotlin
