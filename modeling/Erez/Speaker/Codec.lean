import Erez.Lib.Framing
import Erez.Speaker.MessageCodec

/-! # Messages on a stream

The codec waits until as many bytes have come as the length of a message says, and reads the
message from these alone: so the stream may be cut into chunks anywhere.
-/

namespace Erez.Speaker

open Daemon Erez.Lib ByteParser

/-! ## The codec -/

structure BgpCodec where
  asn4Sent : Option Bool := none
  asn4Received : Option Bool := none
  deriving DecidableEq

namespace BgpCodec

/-- Both sides have announced four-octet numbers. -/
def asn4 (codec : BgpCodec) : Bool :=
  codec.asn4Received.getD false && codec.asn4Sent.getD false

def announced (message : BgpOpenMessage) : Bool :=
  message.capabilities.any fun capability => capability.asn4?.isSome

def received (codec : BgpCodec) : BgpMessage → BgpCodec
  | .openMsg message => { codec with asn4Received := some (announced message) }
  | _ => codec

/-- The bytes are there to the end of the message. -/
def decodeWhole (ctx : BgpParsingContext) (codec : BgpCodec) (buf : List UInt8) (length : ℕ) :
    Decoded BgpCodec UInt8 ReadMessage (Failure FramingError) :=
  match BgpMessage.fromWire ctx codec.asn4 buf with
  | .ok (msg, _) => .item msg (codec.received msg.message) (buf.drop length)
  | .error failure => .error failure

def decode (ctx : BgpParsingContext) :
    Decoder BgpCodec UInt8 ReadMessage (Failure FramingError) :=
  fun codec buf =>
    if buf.length < 19 then .wait
    else
      let length := (BgpMessage.readLength buf).toNat
      if buf.length < length then .wait else codec.decodeWhole ctx buf length

def encode (ctx : BgpParsingContext) (codec : BgpCodec) (message : BgpMessage) :
    BgpCodec × Except ℕ (List UInt8) :=
  let sent :=
    match message with
    | .openMsg message => { codec with asn4Sent := some (announced message) }
    | _ => codec
  (sent, message.write ctx)

/-- What a connection writes, one message after the other. -/
def encodeAll (ctx : BgpParsingContext) :
    BgpCodec → List BgpMessage → List (Except ℕ (List UInt8))
  | _, [] => []
  | codec, message :: messages =>
      (codec.encode ctx message).2 :: encodeAll ctx (codec.encode ctx message).1 messages

/-- The chunks of a connection, one after the other. -/
def receive (ctx : BgpParsingContext) (codec : BgpCodec) (chunks : List (List UInt8)) :
    Decoder.Received BgpCodec UInt8 ReadMessage (Failure FramingError) :=
  chunks.foldl (Decoder.feed (decode ctx)) ([], .ok (codec, []))

/-! ## What is received -/

section Received

variable {ctx : BgpParsingContext}

theorem decode_of_whole (codec : BgpCodec) {buf : List UInt8} (enough : 19 ≤ buf.length)
    (whole : (BgpMessage.readLength buf).toNat ≤ buf.length) :
    decode ctx codec buf = codec.decodeWhole ctx buf (BgpMessage.readLength buf).toNat := by
  rw [decode, if_neg (by omega), if_neg (by omega)]

/-- What is decoded is there to its end. -/
theorem decode_cases (ctx : BgpParsingContext) (codec : BgpCodec) (buf : List UInt8) :
    decode ctx codec buf = .wait ∨
      19 ≤ buf.length ∧ (BgpMessage.readLength buf).toNat ≤ buf.length := by
  by_cases short : buf.length < 19
  · exact .inl (if_pos short)
  · by_cases cut : buf.length < (BgpMessage.readLength buf).toNat
    · refine .inl ?_
      rw [decode, if_neg short, if_pos cut]
    · exact .inr ⟨not_lt.mp short, not_lt.mp cut⟩

theorem decode_append (codec : BgpCodec) {buf : List UInt8} (enough : 19 ≤ buf.length)
    (whole : (BgpMessage.readLength buf).toNat ≤ buf.length) (more : List UInt8) :
    decode ctx codec (buf ++ more) = (decode ctx codec buf).append more := by
  have longer : buf.length ≤ (buf ++ more).length := by simp
  have same := BgpMessage.readLength_append enough more
  rw [decode_of_whole codec enough whole,
    decode_of_whole codec (enough.trans longer) (same ▸ whole.trans longer), same,
    decodeWhole, decodeWhole, BgpMessage.fromWire_settled codec.asn4 enough whole more]
  cases BgpMessage.fromWire ctx codec.asn4 buf with
  | error failure => rfl
  | ok result =>
      exact congrArg (Decoded.item result.1 (codec.received result.1.message))
        (List.drop_append_of_le_length whole)

theorem decode_stable (ctx : BgpParsingContext) : (decode ctx).Stable :=
  .of_append fun codec buf more busy => by
    obtain ⟨enough, whole⟩ := (decode_cases ctx codec buf).resolve_left busy
    exact decode_append codec enough whole more

theorem decode_progress (ctx : BgpParsingContext) : (decode ctx).Progress := by
  refine ⟨fun {codec buf msg codec' rest} step => ?_⟩
  rcases decode_cases ctx codec buf with waits | ⟨enough, whole⟩
  · rw [waits] at step
    cases step
  · rw [decode_of_whole codec enough whole, decodeWhole] at step
    split at step
    · rename_i parsed
      have long := BgpMessage.length_of_fromWire enough parsed
      cases step
      rw [List.length_drop]
      omega
    · cases step

/-- What a connection receives does not depend on how its bytes are cut into chunks. -/
theorem receive_flatten (ctx : BgpParsingContext) (codec : BgpCodec) (chunks : List (List UInt8)) :
    receive ctx codec chunks = receive ctx codec [chunks.flatten] := by
  have idle : decode ctx codec [] = .wait := rfl
  have whole := Decoder.foldl_feed (decode_stable ctx) (decode_progress ctx) idle
  rw [receive, receive, whole, whole, List.flatten_singleton]

theorem decode_frame (codec : BgpCodec) {message : BgpMessage} (sendable : message.Sendable ctx) :
    decode ctx codec (message.frame ctx) =
      .item message.asRead (codec.received message.asRead.message) [] := by
  have size := BgpMessage.readLength_frame sendable
  have long : 19 ≤ (message.frame ctx).length := by
    rw [BgpMessage.length_frame sendable]
    exact Nat.le_add_right 19 _
  rw [decode_of_whole codec long size.le, decodeWhole,
    BgpMessage.fromWire_frame codec.asn4 sendable, size, List.drop_length]

theorem encodeAll_eq_map (codec : BgpCodec) {messages : List BgpMessage}
    (sendable : ∀ message ∈ messages, message.Sendable ctx) :
    codec.encodeAll ctx messages = (messages.map (BgpMessage.frame ctx)).map .ok := by
  induction messages generalizing codec with
  | nil => rfl
  | cons message messages ih =>
      have first : (codec.encode ctx message).2 = .ok (message.frame ctx) :=
        BgpMessage.write_eq_frame (sendable message List.mem_cons_self)
      rw [encodeAll, first, ih _ fun other member => sendable other (List.mem_cons_of_mem _ member)]
      rfl

theorem drain_sent (sender receiver : BgpCodec) {messages : List BgpMessage}
    (sendable : ∀ message ∈ messages, message.Sendable ctx) {frames : List (List UInt8)}
    (written : sender.encodeAll ctx messages = frames.map .ok) :
    Decoder.drain (decode ctx) (frames.flatten.length + 1) receiver frames.flatten =
      (messages.map BgpMessage.asRead,
        .ok (messages.foldl (fun codec message => codec.received message.asRead.message) receiver,
          [])) := by
  have stream : frames = messages.map (BgpMessage.frame ctx) :=
    List.map_injective_iff.mpr (fun _ _ => Except.ok.inj)
      (written.symm.trans (encodeAll_eq_map sender sendable))
  rw [stream, ← List.flatMap_def]
  exact Decoder.drain_flatMap (decode_stable ctx) (decode_progress ctx) (fun _ => rfl)
    (fun codec message member => decode_frame codec (sendable message member)) receiver

/-- What one side sends arrives at the other: every message, in its order, however the stream
    was cut. -/
theorem receive_sent (sender receiver : BgpCodec) {messages : List BgpMessage}
    (sendable : ∀ message ∈ messages, message.Sendable ctx) {frames chunks : List (List UInt8)}
    (written : sender.encodeAll ctx messages = frames.map .ok)
    (cut : chunks.flatten = frames.flatten) :
    receive ctx receiver chunks =
      (messages.map BgpMessage.asRead,
        .ok (messages.foldl (fun codec message => codec.received message.asRead.message) receiver,
          [])) := by
  have idle : decode ctx receiver [] = .wait := rfl
  rw [receive, Decoder.foldl_feed (decode_stable ctx) (decode_progress ctx) idle, cut]
  exact drain_sent sender receiver sendable written

/-- No UPDATE is read or written. -/
def exampleContext : BgpParsingContext :=
  ⟨true, fun _ => fail (.nomError .eof), fun _ => []⟩

/-- An OPEN and a KEEPALIVE, cut within the marker of the OPEN. -/
theorem openThenKeepAlive_received :
    receive exampleContext {}
        [BgpMessage.marker.take 7, BgpMessage.marker.drop 7 ++ (0 :: 29 :: 1 ::
          Peer.theirOpen.write) ++ BgpMessage.keepAlive.frame exampleContext] =
      ([(BgpMessage.openMsg Peer.theirOpen).asRead, BgpMessage.keepAlive.asRead],
        .ok ({ asn4Received := some false }, [])) := by
  have sendable : ∀ message ∈ [.openMsg Peer.theirOpen, .keepAlive],
      BgpMessage.Sendable exampleContext message := by
    intro message member
    rcases List.mem_pair.mp member with rfl | rfl
    · exact ⟨⟨by decide, by decide, by rintro _ ⟨⟩⟩, by decide⟩
    · trivial
  have written : encodeAll exampleContext {} [.openMsg Peer.theirOpen, .keepAlive] =
      [(BgpMessage.openMsg Peer.theirOpen).frame exampleContext,
        BgpMessage.keepAlive.frame exampleContext].map .ok := rfl
  exact receive_sent {} {} sendable written rfl

/-! ## The stream of a connection -/

/-- The kinds of error of nom are one event. -/
def toDecoderError : Failure FramingError → BgpCodecDecoderError
  | .incomplete needed => .incomplete needed
  | .error .nonEmpty => .bgpMessageParsingError (.nomError .eof)
  | .error (.parsing error) => .bgpMessageParsingError error

/-- What a connection gets to see of its stream. -/
def stimuli (ctx : BgpParsingContext) (codec : BgpCodec) (chunks : List (List UInt8)) :
    List Stimulus :=
  let received := receive ctx codec chunks
  let messages := received.1.map fun read =>
    Stimulus.message read.message read.pathAttrErrors read.otherEor
  match received.2 with
  | .ok _ => messages
  | .error failure => messages ++ [.undecodable (toDecoderError failure)]

theorem decode_of_desynchronized (ctx : BgpParsingContext) (codec : BgpCodec) {buf : List UInt8}
    (enough : 19 ≤ buf.length) (whole : (BgpMessage.readLength buf).toNat ≤ buf.length)
    (wrong : buf.take 16 ≠ BgpMessage.marker) :
    decode ctx codec buf =
      .error (.error (.parsing (.connectionNotSynchronized (buf.take 16)))) := by
  have marked : BgpMessage.markerFromWire buf =
      .error (.error (.connectionNotSynchronized (buf.take 16))) := by
    refine (bind_of_ok (take_of_le _ (by omega)) _).trans ?_
    rw [if_neg wrong]
    rfl
  have read : BgpMessage.markerFromWire.mapErr FramingError.parsing buf =
      .error (.error (.parsing (.connectionNotSynchronized (buf.take 16)))) := by
    rw [mapErr, marked]
  rw [decode_of_whole codec enough whole, decodeWhole, BgpMessage.fromWire, bind_of_error read]

/-- Once the marker is lost nothing is read any more: the messages before are followed by the
    header error alone, whatever comes behind. -/
theorem desynchronized_ends (sender receiver : BgpCodec) {messages : List BgpMessage}
    (sendable : ∀ message ∈ messages, message.Sendable ctx) {frames chunks : List (List UInt8)}
    (written : sender.encodeAll ctx messages = frames.map .ok) {buf more : List UInt8}
    (enough : 19 ≤ buf.length) (whole : (BgpMessage.readLength buf).toNat ≤ buf.length)
    (wrong : buf.take 16 ≠ BgpMessage.marker)
    (cut : chunks.flatten = frames.flatten ++ (buf ++ more)) :
    stimuli ctx receiver chunks =
      (messages.map fun message => .message message.asRead.message [] none) ++
        [.undecodable
          (.bgpMessageParsingError (.connectionNotSynchronized (buf.take 16)))] := by
  have idle : decode ctx receiver [] = .wait := rfl
  have before := drain_sent sender receiver sendable written
  have after : ∀ codec, Decoder.drain (decode ctx) ((buf ++ more).length + 1) codec (buf ++ more) =
      ([], .error (.error (.parsing (.connectionNotSynchronized (buf.take 16))))) := by
    intro codec
    have fails := decode_of_desynchronized ctx codec enough whole wrong
    rw [Decoder.drain, (decode_stable ctx).error fails]
  have all : receive ctx receiver chunks = (messages.map BgpMessage.asRead,
      .error (.error (.parsing (.connectionNotSynchronized (buf.take 16))))) := by
    rw [receive, Decoder.foldl_feed (decode_stable ctx) (decode_progress ctx) idle, cut,
      Decoder.drain_append (decode_stable ctx) (decode_progress ctx), before]
    simp only [Decoder.feed, List.nil_append, after, List.append_nil]
  rw [stimuli, all]
  simp only [List.map_map]
  refine congrArg (· ++ _) (List.map_congr_left fun message _ => ?_)
  cases message <;> rfl

/-- Zeros after a KEEPALIVE. -/
theorem zerosAfterKeepAlive_end :
    stimuli exampleContext {}
        [BgpMessage.keepAlive.frame exampleContext ++ List.replicate 4 0, List.replicate 18 0] =
      [.message .keepAlive [] none,
        .undecodable (.bgpMessageParsingError
          (.connectionNotSynchronized (List.replicate 16 0)))] := by
  have sendable : ∀ message ∈ [.keepAlive], BgpMessage.Sendable exampleContext message := by
    intro message member
    obtain rfl := List.mem_singleton.mp member
    trivial
  have written : encodeAll exampleContext {} [.keepAlive] =
      [BgpMessage.keepAlive.frame exampleContext].map .ok := rfl
  have enough : 19 ≤ (List.replicate 19 (0 : UInt8)).length := by decide
  have whole : (BgpMessage.readLength (List.replicate 19 0)).toNat ≤
      (List.replicate 19 (0 : UInt8)).length := by decide
  have wrong : (List.replicate 19 (0 : UInt8)).take 16 ≠ BgpMessage.marker := by decide
  have cut : [BgpMessage.keepAlive.frame exampleContext ++ List.replicate 4 0,
      List.replicate 18 0].flatten =
        [BgpMessage.keepAlive.frame exampleContext].flatten ++
          (List.replicate 19 0 ++ [0, 0, 0]) := by
    rfl
  exact desynchronized_ends {} {} sendable written enough whole wrong cut

end Received

end BgpCodec

end Erez.Speaker
