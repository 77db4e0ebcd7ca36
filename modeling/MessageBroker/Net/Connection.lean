import MessageBroker.Wire.Request
import MessageBroker.Wire.Reply
/-!
# Connections

One client connection to the server. The server reads complete frames in order. A health
check is answered with status `0`; a publish with a publish reply (a body that cannot be read is
rejected as unknown, and the connection goes on); a frame whose header cannot be read is
answered with status `-1` under the correlation id at bytes 2 to 6 when the frame has them, and
closes the connection; a size out of range closes it without an answer. A subscribe turns the
connection into a stream: it is answered with the consumer id, then with one frame per message;
a failure or a cancellation ends the stream with its status. Any byte the client sends on a
stream drops the subscription and closes the connection.

## Main definitions

* `Phase`, `Connection`
* `Connection.serveFor`: the frames that have fully arrived, answered in order
* `Connection.receive`: bytes from the client
* `Connection.pump`: the messages a stream has for the client, written out
* `Connection.stop`, `Connection.hangUp`: the server or the client ending the connection
-/

namespace MessageBroker.Net

open Wire

/-- Where a connection stands. -/
inductive Phase where
  /-- answering requests -/
  | serving
  /-- streaming a subscription, under the correlation id of its request -/
  | streaming (s : Subscription) (correlationId : Int32)
  /-- closed by the server -/
  | closed

/-- A client connection, as the server sees it. -/
structure Connection where
  /-- Bytes from the client not yet read as frames. -/
  inbound : List UInt8
  /-- Payloads of the frames written to the client and not yet read by it. -/
  outbound : List (List UInt8)
  phase : Phase

namespace Connection

/-- A new connection. -/
def fresh : Connection := ⟨[], [], .serving⟩

/-- Whether the server has closed the connection. -/
def isClosed (c : Connection) : Bool :=
  match c.phase with
  | .closed => true
  | _ => false

/-- Writes a reply under a correlation id; a reply that cannot be encoded closes the
connection instead. -/
def reply (c : Connection) (correlationId : Int32) (body : Except WireError (List UInt8)) :
    Connection :=
  match body with
  | .ok bs => { c with outbound := c.outbound ++ [encodeResponseHeader correlationId ++ bs] }
  | .error _ => { c with phase := .closed, inbound := [] }

/-- Closes the connection; what the client has not read stays readable. -/
def close (c : Connection) : Connection := { c with phase := .closed, inbound := [] }

/-- Answers one request whose payload has been read; answers the broker and the connection
after it. -/
def answer (now : Instant) (b : Broker) (c : Connection) (payload : List UInt8) :
    Broker × Connection :=
  match RequestHeader.decode payload with
  | .fail _ _ =>
    match RequestHeader.peekCorrelationId payload with
    | some corr => (b, (c.reply corr (.ok (encodeI16 ErrorCode.unknown.toInt16))).close)
    | none => (b, c.close)
  | .ok h body =>
    match h.api with
    | .health => (b, c.reply h.correlationId (.ok (encodeI16 ErrorCode.none.toInt16)))
    | .publish =>
      match decodePublish body with
      | .fail _ _ => (b, c.reply h.correlationId (encodePublishReply (.rejected .unknown)))
      | .ok r _ =>
        match b.publishRequest now r with
        | .ok (b', resp) => (b', c.reply h.correlationId (encodePublishReply (.accepted resp)))
        | .error e => (b, c.reply h.correlationId (encodePublishReply (.rejected e.code)))
    | .subscribe =>
      match decodeSubscribe body with
      | .fail _ _ => (b, (c.reply h.correlationId (encodeStreamFrame (.ended .unknown))).close)
      | .ok topic _ =>
        match b.subscribeTo topic with
        | .error e => (b, (c.reply h.correlationId (encodeStreamFrame (.ended e.code))).close)
        | .ok (b', s) =>
          let c' := c.reply h.correlationId
            (encodeStreamFrame (.opened (Int64.ofNat s.consumer)))
          (b', { c' with phase := .streaming s h.correlationId })

/-- Reads and answers the complete frames that have arrived, at most `fuel` of them. A frame
size out of range closes the connection; an incomplete frame waits for more bytes. -/
def serveFor (maxSize : Nat) (now : Instant) : Nat → Broker → Connection → Broker × Connection
  | 0, b, c => (b, c)
  | fuel + 1, b, c =>
    match c.phase with
    | .serving =>
      if c.inbound.length < 4 then (b, c)
      else
        let size := (UInt32.ofNat (ofWord (c.inbound.take 4))).toInt32.toInt
        if size ≤ 0 ∨ (maxSize : Int) < size then (b, c.close)
        else if c.inbound.length < 4 + size.toNat then (b, c)
        else
          let payload := (c.inbound.drop 4).take size.toNat
          let r := answer now b { c with inbound := c.inbound.drop (4 + size.toNat) } payload
          serveFor maxSize now fuel r.1 r.2
    | _ => (b, c)

/-- Releases the subscription of a stream that ends, and writes its end. -/
def endStream (b : Broker) (c : Connection) (corr : Int32) (code : ErrorCode) :
    Broker × Connection :=
  (b.release, (c.reply corr (encodeStreamFrame (.ended code))).close)

/-- Writes deliveries of a stream in order: a message as a message frame, a failure or the end
of the stream as an end frame that closes the connection. A message that cannot be encoded
closes the connection and drops the subscription. -/
def writeDeliveries (b : Broker) (c : Connection) (corr : Int32) :
    List Delivery → Broker × Connection
  | [] => (b, c)
  | .message m :: ds =>
    match encodeStreamFrame (.message m.partition m.offset m.content) with
    | .ok bs =>
      writeDeliveries b
        { c with outbound := c.outbound ++ [encodeResponseHeader corr ++ bs] } corr ds
    | .error _ => (b.release, c.close)
  | .failure e :: _ => endStream b c corr e.code
  | .finished :: _ => endStream b c corr .cancelled
  | .pending :: _ => (b, c)

/-- Writes out what a stream has for the client: its messages, and its end if it ends. -/
def pump (b : Broker) (c : Connection) : Broker × Connection :=
  match c.phase with
  | .streaming s corr =>
    let r := s.drain (b.topicOf s)
    writeDeliveries b { c with phase := .streaming r.1 corr } corr r.2
  | _ => (b, c)

/-- Takes bytes from the client: a stream drops its subscription and closes; otherwise the
frames that are complete are answered. -/
def receive (maxSize : Nat) (now : Instant) (b : Broker) (c : Connection) (bytes : List UInt8) :
    Broker × Connection :=
  match c.phase with
  | .streaming _ _ => if bytes.isEmpty then (b, c) else (b.release, c.close)
  | .closed => (b, c)
  | .serving =>
    let c' := { c with inbound := c.inbound ++ bytes }
    let r := serveFor maxSize now (c'.inbound.length + 1) b c'
    match r.2.phase with
    | .streaming _ _ => if r.2.inbound.isEmpty then r else (r.1.release, r.2.close)
    | _ => r

/-- The server shuts the connection down: a stream is cancelled and ends with status `5`, before
any message it has not written yet. -/
def stop (b : Broker) (c : Connection) : Broker × Connection :=
  match c.phase with
  | .streaming _ corr => endStream b c corr .cancelled
  | .serving => (b, c.close)
  | .closed => (b, c)

/-- The client drops its end: the server sees the end of input, and a stream's subscription is
dropped. -/
def hangUp (b : Broker) (c : Connection) : Broker :=
  match c.phase with
  | .streaming _ _ => b.release
  | _ => b

end Connection

end MessageBroker.Net
