import MessageBroker.Net.Connection
import MessageBroker.Proofs.Framing
import MessageBroker.Proofs.RequestCodec
import MessageBroker.Proofs.ReplyCodec
import MessageBroker.Proofs.MessageIdText
import MessageBroker.Proofs.Publish
/-!
# Serving requests on a connection

A connection reads the frames a client sends, in order, and answers each request as it comes.
A health check and a publish get one reply under their correlation id, and serving goes on. A
header that cannot be read, a subscribe, and an accepted publish whose reply cannot be written
end serving. A size out of range closes the connection with no reply, and bytes that do not yet
make a whole frame wait for the rest.

This module states that discipline as a relation between the bytes a client sends and the
replies written, proves that the handler follows it and that it fixes the outcome, so that how
the bytes are cut into pieces on their way does not matter; and that once a subscription has
taken the connection over, every frame written carries the correlation id of its request.

## Main definitions

* `Net.sizeField`, `Net.frameBytes`: the size at the front of a stream, the bytes of a frame
* `Net.Served`, `Net.Stopped`: the requests that keep serving and those that end it
* `Net.Serves`: what a connection makes of a stream of bytes
* `Net.StreamStep`, `Net.streamRun`: what happens to a connection a stream may have, and runs

## Main results

* `Net.Connection.answer_cases`: each request is served or stops serving, and how
* `Net.Connection.serveFor_serves`: the handler follows the discipline
* `Net.Serves.unique`: the discipline fixes the broker, the replies and where serving stops
* `Net.Connection.receive_append`: bytes received in pieces are served as if received at once
* `Net.StreamsUnder.step`, `Net.StreamsUnder.run`: a stream writes only frames under its
  correlation id, at each step and so along every run
* `Net.StreamsUnder.of_streaming`: every run from the connection a subscribe has taken
* `Net.publish_with_long_id_closes_unanswered`: a publish the broker takes whose id is too long
  for a reply closes the connection with no reply
-/

namespace MessageBroker.Text.Utf8

/-- Every character takes at least one byte. -/
theorem length_toList_le_length_encode (s : String) : s.toList.length ≤ (encode s).length := by
  unfold encode
  induction s.toList with
  | nil => simp
  | cons c cs ih =>
    simp only [List.flatMap_cons, List.length_append, String.length_utf8EncodeChar,
      List.length_cons]
    have := Char.utf8Size_pos c
    omega

end MessageBroker.Text.Utf8

namespace MessageBroker.Storage

/-- The id of a message saved under a key spells out its topic and the key, with two separators
and at least one digit of its offset. -/
theorem Inv.length_render_save_of_key {s : Storage} (hs : s.Inv) {k : String} (hk : k ≠ "")
    (name : TopicName) (c : List UInt8) (e : Option Instant) :
    name.val.toList.length + k.toList.length + 3 ≤
      (MessageId.render (s.save name c (some k) e).2).toList.length := by
  have htopic : (s.save name c (some k) e).2.topic = name := rfl
  have hpart : (s.save name c (some k) e).2.partition = k := hs.save_partition_of_ne hk c e
  have hdigits := List.length_pos_of_ne_nil
    (Nat.toDigits_ne_nil (b := 10) (n := (s.save name c (some k) e).2.offset))
  rw [MessageId.toList_render, htopic, hpart]
  simp only [List.length_append, List.length_cons]
  omega

end MessageBroker.Storage

namespace MessageBroker.Net

open Wire

/-! ## The discipline -/

/-- The size field at the front of a byte stream: its first four bytes, read as a signed
big-endian number. -/
def sizeField (bs : List UInt8) : Int := (UInt32.ofNat (ofWord (bs.take 4))).toInt32.toInt

/-- The bytes of a frame a client sends: the payload's size, then the payload. -/
def frameBytes (p : List UInt8) : List UInt8 := encodeI32 (Int32.ofNat p.length) ++ p

/-- Where serving a stream of bytes stops. -/
inductive Stop where
  /-- the bytes ran out before a whole frame: these wait for the rest -/
  | waiting (rest : List UInt8)
  /-- the server closed the connection -/
  | closed
  /-- a subscription took the connection over, under the correlation id of its request; these
  bytes followed that request -/
  | streaming (s : Subscription) (correlationId : Int32) (rest : List UInt8)

/-- How a request that ends serving leaves the connection, given the bytes after it: closed, or
taken over by a subscription. -/
def Stop.after : Option (Subscription × Int32) → List UInt8 → Stop
  | none, _ => .closed
  | some (s, corr), rest => .streaming s corr rest

/-- The connection a stop leaves, with what has been written to the client. -/
def Stop.connection (outbound : List (List UInt8)) : Stop → Connection
  | .waiting rest => ⟨rest, outbound, .serving⟩
  | .closed => ⟨[], outbound, .closed⟩
  | .streaming s corr rest => ⟨rest, outbound, .streaming s corr⟩

/-- A stop with more bytes after it: bytes after a subscribe follow it, and a closed connection
takes none. -/
def Stop.append (ys : List UInt8) : Stop → Stop
  | .waiting rest => .waiting (rest ++ ys)
  | .closed => .closed
  | .streaming s corr rest => .streaming s corr (rest ++ ys)

/-- Where a connection stands once the bytes received have been served, with the broker: bytes
that came after a subscribe drop its subscription and close the connection. -/
def Stop.finish (b : Broker) (outbound : List (List UInt8)) : Stop → Broker × Connection
  | .streaming _ _ (_ :: _) => (b.release, ⟨[], outbound, .closed⟩)
  | e => (b, e.connection outbound)

/-- A request answered with one reply after which the connection goes on serving: the broker
after it, the correlation id the reply is written under, and the reply's body. -/
inductive Served (now : Instant) (b : Broker) (p : List UInt8) :
    Broker → Int32 → List UInt8 → Prop
  /-- a health check: status `0` -/
  | health {corr : Int32} {body : List UInt8}
      (hh : RequestHeader.decode p = .ok ⟨.health, corr⟩ body) :
      Served now b p b corr (encodeI16 ErrorCode.none.toInt16)
  /-- a publish whose body cannot be read: rejected as unknown, and nothing is stored -/
  | undecodable {corr : Int32} {body rest bs : List UInt8} {e : WireError}
      (hh : RequestHeader.decode p = .ok ⟨.publish, corr⟩ body)
      (hd : decodePublish body = .fail e rest)
      (hr : encodePublishReply (.rejected .unknown) = .ok bs) :
      Served now b p b corr bs
  /-- a publish the broker refuses: rejected with the failure's code -/
  | rejected {corr : Int32} {body rest bs : List UInt8} {r : PublishRequest} {e : BrokerError}
      (hh : RequestHeader.decode p = .ok ⟨.publish, corr⟩ body)
      (hd : decodePublish body = .ok r rest) (hp : b.publishRequest now r = .error e)
      (hr : encodePublishReply (.rejected e.code) = .ok bs) :
      Served now b p b corr bs
  /-- a publish the broker takes, with a reply that can be written: accepted -/
  | accepted {corr : Int32} {body rest bs : List UInt8} {r : PublishRequest} {b' : Broker}
      {resp : PublishResponse}
      (hh : RequestHeader.decode p = .ok ⟨.publish, corr⟩ body)
      (hd : decodePublish body = .ok r rest) (hp : b.publishRequest now r = .ok (b', resp))
      (hr : encodePublishReply (.accepted resp) = .ok bs) :
      Served now b p b' corr bs

/-- A request after which the connection stops serving: the broker after it, the replies
written for it, and the subscription that takes the connection over, if one does. -/
inductive Stopped (now : Instant) (b : Broker) (p : List UInt8) :
    Broker → List (List UInt8) → Option (Subscription × Int32) → Prop
  /-- a header that cannot be read: status `-1` under the id at bytes 2 to 6, when the frame
  has them -/
  | badHeader {e : WireError} {rest : List UInt8} (hh : RequestHeader.decode p = .fail e rest) :
      Stopped now b p b ((RequestHeader.peekCorrelationId p).toList.map fun corr =>
        encodeResponseHeader corr ++ encodeI16 ErrorCode.unknown.toInt16) none
  /-- a publish the broker takes whose reply cannot be written: the message stays, and there is
  no reply -/
  | unwritable {corr : Int32} {body rest : List UInt8} {r : PublishRequest} {b' : Broker}
      {resp : PublishResponse} {e : WireError}
      (hh : RequestHeader.decode p = .ok ⟨.publish, corr⟩ body)
      (hd : decodePublish body = .ok r rest) (hp : b.publishRequest now r = .ok (b', resp))
      (hr : encodePublishReply (.accepted resp) = .error e) :
      Stopped now b p b' [] none
  /-- a subscribe whose body cannot be read: the stream ends at once, status unknown -/
  | subscribeUndecodable {corr : Int32} {body rest bs : List UInt8} {e : WireError}
      (hh : RequestHeader.decode p = .ok ⟨.subscribe, corr⟩ body)
      (hd : decodeSubscribe body = .fail e rest)
      (hr : encodeStreamFrame (.ended .unknown) = .ok bs) :
      Stopped now b p b [encodeResponseHeader corr ++ bs] none
  /-- a subscribe the broker refuses: the stream ends at once with the failure's code -/
  | subscribeRefused {corr : Int32} {body rest bs : List UInt8} {topic : String}
      {e : BrokerError}
      (hh : RequestHeader.decode p = .ok ⟨.subscribe, corr⟩ body)
      (hd : decodeSubscribe body = .ok topic rest) (hs : b.subscribeTo topic = .error e)
      (hr : encodeStreamFrame (.ended e.code) = .ok bs) :
      Stopped now b p b [encodeResponseHeader corr ++ bs] none
  /-- a subscribe the broker takes: the consumer id, and the stream has the connection -/
  | subscribed {corr : Int32} {body rest bs : List UInt8} {topic : String} {b' : Broker}
      {s : Subscription}
      (hh : RequestHeader.decode p = .ok ⟨.subscribe, corr⟩ body)
      (hd : decodeSubscribe body = .ok topic rest) (hs : b.subscribeTo topic = .ok (b', s))
      (hr : encodeStreamFrame (.opened (Int64.ofNat s.consumer)) = .ok bs) :
      Stopped now b p b' [encodeResponseHeader corr ++ bs] (some (s, corr))

/-- **The serving discipline**: what a connection that serves requests makes of the bytes a
client sends, with frames of at most `maxSize` bytes. Whole frames are taken in order. A request
that keeps serving gets one reply, and the rest is served after it; the first request that ends
serving, a size out of range, or bytes that do not make a whole frame end it. -/
inductive Serves (maxSize : Nat) (now : Instant) :
    Broker → List UInt8 → Broker → List (List UInt8) → Stop → Prop
  /-- no whole frame: nothing is answered, and the bytes wait -/
  | waiting {b : Broker} {bs : List UInt8}
      (h : bs.length < 4 ∨
        (0 < sizeField bs ∧ sizeField bs ≤ maxSize ∧ bs.length < 4 + (sizeField bs).toNat)) :
      Serves maxSize now b bs b [] (.waiting bs)
  /-- a size out of range: the connection closes, with no reply -/
  | badSize {b : Broker} {bs : List UInt8} (hl : 4 ≤ bs.length)
      (h : sizeField bs ≤ 0 ∨ maxSize < sizeField bs) :
      Serves maxSize now b bs b [] .closed
  /-- a request that keeps serving: its reply, then the replies to what follows -/
  | served {b b₁ b₂ : Broker} {p rest body : List UInt8} {corr : Int32} {rs : List (List UInt8)}
      {e : Stop} (hp : Fits maxSize p) (hs : Served now b p b₁ corr body)
      (hrest : Serves maxSize now b₁ rest b₂ rs e) :
      Serves maxSize now b (frameBytes p ++ rest) b₂ ((encodeResponseHeader corr ++ body) :: rs) e
  /-- a request that ends serving: its replies, and nothing after them -/
  | stopped {b b₁ : Broker} {p rest : List UInt8} {rs : List (List UInt8)}
      {k : Option (Subscription × Int32)} (hp : Fits maxSize p) (hs : Stopped now b p b₁ rs k) :
      Serves maxSize now b (frameBytes p ++ rest) b₁ rs (Stop.after k rest)

/-! ## Frames at the front of the inbound bytes -/

@[simp] theorem length_frameBytes (p : List UInt8) : (frameBytes p).length = 4 + p.length := by
  simp [frameBytes]

/-- The size field of a whole frame is its payload's length. -/
theorem sizeField_frameBytes_append {p : List UInt8} (hp : p.length ≤ maxFrameBytes)
    (rest : List UInt8) : sizeField (frameBytes p ++ rest) = p.length := by
  have htake : (frameBytes p ++ rest).take 4 = encodeI32 (Int32.ofNat p.length) := by
    rw [frameBytes, List.append_assoc, List.take_left' (length_encodeI32 _)]
  rw [sizeField, htake, frameSize_encodeI32, toInt_ofNat_length hp]

/-- Four bytes are the encoding of the size they give. -/
theorem encodeI32_sizeField {bs : List UInt8} (hl : 4 ≤ bs.length)
    (hpos : 0 < sizeField bs) :
    encodeI32 (Int32.ofNat (sizeField bs).toNat) = bs.take 4 := by
  have h4 : (bs.take 4).length = 4 := by simp; omega
  -- the size is positive, so reading it back as a natural number loses nothing
  have hsize :
      Int32.ofNat (sizeField bs).toNat = (UInt32.ofNat (ofWord (bs.take 4))).toInt32 := by
    apply Int32.toInt_inj.mp
    have hlt := (UInt32.ofNat (ofWord (bs.take 4))).toInt32.toInt_lt
    unfold sizeField at hpos ⊢
    rw [Int32.toInt_ofNat_of_lt (by omega)]
    omega
  have hword : ofWord (bs.take 4) < 2 ^ 32 := by
    have := ofWord_lt (bs.take 4)
    rwa [h4] at this
  have hback := word_ofWord (bs.take 4)
  rw [h4] at hback
  rw [hsize, encodeI32, UInt32.toUInt32_toInt32, UInt32.toNat_ofNat_of_lt' hword, hback]

/-- Bytes whose size field is in range and that hold that many bytes after it start with a
whole frame. -/
theorem eq_frameBytes_append {bs : List UInt8} (hl : 4 ≤ bs.length) (hpos : 0 < sizeField bs)
    (hlen : 4 + (sizeField bs).toNat ≤ bs.length) :
    bs = frameBytes ((bs.drop 4).take (sizeField bs).toNat) ++
      bs.drop (4 + (sizeField bs).toNat) := by
  have hp : ((bs.drop 4).take (sizeField bs).toNat).length = (sizeField bs).toNat := by
    simp; omega
  rw [frameBytes, hp, encodeI32_sizeField hl hpos, List.append_assoc, ← List.drop_drop,
    List.take_append_drop, List.take_append_drop]

/-- A frame is told apart from the bytes after it by its size field. -/
theorem frameBytes_append_inj {p q r s : List UInt8} (hp : p.length ≤ maxFrameBytes)
    (hq : q.length ≤ maxFrameBytes) (h : frameBytes p ++ r = frameBytes q ++ s) :
    p = q ∧ r = s := by
  have hlen : p.length = q.length := by
    have := congrArg sizeField h
    rw [sizeField_frameBytes_append hp, sizeField_frameBytes_append hq] at this
    exact_mod_cast this
  simp only [frameBytes, hlen, List.append_assoc, List.append_cancel_left_eq] at h
  exact List.append_inj h hlen

/-- A whole frame is neither a size out of range nor bytes that wait. -/
theorem sizeField_frameBytes_bounds {m : Nat} {p : List UInt8} (hp : Fits m p)
    (rest : List UInt8) :
    4 + (sizeField (frameBytes p ++ rest)).toNat ≤ (frameBytes p ++ rest).length ∧
      0 < sizeField (frameBytes p ++ rest) ∧ sizeField (frameBytes p ++ rest) ≤ m := by
  rw [sizeField_frameBytes_append hp.2.2]
  simp only [List.length_append, length_frameBytes, Int.toNat_natCast]
  exact ⟨by omega, by exact_mod_cast hp.1, by exact_mod_cast hp.2.1⟩

/-- Bytes that start with a whole frame do not wait. -/
theorem not_waiting_frameBytes {m : Nat} {p : List UInt8} (hp : Fits m p) (rest : List UInt8) :
    ¬ ((frameBytes p ++ rest).length < 4 ∨
      (0 < sizeField (frameBytes p ++ rest) ∧ sizeField (frameBytes p ++ rest) ≤ m ∧
        (frameBytes p ++ rest).length < 4 + (sizeField (frameBytes p ++ rest)).toNat)) := by
  have := sizeField_frameBytes_bounds hp rest
  omega

/-- Bytes that start with a whole frame have their size in range. -/
theorem not_badSize_frameBytes {m : Nat} {p : List UInt8} (hp : Fits m p) (rest : List UInt8) :
    ¬ (sizeField (frameBytes p ++ rest) ≤ 0 ∨ (m : Int) < sizeField (frameBytes p ++ rest)) := by
  have := sizeField_frameBytes_bounds hp rest
  omega

theorem Stop.phase_after_ne (k : Option (Subscription × Int32)) (rest : List UInt8)
    (o : List (List UInt8)) : ((Stop.after k rest).connection o).phase ≠ .serving := by
  rcases k with _ | ⟨s, corr⟩ <;> simp [Stop.after, Stop.connection]

theorem Stop.connection_after_inj {k₁ k₂ : Option (Subscription × Int32)} {r : List UInt8}
    {o₁ o₂ : List (List UInt8)}
    (h : (Stop.after k₁ r).connection o₁ = (Stop.after k₂ r).connection o₂) :
    k₁ = k₂ ∧ o₁ = o₂ := by
  rcases k₁ with _ | ⟨s₁, c₁⟩ <;> rcases k₂ with _ | ⟨s₂, c₂⟩ <;>
    simp_all [Stop.after, Stop.connection]

namespace Connection

/-! ## One request -/

/-- **What one request gets.** Either it is served, with one reply under its correlation id, and
the connection goes on serving with the bytes it had; or it ends serving, with its replies. -/
theorem answer_cases (now : Instant) (b : Broker) (c : Connection) (p : List UInt8) :
    (∃ b' corr body, Served now b p b' corr body ∧
      answer now b c p =
        (b', { c with outbound := c.outbound ++ [encodeResponseHeader corr ++ body] })) ∨
    (∃ b' rs k, Stopped now b p b' rs k ∧
      answer now b c p = (b', (Stop.after k c.inbound).connection (c.outbound ++ rs))) := by
  unfold answer
  cases hh : RequestHeader.decode p with
  | fail e rest =>
    -- an unreadable header is answered only when bytes 2 to 6 are there
    refine .inr ⟨b, _, none, .badHeader hh, ?_⟩
    cases RequestHeader.peekCorrelationId p with
    | none => simp [close, Stop.after, Stop.connection]
    | some corr => rfl
  | ok h body =>
    obtain ⟨api, corr⟩ := h
    cases api with
    | health => exact .inl ⟨b, corr, _, .health hh, rfl⟩
    | publish =>
      dsimp only
      cases hd : decodePublish body with
      | fail e rest => exact .inl ⟨b, corr, _, .undecodable hh hd rfl, rfl⟩
      | ok r rest =>
        dsimp only
        cases hp : b.publishRequest now r with
        | error e => exact .inl ⟨b, corr, _, .rejected hh hd hp rfl, rfl⟩
        | ok res =>
          obtain ⟨b', resp⟩ := res
          dsimp only
          cases hr : encodePublishReply (.accepted resp) with
          | ok bs => exact .inl ⟨b', corr, bs, .accepted hh hd hp hr, rfl⟩
          | error e =>
            -- the message is stored, but its reply cannot be written: the connection closes
            exact .inr ⟨b', [], none, .unwritable hh hd hp hr,
              by simp [reply, Stop.after, Stop.connection]⟩
    | subscribe =>
      dsimp only
      cases hd : decodeSubscribe body with
      | fail e rest => exact .inr ⟨b, _, none, .subscribeUndecodable hh hd rfl, rfl⟩
      | ok topic rest =>
        dsimp only
        cases hs : b.subscribeTo topic with
        | error e => exact .inr ⟨b, _, none, .subscribeRefused hh hd hs rfl, rfl⟩
        | ok res =>
          obtain ⟨b', s⟩ := res
          exact .inr ⟨b', _, some (s, corr), .subscribed hh hd hs rfl, rfl⟩

/-! ## Serving a stream -/

theorem serveFor_of_ne_serving {m : Nat} {now : Instant} {b : Broker} {c : Connection}
    (hc : c.phase ≠ .serving) (fuel : Nat) : serveFor m now fuel b c = (b, c) := by
  cases fuel with
  | zero => rfl
  | succ fuel =>
    unfold serveFor
    split
    · exact absurd ‹_› hc
    · rfl

/-- One round of serving, with the size read by `sizeField`. -/
theorem serveFor_succ {m : Nat} {now : Instant} {b : Broker} {c : Connection}
    (hc : c.phase = .serving) (fuel : Nat) :
    serveFor m now (fuel + 1) b c =
      if c.inbound.length < 4 then (b, c)
      else if sizeField c.inbound ≤ 0 ∨ (m : Int) < sizeField c.inbound then (b, c.close)
      else if c.inbound.length < 4 + (sizeField c.inbound).toNat then (b, c)
      else
        let r := answer now b { c with inbound := c.inbound.drop (4 + (sizeField c.inbound).toNat) }
          ((c.inbound.drop 4).take (sizeField c.inbound).toNat)
        serveFor m now fuel r.1 r.2 := by
  rw [serveFor, hc]
  rfl

/-- **The handler follows the discipline.** Given one round more than there are bytes, serving a
connection's inbound bytes ends as the discipline says: the broker it leaves, the replies it
writes after those already written, and where it stops. Each round takes a whole frame of at
least five bytes, so the induction on the rounds carries the bound on the bytes. -/
theorem serveFor_serves (m : Nat) (now : Instant) {fuel : Nat} {b : Broker} {c : Connection}
    (hc : c.phase = .serving) (hfuel : c.inbound.length < fuel) :
    ∃ rs e, Serves m now b c.inbound (serveFor m now fuel b c).1 rs e ∧
      (serveFor m now fuel b c).2 = e.connection (c.outbound ++ rs) := by
  induction fuel generalizing b c with
  | zero => omega
  | succ fuel ih =>
    obtain ⟨bs, out, ph⟩ := c
    dsimp only at hc hfuel ⊢
    subst hc
    rw [serveFor_succ rfl]
    dsimp only
    by_cases hshort : bs.length < 4
    · rw [if_pos hshort]
      exact ⟨[], .waiting bs, .waiting (.inl hshort), by simp [Stop.connection]⟩
    rw [if_neg hshort]
    by_cases hbad : sizeField bs ≤ 0 ∨ (m : Int) < sizeField bs
    · rw [if_pos hbad]
      exact ⟨[], .closed, .badSize (by omega) hbad, by simp [close, Stop.connection]⟩
    rw [if_neg hbad]
    by_cases hcut : bs.length < 4 + (sizeField bs).toNat
    · rw [if_pos hcut]
      exact ⟨[], .waiting bs, .waiting (.inr ⟨by omega, by omega, hcut⟩),
        by simp [Stop.connection]⟩
    rw [if_neg hcut]
    -- a whole frame is there: it is answered, and the bytes after it are served next
    have hframe : bs = frameBytes ((bs.drop 4).take (sizeField bs).toNat) ++
        bs.drop (4 + (sizeField bs).toNat) :=
      eq_frameBytes_append (by omega) (by omega) (by omega)
    have hrest : (bs.drop (4 + (sizeField bs).toNat)).length < fuel := by simp; omega
    have hfits : Fits m ((bs.drop 4).take (sizeField bs).toNat) := by
      refine ⟨?_, ?_, ?_⟩ <;> simp only [List.length_take, List.length_drop]
      · omega
      · omega
      · -- the size field is a signed 32-bit number, so the frame fits the largest one
        have := (UInt32.ofNat (ofWord (bs.take 4))).toInt32.toInt_lt
        unfold sizeField at hbad ⊢
        unfold maxFrameBytes
        omega
    generalize (bs.drop 4).take (sizeField bs).toNat = p at hframe hfits ⊢
    generalize bs.drop (4 + (sizeField bs).toNat) = rest at hframe hrest ⊢
    rcases answer_cases now b ⟨rest, out, .serving⟩ p with
      ⟨b₁, corr, body, hs, hans⟩ | ⟨b₁, rs, k, hs, hans⟩
    · -- served: one reply, and serving goes on with the bytes after the frame
      rw [hans]
      dsimp only
      obtain ⟨rs, e, hserves, hconn⟩ :=
        ih (b := b₁) (c := ⟨rest, out ++ [encodeResponseHeader corr ++ body], .serving⟩) rfl hrest
      refine ⟨(encodeResponseHeader corr ++ body) :: rs, e, ?_, ?_⟩
      · rw [hframe]
        exact .served hfits hs hserves
      · rw [hconn, List.append_assoc, List.singleton_append]
    · -- serving ends with this request
      rw [hans, serveFor_of_ne_serving (Stop.phase_after_ne k rest _)]
      refine ⟨rs, Stop.after k rest, ?_, rfl⟩
      rw [hframe]
      exact .stopped hfits hs

end Connection

/-! ## Each request one way -/

/-- What a served request is answered, on any connection. -/
theorem Served.answer_eq {now : Instant} {b b' : Broker} {p body : List UInt8} {corr : Int32}
    (h : Served now b p b' corr body) (c : Connection) :
    Connection.answer now b c p =
      (b', { c with outbound := c.outbound ++ [encodeResponseHeader corr ++ body] }) := by
  cases h with
  | health hh => simp only [Connection.answer, hh]; rfl
  | undecodable hh hd hr => simp only [Connection.answer, hh, hd, hr]; rfl
  | rejected hh hd hp hr => simp only [Connection.answer, hh, hd, hp, hr]; rfl
  | accepted hh hd hp hr => simp only [Connection.answer, hh, hd, hp, hr]; rfl

/-- What a request that ends serving is answered, on any connection. -/
theorem Stopped.answer_eq {now : Instant} {b b' : Broker} {p : List UInt8}
    {rs : List (List UInt8)} {k : Option (Subscription × Int32)} (h : Stopped now b p b' rs k)
    (c : Connection) :
    Connection.answer now b c p = (b', (Stop.after k c.inbound).connection (c.outbound ++ rs)) := by
  cases h with
  | badHeader hh =>
    simp only [Connection.answer, hh]
    cases RequestHeader.peekCorrelationId p with
    | none => simp [Connection.close, Stop.after, Stop.connection]
    | some corr => rfl
  | unwritable hh hd hp hr =>
    simp [Connection.answer, hh, hd, hp, hr, Connection.reply, Stop.after, Stop.connection]
  | subscribeUndecodable hh hd hr => simp only [Connection.answer, hh, hd, hr]; rfl
  | subscribeRefused hh hd hs hr => simp only [Connection.answer, hh, hd, hs, hr]; rfl
  | subscribed hh hd hs hr => simp only [Connection.answer, hh, hd, hs, hr]; rfl

/-- A request is served in one way only. -/
theorem Served.unique {now : Instant} {b b₁ b₂ : Broker} {p body₁ body₂ : List UInt8}
    {corr₁ corr₂ : Int32} (h₁ : Served now b p b₁ corr₁ body₁)
    (h₂ : Served now b p b₂ corr₂ body₂) :
    b₁ = b₂ ∧ corr₁ = corr₂ ∧ body₁ = body₂ := by
  have h := (h₁.answer_eq Connection.fresh).symm.trans (h₂.answer_eq Connection.fresh)
  simp only [Connection.fresh, List.nil_append, Prod.mk.injEq, Connection.mk.injEq, List.cons.injEq,
    and_true, true_and] at h
  -- the reply starts with the four bytes of its correlation id
  obtain ⟨hcorr, hbody⟩ := List.append_inj h.2 (by simp [encodeResponseHeader])
  exact ⟨h.1, encodeI32_inj.mp hcorr, hbody⟩

/-- A request that ends serving does so in one way only. -/
theorem Stopped.unique {now : Instant} {b b₁ b₂ : Broker} {p : List UInt8}
    {rs₁ rs₂ : List (List UInt8)} {k₁ k₂ : Option (Subscription × Int32)}
    (h₁ : Stopped now b p b₁ rs₁ k₁) (h₂ : Stopped now b p b₂ rs₂ k₂) :
    b₁ = b₂ ∧ rs₁ = rs₂ ∧ k₁ = k₂ := by
  have h := (h₁.answer_eq Connection.fresh).symm.trans (h₂.answer_eq Connection.fresh)
  simp only [Prod.mk.injEq] at h
  obtain ⟨hk, hrs⟩ := Stop.connection_after_inj h.2
  exact ⟨h.1, by simpa [Connection.fresh] using hrs, hk⟩

/-- No request is both served and the end of serving. -/
theorem Served.not_stopped {now : Instant} {b b₁ b₂ : Broker} {p body : List UInt8}
    {corr : Int32} {rs : List (List UInt8)} {k : Option (Subscription × Int32)}
    (h₁ : Served now b p b₁ corr body) (h₂ : Stopped now b p b₂ rs k) : False := by
  -- on a fresh connection, the first leaves it serving and the second does not
  have h := (h₁.answer_eq Connection.fresh).symm.trans (h₂.answer_eq Connection.fresh)
  exact Stop.phase_after_ne k _ _ (congrArg (fun r => r.2.phase) h).symm

/-! ## The discipline fixes the outcome -/

/-- **The discipline fixes the outcome**: the bytes a client sends determine the broker after
them, the replies and where serving stops. The induction follows the first derivation; the
second is taken apart at the same frame, which the size field fixes. -/
theorem Serves.unique {m : Nat} {now : Instant} {b b₁ b₂ : Broker} {bs : List UInt8}
    {rs₁ rs₂ : List (List UInt8)} {e₁ e₂ : Stop} (h₁ : Serves m now b bs b₁ rs₁ e₁)
    (h₂ : Serves m now b bs b₂ rs₂ e₂) : b₁ = b₂ ∧ rs₁ = rs₂ ∧ e₁ = e₂ := by
  induction h₁ generalizing b₂ rs₂ e₂ with
  | waiting hw =>
    cases h₂ with
    | waiting => exact ⟨rfl, rfl, rfl⟩
    | badSize hl hbad => omega
    | served hp => exact absurd hw (not_waiting_frameBytes hp _)
    | stopped hp => exact absurd hw (not_waiting_frameBytes hp _)
  | badSize hl hbad =>
    cases h₂ with
    | waiting hw => omega
    | badSize => exact ⟨rfl, rfl, rfl⟩
    | served hp => exact absurd hbad (not_badSize_frameBytes hp _)
    | stopped hp => exact absurd hbad (not_badSize_frameBytes hp _)
  | @served b b₁ b₃ p rest body corr rs e hp hs hrest ih =>
    generalize hx : frameBytes p ++ rest = x at h₂
    cases h₂ with
    | waiting hw =>
      subst hx
      exact absurd hw (not_waiting_frameBytes hp rest)
    | badSize hl hbad =>
      subst hx
      exact absurd hbad (not_badSize_frameBytes hp rest)
    | served hp' hs' hrest' =>
      -- both derivations answer the same frame first
      obtain ⟨rfl, rfl⟩ := frameBytes_append_inj hp.2.2 hp'.2.2 hx
      obtain ⟨rfl, rfl, rfl⟩ := hs.unique hs'
      obtain ⟨rfl, rfl, rfl⟩ := ih hrest'
      exact ⟨rfl, rfl, rfl⟩
    | stopped hp' hs' =>
      obtain ⟨rfl, rfl⟩ := frameBytes_append_inj hp.2.2 hp'.2.2 hx
      exact (hs.not_stopped hs').elim
  | @stopped b b₁ p rest rs k hp hs =>
    generalize hx : frameBytes p ++ rest = x at h₂
    cases h₂ with
    | waiting hw =>
      subst hx
      exact absurd hw (not_waiting_frameBytes hp rest)
    | badSize hl hbad =>
      subst hx
      exact absurd hbad (not_badSize_frameBytes hp rest)
    | served hp' hs' =>
      obtain ⟨rfl, rfl⟩ := frameBytes_append_inj hp.2.2 hp'.2.2 hx
      exact (hs'.not_stopped hs).elim
    | stopped hp' hs' =>
      obtain ⟨rfl, rfl⟩ := frameBytes_append_inj hp.2.2 hp'.2.2 hx
      obtain ⟨rfl, rfl, rfl⟩ := hs.unique hs'
      exact ⟨rfl, rfl, rfl⟩

/-! ## Bytes in pieces -/

theorem sizeField_append {bs : List UInt8} (hl : 4 ≤ bs.length) (ys : List UInt8) :
    sizeField (bs ++ ys) = sizeField bs := by
  rw [sizeField, sizeField, List.take_append_of_le_length hl]

theorem Stop.append_after (k : Option (Subscription × Int32)) (rest ys : List UInt8) :
    (Stop.after k rest).append ys = Stop.after k (rest ++ ys) := by
  rcases k with _ | ⟨s, corr⟩ <;> rfl

theorem Stop.after_ne_waiting (k : Option (Subscription × Int32)) (rest w : List UInt8) :
    Stop.after k rest ≠ .waiting w := by
  rcases k with _ | ⟨s, corr⟩ <;> simp [Stop.after]

/-- Bytes after a stream that ended serving change nothing but the bytes that follow a
subscribe. -/
theorem Serves.append_of_ne_waiting {m : Nat} {now : Instant} {b b₁ : Broker}
    {bs : List UInt8} {rs : List (List UInt8)} {e : Stop} (h : Serves m now b bs b₁ rs e)
    (he : ∀ w, e ≠ .waiting w) (ys : List UInt8) :
    Serves m now b (bs ++ ys) b₁ rs (e.append ys) := by
  induction h with
  | waiting => exact absurd rfl (he _)
  | badSize hl hbad =>
    -- the size field is in the first four bytes, which the bytes after do not touch
    refine .badSize (by simp; omega) ?_
    rwa [sizeField_append hl]
  | served hp hs hrest ih =>
    rw [List.append_assoc]
    exact .served hp hs (ih he)
  | stopped hp hs =>
    rw [List.append_assoc, Stop.append_after]
    exact .stopped hp hs

/-- Bytes after a stream that waits are served from the bytes that wait. -/
theorem Serves.append_of_waiting {m : Nat} {now : Instant} {b b₁ b₂ : Broker}
    {bs w ys : List UInt8} {rs₁ rs₂ : List (List UInt8)} {e e₂ : Stop}
    (h : Serves m now b bs b₁ rs₁ e) (hw : e = .waiting w)
    (h₂ : Serves m now b₁ (w ++ ys) b₂ rs₂ e₂) :
    Serves m now b (bs ++ ys) b₂ (rs₁ ++ rs₂) e₂ := by
  induction h with
  | waiting =>
    cases hw
    exact h₂
  | badSize => cases hw
  | served hp hs hrest ih =>
    rw [List.append_assoc]
    exact .served hp hs (ih hw h₂)
  | stopped => exact absurd hw (Stop.after_ne_waiting _ _ _)

namespace Connection

/-- **What receiving bytes does.** A serving connection takes the bytes after those it had
waiting, and ends as the discipline says of all of them; bytes that came after a subscribe drop
its subscription and close the connection. -/
theorem receive_serves (m : Nat) (now : Instant) {b : Broker} {c : Connection}
    (hc : c.phase = .serving) (bytes : List UInt8) :
    ∃ b₁ rs e, Serves m now b (c.inbound ++ bytes) b₁ rs e ∧
      receive m now b c bytes = e.finish b₁ (c.outbound ++ rs) := by
  obtain ⟨inb, out, ph⟩ := c
  dsimp only at hc ⊢
  subst hc
  have hfuel : (inb ++ bytes).length < (inb ++ bytes).length + 1 := Nat.lt_succ_self _
  obtain ⟨rs, e, hs, hconn⟩ := serveFor_serves m now (b := b)
    (c := ⟨inb ++ bytes, out, .serving⟩) rfl hfuel
  refine ⟨_, rs, e, hs, ?_⟩
  rw [receive]
  dsimp only
  generalize serveFor m now ((inb ++ bytes).length + 1) b ⟨inb ++ bytes, out, .serving⟩ = r
    at hconn ⊢
  obtain ⟨b₁, c₁⟩ := r
  dsimp only at hconn ⊢
  subst hconn
  -- only a stream that has bytes after its request is dropped
  cases e with
  | waiting rest => rfl
  | closed => rfl
  | streaming s corr rest =>
    cases rest with
    | nil => rfl
    | cons y ys => rfl

/-- **Bytes received in pieces are served as if received at once**, whatever the pieces. -/
theorem receive_append (m : Nat) (now : Instant) {b : Broker} {c : Connection}
    (hc : c.phase = .serving) (xs ys : List UInt8) :
    receive m now (receive m now b c xs).1 (receive m now b c xs).2 ys =
      receive m now b c (xs ++ ys) := by
  obtain ⟨b₁, rs₁, e₁, hs₁, hr₁⟩ := receive_serves m now (b := b) hc xs
  obtain ⟨b', rs', e', hs', hr'⟩ := receive_serves m now (b := b) hc (xs ++ ys)
  rw [hr₁, hr']
  rw [← List.append_assoc] at hs'
  cases e₁ with
  | waiting w =>
    -- the bytes that waited are served with the new ones
    obtain ⟨b₂, rs₂, e₂, hs₂, hr₂⟩ := receive_serves m now (b := b₁)
      (c := ⟨w, c.outbound ++ rs₁, .serving⟩) rfl ys
    obtain ⟨rfl, rfl, rfl⟩ := (hs₁.append_of_waiting rfl hs₂).unique hs'
    change receive m now b₁ ⟨w, c.outbound ++ rs₁, .serving⟩ ys = _
    rw [hr₂, List.append_assoc]
  | closed =>
    obtain ⟨rfl, rfl, rfl⟩ := (hs₁.append_of_ne_waiting (by simp) ys).unique hs'
    rfl
  | streaming s corr rest =>
    obtain ⟨rfl, rfl, rfl⟩ := (hs₁.append_of_ne_waiting (by simp) ys).unique hs'
    -- the stream is dropped as soon as any byte follows its request
    cases rest with
    | nil =>
      cases ys with
      | nil => rfl
      | cons y ys => rfl
    | cons x xs => rfl

/-- A stream whose first request ends serving: its replies, and what the request leaves. -/
theorem receive_of_stopped {m : Nat} {now : Instant} {b b₁ : Broker} {c : Connection}
    {p : List UInt8} {rs : List (List UInt8)} {k : Option (Subscription × Int32)}
    (hc : c.phase = .serving) (hin : c.inbound = []) (hp : Fits m p)
    (hs : Stopped now b p b₁ rs k) (rest : List UInt8) :
    receive m now b c (frameBytes p ++ rest) =
      (Stop.after k rest).finish b₁ (c.outbound ++ rs) := by
  obtain ⟨b', rs', e', hs', hr⟩ := receive_serves m now (b := b) hc (frameBytes p ++ rest)
  rw [hin, List.nil_append] at hs'
  obtain ⟨rfl, rfl, rfl⟩ := (Serves.stopped hp hs).unique hs'
  exact hr

end Connection

/-! ## After a subscribe -/

/-- What can happen to a connection a stream may have: the server writes out what the stream
has, bytes from the client arrive, or the server stops. Each sees the broker as the other
connections have left it. -/
inductive StreamStep where
  | pump (b : Broker)
  | receive (now : Instant) (b : Broker) (bytes : List UInt8)
  | stop (b : Broker)

/-- The connection after a step, on a server that reads frames of at most `m` bytes. -/
def StreamStep.apply (m : Nat) (c : Connection) : StreamStep → Connection
  | .pump b => (Connection.pump b c).2
  | .receive now b bytes => (Connection.receive m now b c bytes).2
  | .stop b => (Connection.stop b c).2

/-- The connection after a run of steps. -/
def streamRun (m : Nat) (c : Connection) (steps : List StreamStep) : Connection :=
  steps.foldl (StreamStep.apply m) c

/-- Since the connection `c`, a stream under the correlation id `corr` has written only frames
under `corr`, and it still has the connection or the connection is closed. -/
def StreamsUnder (corr : Int32) (c c' : Connection) : Prop :=
  (∃ fs : List (List UInt8), c'.outbound = c.outbound ++ fs ∧
    ∀ f ∈ fs, ∃ body, f = encodeResponseHeader corr ++ body) ∧
  ((∃ s, c'.phase = .streaming s corr) ∨ c'.phase = .closed)

namespace StreamsUnder

variable {corr : Int32} {c₀ c : Connection}

theorem refl {s : Subscription} (h : c.phase = .streaming s corr) : StreamsUnder corr c c :=
  ⟨⟨[], by simp, by simp⟩, .inl ⟨s, h⟩⟩

/-- Closing keeps what was written. -/
theorem close (h : StreamsUnder corr c₀ c) : StreamsUnder corr c₀ c.close :=
  ⟨h.1, .inr rfl⟩

/-- Writing one more frame under `corr` keeps the invariant. -/
theorem write (h : StreamsUnder corr c₀ c) (body : List UInt8) :
    StreamsUnder corr c₀
      { c with outbound := c.outbound ++ [encodeResponseHeader corr ++ body] } := by
  obtain ⟨⟨fs, hfs, hall⟩, hphase⟩ := h
  refine ⟨⟨fs ++ [encodeResponseHeader corr ++ body], by simp [hfs], ?_⟩, hphase⟩
  intro f hf
  rcases List.mem_append.mp hf with hf | hf
  · exact hall f hf
  · exact ⟨body, List.mem_singleton.mp hf⟩

/-- A stream under `corr` that moves on keeps the invariant. -/
theorem streaming (h : StreamsUnder corr c₀ c) (s : Subscription) :
    StreamsUnder corr c₀ { c with phase := .streaming s corr } :=
  ⟨h.1, .inl ⟨s, rfl⟩⟩

theorem endStream (h : StreamsUnder corr c₀ c) (b : Broker) (code : ErrorCode) :
    StreamsUnder corr c₀ (Connection.endStream b c corr code).2 :=
  (h.write _).close

/-- Writing out deliveries keeps the invariant: messages and the end go under `corr`. -/
theorem writeDeliveries (h : StreamsUnder corr c₀ c) (b : Broker) (ds : List Delivery) :
    StreamsUnder corr c₀ (Connection.writeDeliveries b c corr ds).2 := by
  induction ds generalizing b c with
  | nil => exact h
  | cons d ds ih =>
    cases d with
    | message msg =>
      simp only [Connection.writeDeliveries]
      split
      · exact ih (h.write _) b
      · exact h.close
    | failure e => exact h.endStream b e.code
    | finished => exact h.endStream b .cancelled
    | pending => exact h

/-- **A stream writes only under its correlation id**: writing out its messages, taking bytes
from the client, and the server stopping each keep the invariant. -/
theorem step (h : StreamsUnder corr c₀ c) (m : Nat) (st : StreamStep) :
    StreamsUnder corr c₀ (st.apply m c) := by
  rcases h.2 with ⟨s, hs⟩ | hclosed
  · -- the stream has the connection: its correlation id is `corr`
    cases st with
    | pump b =>
      simp only [StreamStep.apply, Connection.pump, hs]
      exact (h.streaming _).writeDeliveries b _
    | receive now b bytes =>
      -- bytes from the client while streaming close the connection
      simp only [StreamStep.apply, Connection.receive, hs]
      split
      · exact h
      · exact h.close
    | stop b =>
      simp only [StreamStep.apply, Connection.stop, hs]
      exact h.endStream b .cancelled
  · -- a closed connection writes nothing more
    cases st <;>
      simp only [StreamStep.apply, Connection.pump, Connection.receive, Connection.stop,
        hclosed] <;> exact h

/-- Every run keeps the invariant, by induction on its steps. -/
theorem run (h : StreamsUnder corr c₀ c) (m : Nat) (steps : List StreamStep) :
    StreamsUnder corr c₀ (streamRun m c steps) := by
  induction steps generalizing c with
  | nil => exact h
  | cons st steps ih => exact ih (h.step m st)

/-- **From the connection a subscribe has taken, every run writes only frames under the
subscribe's correlation id**, and leaves the stream with the connection or the connection
closed. -/
theorem of_streaming {s : Subscription} (hs : c.phase = .streaming s corr) (m : Nat)
    (steps : List StreamStep) : StreamsUnder corr c (streamRun m c steps) :=
  (refl hs).run m steps

end StreamsUnder

/-! ## The discipline, and the publish it does not answer -/

/-- An accepted publish cannot be answered exactly when its message id or partition takes more
than 32767 bytes. -/
theorem encodePublishReply_accepted_eq_error_iff (resp : PublishResponse) :
    (∃ e, encodePublishReply (.accepted resp) = .error e) ↔
      maxStringBytes < (Text.Utf8.encode resp.id).length ∨
        maxStringBytes < (Text.Utf8.encode resp.partition).length := by
  constructor
  · rintro ⟨e, he⟩
    by_contra hfit
    rw [not_or, Nat.not_lt, Nat.not_lt] at hfit
    rw [encodePublishReply_accepted (encodeString_of_le hfit.1) (encodeString_of_le hfit.2)] at he
    cases he
  · intro h
    exact ⟨_, encodePublishReply_of_lt h⟩

/-- **Requests on a connection are served in order**, as the discipline says. Whatever bytes a
serving connection receives, it ends as `Serves` says of them together with the bytes it had
waiting: whole frames in order, one reply under its correlation id for each health check and each
publish, up to the first size out of range, unreadable header or subscribe, or the first accepted
publish whose reply cannot be written. That outcome is the only one the discipline allows, and
bytes received in pieces are served as if they came at once. An accepted publish goes
unanswered exactly when its id or partition takes more than 32767 bytes. Once a subscribe has
the connection, every frame written carries its correlation id. -/
theorem connection_serves_requests_in_order (m : Nat) (now : Instant) (b : Broker) :
    (∀ (c : Connection) (bytes : List UInt8), c.phase = .serving →
      ∃ b₁ rs e, Serves m now b (c.inbound ++ bytes) b₁ rs e ∧
        Connection.receive m now b c bytes = e.finish b₁ (c.outbound ++ rs)) ∧
    (∀ (bs : List UInt8) (b₁ b₂ : Broker) (rs₁ rs₂ : List (List UInt8)) (e₁ e₂ : Stop),
      Serves m now b bs b₁ rs₁ e₁ → Serves m now b bs b₂ rs₂ e₂ →
        b₁ = b₂ ∧ rs₁ = rs₂ ∧ e₁ = e₂) ∧
    (∀ (c : Connection) (xs ys : List UInt8), c.phase = .serving →
      Connection.receive m now (Connection.receive m now b c xs).1
          (Connection.receive m now b c xs).2 ys =
        Connection.receive m now b c (xs ++ ys)) ∧
    (∀ resp : PublishResponse, (∃ e, encodePublishReply (.accepted resp) = .error e) ↔
      maxStringBytes < (Text.Utf8.encode resp.id).length ∨
        maxStringBytes < (Text.Utf8.encode resp.partition).length) ∧
    (∀ (corr : Int32) (c₀ c : Connection) (bytes : List UInt8), StreamsUnder corr c₀ c →
      StreamsUnder corr c₀ (Connection.pump b c).2 ∧
        StreamsUnder corr c₀ (Connection.receive m now b c bytes).2 ∧
        StreamsUnder corr c₀ (Connection.stop b c).2) :=
  ⟨fun _ bytes hc => Connection.receive_serves m now hc bytes,
    fun _ _ _ _ _ _ _ h₁ h₂ => h₁.unique h₂,
    fun _ xs ys hc => Connection.receive_append m now hc xs ys,
    encodePublishReply_accepted_eq_error_iff,
    fun _ _ _ bytes h =>
      ⟨h.run m [.pump b], h.run m [.receive now b bytes], h.run m [.stop b]⟩⟩

/-- A health check on a new connection is served as the discipline says. -/
theorem health_check_on_fresh_connection :
    Connection.fresh.phase = .serving ∧
      ∃ b₁ rs e, Serves 16 ⟨0⟩ (Broker.create 1)
          (Connection.fresh.inbound ++ frameBytes (RequestHeader.encode ⟨.health, 7⟩)) b₁ rs e ∧
        Connection.receive 16 ⟨0⟩ (Broker.create 1) Connection.fresh
            (frameBytes (RequestHeader.encode ⟨.health, 7⟩)) =
          e.finish b₁ (Connection.fresh.outbound ++ rs) :=
  ⟨rfl, (connection_serves_requests_in_order 16 ⟨0⟩ (Broker.create 1)).1 Connection.fresh
    (frameBytes (RequestHeader.encode ⟨.health, 7⟩)) rfl⟩

/-- A key of `n` letters `a` takes `n` bytes. -/
theorem length_encode_replicate_a (n : Nat) :
    (Text.Utf8.encode (String.ofList (List.replicate n 'a'))).length = n := by
  unfold Text.Utf8.encode
  rw [String.toList_ofList]
  induction n with
  | zero => rfl
  | succ n ih =>
    rw [List.replicate_succ, List.flatMap_cons, List.length_append, ih,
      String.length_utf8EncodeChar]
    have : 'a'.utf8Size = 1 := by decide
    omega

/-- A publish of nothing to `t`, under a key of at least 32764 characters that a request can
still carry, is the first request on a new connection: the broker stores the message, but its id
`t/…@…` takes more than 32767 bytes, so no reply is written and the connection closes. -/
theorem receive_publish_long_key {K : String}
    (hK : (Text.Utf8.encode K).length ≤ maxStringBytes) (hKlist : 32764 ≤ K.toList.length) :
    ∃ body b', encodePublish ⟨"t", [], 0, some K, none⟩ = .ok body ∧
      (∃ resp, (Broker.create 1).publishRequest ⟨0⟩ ⟨"t", [], 0, some K, none⟩ = .ok (b', resp)) ∧
      Connection.receive 1048576 ⟨0⟩ (Broker.create 1) Connection.fresh
          (frameBytes (RequestHeader.encode ⟨.publish, 7⟩ ++ body)) = (b', ⟨[], [], .closed⟩) := by
  have hKne : K ≠ "" := by
    rintro rfl
    simp at hKlist
  -- the request's bytes: topic, key, time to live, content, no producer
  have ht : encodeString (some "t") = .ok (encodeI16 (Int16.ofNat 1) ++ Text.Utf8.encode "t") :=
    encodeString_of_le (by decide)
  have hk := encodeString_of_le hK
  have hb : encodeBytes (some []) = .ok (encodeI32 (Int32.ofNat 0) ++ []) :=
    encodeBytes_of_le (by decide)
  have henc := encodePublish_of_ok (v := ⟨"t", [], 0, some K, none⟩) ht hk hb
  -- the request reads back as sent
  obtain ⟨bs, hbs, hdec⟩ := readsBack_publish (v := ⟨"t", [], 0, some K, none⟩)
    (roundTrip_string (s := "t") (by decide)) (roundTrip_string hK)
    (roundTrip_bytes (b := []) (by decide))
  rw [henc] at hbs
  cases hbs
  have hd := hdec []
  rw [List.append_nil] at hd
  -- the broker takes it, under the key
  have hp : (Broker.create 1).publishRequest ⟨0⟩ ⟨"t", [], 0, some K, none⟩ =
      .ok ({ Broker.create 1 with
          storage := ((Storage.create 1).save ⟨"t", by decide⟩ [] (some K) none).1 },
        PublishResponse.ofId ((Storage.create 1).save ⟨"t", by decide⟩ [] (some K) none).2) := by
    rw [Broker.publishRequest, TopicName.parse_of_valid (s := "t") (by decide)]
    simp [Broker.publish, hKne, Option.filter]
    exact ⟨rfl, rfl⟩
  refine ⟨_, _, henc, ⟨_, hp⟩, ?_⟩
  -- its id spells out the key, so it takes more bytes than a reply can carry
  have hlong : maxStringBytes < (Text.Utf8.encode (PublishResponse.ofId
      ((Storage.create 1).save ⟨"t", by decide⟩ [] (some K) none).2).id).length := by
    have hid := (Storage.inv_create 1).length_render_save_of_key hKne ⟨"t", by decide⟩ [] none
    have hbytes := Text.Utf8.length_toList_le_length_encode
      (MessageId.render ((Storage.create 1).save ⟨"t", by decide⟩ [] (some K) none).2)
    have htopic : (⟨"t", by decide⟩ : TopicName).val.toList.length = 1 := by decide
    unfold maxStringBytes
    exact Nat.lt_of_lt_of_le (by omega) hbytes
  have hfits : Fits 1048576 (RequestHeader.encode ⟨.publish, 7⟩ ++
      (encodeI16 (Int16.ofNat 1) ++ Text.Utf8.encode "t" ++
        (encodeI16 (Int16.ofNat (Text.Utf8.encode K).length) ++ Text.Utf8.encode K) ++
        encodeI64 0 ++ (encodeI32 (Int32.ofNat 0) ++ []) ++
        encodeI64 ((none : Option Int64).getD (-1)))) := by
    have h1 : (Text.Utf8.encode "t").length = 1 := by decide
    unfold maxStringBytes at hK
    simp only [Fits, RequestHeader.encode, encodeI16, encodeI32, encodeI64, List.length_append,
      length_word, h1, List.length_nil, maxFrameBytes]
    omega
  rw [← List.append_nil (frameBytes _), Connection.receive_of_stopped rfl rfl hfits
    (.unwritable (RequestHeader.decode_eq_ok.mpr rfl) hd hp (encodePublishReply_of_lt (.inl hlong)))
    []]
  rfl

/-- **A publish the broker takes can go unanswered.** A publish of nothing to `t` under a key of
32764 letters is the first request on a new connection: the broker stores the message, but its
id `t/…@0` takes 32768 bytes, more than a reply can carry, so the connection closes with no
reply at all. -/
theorem publish_with_long_id_closes_unanswered :
    ∃ body b',
      encodePublish ⟨"t", [], 0, some (String.ofList (List.replicate 32764 'a')), none⟩ =
        .ok body ∧
      (∃ resp, (Broker.create 1).publishRequest ⟨0⟩
          ⟨"t", [], 0, some (String.ofList (List.replicate 32764 'a')), none⟩ = .ok (b', resp)) ∧
      Connection.receive 1048576 ⟨0⟩ (Broker.create 1) Connection.fresh
          (frameBytes (RequestHeader.encode ⟨.publish, 7⟩ ++ body)) = (b', ⟨[], [], .closed⟩) :=
  receive_publish_long_key (by rw [length_encode_replicate_a]; decide)
    (by rw [String.toList_ofList, List.length_replicate])

end MessageBroker.Net
