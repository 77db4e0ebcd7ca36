import MessageBroker.Proofs.WireFields
import MessageBroker.Wire.Request

/-!
# Requests read back as written

A request is a header, the api and the correlation id, then a body. The header is read exactly
as written, and the peek at bytes 2 to 6 that answers frames whose header cannot be read agrees
with it. A publish request whose strings and content fit is read back the same except for its
producer id: every negative id travels as itself and reads back as none, since the reader takes
any negative word for null. Whatever the readers accept is written again and read back the same.

## Main results

* `RequestHeader.decode_eq_ok`, `RequestHeader.peekCorrelationId_eq_some`,
  `RequestHeader.peekCorrelationId_of_decode`: headers and the peek
* `readsBack_publish`, `roundTrip_publish_iff`: publish requests and their producer id
* `stable_publish`, `stable_subscribe`: the codecs are stable on what they read
* `requests_read_back_as_written`: all of it for requests
-/

namespace MessageBroker.Wire


/-! ## Headers -/

theorem ApiKey.ofCode?_code (a : ApiKey) : ApiKey.ofCode? a.code = some a := by
  cases a <;> decide

theorem ApiKey.code_of_ofCode? {v : Int16} {a : ApiKey} (h : ApiKey.ofCode? v = some a) :
    a.code = v := by
  unfold ApiKey.ofCode? at h
  split_ifs at h with h₀ h₁ h₂ <;> cases h
  · exact h₀.symm
  · exact h₁.symm
  · exact h₂.symm

namespace RequestHeader

/-- **Headers are read exactly as written**: whatever the api and the correlation id. -/
theorem decode_eq_ok {bs rest : List UInt8} {h : RequestHeader} :
    decode bs = .ok h rest ↔ bs = h.encode ++ rest := by
  rw [decode]
  constructor
  · intro hd
    obtain ⟨raw, mid, hraw, hm⟩ := Decoder.bind_eq_ok.mp hd
    obtain rfl := decodeI16_eq_ok.mp hraw
    cases ha : ApiKey.ofCode? raw with
    | none =>
      rw [ha] at hm
      exact absurd hm Decoder.fail_ne_ok
    | some api =>
      rw [ha] at hm
      obtain ⟨id, r, hid, hp⟩ := Decoder.bind_eq_ok.mp hm
      obtain rfl := decodeI32_eq_ok.mp hid
      simp only [Decoder.pure_apply, Step.ok.injEq] at hp
      obtain ⟨rfl, rfl⟩ := hp
      rw [encode, ApiKey.code_of_ofCode? ha, List.append_assoc]
  · rintro rfl
    rw [encode, List.append_assoc, Decoder.bind_of_ok (decodeI16_eq_ok.mpr rfl),
      ApiKey.ofCode?_code]
    exact Decoder.bind_of_ok (decodeI32_eq_ok.mpr rfl)

/-- The correlation id peeked at is the big-endian word at bytes 2 to 6, when the frame has
them. -/
theorem peekCorrelationId_eq_some {f : List UInt8} {c : Int32} :
    peekCorrelationId f = some c ↔ 6 ≤ f.length ∧ (f.drop 2).take 4 = encodeI32 c := by
  unfold peekCorrelationId
  split_ifs with h6
  · have ht : ((f.drop 2).take 4).length = 4 := by simp; omega
    have hw := decodeI32_of_length ht
    rw [Option.some.injEq]
    constructor
    · rintro rfl
      rw [decodeI32_eq_ok, List.append_nil] at hw
      exact ⟨h6, hw⟩
    · rintro ⟨-, he⟩
      have hc : decodeI32 ((f.drop 2).take 4) = .ok c [] := by
        rw [decodeI32_eq_ok, List.append_nil, he]
      rw [hw, Step.ok.injEq] at hc
      exact hc.1
  · simp [h6]

/-- A frame whose header reads has its correlation id where the peek looks. -/
theorem peekCorrelationId_of_decode {f rest : List UInt8} {h : RequestHeader}
    (hd : decode f = .ok h rest) : peekCorrelationId f = some h.correlationId := by
  obtain rfl := decode_eq_ok.mp hd
  have h2 : (encodeI16 h.api.code).length = 2 := length_word 2 _
  have h4 : (encodeI32 h.correlationId).length = 4 := length_word 4 _
  refine peekCorrelationId_eq_some.mpr ⟨?_, ?_⟩
  · simp only [encode, List.length_append, h2, h4]
    omega
  · rw [encode, List.append_assoc, List.drop_left' h2, List.take_left' h4]

end RequestHeader

/-! ## Publish requests -/

/-- The producer id as it is read back from the word written for it: null is written as `-1`,
and every negative word reads as null. -/
theorem readProducer_getD (p : Option Int64) :
    (if (p.getD (-1)).toInt < 0 then none else some (p.getD (-1))) =
      p.filter (fun x => 0 ≤ x.toInt) := by
  cases p with
  | none => rfl
  | some x =>
    by_cases hx : x.toInt < 0
    · simp only [Option.getD_some, if_pos hx, Option.filter_some]
      rw [if_neg (by simpa using hx)]
    · simp only [Option.getD_some, if_neg hx, Option.filter_some]
      rw [if_pos (by simpa using hx)]

theorem encodePublish_of_ok {v : PublishRequest} {t k b : List UInt8}
    (ht : encodeString (some v.topic) = .ok t) (hk : encodeString v.key = .ok k)
    (hb : encodeBytes (some v.body) = .ok b) :
    encodePublish v =
      .ok (t ++ k ++ encodeI64 v.ttlMs ++ b ++ encodeI64 (v.producerId.getD (-1))) := by
  rw [encodePublish, ht, hk, hb]
  rfl

/-- A publish request whose topic, key and content round-trip is read back with its negative
producer id as none, and is otherwise the same. -/
theorem readsBack_publish {v : PublishRequest}
    (ht : RoundTrip encodeString decodeString (some v.topic))
    (hk : RoundTrip encodeString decodeString v.key)
    (hb : RoundTrip encodeBytes decodeBytes (some v.body)) :
    ReadsBack encodePublish decodePublish v
      { v with producerId := v.producerId.filter (fun x => 0 ≤ x.toInt) } := by
  obtain ⟨t, hte, htd⟩ := ht
  obtain ⟨k, hke, hkd⟩ := hk
  obtain ⟨b, hbe, hbd⟩ := hb
  refine ⟨_, encodePublish_of_ok hte hke hbe, fun rest => ?_⟩
  simp only [List.append_assoc]
  rw [decodePublish, Decoder.bind_of_ok (decodeRequiredString_eq_ok.mpr (htd _)),
    Decoder.bind_of_ok (hkd _), Decoder.bind_of_ok (decodeI64_eq_ok.mpr rfl),
    Decoder.bind_of_ok (hbd _), Decoder.bind_of_ok (decodeI64_eq_ok.mpr rfl), Decoder.pure_apply,
    readProducer_getD]
  rfl

/-- What reading a publish request can give: topic, key and content that round-trip, and a
producer id that is none or not negative. -/
theorem decodePublish_cases {bs rest : List UInt8} {v : PublishRequest}
    (h : decodePublish bs = .ok v rest) :
    RoundTrip encodeString decodeString (some v.topic) ∧
      RoundTrip encodeString decodeString v.key ∧
      RoundTrip encodeBytes decodeBytes (some v.body) ∧ ∀ x ∈ v.producerId, 0 ≤ x.toInt := by
  rw [decodePublish] at h
  obtain ⟨topic, m₁, ht, h⟩ := Decoder.bind_eq_ok.mp h
  obtain ⟨key, m₂, hk, h⟩ := Decoder.bind_eq_ok.mp h
  obtain ⟨ttl, m₃, -, h⟩ := Decoder.bind_eq_ok.mp h
  obtain ⟨body, m₄, hb, h⟩ := Decoder.bind_eq_ok.mp h
  obtain ⟨producer, m₅, -, h⟩ := Decoder.bind_eq_ok.mp h
  simp only [Decoder.pure_apply, Step.ok.injEq] at h
  obtain ⟨rfl, rfl⟩ := h
  obtain ⟨et, het, -⟩ := decodeString_eq_ok.mp (decodeRequiredString_eq_ok.mp ht)
  obtain ⟨ek, hek, -⟩ := decodeString_eq_ok.mp hk
  -- null content reads as empty, which round-trips too
  have hbody : RoundTrip encodeBytes decodeBytes (some (body.getD [])) := by
    cases body with
    | none => exact roundTrip_bytes (by simp [maxBlobBytes])
    | some b =>
      obtain ⟨eb, heb, -⟩ := decodeBytes_eq_ok.mp hb
      exact exact_bytes.roundTrip heb
  refine ⟨exact_string.roundTrip het, exact_string.roundTrip hek, hbody, ?_⟩
  intro x hx
  split_ifs at hx with hp
  · cases hx
  · cases hx
    exact Int.not_lt.mp hp

/-- Reading back keeps a producer id exactly when it is none or not negative. -/
theorem filter_producerId_eq_self {p : Option Int64} :
    p.filter (fun x => 0 ≤ x.toInt) = p ↔ ∀ x ∈ p, 0 ≤ x.toInt := by
  cases p with
  | none => simp
  | some x => simp [Option.filter_some]

/-- A publish request whose topic, key and content round-trip comes back as it is exactly when
its producer id is none or not negative. -/
theorem roundTrip_publish_iff {v : PublishRequest}
    (ht : RoundTrip encodeString decodeString (some v.topic))
    (hk : RoundTrip encodeString decodeString v.key)
    (hb : RoundTrip encodeBytes decodeBytes (some v.body)) :
    RoundTrip encodePublish decodePublish v ↔ ∀ x ∈ v.producerId, 0 ≤ x.toInt := by
  have hv := readsBack_publish ht hk hb
  rw [← filter_producerId_eq_self]
  constructor
  · intro h
    exact congrArg PublishRequest.producerId (hv.eq h)
  · intro hf
    rwa [hf] at hv

/-- A publish request read is written again and read back the same. -/
theorem stable_publish : Stable encodePublish decodePublish := by
  intro bs v rest h
  obtain ⟨ht, hk, hb, hp⟩ := decodePublish_cases h
  exact (roundTrip_publish_iff ht hk hb).mpr hp

/-! ## Subscribe requests -/

theorem roundTrip_subscribe {topic : String}
    (h : RoundTrip encodeString decodeString (some topic)) :
    RoundTrip encodeSubscribe decodeSubscribe topic := by
  obtain ⟨e, he, hd⟩ := h
  exact ⟨e, he, fun rest => decodeRequiredString_eq_ok.mpr (hd rest)⟩

/-- A topic read is written again and read back the same. -/
theorem stable_subscribe : Stable encodeSubscribe decodeSubscribe := by
  intro bs topic rest h
  -- the topic is a string the string reader read, and that reader is exact
  exact roundTrip_subscribe
    (exact_string.stable bs (some topic) rest (decodeRequiredString_eq_ok.mp h))

/-! ## Requests -/

/-- **Requests read back as written.** The header gives back the api and the correlation id and
leaves exactly what follows it. After it, a publish request whose topic, key and content fit is
read back with every negative producer id as none, so it comes back as it is exactly when its
producer id is none or not negative; a subscribe request whose topic fits is read back. The peek
finds a correlation id exactly in frames of at least six bytes, as the word at bytes 2 to 6, and
on a frame whose header reads it finds the header's. Whatever is read is written and read back
the same. -/
theorem requests_read_back_as_written :
    (∀ (h : RequestHeader) (bs rest : List UInt8),
      RequestHeader.decode bs = .ok h rest ↔ bs = h.encode ++ rest) ∧
    (∀ v : PublishRequest, (Text.Utf8.encode v.topic).length ≤ maxStringBytes →
      (∀ k ∈ v.key, (Text.Utf8.encode k).length ≤ maxStringBytes) →
      v.body.length ≤ maxBlobBytes →
      ReadsBack encodePublish decodePublish v
        { v with producerId := v.producerId.filter (fun x => 0 ≤ x.toInt) } ∧
      (RoundTrip encodePublish decodePublish v ↔ ∀ x ∈ v.producerId, 0 ≤ x.toInt)) ∧
    (∀ topic, (Text.Utf8.encode topic).length ≤ maxStringBytes →
      RoundTrip encodeSubscribe decodeSubscribe topic) ∧
    (∀ (f : List UInt8) (c : Int32), RequestHeader.peekCorrelationId f = some c ↔
      6 ≤ f.length ∧ (f.drop 2).take 4 = encodeI32 c) ∧
    (∀ (f rest : List UInt8) (h : RequestHeader), RequestHeader.decode f = .ok h rest →
      RequestHeader.peekCorrelationId f = some h.correlationId) ∧
    Stable encodePublish decodePublish ∧ Stable encodeSubscribe decodeSubscribe := by
  refine ⟨fun _ _ _ => RequestHeader.decode_eq_ok, fun v ht hk hb => ?_,
    fun _ ht => roundTrip_subscribe (roundTrip_string ht),
    fun _ _ => RequestHeader.peekCorrelationId_eq_some,
    fun _ _ _ => RequestHeader.peekCorrelationId_of_decode, stable_publish, stable_subscribe⟩
  -- a null key is written as `-1` and always fits
  have hkey : RoundTrip encodeString decodeString v.key := by
    cases hv : v.key with
    | none => exact exact_string.roundTrip rfl
    | some k => exact roundTrip_string (hk k hv)
  have ht' := roundTrip_string ht
  have hb' := roundTrip_bytes hb
  exact ⟨readsBack_publish ht' hkey hb', roundTrip_publish_iff ht' hkey hb'⟩

/-- A publish request with a negative producer id reads back with none in its place. -/
theorem publish_with_negative_producer_reads_back :
    (Text.Utf8.encode "orders").length ≤ maxStringBytes ∧
      (∀ k ∈ some "eu", (Text.Utf8.encode k).length ≤ maxStringBytes) ∧
      [1, 2, 3].length ≤ maxBlobBytes ∧
      ReadsBack encodePublish decodePublish ⟨"orders", [1, 2, 3], 60000, some "eu", some (-5)⟩
        ⟨"orders", [1, 2, 3], 60000, some "eu", none⟩ :=
  ⟨by decide, by decide, by decide,
    (requests_read_back_as_written.2.1 ⟨"orders", [1, 2, 3], 60000, some "eu", some (-5)⟩
      (by decide) (by decide) (by decide)).1⟩

end MessageBroker.Wire
