import MessageBroker.Proofs.WireFields
import MessageBroker.Wire.Reply

/-!
# Replies read back as written

A reply is the correlation id of its request, then a publish reply or a stream frame. The header
is read exactly as written. Every body whose strings and content fit is read back after any
header and before anything that follows it; offsets below `2 ^ 64` and status codes survive the
signed words they travel as. One body does not come back: a rejection with the success status,
which is written as the bare status that begins an accepted reply. Whatever the readers accept
is written again and read back the same.

## Main results

* `decodePublishReply_cases`, `decodeStreamFrame_cases`: what each reader can give
* `roundTrip_accepted`, `roundTrip_rejected`, `roundTrip_opened`, `roundTrip_message`,
  `roundTrip_ended`: each body round-trips
* `not_roundTrip_rejected_none`: the one exception
* `stable_publishReply`, `stable_streamFrame`: the codecs are stable on what they read
* `replies_read_back_as_written`: all of it for replies, with the text of a refused string
-/

namespace MessageBroker


/-- Every status code survives the 16-bit word it is written as. -/
@[simp] theorem ErrorCode.ofInt16_toInt16 (c : ErrorCode) : ErrorCode.ofInt16 c.toInt16 = c := by
  cases c <;> decide

namespace Wire

theorem decodeResponseHeader_eq_ok {bs rest : List UInt8} {c : Int32} :
    decodeResponseHeader bs = .ok c rest ↔ bs = encodeResponseHeader c ++ rest :=
  decodeI32_eq_ok

/-- An offset below `2 ^ 64` survives the signed word it is written as. -/
theorem toNat_toUInt64_ofNat {o : Nat} (h : o < 2 ^ 64) : (Int64.ofNat o).toUInt64.toNat = o := by
  simp [UInt64.toNat_ofNat_of_lt' h]

/-- A signed word survives being read as an offset and written back. -/
theorem ofNat_toNat_toUInt64 (x : Int64) : Int64.ofNat x.toUInt64.toNat = x := by
  simp [Int64.ofNat]

/-! ## Publish replies -/

theorem encodePublishReply_accepted {r : PublishResponse} {i p : List UInt8}
    (hi : encodeString (some r.id) = .ok i) (hp : encodeString (some r.partition) = .ok p) :
    encodePublishReply (.accepted r) =
      .ok (encodeI16 ErrorCode.none.toInt16 ++ i ++ p ++ encodeI64 (Int64.ofNat r.offset)) := by
  rw [encodePublishReply, hi, hp]
  rfl

theorem roundTrip_accepted {r : PublishResponse}
    (hi : RoundTrip encodeString decodeString (some r.id))
    (hp : RoundTrip encodeString decodeString (some r.partition)) (ho : r.offset < 2 ^ 64) :
    RoundTrip encodePublishReply decodePublishReply (.accepted r) := by
  obtain ⟨i, hie, hid⟩ := hi
  obtain ⟨p, hpe, hpd⟩ := hp
  refine ⟨_, encodePublishReply_accepted hie hpe, fun rest => ?_⟩
  simp only [List.append_assoc]
  rw [decodePublishReply, Decoder.bind_of_ok (decodeI16_eq_ok.mpr rfl)]
  simp only [ErrorCode.ofInt16_toInt16, ne_eq, not_true_eq_false, if_false]
  rw [Decoder.bind_of_ok (decodeRequiredString_eq_ok.mpr (hid _)),
    Decoder.bind_of_ok (decodeRequiredString_eq_ok.mpr (hpd _)),
    Decoder.bind_of_ok (decodeI64_eq_ok.mpr rfl), Decoder.pure_apply, toNat_toUInt64_ofNat ho]

theorem roundTrip_rejected {code : ErrorCode} (h : code ≠ .none) :
    RoundTrip encodePublishReply decodePublishReply (.rejected code) := by
  refine ⟨_, rfl, fun rest => ?_⟩
  rw [decodePublishReply, Decoder.bind_of_ok (decodeI16_eq_ok.mpr rfl)]
  simp only [ErrorCode.ofInt16_toInt16, if_pos h, Decoder.pure_apply]

/-- What reading a publish reply can give: a status other than success, alone; or success, with
an id and a partition that round-trip as strings and an offset below `2 ^ 64`. -/
theorem decodePublishReply_cases {bs rest : List UInt8} {v : PublishReply}
    (h : decodePublishReply bs = .ok v rest) :
    (∃ code, code ≠ .none ∧ v = .rejected code) ∨
      ∃ r : PublishResponse, v = .accepted r ∧
        RoundTrip encodeString decodeString (some r.id) ∧
        RoundTrip encodeString decodeString (some r.partition) ∧ r.offset < 2 ^ 64 := by
  rw [decodePublishReply, Decoder.bind_eq_ok] at h
  obtain ⟨x, mid, -, h⟩ := h
  by_cases hc : ErrorCode.ofInt16 x = .none
  · simp only [hc, ne_eq, not_true_eq_false, if_false] at h
    obtain ⟨i, m₁, hi, h⟩ := Decoder.bind_eq_ok.mp h
    obtain ⟨p, m₂, hp, h⟩ := Decoder.bind_eq_ok.mp h
    obtain ⟨o, m₃, -, h⟩ := Decoder.bind_eq_ok.mp h
    simp only [Decoder.pure_apply, Step.ok.injEq] at h
    obtain ⟨rfl, rfl⟩ := h
    obtain ⟨ei, hei, -⟩ := decodeString_eq_ok.mp (decodeRequiredString_eq_ok.mp hi)
    obtain ⟨ep, hep, -⟩ := decodeString_eq_ok.mp (decodeRequiredString_eq_ok.mp hp)
    exact .inr ⟨_, rfl, exact_string.roundTrip hei, exact_string.roundTrip hep,
      o.toUInt64.toNat_lt⟩
  · simp only [hc, ne_eq, not_false_eq_true, if_true, Decoder.pure_apply, Step.ok.injEq] at h
    obtain ⟨rfl, rfl⟩ := h
    exact .inl ⟨_, hc, rfl⟩

/-- A reply read is written again and read back the same. -/
theorem stable_publishReply : Stable encodePublishReply decodePublishReply := by
  intro bs v rest h
  obtain ⟨code, hc, rfl⟩ | ⟨r, rfl, hi, hp, ho⟩ := decodePublishReply_cases h
  · exact roundTrip_rejected hc
  · exact roundTrip_accepted hi hp ho

/-- A rejection with the success status is written as the status alone, which is where an
accepted reply begins; no byte list reads as it, so it does not round-trip. -/
theorem not_roundTrip_rejected_none :
    encodePublishReply (.rejected .none) = .ok (encodeI16 0) ∧
      ¬ RoundTrip encodePublishReply decodePublishReply (.rejected .none) := by
  refine ⟨rfl, ?_⟩
  rintro ⟨bs, -, h⟩
  obtain ⟨code, hc, hv⟩ | ⟨r, hv, -⟩ := decodePublishReply_cases (h [])
  · cases hv
    exact hc rfl
  · cases hv

/-- An id or a partition of more than 32767 bytes cannot be written. -/
theorem encodePublishReply_of_lt {r : PublishResponse}
    (h : maxStringBytes < (Text.Utf8.encode r.id).length ∨
      maxStringBytes < (Text.Utf8.encode r.partition).length) :
    encodePublishReply (.accepted r) = .error .stringTooLong := by
  by_cases hi : maxStringBytes < (Text.Utf8.encode r.id).length
  · rw [encodePublishReply, encodeString_of_lt hi]
    rfl
  · have hp := h.resolve_left hi
    rw [encodePublishReply, encodeString_of_le (Nat.le_of_not_lt hi), encodeString_of_lt hp]
    rfl

/-! ## Stream frames -/

theorem roundTrip_opened (id : Int64) :
    RoundTrip encodeStreamFrame decodeStreamFrame (.opened id) := by
  refine ⟨_, rfl, fun rest => ?_⟩
  rw [decodeStreamFrame, List.append_assoc, Decoder.bind_of_ok (decodeI8_eq_ok.mpr rfl),
    if_pos rfl, Decoder.bind_of_ok (decodeI64_eq_ok.mpr rfl)]
  rfl

theorem roundTrip_ended (code : ErrorCode) :
    RoundTrip encodeStreamFrame decodeStreamFrame (.ended code) := by
  refine ⟨_, rfl, fun rest => ?_⟩
  rw [decodeStreamFrame, List.append_assoc, Decoder.bind_of_ok (decodeI8_eq_ok.mpr rfl),
    if_neg (by decide), if_neg (by decide), if_pos rfl,
    Decoder.bind_of_ok (decodeI16_eq_ok.mpr rfl), Decoder.pure_apply, ErrorCode.ofInt16_toInt16]

theorem encodeStreamFrame_message {part : String} {offset : Nat} {body p b : List UInt8}
    (hp : encodeString (some part) = .ok p) (hb : encodeBytes (some body) = .ok b) :
    encodeStreamFrame (.message part offset body) =
      .ok (encodeI8 1 ++ p ++ encodeI64 (Int64.ofNat offset) ++ b) := by
  rw [encodeStreamFrame, hp, hb]
  rfl

theorem roundTrip_message {part : String} {offset : Nat} {body : List UInt8}
    (hp : RoundTrip encodeString decodeString (some part)) (ho : offset < 2 ^ 64)
    (hb : RoundTrip encodeBytes decodeBytes (some body)) :
    RoundTrip encodeStreamFrame decodeStreamFrame (.message part offset body) := by
  obtain ⟨p, hpe, hpd⟩ := hp
  obtain ⟨b, hbe, hbd⟩ := hb
  refine ⟨_, encodeStreamFrame_message hpe hbe, fun rest => ?_⟩
  simp only [List.append_assoc]
  rw [decodeStreamFrame, Decoder.bind_of_ok (decodeI8_eq_ok.mpr rfl), if_neg (by decide),
    if_pos rfl, Decoder.bind_of_ok (decodeRequiredString_eq_ok.mpr (hpd _)),
    Decoder.bind_of_ok (decodeI64_eq_ok.mpr rfl), Decoder.bind_of_ok (hbd _),
    Decoder.pure_apply, toNat_toUInt64_ofNat ho]
  rfl

/-- A partition of more than 32767 bytes cannot be written in a message frame. -/
theorem encodeStreamFrame_of_lt {part : String} {offset : Nat} {body : List UInt8}
    (h : maxStringBytes < (Text.Utf8.encode part).length) :
    encodeStreamFrame (.message part offset body) = .error .stringTooLong := by
  rw [encodeStreamFrame, encodeString_of_lt h]
  rfl

/-- What reading a stream frame can give: an opening or an end, whatever its fields; or a
message whose partition and content round-trip and whose offset is below `2 ^ 64`. Null content
reads as empty. -/
theorem decodeStreamFrame_cases {bs rest : List UInt8} {v : StreamFrame}
    (h : decodeStreamFrame bs = .ok v rest) :
    (∃ id, v = .opened id) ∨ (∃ code, v = .ended code) ∨
      ∃ part offset body, v = .message part offset body ∧
        RoundTrip encodeString decodeString (some part) ∧ offset < 2 ^ 64 ∧
        RoundTrip encodeBytes decodeBytes (some body) := by
  rw [decodeStreamFrame, Decoder.bind_eq_ok] at h
  obtain ⟨tag, mid, -, h⟩ := h
  -- one case per tag; an unknown tag fails
  split_ifs at h
  · obtain ⟨id, m, -, h⟩ := Decoder.bind_eq_ok.mp h
    simp only [Decoder.pure_apply, Step.ok.injEq] at h
    exact .inl ⟨id, h.1.symm⟩
  · obtain ⟨part, m₁, hp, h⟩ := Decoder.bind_eq_ok.mp h
    obtain ⟨o, m₂, -, h⟩ := Decoder.bind_eq_ok.mp h
    obtain ⟨b, m₃, hb, h⟩ := Decoder.bind_eq_ok.mp h
    simp only [Decoder.pure_apply, Step.ok.injEq] at h
    obtain ⟨rfl, rfl⟩ := h
    obtain ⟨ep, hep, -⟩ := decodeString_eq_ok.mp (decodeRequiredString_eq_ok.mp hp)
    -- the content is a blob or null; null reads as the empty blob, which round-trips too
    have hbody : RoundTrip encodeBytes decodeBytes (some (b.getD [])) := by
      cases b with
      | none => exact roundTrip_bytes (by simp [maxBlobBytes])
      | some b =>
        obtain ⟨eb, heb, -⟩ := decodeBytes_eq_ok.mp hb
        exact exact_bytes.roundTrip heb
    exact .inr (.inr ⟨_, _, _, rfl, exact_string.roundTrip hep, o.toUInt64.toNat_lt, hbody⟩)
  · obtain ⟨x, m, -, h⟩ := Decoder.bind_eq_ok.mp h
    simp only [Decoder.pure_apply, Step.ok.injEq] at h
    exact .inr (.inl ⟨_, h.1.symm⟩)
  · exact absurd h Decoder.fail_ne_ok

/-- A frame read is written again and read back the same. -/
theorem stable_streamFrame : Stable encodeStreamFrame decodeStreamFrame := by
  intro bs v rest h
  obtain ⟨id, rfl⟩ | ⟨code, rfl⟩ | ⟨part, offset, body, rfl, hp, ho, hb⟩ :=
    decodeStreamFrame_cases h
  · exact roundTrip_opened id
  · exact roundTrip_ended code
  · exact roundTrip_message hp ho hb

/-! ## Replies -/

/-- **Replies read back as written.** The header gives back the correlation id and leaves exactly
what follows it. After it, an accepted reply whose id and partition have at most 32767 bytes, a
rejection with any status but success, and every stream frame whose partition and content fit,
are read back and leave exactly what follows. Offsets below `2 ^ 64` and every status code
survive their words; a rejection with the success status is written as the `0` that begins an
accepted reply and does not come back; a string over 32767 bytes is refused as invalid input,
"String too long"; and whatever is read is written and read back the same. -/
theorem replies_read_back_as_written :
    (∀ (c : Int32) (bs rest : List UInt8),
      decodeResponseHeader bs = .ok c rest ↔ bs = encodeResponseHeader c ++ rest) ∧
    (∀ r : PublishResponse, (Text.Utf8.encode r.id).length ≤ maxStringBytes →
      (Text.Utf8.encode r.partition).length ≤ maxStringBytes → r.offset < 2 ^ 64 →
      RoundTrip encodePublishReply decodePublishReply (.accepted r)) ∧
    (∀ code, code ≠ ErrorCode.none →
      RoundTrip encodePublishReply decodePublishReply (.rejected code)) ∧
    (encodePublishReply (.rejected .none) = .ok (encodeI16 0) ∧
      ¬ RoundTrip encodePublishReply decodePublishReply (.rejected .none)) ∧
    (∀ id, RoundTrip encodeStreamFrame decodeStreamFrame (.opened id)) ∧
    (∀ part offset body, (Text.Utf8.encode part).length ≤ maxStringBytes → offset < 2 ^ 64 →
      body.length ≤ maxBlobBytes →
      RoundTrip encodeStreamFrame decodeStreamFrame (.message part offset body)) ∧
    (∀ code, RoundTrip encodeStreamFrame decodeStreamFrame (.ended code)) ∧
    (∀ offset < 2 ^ 64, (Int64.ofNat offset).toUInt64.toNat = offset) ∧
    (∀ x : Int64, Int64.ofNat x.toUInt64.toNat = x) ∧
    (∀ code : ErrorCode, ErrorCode.ofInt16 code.toInt16 = code) ∧
    (∀ s, maxStringBytes < (Text.Utf8.encode s).length →
      (∀ r : PublishResponse, r.id = s ∨ r.partition = s →
        ∃ e, encodePublishReply (.accepted r) = .error e ∧
          e.toIoError = ⟨.invalidInput, "String too long"⟩) ∧
      ∀ offset body, ∃ e, encodeStreamFrame (.message s offset body) = .error e ∧
        e.toIoError = ⟨.invalidInput, "String too long"⟩) ∧
    Stable encodePublishReply decodePublishReply ∧ Stable encodeStreamFrame decodeStreamFrame := by
  refine ⟨fun _ _ _ => decodeResponseHeader_eq_ok,
    fun r hi hp ho => roundTrip_accepted (roundTrip_string hi) (roundTrip_string hp) ho,
    fun _ hc => roundTrip_rejected hc, not_roundTrip_rejected_none, roundTrip_opened,
    fun _ _ _ hp ho hb => roundTrip_message (roundTrip_string hp) ho (roundTrip_bytes hb),
    roundTrip_ended, fun _ => toNat_toUInt64_ofNat, ofNat_toNat_toUInt64,
    ErrorCode.ofInt16_toInt16, fun s hs => ⟨fun r hr => ?_, fun _ _ => ?_⟩,
    stable_publishReply, stable_streamFrame⟩
  · -- the id or the partition is the long string
    refine ⟨_, encodePublishReply_of_lt ?_, rfl⟩
    rcases hr with rfl | rfl
    · exact .inl hs
    · exact .inr hs
  · exact ⟨_, encodeStreamFrame_of_lt hs, rfl⟩

/-- An accepted reply with short strings and a 64-bit offset reads back. -/
theorem accepted_reply_reads_back :
    (Text.Utf8.encode "7-0").length ≤ maxStringBytes ∧
      (Text.Utf8.encode "0").length ≤ maxStringBytes ∧ 42 < 2 ^ 64 ∧
      RoundTrip encodePublishReply decodePublishReply (.accepted ⟨"7-0", "0", 42⟩) :=
  ⟨by decide, by decide, by decide,
    replies_read_back_as_written.2.1 ⟨"7-0", "0", 42⟩ (by decide) (by decide) (by decide)⟩

end Wire
end MessageBroker
