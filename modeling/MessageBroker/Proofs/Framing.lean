import MessageBroker.Wire.Frame
import MessageBroker.Proofs.WireFields
/-!
# Frames read back, and streams cut anywhere

A frame is a four-byte signed size and that many bytes. Frames written one after another to a
channel that does not fail are read back one by one, and reading ends cleanly where the next size
is due. A stream cut at any point gives the frames that lie wholly before the cut; it then ends
cleanly if the cut falls inside a size, with fewer than four of its bytes, and is reported cut off
if the cut falls inside a payload. A size outside `1` to the reader's maximum is refused before its
payload is read, so the frame of an empty payload, whose size is `0`, is always refused.

## Main results

* `Channel.readExact_append`, `Channel.readExact_short`: a read of a channel that does not fail
* `readFramesFor_frame`, `readFramesFor_short`, `readFramesFor_cut`, `readFramesFor_badSize`:
  what one round of reading meets
* `readFramesFor_written`: frames written one after another are read in order
* `exists_cut`: every cut point lies inside exactly one written frame
* `frames_read_back_and_cut_streams`: all of it for every list of payloads and every cut
-/

namespace MessageBroker.Wire

/-! ## Sizes -/

@[simp] theorem length_encodeI32 (x : Int32) : (encodeI32 x).length = 4 := by
  simp [encodeI32]

/-- The size read from the four bytes written for `x` is `x`. -/
theorem frameSize_encodeI32 (x : Int32) :
    (UInt32.ofNat (ofWord (encodeI32 x))).toInt32.toInt = x.toInt := by
  have hlt : x.toUInt32.toNat < 256 ^ 4 := Nat.lt_of_lt_of_le x.toUInt32.toNat_lt (by decide)
  rw [encodeI32, ofWord_word, Nat.mod_eq_of_lt hlt, UInt32.ofNat_toNat, Int32.toInt32_toUInt32]

theorem encodeI32_inj {x y : Int32} : encodeI32 x = encodeI32 y ↔ x = y := by
  constructor
  · intro h
    apply Int32.toInt_inj.mp
    rw [← frameSize_encodeI32 x, h, frameSize_encodeI32]
  · rintro rfl
    rfl

/-- The size written for a payload the writer accepts is its length. -/
theorem toInt_ofNat_length {p : List UInt8} (h : p.length ≤ maxFrameBytes) :
    (Int32.ofNat p.length).toInt = p.length :=
  Int32.toInt_ofNat_of_lt (by unfold maxFrameBytes at h; omega)

/-- A channel that does not fail accepts the whole frame of a payload the writer accepts. -/
theorem writeFrame_none {p : List UInt8} (h : p.length ≤ maxFrameBytes) (e : IoError) :
    writeFrame p none e = (encodeI32 (Int32.ofNat p.length) ++ p, none) := by
  simp [writeFrame, frame, Nat.not_lt.mpr h]

/-! ## Reading a channel that does not fail -/

namespace Channel

/-- A read of `n` bytes where there are `n` takes exactly them. -/
theorem readExact_append {bs : List UInt8} {n : Nat} (h : bs.length = n) (rest : List UInt8) :
    (⟨bs ++ rest, none⟩ : Channel).readExact n = (bs, ⟨rest, none⟩, .complete) := by
  subst h
  simp [readExact, limit]

/-- A read of more bytes than are left takes them all and meets the end of input. -/
theorem readExact_short {bs : List UInt8} {n : Nat} (h : bs.length < n) :
    (⟨bs, none⟩ : Channel).readExact n = (bs, ⟨[], none⟩, .eof) := by
  simp [readExact, limit, Nat.not_le.mpr h]

end Channel

/-! ## One round of reading -/

section Round

variable {maxSize : Nat} {failure : IoError}

/-- **A complete frame with a size in range is read**, and reading goes on after it. -/
theorem readFramesFor_frame {p : List UInt8} (h₁ : 0 < p.length) (h₂ : p.length ≤ maxSize)
    (h₃ : p.length ≤ maxFrameBytes) (fuel : Nat) (rest : List UInt8) :
    readFramesFor maxSize failure (fuel + 1)
        ⟨encodeI32 (Int32.ofNat p.length) ++ (p ++ rest), none⟩ =
      ((p :: (readFramesFor maxSize failure fuel ⟨rest, none⟩).1),
        (readFramesFor maxSize failure fuel ⟨rest, none⟩).2.1,
        (readFramesFor maxSize failure fuel ⟨rest, none⟩).2.2) := by
  simp only [readFramesFor, Channel.readExact_append (length_encodeI32 _), frameSize_encodeI32,
    toInt_ofNat_length h₃]
  rw [if_neg (by omega), Int.toNat_natCast, Channel.readExact_append rfl]

/-- **Fewer than four bytes where a size is due end reading cleanly.** -/
theorem readFramesFor_short {bs : List UInt8} (h : bs.length < 4) (fuel : Nat) :
    readFramesFor maxSize failure (fuel + 1) ⟨bs, none⟩ = ([], .eof, ⟨[], none⟩) := by
  simp only [readFramesFor, Channel.readExact_short h]

/-- **A payload cut short is reported cut off**, once its size has been read. -/
theorem readFramesFor_cut {p : List UInt8} {r : Nat} (h₁ : 0 < p.length) (h₂ : p.length ≤ maxSize)
    (h₃ : p.length ≤ maxFrameBytes) (hr : r < p.length) (fuel : Nat) :
    readFramesFor maxSize failure (fuel + 1) ⟨encodeI32 (Int32.ofNat p.length) ++ p.take r, none⟩ =
      ([], .failed WireError.cutOff.toIoError, ⟨[], none⟩) := by
  have hshort : (p.take r).length < p.length := by simp; omega
  simp only [readFramesFor, Channel.readExact_append (length_encodeI32 _), frameSize_encodeI32,
    toInt_ofNat_length h₃]
  rw [if_neg (by omega), Int.toNat_natCast, Channel.readExact_short hshort]

/-- **A size out of range is refused** before any of its payload is read. -/
theorem readFramesFor_badSize {n : Int32} (hn : n.toInt ≤ 0 ∨ (maxSize : Int) < n.toInt)
    (fuel : Nat) (rest : List UInt8) :
    readFramesFor maxSize failure (fuel + 1) ⟨encodeI32 n ++ rest, none⟩ =
      ([], .failed (WireError.badFrameSize n.toInt).toIoError, ⟨rest, none⟩) := by
  simp only [readFramesFor, Channel.readExact_append (length_encodeI32 _), frameSize_encodeI32]
  rw [if_pos hn]

end Round

/-! ## Runs of frames -/

section Run

variable {maxSize : Nat} {failure e : IoError}

/-- A payload that the writer accepts and a reader of frames of at most `maxSize` bytes reads. -/
def Fits (maxSize : Nat) (p : List UInt8) : Prop :=
  0 < p.length ∧ p.length ≤ maxSize ∧ p.length ≤ maxFrameBytes

/-- The bytes of frames written one after another to a channel that does not fail. -/
def written (e : IoError) (ps : List (List UInt8)) : List UInt8 :=
  ps.flatMap fun p => (writeFrame p none e).1

@[simp] theorem written_nil : written e [] = [] := rfl

theorem written_cons (p : List UInt8) (ps : List (List UInt8)) :
    written e (p :: ps) = (writeFrame p none e).1 ++ written e ps := rfl

/-- Every written frame takes at least its four size bytes. -/
theorem length_le_written {ps : List (List UInt8)} (h : ∀ p ∈ ps, p.length ≤ maxFrameBytes) :
    ps.length ≤ (written e ps).length := by
  induction ps with
  | nil => simp
  | cons p ps ih =>
    have hp := h p List.mem_cons_self
    rw [written_cons, writeFrame_none hp, List.length_append, List.length_append,
      length_encodeI32, List.length_cons]
    have := ih fun q hq => h q (List.mem_cons_of_mem p hq)
    omega

/-- **Frames written one after another are read in order**, each round taking one, and reading
goes on with what follows them. The induction is on the frames, the fuel going down by one each. -/
theorem readFramesFor_written {ps : List (List UInt8)} (hfit : ∀ p ∈ ps, Fits maxSize p)
    {fuel : Nat} (hfuel : ps.length ≤ fuel) (tail : List UInt8) :
    readFramesFor maxSize failure fuel ⟨written e ps ++ tail, none⟩ =
      (ps ++ (readFramesFor maxSize failure (fuel - ps.length) ⟨tail, none⟩).1,
        (readFramesFor maxSize failure (fuel - ps.length) ⟨tail, none⟩).2.1,
        (readFramesFor maxSize failure (fuel - ps.length) ⟨tail, none⟩).2.2) := by
  induction ps generalizing fuel with
  | nil => simp
  | cons p ps ih =>
    obtain ⟨fuel, rfl⟩ : ∃ f, fuel = f + 1 := ⟨fuel - 1, by simp at hfuel; omega⟩
    obtain ⟨h₁, h₂, h₃⟩ := hfit p List.mem_cons_self
    rw [written_cons, writeFrame_none h₃, List.append_assoc, List.append_assoc,
      readFramesFor_frame h₁ h₂ h₃, ih (fun q hq => hfit q (List.mem_cons_of_mem p hq))
        (by simp at hfuel; omega)]
    simp

/-- **Every cut point lies inside exactly one written frame**: a cut of the written bytes before
their end is the frames wholly before it and fewer than all bytes of the next one. -/
theorem exists_cut {ps : List (List UInt8)} (h : ∀ p ∈ ps, p.length ≤ maxFrameBytes) {k : Nat}
    (hk : k < (written e ps).length) :
    ∃ pre p post r, ps = pre ++ p :: post ∧ k = (written e pre).length + r ∧
      r < 4 + p.length ∧
      (written e ps).take k = written e pre ++ (encodeI32 (Int32.ofNat p.length) ++ p).take r := by
  induction ps generalizing k with
  | nil => simp at hk
  | cons q qs ih =>
    have hq := h q List.mem_cons_self
    have hlen : (writeFrame q none e).1.length = 4 + q.length := by
      rw [writeFrame_none hq, List.length_append, length_encodeI32]
    rw [written_cons, List.length_append, hlen] at hk
    by_cases hkq : k < 4 + q.length
    · -- the cut falls inside the first frame
      refine ⟨[], q, qs, k, rfl, by simp, hkq, ?_⟩
      rw [written_cons, List.take_append_of_le_length (by omega), writeFrame_none hq]
      rfl
    · -- the cut lies past the first frame: cut the others
      obtain ⟨pre, p, post, r, rfl, hk', hr, htake⟩ :=
        ih (fun x hx => h x (List.mem_cons_of_mem q hx)) (k := k - (4 + q.length)) (by omega)
      refine ⟨q :: pre, p, post, r, rfl, ?_, hr, ?_⟩
      · rw [written_cons, List.length_append, hlen]
        omega
      · rw [written_cons, List.take_append, hlen, List.take_of_length_le (by omega), htake,
          written_cons, List.append_assoc]

/-- A whole written stream is read back, and reading ends where the next size is due. -/
theorem readFrames_written {ps : List (List UInt8)} (hfit : ∀ p ∈ ps, Fits maxSize p) :
    readFrames (written e ps) maxSize none failure = (ps, .eof, 0) := by
  have hle := length_le_written (e := e) fun p hp => (hfit p hp).2.2
  have hw : readFramesFor maxSize failure ((written e ps).length + 1) ⟨written e ps ++ [], none⟩ =
      _ := readFramesFor_written hfit (by omega) []
  rw [List.append_nil] at hw
  rw [readFrames, hw, Nat.sub_add_comm hle, readFramesFor_short (by simp)]
  simp

/-- A written stream cut inside the frame of `p`, `r` bytes into it: the frames before it are read,
then reading ends cleanly inside the size and is cut off inside the payload. -/
theorem readFrames_cut {pre : List (List UInt8)} {p : List UInt8} {r : Nat}
    (hfit : ∀ q ∈ pre, Fits maxSize q) (hp : Fits maxSize p) (hr : r < 4 + p.length) :
    readFrames (written e pre ++ (encodeI32 (Int32.ofNat p.length) ++ p).take r) maxSize none
        failure = (pre, if r < 4 then .eof else .failed WireError.cutOff.toIoError, 0) := by
  have hle := length_le_written (e := e) fun q hq => (hfit q hq).2.2
  have hfuel : pre.length ≤
      (written e pre ++ (encodeI32 (Int32.ofNat p.length) ++ p).take r).length := by
    rw [List.length_append]
    omega
  rw [readFrames, readFramesFor_written (e := e) hfit (by omega), Nat.sub_add_comm hfuel]
  by_cases hr4 : r < 4
  · -- the cut leaves fewer than four bytes of the size
    rw [readFramesFor_short (by simp; omega)]
    simp [hr4]
  · -- the size is whole and the payload is cut
    rw [List.take_append, List.take_of_length_le (by simp; omega), length_encodeI32,
      readFramesFor_cut hp.1 hp.2.1 hp.2.2 (r := r - 4) (by omega)]
    simp [hr4]

/-- After frames read in order, a size out of range is refused and its payload left unread. -/
theorem readFrames_badSize {pre : List (List UInt8)} (hfit : ∀ q ∈ pre, Fits maxSize q)
    {n : Int32} (hn : n.toInt ≤ 0 ∨ (maxSize : Int) < n.toInt) (rest : List UInt8) :
    readFrames (written e pre ++ (encodeI32 n ++ rest)) maxSize none failure =
      (pre, .failed (WireError.badFrameSize n.toInt).toIoError, rest.length) := by
  have hle := length_le_written (e := e) fun q hq => (hfit q hq).2.2
  have hfuel : pre.length ≤ (written e pre ++ (encodeI32 n ++ rest)).length := by
    rw [List.length_append]
    omega
  rw [readFrames, readFramesFor_written (e := e) hfit (by omega), Nat.sub_add_comm hfuel,
    readFramesFor_badSize hn]
  simp

end Run

/-- **Frames read back, and streams cut anywhere.** Frames of payloads of `1` to `min m (2 ^ 31 - 1)`
bytes, written one after another to a channel that does not fail, are read back in order by a
reader of frames of at most `m` bytes, and reading then ends cleanly. Cut that stream at any point
before its end: the frames wholly before the cut are read, and reading ends cleanly if fewer than
four bytes of the next frame's size are left, and with `UnexpectedEof` "early eof" if its payload
is cut. After any frames read in order, a size of at most `0` or above `m` is refused as invalid
data, "Invalid frame size: n", with its payload left unread; so the frame written for an empty
payload, whose size is `0`, is always refused. -/
theorem frames_read_back_and_cut_streams :
    (∀ (m : Nat) (e f : IoError) (ps : List (List UInt8)),
      (∀ p ∈ ps, 1 ≤ p.length ∧ p.length ≤ min m maxFrameBytes) →
      readFrames (ps.flatMap fun p => (writeFrame p none e).1) m none f = (ps, .eof, 0) ∧
      ∀ k < (ps.flatMap fun p => (writeFrame p none e).1).length,
        ∃ pre p post r, ps = pre ++ p :: post ∧
          k = (pre.flatMap fun p => (writeFrame p none e).1).length + r ∧ r < 4 + p.length ∧
          readFrames ((ps.flatMap fun p => (writeFrame p none e).1).take k) m none f =
            (pre, if r < 4 then .eof else .failed ⟨.unexpectedEof, "early eof"⟩, 0)) ∧
    (∀ (m : Nat) (e f : IoError) (pre : List (List UInt8)) (n : Int32) (rest : List UInt8),
      (∀ p ∈ pre, 1 ≤ p.length ∧ p.length ≤ min m maxFrameBytes) →
      (n.toInt ≤ 0 ∨ (m : Int) < n.toInt) →
      readFrames ((pre.flatMap fun p => (writeFrame p none e).1) ++ (encodeI32 n ++ rest)) m none f =
        (pre, .failed ⟨.invalidData, "Invalid frame size: " ++ toString n.toInt⟩, rest.length)) ∧
    (∀ (m : Nat) (e f : IoError) (rest : List UInt8),
      writeFrame [] none e = (encodeI32 0, none) ∧
      readFrames ((writeFrame [] none e).1 ++ rest) m none f =
        ([], .failed ⟨.invalidData, "Invalid frame size: 0"⟩, rest.length)) := by
  -- a payload of `1` to `min m (2 ^ 31 - 1)` bytes is one that `Fits m`
  have hfits : ∀ {m : Nat} {ps : List (List UInt8)},
      (∀ p ∈ ps, 1 ≤ p.length ∧ p.length ≤ min m maxFrameBytes) → ∀ p ∈ ps, Fits m p := by
    intro m ps h p hp
    have := h p hp
    exact ⟨this.1, by omega, by omega⟩
  refine ⟨fun m e f ps hps => ⟨readFrames_written (hfits hps), fun k hk => ?_⟩,
    fun m e f pre n rest hpre hn => readFrames_badSize (hfits hpre) hn rest,
    fun m e f rest => ⟨rfl, ?_⟩⟩
  · obtain ⟨pre, p, post, r, rfl, hk', hr, htake⟩ :=
      exists_cut (e := e) (fun p hp => (hfits hps p hp).2.2) hk
    refine ⟨pre, p, post, r, rfl, hk', hr, ?_⟩
    have hpre : ∀ q ∈ pre, Fits m q := fun q hq => hfits hps q (by simp [hq])
    change readFrames ((written e (pre ++ p :: post)).take k) m none f = _
    rw [htake, readFrames_cut hpre (hfits hps p (by simp)) hr]
    rfl
  · -- the empty payload's frame is its size `0` alone
    have hmsg : (WireError.badFrameSize (Int32.ofNat 0).toInt).toIoError =
        ⟨.invalidData, "Invalid frame size: 0"⟩ := by decide
    rw [writeFrame_none (p := []) (by decide) e, List.append_nil, ← hmsg]
    exact readFrames_badSize (e := e)
      (fun q (hq : q ∈ ([] : List (List UInt8))) => absurd hq (by simp)) (.inl (by decide)) rest

/-- Two payloads written to a channel that does not fail are read back by a reader of frames of
at most `16` bytes, and reading ends cleanly. -/
theorem two_frames_read_back :
    (∀ p ∈ [[104, 105], [33]], 1 ≤ p.length ∧ p.length ≤ min 16 maxFrameBytes) ∧
      readFrames ([[104, 105], [33]].flatMap fun p => (writeFrame p none ⟨.other, "injected"⟩).1)
        16 none ⟨.other, "injected"⟩ = ([[104, 105], [33]], .eof, 0) :=
  ⟨by decide, (frames_read_back_and_cut_streams.1 16 _ _ _ (by decide)).1⟩

end MessageBroker.Wire
