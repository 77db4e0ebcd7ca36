import MessageBroker.Wire.Bytes
/-!
# Frames

Requests and replies travel in frames: a four-byte signed size, then that many bytes. A reader
accepts sizes from `1` to its maximum; a stream that ends where a size is due ends cleanly,
one that ends inside a payload is cut off.

Streams here are byte channels that may fail: a channel carries at most a budget of bytes and
then fails with a given error. Reading from it delivers bytes until the input ends or the budget
is spent, whichever comes first; writing accepts bytes until the budget is spent.

## Main definitions

* `frame`: the bytes of one frame
* `Channel`, `Channel.readExact`
* `FrameEnd`, `readFrames`: every frame of an input, how reading ended and what was left unread
* `writeFrame`: the bytes a channel accepts of one frame, and how writing ended
-/

namespace MessageBroker.Wire

/-- The largest frame size: `2 ^ 31 - 1`. -/
def maxFrameBytes : Nat := 2147483647

/-- The bytes of one frame: its size, then the payload. -/
def frame (payload : List UInt8) : Except WireError (List UInt8) :=
  if maxFrameBytes < payload.length then .error .frameTooLarge
  else .ok (encodeI32 (Int32.ofNat payload.length) ++ payload)

/-- A byte channel being read: the bytes still to come, and how many more it delivers before
it fails (`none` for a channel that never fails). -/
structure Channel where
  rest : List UInt8
  budget : Option Nat

/-- How reading a number of bytes ended. -/
inductive ReadEnd where
  /-- every byte asked for came -/
  | complete
  /-- the input ended first -/
  | eof
  /-- the budget was spent while input remained -/
  | failed

namespace Channel

/-- The most bytes the channel still delivers. -/
def limit (c : Channel) : Nat :=
  match c.budget with
  | some b => min b c.rest.length
  | none => c.rest.length

/-- Reads `n` bytes: the bytes delivered, the channel after, and how the read ended. When
fewer than `n` bytes come, the read stops at the end of input if the input ends no later than
the budget, and fails otherwise. -/
def readExact (c : Channel) (n : Nat) : List UInt8 × Channel × ReadEnd :=
  if n ≤ c.limit then
    (c.rest.take n, ⟨c.rest.drop n, c.budget.map (· - n)⟩, .complete)
  else
    let k := c.limit
    let c' : Channel := ⟨c.rest.drop k, c.budget.map (· - k)⟩
    (c.rest.take k, c', if c.rest.length ≤ (c.budget.getD c.rest.length) then .eof else .failed)

end Channel

/-- How reading frames ended: cleanly where a size was due, or with a failure. -/
inductive FrameEnd where
  | eof
  | failed (e : IoError)
  deriving DecidableEq, Repr

/-- Reads frames one after another, at most `fuel` of them. -/
def readFramesFor (maxSize : Nat) (failure : IoError) :
    Nat → Channel → List (List UInt8) × FrameEnd × Channel
  | 0, c => ([], .eof, c)
  | fuel + 1, c =>
    let s := c.readExact 4
    match s.2.2 with
    | .eof => ([], .eof, s.2.1)
    | .failed => ([], .failed failure, s.2.1)
    | .complete =>
      let size := (UInt32.ofNat (ofWord s.1)).toInt32.toInt
      if size ≤ 0 ∨ (maxSize : Int) < size then
        ([], .failed (WireError.badFrameSize size).toIoError, s.2.1)
      else
        let p := s.2.1.readExact size.toNat
        match p.2.2 with
        | .eof => ([], .failed WireError.cutOff.toIoError, p.2.1)
        | .failed => ([], .failed failure, p.2.1)
        | .complete =>
          let rest := readFramesFor maxSize failure fuel p.2.1
          (p.1 :: rest.1, rest.2.1, rest.2.2)

/-- Reads every frame of an input through a channel with an optional budget that fails with
`failure`: the frames, how reading ended, and how many input bytes were not delivered. Each
frame takes at least five bytes, so one more round than there are bytes reaches the end. -/
def readFrames (input : List UInt8) (maxSize : Nat) (budget : Option Nat) (failure : IoError) :
    List (List UInt8) × FrameEnd × Nat :=
  let r := readFramesFor maxSize failure (input.length + 1) ⟨input, budget⟩
  (r.1, r.2.1, r.2.2.rest.length)

/-- Writes one frame to a channel with an optional budget that fails with `failure`: the bytes
it accepted, and the failure if writing stopped. The size goes first, then the payload. -/
def writeFrame (payload : List UInt8) (budget : Option Nat) (failure : IoError) :
    List UInt8 × Option IoError :=
  match frame payload with
  | .error e => ([], some e.toIoError)
  | .ok bytes =>
    match budget with
    | some b => if b < bytes.length then (bytes.take b, some failure) else (bytes, none)
    | none => (bytes, none)

end MessageBroker.Wire
