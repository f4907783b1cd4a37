/-
  Stocklist/Text/Utf8.lean
  ========================
  **UTF-8 as a machine over bytes.**

  The decoder remembers the bits collected so far and the range in which each byte still
  to come must lie; the ranges of the second byte rule out overlong forms, surrogates
  and numbers beyond the last code point.  `scan` gives the decoded characters in order,
  with `none` for each maximal run of bytes that begins a character and does not
  complete it, or begins none.  Strict decoding, lossy decoding and the length of the
  valid front are three readings of that one list.
-/

namespace Stocklist.Utf8

/-- Between bytes the decoder is at the start of a character, or it has collected the
    leading bits `bits` and expects one more byte in each of the ranges. -/
inductive State where
  | start
  | inside (bits : Nat) (ranges : List (UInt8 × UInt8))
deriving DecidableEq, Repr

/-- The range of a byte that continues a character without further condition. -/
def continuation : UInt8 × UInt8 := (0x80, 0xBF)

/-- What a leading byte yields: a character of one byte, a state that expects more, or
    an ill-formed run of one byte. -/
def lead (b : UInt8) : List (Option Char) × State :=
  if b < 0x80 then ([some (Char.ofNat b.toNat)], .start)
  else if 0xC2 ≤ b ∧ b ≤ 0xDF then ([], .inside (b.toNat % 32) [continuation])
  else if b = 0xE0 then ([], .inside 0 [(0xA0, 0xBF), continuation])
  else if b = 0xED then ([], .inside 13 [(0x80, 0x9F), continuation])
  else if 0xE1 ≤ b ∧ b ≤ 0xEF then ([], .inside (b.toNat % 16) [continuation, continuation])
  else if b = 0xF0 then ([], .inside 0 [(0x90, 0xBF), continuation, continuation])
  else if b = 0xF4 then ([], .inside 4 [(0x80, 0x8F), continuation, continuation])
  else if 0xF1 ≤ b ∧ b ≤ 0xF3 then
    ([], .inside (b.toNat % 8) [continuation, continuation, continuation])
  else ([none], .start)

/-- One byte.  A byte out of its range ends the run before it and leads a new one. -/
def step (s : State) (b : UInt8) : List (Option Char) × State :=
  match s with
  | .inside bits ((low, high) :: ranges) =>
    if low ≤ b ∧ b ≤ high then
      let bits := bits * 64 + b.toNat % 64
      if ranges.isEmpty then ([some (Char.ofNat bits)], .start) else ([], .inside bits ranges)
    else (none :: (lead b).1, (lead b).2)
  | _ => lead b

/-- The characters of a byte list read from the given state, `none` for an ill-formed run.
    A character that the end cuts off is such a run. -/
def scanFrom : State → List UInt8 → List (Option Char)
  | .start, [] => []
  | .inside .., [] => [none]
  | s, b :: bs => (step s b).1 ++ scanFrom (step s b).2 bs

/-- The characters of a byte list, `none` for an ill-formed run. -/
def scan (bs : List UInt8) : List (Option Char) :=
  scanFrom .start bs

/-- The text that the bytes encode, if they are well formed throughout. -/
def decode? (bs : List UInt8) : Option (List Char) :=
  (scan bs).mapM id

/-- The text that the bytes encode, with a replacement character for each ill-formed run. -/
def decodeLossy (bs : List UInt8) : List Char :=
  (scan bs).map (·.getD '\uFFFD')

def byteLength (cs : List Char) : Nat :=
  cs.foldr (fun c n => c.utf8Size + n) 0

/-- A text without its first `n` bytes, if these are whole characters. -/
def dropBytes? : Nat → List Char → Option (List Char)
  | 0, cs => some cs
  | _ + 1, [] => none
  | n + 1, c :: cs => if c.utf8Size ≤ n + 1 then dropBytes? (n + 1 - c.utf8Size) cs else none

/-- The first `n` bytes of a text, if these are whole characters. -/
def takeBytes? : Nat → List Char → Option (List Char)
  | 0, _ => some []
  | _ + 1, [] => none
  | n + 1, c :: cs =>
    if c.utf8Size ≤ n + 1 then (takeBytes? (n + 1 - c.utf8Size) cs).map (c :: ·) else none

/-- The number of bytes before the first ill-formed run. -/
def validLength (bs : List UInt8) : Nat :=
  byteLength (((scan bs).takeWhile (·.isSome)).map (·.getD '\uFFFD'))

def encode (cs : List Char) : List UInt8 :=
  cs.flatMap String.utf8EncodeChar

end Stocklist.Utf8
