/-! # Random bytes

Random bytes come from a twisted feedback register of 624 words of 32 bits (period exponent 19937),
seeded from the 32-bit words of an integer's absolute value. Each byte is the top eight bits of one
output word, so a seed fixes an endless stream of bytes; `nth` is the view of a generator as
that stream.
-/

namespace Chip8

/-- The register and the number of its words already given out. -/
structure RandomStream where
  words : Array UInt32
  used : Nat
deriving DecidableEq

namespace RandomStream

abbrev registerSize : Nat := 624

def wordAt (words : Array UInt32) (i : Nat) : UInt32 := words[i]?.getD 0

/-- A word mixed with its own top bits, the multiplicand of every seeding step. -/
def mixed (w : UInt32) : UInt32 := w ^^^ (w >>> 30)

/-- The register filled from one word by a linear recurrence. -/
def filled (seed : UInt32) : Array UInt32 :=
  (List.range (registerSize - 1)).foldl
    (fun words i => words.push (1812433253 * mixed (wordAt words i) + UInt32.ofNat (i + 1)))
    #[seed]

/-- The position after `i` in the seeding order; at the end the last word moves to the front and
the order goes on at position one. -/
def wrapRound (words : Array UInt32) (i : Nat) : Array UInt32 × Nat :=
  if registerSize ≤ i + 1 then (words.setIfInBounds 0 (wordAt words (registerSize - 1)), 1)
  else (words, i + 1)

/-- One seeding step that mixes in a word of the key. -/
def absorb (key : Array UInt32) (state : (Array UInt32 × Nat) × Nat) :
    (Array UInt32 × Nat) × Nat :=
  let ((words, i), j) := state
  let w := (wordAt words i ^^^ (mixed (wordAt words (i - 1)) * 1664525)) + wordAt key j
    + UInt32.ofNat j
  (wrapRound (words.setIfInBounds i w) i, if key.size ≤ j + 1 then 0 else j + 1)

/-- One seeding step without a key. -/
def settle (state : Array UInt32 × Nat) : Array UInt32 × Nat :=
  let (words, i) := state
  let w := (wordAt words i ^^^ (mixed (wordAt words (i - 1)) * 1566083941)) - UInt32.ofNat i
  wrapRound (words.setIfInBounds i w) i

/-- A generator seeded with a key of 32-bit words. -/
def ofKey (key : Array UInt32) : RandomStream :=
  let absorbed := (List.range (max registerSize key.size)).foldl (fun state _ => absorb key state)
    ((filled 19650218, 1), 0)
  let settled := (List.range (registerSize - 1)).foldl (fun state _ => settle state) absorbed.1
  ⟨settled.1.setIfInBounds 0 0x80000000, registerSize⟩

/-- The 32-bit words of a natural number, the least significant first; zero has one word. -/
def keyWords (n : Nat) : List UInt32 :=
  if n < 0x100000000 then [UInt32.ofNat n]
  else UInt32.ofNat n :: keyWords (n / 0x100000000)
termination_by n
decreasing_by omega

/-- A generator seeded with the absolute value of an integer. Without a seed the stream may be any;
it is the one of seed zero. -/
def ofSeed (seed : Option Int) : RandomStream := ofKey (keyWords (seed.getD 0).natAbs).toArray

/-- The feedback of a pair of neighbouring words. -/
def twist (high low : UInt32) : UInt32 :=
  let y := (high &&& 0x80000000) ||| (low &&& 0x7fffffff)
  (y >>> 1) ^^^ (if y &&& 1 = 1 then 0x9908b0df else 0)

/-- The next 624 words of the register. -/
def regenerate (words : Array UInt32) : Array UInt32 :=
  (List.range registerSize).foldl
    (fun words i =>
      let next := wordAt words ((i + 1) % registerSize)
      let w := wordAt words ((i + 397) % registerSize) ^^^ twist (wordAt words i) next
      words.setIfInBounds i w)
    words

/-- An output word from a word of the register. -/
def temper (w : UInt32) : UInt32 :=
  let a := w ^^^ (w >>> 11)
  let b := a ^^^ ((a <<< 7) &&& 0x9d2c5680)
  let c := b ^^^ ((b <<< 15) &&& 0xefc60000)
  c ^^^ (c >>> 18)

/-- The next byte, and the generator after it. -/
def next (r : RandomStream) : UInt8 × RandomStream :=
  let (words, used) := if registerSize ≤ r.used then (regenerate r.words, 0) else (r.words, r.used)
  (((temper (wordAt words used)) >>> 24).toUInt8, ⟨words, used + 1⟩)

/-- The generator after some bytes are drawn. -/
def skip (r : RandomStream) : Nat → RandomStream
  | 0 => r
  | n + 1 => r.next.2.skip n

/-- The byte at a position of the stream, counted from zero. -/
def nth (r : RandomStream) (n : Nat) : UInt8 := (r.skip n).next.1

theorem skip_add (r : RandomStream) (m n : Nat) : r.skip (m + n) = (r.skip m).skip n := by
  induction m generalizing r with
  | zero => simp [skip]
  | succ m ih => rw [Nat.succ_add]; exact ih r.next.2

/-- Drawing a byte moves the stream on by one place. -/
theorem next_skip (r : RandomStream) (n : Nat) : (r.skip n).next = (r.nth n, r.skip (n + 1)) := by
  rw [skip_add]
  rfl

end RandomStream

end Chip8
