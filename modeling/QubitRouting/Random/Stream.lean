/-!
# Pseudo-random words

A stream of 32-bit words that is determined by a seed: a block function of twelve rounds is applied to
a key, which is expanded from the seed, and a block counter. A stream is the key and the number of
words already taken, so drawing from it gives a new stream.
-/

namespace QubitRouting.Random

/-- Mix four words of a block. -/
def quarterRound (block : Array UInt32) (a b c d : Nat) : Array UInt32 :=
  let word (i : Nat) : UInt32 := block.getD i 0
  let rotate (w : UInt32) (n : UInt32) : UInt32 := (w <<< n) ||| (w >>> (32 - n))
  let wa := word a + word b
  let wd := rotate (word d ^^^ wa) 16
  let wc := word c + wd
  let wb := rotate (word b ^^^ wc) 12
  let wa := wa + wb
  let wd := rotate (wd ^^^ wa) 8
  let wc := wc + wd
  let wb := rotate (wb ^^^ wc) 7
  (((block.setIfInBounds a wa).setIfInBounds b wb).setIfInBounds c wc).setIfInBounds d wd

/-- The words mixed by the eight quarter rounds of a double round: the columns, then the diagonals. -/
def doubleRoundIndices : List (Nat × Nat × Nat × Nat) :=
  [ (0, 4, 8, 12), (1, 5, 9, 13), (2, 6, 10, 14), (3, 7, 11, 15),
    (0, 5, 10, 15), (1, 6, 11, 12), (2, 7, 8, 13), (3, 4, 9, 14) ]

/-- One round on the columns and one on the diagonals. -/
def doubleRound (block : Array UInt32) : Array UInt32 :=
  doubleRoundIndices.foldl (fun block (a, b, c, d) => quarterRound block a b c d) block

/-- The constant words every block starts with. -/
def constants : List UInt32 := [0x61707865, 0x3320646e, 0x79622d32, 0x6b206574]

/-- The sixteen words of a block. -/
def block (key : List UInt32) (counter : Nat) : Array UInt32 :=
  let start : Array UInt32 :=
    (constants ++ key ++
      [UInt32.ofNat counter, UInt32.ofNat (counter / UInt32.size), 0, 0]).toArray
  let mixed := Nat.repeat doubleRound 6 start
  Array.zipWith (· + ·) start mixed

/-- The next state of the key expansion. -/
def expansionStep (state : UInt64) : UInt64 := state * 6364136223846793005 + 11634580027462260723

/-- The word given out by a state of the key expansion. -/
def expansionWord (state : UInt64) : UInt32 :=
  let word := (((state >>> 18) ^^^ state) >>> 27).toUInt32
  let turn := (state >>> 59).toUInt32
  (word >>> turn) ||| (word <<< ((32 - turn) % 32))

/-- The given number of words of the key expansion. -/
def expandKey : Nat → UInt64 → List UInt32
  | 0, _ => []
  | count + 1, state => expansionWord (expansionStep state) :: expandKey count (expansionStep state)

/-- A stream of words. -/
structure Stream where
  /-- The eight words of the key. -/
  key : List UInt32
  taken : Nat
deriving DecidableEq

namespace Stream

/-- The stream of a seed. -/
def ofSeed (seed : UInt64) : Stream := ⟨expandKey 8 seed, 0⟩

/-- The next word. -/
def next32 (stream : Stream) : UInt32 × Stream :=
  ((block stream.key (stream.taken / 16)).getD (stream.taken % 16) 0,
    { stream with taken := stream.taken + 1 })

/-- The next two words as one, the low half first. -/
def next64 (stream : Stream) : UInt64 × Stream :=
  let (low, stream) := stream.next32
  let (high, stream) := stream.next32
  (low.toUInt64 ||| (high.toUInt64 <<< 32), stream)

end Stream

end QubitRouting.Random
