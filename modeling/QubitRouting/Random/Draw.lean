import QubitRouting.Random.Stream

/-!
# Draws

Uniform draws from a stream of words: numbers below a bound, coin tosses, fractions and shuffles.
-/

namespace QubitRouting.Random

/-- Draw words until one scales evenly to the bound, and scale it. The product of a word and the bound
is refused when its lower half exceeds `zone`; at least half of all words are accepted, so the number
of draws allowed, the first argument, is never used up in practice. -/
def scaledBelow (bound zone : Nat) : Nat → Stream → Nat × Stream
  | 0, stream => (0, stream)
  | draws + 1, stream =>
    let (word, stream) := stream.next32
    let product := word.toNat * bound
    if product % UInt32.size ≤ zone then (product / UInt32.size, stream)
    else scaledBelow bound zone draws stream

/-- The largest lower half that is accepted: the bound, shifted left until its top bit is set, less
one. -/
def acceptedZone (bound : Nat) : Nat := bound * Nat.pow 2 (31 - Nat.log2 bound) - 1

/-- A number below the bound, which is positive and fits 32 bits. -/
def below (bound : Nat) (stream : Stream) : Nat × Stream :=
  scaledBelow bound (acceptedZone bound) 1024 stream

/-- A fair coin. -/
def coin (stream : Stream) : Bool × Stream :=
  let (word, stream) := stream.next64
  (word < 0x8000000000000000, stream)

/-- A fraction between zero and one, by 52 random bits, scaled to the bound. -/
def fractionOf (bound : Float) (stream : Stream) : Float × Stream :=
  let (word, stream) := stream.next64
  let fraction := Float.ofBits ((0x3ff0000000000000 : UInt64) ||| (word >>> 12)) - 1.0
  (fraction * bound + 0.0, stream)

/-- Exchange two entries of an array. -/
def exchange (items : Array Nat) (i j : Nat) : Array Nat :=
  match items[i]?, items[j]? with
  | some x, some y => (items.setIfInBounds i y).setIfInBounds j x
  | _, _ => items

/-- Exchange each of the entries at `place`, …, `1` with a random one up to it. -/
def shuffleFrom : Nat → Array Nat → Stream → Array Nat × Stream
  | 0, items, stream => (items, stream)
  | place + 1, items, stream =>
    let (other, stream) := below (place + 2) stream
    shuffleFrom place (exchange items (place + 1) other) stream

/-- A random order of the numbers below a bound. -/
def shuffledRange (count : Nat) (stream : Stream) : List Nat × Stream :=
  let (items, stream) := shuffleFrom (count - 1) (Array.range count) stream
  (items.toList, stream)

end QubitRouting.Random
