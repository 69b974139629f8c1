/-! Pairs of perceptual hashes and how far apart they are. -/
namespace TagSearch

/-- The gradient hashes of an image along its rows and along its columns. -/
structure HashPair where
  horizontal : UInt64
  vertical : UInt64
deriving Repr, DecidableEq

def bitCount (w : UInt64) : Nat :=
  (List.range 64).countP fun i => w.toNat.testBit i

/-- The number of bits in which two hashes differ. -/
def hamming (a b : UInt64) : Nat := bitCount (a ^^^ b)

/-- The distances of both halves together, at most 128. -/
def HashPair.distance (p q : HashPair) : Nat :=
  hamming p.horizontal q.horizontal + hamming p.vertical q.vertical

/-- Both hashes in decimal with a point between them. -/
def HashPair.render (p : HashPair) : String :=
  toString p.horizontal ++ "." ++ toString p.vertical

@[simp] theorem hamming_self (a : UInt64) : hamming a a = 0 := by
  simp [hamming, bitCount]

@[simp] theorem HashPair.distance_self (p : HashPair) : p.distance p = 0 := by
  simp [HashPair.distance]

end TagSearch
