/-! DEFLATE: compressed data as blocks of literal bytes and of copies of earlier ones. -/
namespace TagSearch.Png

/-- Data that is read bit by bit, from the lowest bit of each byte on. -/
structure Bits where
  data : ByteArray
  position : Nat

namespace Bits

def bit? (b : Bits) : Option (Nat × Bits) :=
  (b.data[b.position / 8]?).map fun byte =>
    ((byte.toNat >>> (b.position % 8)) % 2, { b with position := b.position + 1 })

/-- A number of some bits, the lowest first. -/
def take? (b : Bits) : Nat → Option (Nat × Bits)
  | 0 => some (0, b)
  | count + 1 => do
    let (low, b) ← b.bit?
    let (high, b) ← b.take? count
    return (low + 2 * high, b)

def align (b : Bits) : Bits := { b with position := (b.position + 7) / 8 * 8 }

end Bits

/-- A code in which shorter words come first, and words of one length in the order of their symbols. -/
structure Code where
  /-- How many words have each length. -/
  counts : Array Nat
  /-- The symbols in the order of their words. -/
  symbols : Array Nat

namespace Code

def maxLength : Nat := 15

/-- The code in which each symbol has the given length; a symbol of length 0 has no word. -/
def ofLengths (lengths : List Nat) : Code :=
  let ofLength (length : Nat) : List Nat := (lengths.zipIdx.filter fun s => s.1 = length).map Prod.snd
  let lists := (List.range (maxLength + 1)).map fun length => if length = 0 then [] else ofLength length
  ⟨(lists.map List.length).toArray, (lists.flatMap id).toArray⟩

/-- Read on from a word of some length; `first` is the first word of that length, and `index` counts shorter ones. -/
def readFrom (c : Code) (word first index : Nat) (bits : Bits) : Nat → List Nat → Option (Nat × Bits)
  | _, [] => none
  | length, _ :: rest => do
    let (bit, bits) ← bits.bit?
    let word := 2 * word + bit
    let first := 2 * first
    let count := c.counts[length]?.getD 0
    if word < first + count then
      let symbol ← c.symbols[index + (word - first)]?
      return (symbol, bits)
    else c.readFrom word (first + count) (index + count) bits (length + 1) rest

def read (c : Code) (bits : Bits) : Option (Nat × Bits) :=
  c.readFrom 0 0 0 bits 1 (List.range maxLength)

end Code

/-- The least length of each symbol of a copy, and its number of further bits. -/
def copyLengths : Array (Nat × Nat) :=
  #[(3, 0), (4, 0), (5, 0), (6, 0), (7, 0), (8, 0), (9, 0), (10, 0), (11, 1), (13, 1), (15, 1), (17, 1), (19, 2),
    (23, 2), (27, 2), (31, 2), (35, 3), (43, 3), (51, 3), (59, 3), (67, 4), (83, 4), (99, 4), (115, 4), (131, 5),
    (163, 5), (195, 5), (227, 5), (258, 0)]

/-- The least distance of each symbol of a copy, and its number of further bits. -/
def copyDistances : Array (Nat × Nat) :=
  #[(1, 0), (2, 0), (3, 0), (4, 0), (5, 1), (7, 1), (9, 2), (13, 2), (17, 3), (25, 3), (33, 4), (49, 4), (65, 5),
    (97, 5), (129, 6), (193, 6), (257, 7), (385, 7), (513, 8), (769, 8), (1025, 9), (1537, 9), (2049, 10),
    (3073, 10), (4097, 11), (6145, 11), (8193, 12), (12289, 12), (16385, 13), (24577, 13)]

/-- A number from its least value and further bits. -/
def extended? (table : Array (Nat × Nat)) (symbol : Nat) (bits : Bits) : Option (Nat × Bits) := do
  let (least, count) ← table[symbol]?
  let (more, bits) ← bits.take? count
  return (least + more, bits)

/-- Copy bytes that stand some way back; a copy may reach into itself. -/
def copyBack (output : ByteArray) (distance : Nat) : Nat → Option ByteArray
  | 0 => some output
  | count + 1 => do
    if distance = 0 ∨ output.size < distance then none
    else copyBack (output.push (← output[output.size - distance]?)) distance count

/-- The symbols of a block up to its end. -/
def readSymbols (literals distances : Code) : Nat → Bits → ByteArray → Option (Bits × ByteArray)
  | 0, _, _ => none
  | fuel + 1, bits, output => do
    let (symbol, bits) ← literals.read bits
    if symbol < 256 then readSymbols literals distances fuel bits (output.push (UInt8.ofNat symbol))
    else if symbol = 256 then return (bits, output)
    else
      let (length, bits) ← extended? copyLengths (symbol - 257) bits
      let (symbol, bits) ← distances.read bits
      let (distance, bits) ← extended? copyDistances symbol bits
      readSymbols literals distances fuel bits (← copyBack output distance length)

def fixedLiterals : Code :=
  .ofLengths (List.replicate 144 8 ++ List.replicate 112 9 ++ List.replicate 24 7 ++ List.replicate 8 8)

def fixedDistances : Code := .ofLengths (List.replicate 30 5)

/-- The order in which the lengths of the code for lengths are written. -/
def lengthOrder : List Nat := [16, 17, 18, 0, 8, 7, 9, 6, 10, 5, 11, 4, 12, 3, 13, 2, 14, 1, 15]

def readTriples : Nat → Bits → Option (List Nat × Bits)
  | 0, bits => some ([], bits)
  | count + 1, bits => do
    let (n, bits) ← bits.take? 3
    let (rest, bits) ← readTriples count bits
    return (n :: rest, bits)

/-- The lengths of words up to the given number of them; 16 repeats the last one, 17 and 18 repeat 0. -/
def readLengths (code : Code) (total : Nat) : Nat → List Nat → Bits → Option (List Nat × Bits)
  | 0, _, _ => none
  | fuel + 1, lengths, bits =>
    if lengths.length = total then some (lengths, bits)
    else if total < lengths.length then none
    else do
      let (symbol, bits) ← code.read bits
      if symbol < 16 then readLengths code total fuel (lengths ++ [symbol]) bits
      else if symbol = 16 then
        let last ← lengths.getLast?
        let (more, bits) ← bits.take? 2
        readLengths code total fuel (lengths ++ List.replicate (3 + more) last) bits
      else
        let (more, bits) ← bits.take? (if symbol = 17 then 3 else 7)
        readLengths code total fuel (lengths ++ List.replicate ((if symbol = 17 then 3 else 11) + more) 0) bits

/-- The codes that a block brings along. -/
def readCodes (bits : Bits) : Option ((Code × Code) × Bits) := do
  let (literals, bits) ← bits.take? 5
  let (distances, bits) ← bits.take? 5
  let (count, bits) ← bits.take? 4
  let (triples, bits) ← readTriples (count + 4) bits
  let lengths := (List.range 19).map fun symbol =>
    ((lengthOrder.zip triples).find? fun entry => entry.1 = symbol).elim 0 Prod.snd
  let total := literals + 257 + (distances + 1)
  let (all, bits) ← readLengths (.ofLengths lengths) total (total + 1) [] bits
  return ((.ofLengths (all.take (literals + 257)), .ofLengths (all.drop (literals + 257))), bits)

/-- A block without compression. -/
def readStored (bits : Bits) (output : ByteArray) : Option (Bits × ByteArray) := do
  let (length, bits) ← bits.align.take? 16
  let (check, bits) ← bits.take? 16
  let start := bits.position / 8
  if length + check ≠ 65535 ∨ bits.data.size < start + length then none
  else return ({ bits with position := bits.position + 8 * length }, output ++ bits.data.extract start (start + length))

def readBlocks : Nat → Bits → ByteArray → Option ByteArray
  | 0, _, _ => none
  | fuel + 1, bits, output => do
    let (last, bits) ← bits.take? 1
    let (kind, bits) ← bits.take? 2
    let symbols := 8 * bits.data.size + 1
    let (bits, output) ←
      if kind = 0 then readStored bits output
      else if kind = 1 then readSymbols fixedLiterals fixedDistances symbols bits output
      else if kind = 2 then do
        let ((literals, distances), bits) ← readCodes bits
        readSymbols literals distances symbols bits output
      else none
    if last = 1 then return output else readBlocks fuel bits output

/-- The data that a stream with its two bytes in front holds. -/
def inflate? (data : ByteArray) : Option ByteArray := do
  let method ← data[0]?
  let flags ← data[1]?
  if method.toNat % 16 ≠ 8 ∨ (256 * method.toNat + flags.toNat) % 31 ≠ 0 ∨ flags.toNat / 32 % 2 = 1 then none
  else readBlocks (8 * data.size + 1) ⟨data, 16⟩ ByteArray.empty

end TagSearch.Png
