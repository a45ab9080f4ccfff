/-
# Inflating

Compressed data is a sequence of blocks, read bit by bit with the lowest bit of every byte first.
A block holds plain bytes, or symbols of two prefix codes: a symbol of the first code is a byte,
the end of the block, or the length of a piece of the output to repeat, whose distance is then a
symbol of the second code.
-/

namespace SourceBundle.Archive

/-- A sequence of bits. -/
abbrev Bits := List Bool

namespace Bits

/-- The bits of some bytes. -/
def ofBytes (bytes : List UInt8) : Bits :=
  bytes.flatMap fun b => (List.range 8).map b.toNat.testBit

/-- Read a number of some bits, the lowest one first. -/
def number : Nat → Bits → Option (Nat × Bits)
  | 0, bits => some (0, bits)
  | _ + 1, [] => none
  | n + 1, b :: bits => do
    let (v, rest) ← number n bits
    pure (b.toNat + 2 * v, rest)

/-- Read several numbers of equally many bits. -/
def numbers (width : Nat) : Nat → Bits → Option (List Nat × Bits)
  | 0, bits => some ([], bits)
  | count + 1, bits => do
    let (v, bits) ← number width bits
    let (vs, bits) ← numbers width count bits
    pure (v :: vs, bits)

/-- What is left after the byte that has been begun. -/
def aligned (bits : Bits) : Bits := bits.drop (bits.length % 8)

end Bits

/-! ## Prefix codes -/

/-- A prefix code in which shorter words come first, and words of one length are in the order of
their symbols. -/
structure PrefixCode where
  /-- The number of words of one bit, of two bits, and so on. -/
  counts : List Nat
  /-- The symbols in the order of their words. -/
  symbols : Array Nat

namespace PrefixCode

/-- The most bits of a word. -/
def longest : Nat := 15

/-- The code in which the word of every symbol has a given length; zero for a symbol without a
word. -/
def ofLengths (lengths : List Nat) : PrefixCode :=
  let widths := (List.range longest).map (· + 1)
  { counts := widths.map lengths.count
    symbols := (widths.flatMap fun w =>
      lengths.zipIdx.filterMap fun (l, symbol) => if l = w then some symbol else none).toArray }

/-- Read a symbol, going through the lengths of words: `code` is twice the word read so far, `first`
the first word of the length, and `index` the number of shorter words. -/
def decodeFrom (symbols : Array Nat) : List Nat → Nat → Nat → Nat → Bits → Option (Nat × Bits)
  | [], _, _, _, _ => none
  | _ :: _, _, _, _, [] => none
  | count :: counts, code, first, index, b :: bits =>
    let code := code + b.toNat
    if code < first + count then
      symbols[index + (code - first)]?.map fun symbol => (symbol, bits)
    else decodeFrom symbols counts (2 * code) (2 * (first + count)) (index + count) bits

/-- Read a symbol. -/
def decode (c : PrefixCode) (bits : Bits) : Option (Nat × Bits) :=
  decodeFrom c.symbols c.counts 0 0 0 bits

end PrefixCode

/-! ## Blocks -/

/-- The least lengths that the length symbols stand for, with the number of further bits. -/
def lengthSteps : List (Nat × Nat) :=
  [(3, 0), (4, 0), (5, 0), (6, 0), (7, 0), (8, 0), (9, 0), (10, 0), (11, 1), (13, 1), (15, 1),
    (17, 1), (19, 2), (23, 2), (27, 2), (31, 2), (35, 3), (43, 3), (51, 3), (59, 3), (67, 4),
    (83, 4), (99, 4), (115, 4), (131, 5), (163, 5), (195, 5), (227, 5), (258, 0)]

/-- The least distances that the distance symbols stand for, with the number of further bits. -/
def distanceSteps : List (Nat × Nat) :=
  [(1, 0), (2, 0), (3, 0), (4, 0), (5, 1), (7, 1), (9, 2), (13, 2), (17, 3), (25, 3), (33, 4),
    (49, 4), (65, 5), (97, 5), (129, 6), (193, 6), (257, 7), (385, 7), (513, 8), (769, 8),
    (1025, 9), (1537, 9), (2049, 10), (3073, 10), (4097, 11), (6145, 11), (8193, 12), (12289, 12),
    (16385, 13), (24577, 13)]

/-- Read the number that the symbol of a step stands for. -/
def readStep (steps : List (Nat × Nat)) (symbol : Nat) (bits : Bits) : Option (Nat × Bits) := do
  let (least, width) ← steps[symbol]?
  let (more, bits) ← bits.number width
  pure (least + more, bits)

/-- Repeat a piece of the output that begins at a distance from its end. -/
def repeatPiece (distance : Nat) : Nat → Array UInt8 → Option (Array UInt8)
  | 0, out => some out
  | length + 1, out => do
    if distance = 0 ∨ out.size < distance then none
    else
      let b ← out[out.size - distance]?
      repeatPiece distance length (out.push b)

/-- Read the symbols of a block.  Every one takes at least one bit, of which there are at most as
many as the first argument says. -/
def readSymbols (literals distances : PrefixCode) :
    Nat → Array UInt8 → Bits → Option (Array UInt8 × Bits)
  | 0, _, _ => none
  | limit + 1, out, bits => do
    let (symbol, bits) ← literals.decode bits
    if symbol < 256 then readSymbols literals distances limit (out.push (UInt8.ofNat symbol)) bits
    else if symbol = 256 then pure (out, bits)
    else
      let (length, bits) ← readStep lengthSteps (symbol - 257) bits
      let (symbol, bits) ← distances.decode bits
      let (distance, bits) ← readStep distanceSteps symbol bits
      let out ← repeatPiece distance length out
      readSymbols literals distances limit out bits

/-- Read a block of plain bytes. -/
def readStored (out : Array UInt8) (bits : Bits) : Option (Array UInt8 × Bits) := do
  let (length, bits) ← bits.aligned.number 16
  let (complement, bits) ← bits.number 16
  if length + complement ≠ 0xFFFF then none
  else
    let (bytes, bits) ← bits.numbers 8 length
    pure (bytes.foldl (fun out b => out.push (UInt8.ofNat b)) out, bits)

/-- The codes of blocks that bring none of their own. -/
def fixedCodes : PrefixCode × PrefixCode :=
  (.ofLengths (List.replicate 144 8 ++ List.replicate 112 9 ++ List.replicate 24 7 ++
      List.replicate 8 8),
    .ofLengths (List.replicate 30 5))

/-- The order in which the lengths of the words for word lengths are given. -/
def lengthOrder : List Nat := [16, 17, 18, 0, 8, 7, 9, 6, 10, 5, 11, 4, 12, 3, 13, 2, 14, 1, 15]

/-- Read the lengths of the words of a block's codes; those read so far come reversed. -/
def readLengths (code : PrefixCode) (wanted : Nat) : Nat → List Nat → Bits → Option (List Nat × Bits)
  | 0, lengths, bits => if lengths.length = wanted then some (lengths.reverse, bits) else none
  | limit + 1, lengths, bits =>
    if wanted ≤ lengths.length then
      if lengths.length = wanted then some (lengths.reverse, bits) else none
    else do
      let (symbol, bits) ← code.decode bits
      if symbol < 16 then readLengths code wanted limit (symbol :: lengths) bits
      else if symbol = 16 then
        let last ← lengths.head?
        let (n, bits) ← bits.number 2
        readLengths code wanted limit (List.replicate (n + 3) last ++ lengths) bits
      else
        let (n, bits) ← if symbol = 17 then bits.number 3 else bits.number 7
        let zeros := if symbol = 17 then n + 3 else n + 11
        readLengths code wanted limit (List.replicate zeros 0 ++ lengths) bits

/-- Read the codes that a block brings. -/
def readCodes (bits : Bits) : Option ((PrefixCode × PrefixCode) × Bits) := do
  let (literals, bits) ← bits.number 5
  let (distances, bits) ← bits.number 5
  let (given, bits) ← bits.number 4
  let (widths, bits) ← bits.numbers 3 (given + 4)
  let order := lengthOrder.zip widths
  let code := PrefixCode.ofLengths ((List.range 19).map fun s => (order.lookup s).getD 0)
  let wanted := literals + 257 + (distances + 1)
  let (lengths, bits) ← readLengths code wanted wanted [] bits
  pure ((.ofLengths (lengths.take (literals + 257)), .ofLengths (lengths.drop (literals + 257))), bits)

/-- Read blocks up to the last one. -/
def readBlocks : Nat → Array UInt8 → Bits → Option (Array UInt8 × Bits)
  | 0, _, _ => none
  | limit + 1, out, bits => do
    let (isLast, bits) ← bits.number 1
    let (kind, bits) ← bits.number 2
    let (out, bits) ←
      if kind = 0 then readStored out bits
      else if kind = 1 then readSymbols fixedCodes.1 fixedCodes.2 (bits.length + 1) out bits
      else if kind = 2 then do
        let (codes, bits) ← readCodes bits
        readSymbols codes.1 codes.2 (bits.length + 1) out bits
      else none
    if isLast = 1 then pure (out, bits) else readBlocks limit out bits

/-- Inflate data: the output, and the number of bytes that are left behind the data. -/
def inflate (bytes : List UInt8) : Option (List UInt8 × Nat) := do
  let bits := Bits.ofBytes bytes
  let (out, rest) ← readBlocks (bits.length + 1) #[] bits
  pure (out.toList, rest.length / 8)

end SourceBundle.Archive
