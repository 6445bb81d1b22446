/-!
# BLAKE3

The BLAKE3 hash of a byte string. Chunks of at most 1024 bytes are chained block by block, and the
chaining values of the chunks are joined pairwise in a tree whose left parts are as large a power
of two as leaves something to the right. The last compression, at the root, yields the digest.

The state of a compression is sixteen words of 32 bits, and arithmetic on words wraps around. A
message of sixteen words is mixed into it in seven rounds, with the words permuted between them.
Flags tell the first and the last block of a chunk, a parent and the root. There is no key and no
mode of derivation, and no more than the first thirty-two bytes of the output are computed, as a
digest takes only a part of these.
-/

namespace TransitQuery

namespace Blake3

/-- Sixteen words of state or message, or eight words of a chaining value. -/
abbrev Words := Array UInt32

/-- The word at an index. -/
def word (w : Words) (i : Nat) : UInt32 :=
  w.getD i 0

/-- The initial chaining value. -/
def initial : Words :=
  #[0x6A09E667, 0xBB67AE85, 0x3C6EF372, 0xA54FF53A, 0x510E527F, 0x9B05688C, 0x1F83D9AB,
    0x5BE0CD19]

/-- Where each word of the next round's message stands in this round's. -/
def schedule : List Nat :=
  [2, 6, 3, 10, 7, 0, 4, 13, 1, 11, 12, 5, 9, 14, 15, 8]

/-- Rotation of a word towards its low end. -/
def rotateRight (w n : UInt32) : UInt32 :=
  (w >>> n) ||| (w <<< (32 - n))

/-- Mixes two message words into four words of the state. -/
def mix (s : Words) (a b c d : Nat) (x y : UInt32) : Words :=
  let va := word s a + word s b + x
  let vd := rotateRight (word s d ^^^ va) 16
  let vc := word s c + vd
  let vb := rotateRight (word s b ^^^ vc) 12
  let va := va + vb + y
  let vd := rotateRight (vd ^^^ va) 8
  let vc := vc + vd
  let vb := rotateRight (vb ^^^ vc) 7
  (((s.setIfInBounds a va).setIfInBounds b vb).setIfInBounds c vc).setIfInBounds d vd

/-- Mixes the message into the columns of the state and then into its diagonals. -/
def mixRound (s m : Words) : Words :=
  let s := mix s 0 4 8 12 (word m 0) (word m 1)
  let s := mix s 1 5 9 13 (word m 2) (word m 3)
  let s := mix s 2 6 10 14 (word m 4) (word m 5)
  let s := mix s 3 7 11 15 (word m 6) (word m 7)
  let s := mix s 0 5 10 15 (word m 8) (word m 9)
  let s := mix s 1 6 11 12 (word m 10) (word m 11)
  let s := mix s 2 7 8 13 (word m 12) (word m 13)
  mix s 3 4 9 14 (word m 14) (word m 15)

/-- The message of the next round. -/
def permute (m : Words) : Words :=
  (schedule.map (word m)).toArray

/-- Rounds of mixing with a message permuted between them. -/
def mixRounds : Nat → Words → Words → Words
  | 0, s, _ => s
  | n + 1, s, m => mixRounds n (mixRound s m) (permute m)

/-- A compression that is still to be made: what it takes but for the flags. -/
structure Node where
  chaining : Words
  message : Words
  counter : Nat
  length : Nat
  flags : UInt32

def flagChunkStart : UInt32 := 1
def flagChunkEnd : UInt32 := 2
def flagParent : UInt32 := 4
def flagRoot : UInt32 := 8

/-- Compresses a block under extra flags to a chaining value. -/
def Node.compress (n : Node) (extra : UInt32) : Words :=
  let state := n.chaining ++ initial.extract 0 4 ++
    #[UInt32.ofNat n.counter, UInt32.ofNat (n.counter >>> 32), UInt32.ofNat n.length,
      n.flags ||| extra]
  let s := mixRounds 7 state n.message
  ((List.range 8).map fun i => word s i ^^^ word s (i + 8)).toArray

/-- Four bytes as a word, lowest first. -/
def wordOfBytes (a b c d : UInt8) : UInt32 :=
  a.toUInt32 ||| (b.toUInt32 <<< 8) ||| (c.toUInt32 <<< 16) ||| (d.toUInt32 <<< 24)

/-- The words of a block, which is filled up with zero bytes. -/
def wordsOfBytes : List UInt8 → List UInt32
  | a :: b :: c :: d :: rest => wordOfBytes a b c d :: wordsOfBytes rest
  | [] => []
  | [a] => [wordOfBytes a 0 0 0]
  | [a, b] => [wordOfBytes a b 0 0]
  | [a, b, c] => [wordOfBytes a b c 0]

/-- Cuts a list into pieces of a length, of which the last may be shorter. -/
def pieces (size fuel : Nat) (bytes : List UInt8) : List (List UInt8) :=
  match fuel with
  | 0 => []
  | fuel + 1 =>
    if bytes.length ≤ size then [bytes]
    else bytes.take size :: pieces size fuel (bytes.drop size)

/-- The blocks of a chunk: the last one is left to be compressed. -/
def chunkNode (counter : Nat) (flags : UInt32) (chaining : Words) : List (List UInt8) → Node
  | [] => ⟨chaining, #[], counter, 0, flags ||| flagChunkEnd⟩
  | [block] =>
    ⟨chaining, (wordsOfBytes block).toArray, counter, block.length, flags ||| flagChunkEnd⟩
  | block :: rest =>
    let node : Node := ⟨chaining, (wordsOfBytes block).toArray, counter, block.length, flags⟩
    chunkNode counter 0 (node.compress 0) rest

/-- The last compression of the chunk with a number. -/
def nodeOfChunk (counter : Nat) (chunk : List UInt8) : Node :=
  chunkNode counter flagChunkStart initial (pieces 64 16 chunk)

/-- The largest power of two below a number greater than one. -/
def leftCount (n : Nat) : Nat :=
  1 <<< (n - 1).log2

/-- The last compression of a tree over chunks that are numbered from `counter`. -/
def nodeOfTree (fuel counter : Nat) (chunks : List (List UInt8)) : Node :=
  match fuel, chunks with
  | _, [chunk] => nodeOfChunk counter chunk
  | fuel + 1, chunks@(_ :: _) =>
    let left := leftCount chunks.length
    let l := nodeOfTree fuel counter (chunks.take left)
    let r := nodeOfTree fuel (counter + left) (chunks.drop left)
    ⟨initial, l.compress 0 ++ r.compress 0, 0, 64, flagParent⟩
  | _, _ => nodeOfChunk counter []

/-- The four bytes of a word, lowest first. -/
def bytesOfWord (w : UInt32) : List UInt8 :=
  [w.toUInt8, (w >>> 8).toUInt8, (w >>> 16).toUInt8, (w >>> 24).toUInt8]

/-- The hash of a byte string, thirty-two bytes. -/
def hash (bytes : List UInt8) : List UInt8 :=
  let chunks := pieces 1024 (bytes.length / 1024 + 1) bytes
  let root := nodeOfTree chunks.length 0 chunks
  ((root.compress flagRoot).toList).flatMap bytesOfWord

end Blake3

end TransitQuery
