/-
  This file defines the BLAKE3 hash of a list of bytes.

  The bytes are cut into chunks of 1024 and the chunks into
  blocks of 64.  Each chunk is compressed block by block to a
  chaining value.  The chunks are the leaves of a binary tree
  whose left part is always the largest power of two that
  leaves something on the right; the root node is compressed
  with a flag of its own and gives the digest.  All constants
  are those that the hash is specified with; there is no key,
  and the digest has 32 bytes.

  Key definitions include:
    * `Palimpsest.Blake3.compress`
    * `Palimpsest.Blake3.Node`
    * `Palimpsest.Blake3.chunkNode`
    * `Palimpsest.Blake3.treeNode`
    * `Palimpsest.Blake3.hash`
-/

namespace Palimpsest

namespace Blake3

------------------------------------------------------------
-- Constants
------------------------------------------------------------

/- The chaining value that hashing starts from. -/
def initial : Vector UInt32 8 :=
  #v[0x6a09e667, 0xbb67ae85, 0x3c6ef372, 0xa54ff53a,
     0x510e527f, 0x9b05688c, 0x1f83d9ab, 0x5be0cd19]

/- The order in which a round takes the words of the last. -/
def permutation : Vector (Fin 16) 16 :=
  #v[2, 6, 3, 10, 7, 0, 4, 13, 1, 11, 12, 5, 9, 14, 15, 8]

/- The number of bytes in a block. -/
def blockSize : Nat :=
  64

/- The number of bytes in a chunk. -/
def chunkSize : Nat :=
  1024

/- The flag of the first block of a chunk. -/
def chunkStart : UInt32 :=
  1

/- The flag of the last block of a chunk. -/
def chunkEnd : UInt32 :=
  2

/- The flag of an inner node. -/
def parentFlag : UInt32 :=
  4

/- The flag of the root node. -/
def rootFlag : UInt32 :=
  8

------------------------------------------------------------
-- Compression
------------------------------------------------------------

/- Sixteen words: a block, or the state of a compression. -/
abbrev Words :=
  Vector UInt32 16

/- Rotate a word to the right. -/
def rotateRight (x k : UInt32) : UInt32 :=
  (x >>> k) ||| (x <<< (32 - k))

/- Mix two message words into four words of the state. -/
def mix
    (s : Words)
    (a b c d : Fin 16)
    (x y : UInt32) : Words :=
  let a₁ := s[a] + s[b] + x
  let d₁ := rotateRight (s[d] ^^^ a₁) 16
  let c₁ := s[c] + d₁
  let b₁ := rotateRight (s[b] ^^^ c₁) 12
  let a₂ := a₁ + b₁ + y
  let d₂ := rotateRight (d₁ ^^^ a₂) 8
  let c₂ := c₁ + d₂
  let b₂ := rotateRight (b₁ ^^^ c₂) 7
  (((s.set a a₂).set b b₂).set c c₂).set d d₂

/- Mix the columns and then the diagonals of the state. -/
def round (s m : Words) : Words :=
  let s := mix s 0 4 8 12 m[0] m[1]
  let s := mix s 1 5 9 13 m[2] m[3]
  let s := mix s 2 6 10 14 m[4] m[5]
  let s := mix s 3 7 11 15 m[6] m[7]
  let s := mix s 0 5 10 15 m[8] m[9]
  let s := mix s 1 6 11 12 m[10] m[11]
  let s := mix s 2 7 8 13 m[12] m[13]
  mix s 3 4 9 14 m[14] m[15]

/- The message words in the order of the next round. -/
def permute (m : Words) : Words :=
  permutation.map (fun i => m[i])

/- Run a number of rounds. -/
def rounds : Nat → Words → Words → Words
| 0, s, _ => s
| n + 1, s, m => rounds n (round s m) (permute m)

/- The number of rounds of a compression. -/
def roundCount : Nat :=
  7

/-
  Compress a block into a chaining value.  Only the first half
  of the output is needed for a digest of 32 bytes.
-/
def compress
    (chaining : Vector UInt32 8)
    (block : Words)
    (counter : UInt64)
    (length flags : UInt32) : Vector UInt32 8 :=
  let start : Words := chaining ++
    #v[initial[0], initial[1], initial[2], initial[3],
       counter.toUInt32, (counter >>> 32).toUInt32,
       length, flags]
  let final := rounds roundCount start block
  Vector.ofFn (fun i : Fin 8 =>
    final[i.val] ^^^ final[i.val + 8])

------------------------------------------------------------
-- Words And Bytes
------------------------------------------------------------

/- The word with the given bytes, lowest first. -/
def wordOfBytes (a b c d : UInt8) : UInt32 :=
  a.toUInt32 ||| (b.toUInt32 <<< 8) |||
    (c.toUInt32 <<< 16) ||| (d.toUInt32 <<< 24)

/- The bytes of a word, lowest first. -/
def bytesOfWord (w : UInt32) : List UInt8 :=
  [w.toUInt8, (w >>> 8).toUInt8,
   (w >>> 16).toUInt8, (w >>> 24).toUInt8]

/- The words of a block, padded with zero bytes. -/
def blockWords (bytes : List UInt8) : Words :=
  let padded := bytes.toArray
  Vector.ofFn (fun i : Fin 16 =>
    wordOfBytes (padded.getD (4 * i) 0)
      (padded.getD (4 * i + 1) 0)
      (padded.getD (4 * i + 2) 0)
      (padded.getD (4 * i + 3) 0))

/- The words of two chaining values, one after the other. -/
def joinedWords (left right : Vector UInt32 8) : Words :=
  left ++ right

------------------------------------------------------------
-- The Tree
------------------------------------------------------------

/-
  A node of the tree before its last compression, which
  depends on whether the node is the root.
-/
structure Node where
  chaining : Vector UInt32 8
  block : Words
  counter : UInt64
  length : UInt32
  flags : UInt32

namespace Node

/- The chaining value that a node passes to its parent. -/
def value (n : Node) : Vector UInt32 8 :=
  compress n.chaining n.block n.counter n.length n.flags

/- The digest that a node gives as the root. -/
def digest (n : Node) : List UInt8 :=
  (compress n.chaining n.block n.counter n.length
    (n.flags ||| rootFlag)).toList.flatMap bytesOfWord

end Node

/- Cut a list into parts of a given positive size. -/
def cut
    (size : Nat)
    (bytes : List UInt8) : List (List UInt8) :=
  if size = 0 ∨ bytes.drop size = [] then
    [bytes]
  else
    bytes.take size :: cut size (bytes.drop size)
termination_by bytes.length
decreasing_by
  rename_i h
  simp only [List.drop_eq_nil_iff, not_or] at h
  simp only [List.length_drop]
  omega

/- The node of a chunk, given the blocks still to compress. -/
def chunkNodeFrom
    (counter : UInt64)
    (chaining : Vector UInt32 8)
    (flags : UInt32) : List (List UInt8) → Node
| [] =>
    ⟨chaining, blockWords [], counter, 0, flags ||| chunkEnd⟩
| [block] =>
    ⟨chaining, blockWords block, counter,
      block.length.toUInt32, flags ||| chunkEnd⟩
| block :: rest =>
    chunkNodeFrom counter
      (compress chaining (blockWords block) counter
        blockSize.toUInt32 flags)
      0 rest

/- The node of the chunk with the given number. -/
def chunkNode
    (counter : Nat)
    (bytes : List UInt8) : Node :=
  chunkNodeFrom counter.toUInt64 initial chunkStart
    (cut blockSize bytes)

/- The node above two subtrees. -/
def parentNode (left right : Node) : Node :=
  ⟨initial, joinedWords left.value right.value, 0,
    blockSize.toUInt32, parentFlag⟩

/- The largest power of two below a number above one. -/
def leftSize (count : Nat) : Nat :=
  1 <<< (count - 1).log2

/- The left part of a tree leaves something on the right. -/
theorem leftSize_lt
    {count : Nat}
    (h : 2 ≤ count) :
    leftSize count < count := by
  have hLe := Nat.log2_self_le
    (show count - 1 ≠ 0 by omega)
  unfold leftSize
  rw [Nat.one_shiftLeft]
  omega

/- The left part of a tree is not empty. -/
theorem leftSize_pos (count : Nat) : 0 < leftSize count := by
  unfold leftSize
  rw [Nat.one_shiftLeft]
  exact Nat.two_pow_pos _

/-
  The node above the given chunks, the first of which has the
  given number.
-/
def treeNode
    (counter : Nat) : List (List UInt8) → Node
| [] => chunkNode counter []
| [chunk] => chunkNode counter chunk
| first :: second :: rest =>
    let chunks := first :: second :: rest
    let left := leftSize chunks.length
    parentNode
      (treeNode counter (chunks.take left))
      (treeNode (counter + left) (chunks.drop left))
termination_by chunks => chunks.length
decreasing_by
  · have h := leftSize_lt
      (show 2 ≤ (first :: second :: rest).length by simp)
    simp only [List.length_take]
    omega
  · have h := leftSize_pos (first :: second :: rest).length
    simp only [List.length_drop]
    simp only [List.length_cons] at h ⊢
    omega

/- The digest of a list of bytes: 32 bytes. -/
def hash (bytes : List UInt8) : List UInt8 :=
  (treeNode 0 (cut chunkSize bytes)).digest

/- A digest has 32 bytes. -/
@[simp]
theorem length_hash (bytes : List UInt8) :
    (hash bytes).length = 32 := by
  simp [hash, Node.digest, bytesOfWord, List.length_flatMap,
    List.map_const']

end Blake3

end Palimpsest
