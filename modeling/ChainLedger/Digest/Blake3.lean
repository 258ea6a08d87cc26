import ChainLedger.Bytes

/-!
# BLAKE3

The unkeyed hash with 32 bytes of output. The message is cut into chunks of 1024
bytes, each a chain of 64-byte blocks, and the chunks are the leaves of a binary
tree whose left subtrees are full and as large as possible. The last compression,
at the root, is marked as such and gives the digest.
-/

namespace ChainLedger.Digest.Blake3

/-! ## Compression -/

/-- The eight words that one compression hands to the next. -/
abbrev ChainingValue := Vector UInt32 8

/-- Sixteen words: a message block or the working state. -/
abbrev Block := Vector UInt32 16

def initialValue : ChainingValue :=
  #v[0x6a09e667, 0xbb67ae85, 0x3c6ef372, 0xa54ff53a, 0x510e527f, 0x9b05688c, 0x1f83d9ab, 0x5be0cd19]

/-- Where each word of the next round's message is taken from. -/
def permutation : Vector (Fin 16) 16 :=
  #v[2, 6, 3, 10, 7, 0, 4, 13, 1, 11, 12, 5, 9, 14, 15, 8]

/-- Domain separation flags. -/
def chunkStart : UInt32 := 1
def chunkEnd : UInt32 := 2
def parent : UInt32 := 4
def root : UInt32 := 8

def rotateRight (w : UInt32) (n : UInt32) : UInt32 := (w >>> n) ||| (w <<< (32 - n))

/-- Mixes two message words into a column or a diagonal of the state. -/
def mix (v : Block) (a b c d : Fin 16) (x y : UInt32) : Block :=
  let v := v.set a (v[a] + v[b] + x)
  let v := v.set d (rotateRight (v[d] ^^^ v[a]) 16)
  let v := v.set c (v[c] + v[d])
  let v := v.set b (rotateRight (v[b] ^^^ v[c]) 12)
  let v := v.set a (v[a] + v[b] + y)
  let v := v.set d (rotateRight (v[d] ^^^ v[a]) 8)
  let v := v.set c (v[c] + v[d])
  v.set b (rotateRight (v[b] ^^^ v[c]) 7)

/-- One round: the four columns, then the four diagonals. -/
def round (v m : Block) : Block :=
  let v := mix v 0 4 8 12 m[0] m[1]
  let v := mix v 1 5 9 13 m[2] m[3]
  let v := mix v 2 6 10 14 m[4] m[5]
  let v := mix v 3 7 11 15 m[6] m[7]
  let v := mix v 0 5 10 15 m[8] m[9]
  let v := mix v 1 6 11 12 m[10] m[11]
  let v := mix v 2 7 8 13 m[12] m[13]
  mix v 3 4 9 14 m[14] m[15]

/-- The state after `n` rounds, the message permuted after each. -/
def rounds : (n : Nat) → (v m : Block) → Block
  | 0, v, _ => v
  | n + 1, v, m => rounds n (round v m) (permutation.map fun i => m[i])

/-- A compression that is still to be run: at the root it runs with one more flag. -/
structure Node where
  chaining : ChainingValue
  block : Block
  counter : UInt64
  blockLength : UInt32
  flags : UInt32

/-- The chaining value of a node that is run with the given further flags. -/
def Node.value (node : Node) (further : UInt32) : ChainingValue :=
  let start : Block := (node.chaining ++ (#v[initialValue[0], initialValue[1], initialValue[2],
    initialValue[3], node.counter.toUInt32, (node.counter >>> 32).toUInt32, node.blockLength,
    node.flags ||| further] : ChainingValue)).cast rfl
  let v := rounds 7 start node.block
  Vector.ofFn fun i => v[i.val] ^^^ v[i.val + 8]

/-! ## Chunks and the tree -/

/-- The words of a block, filled up with zeros. -/
def blockOf (bytes : Bytes) : Block :=
  let words := ((chunks 4 bytes).map fun b => UInt32.ofNat (ofLittleEndian b)).toArray
  Vector.ofFn fun i => words.getD i.val 0

/-- The last node of a chunk, from the chaining value and start flag of its next block. -/
def chunkFrom (counter : UInt64) (chaining : ChainingValue) (start : UInt32) (bytes : Bytes) : Node :=
  if bytes.length ≤ 64 then
    ⟨chaining, blockOf bytes, counter, UInt32.ofNat bytes.length, start ||| chunkEnd⟩
  else
    let node : Node := ⟨chaining, blockOf (bytes.take 64), counter, 64, start⟩
    chunkFrom counter (node.value 0) 0 (bytes.drop 64)
termination_by bytes.length
decreasing_by simp only [List.length_drop]; omega

/-- The last node of the chunk with the given position. -/
def chunkNode (position : Nat) (bytes : Bytes) : Node :=
  chunkFrom (UInt64.ofNat position) initialValue chunkStart bytes

/-- The node over two subtrees. -/
def parentNode (left right : ChainingValue) : Node :=
  ⟨initialValue, (left ++ right).cast rfl, 0, 64, parent⟩

/-- Bytes in the left subtree of a message of more than one chunk: the largest power of
two times the chunk size that leaves something over. -/
def leftSize (size : Nat) : Nat := 1 <<< (size - 1).log2

theorem leftSize_pos (size : Nat) : 0 < leftSize size := by
  rw [leftSize, Nat.one_shiftLeft]
  exact Nat.two_pow_pos _

theorem leftSize_lt {size : Nat} (large : 1024 < size) : leftSize size < size := by
  have below : 1 <<< (size - 1).log2 ≤ size - 1 := by
    rw [Nat.one_shiftLeft]
    exact Nat.log2_self_le (by omega)
  unfold leftSize
  omega

/-- The node at the top of the tree over a message whose first chunk has the given position. -/
def tree (position : Nat) (bytes : Bytes) : Node :=
  if h : bytes.length ≤ 1024 then chunkNode position bytes
  else
    have := leftSize_pos bytes.length
    have := leftSize_lt (Nat.lt_of_not_le h)
    let left := tree position (bytes.take (leftSize bytes.length))
    let right := tree (position + leftSize bytes.length / 1024) (bytes.drop (leftSize bytes.length))
    parentNode (left.value 0) (right.value 0)
termination_by bytes.length
decreasing_by
  · simp only [List.length_take]; omega
  · simp only [List.length_drop]; omega

end Blake3

/-- The BLAKE3 hash of a message. -/
def blake3 (message : Bytes) : FixedBytes 32 :=
  let value := (Blake3.tree 0 message).value Blake3.root
  ⟨value.toList.flatMap fun w => littleEndian 4 w.toNat, by simp [List.map_const']⟩

end ChainLedger.Digest
