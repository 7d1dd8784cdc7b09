/-!
# BLAKE3

The BLAKE3 digest of a sequence of bytes. The bytes are cut into chunks of
1024, which are the leaves of a binary tree. A chunk is compressed block by
block, and a parent compresses the chaining values of its two children. The
digest comes from the compression at the root.
-/

namespace HeaderExports.Digest

/-- A chaining value. -/
abbrev Chaining := Vector UInt32 8

/-- A block of a message. -/
abbrev Block := Vector UInt32 16

/-- The chaining value that every chunk starts from. -/
def initialChaining : Chaining :=
  #v[0x6A09E667, 0xBB67AE85, 0x3C6EF372, 0xA54FF53A, 0x510E527F, 0x9B05688C, 0x1F83D9AB,
     0x5BE0CD19]

/-- The first block of a chunk. -/
def chunkStart : UInt32 := 1

/-- The last block of a chunk. -/
def chunkEnd : UInt32 := 2

/-- A block made of two chaining values. -/
def parentFlag : UInt32 := 4

/-- The compression at the root. -/
def rootFlag : UInt32 := 8

/-- Rotate a word to the right. -/
def rotateRight (word : UInt32) (count : UInt32) : UInt32 :=
  (word >>> count) ||| (word <<< (32 - count))

/-- Mix two words of a message into four words of the state. -/
def mix (state : Block) (a b c d : Fin 16) (x y : UInt32) : Block :=
  let a₁ := state[a] + state[b] + x
  let d₁ := rotateRight (state[d] ^^^ a₁) 16
  let c₁ := state[c] + d₁
  let b₁ := rotateRight (state[b] ^^^ c₁) 12
  let a₂ := a₁ + b₁ + y
  let d₂ := rotateRight (d₁ ^^^ a₂) 8
  let c₂ := c₁ + d₂
  let b₂ := rotateRight (b₁ ^^^ c₂) 7
  (((state.set a a₂).set b b₂).set c c₂).set d d₂

/-- Mix a whole block into the state, first by columns and then by diagonals. -/
def mixBlock (state block : Block) : Block :=
  let s := mix state 0 4 8 12 block[0] block[1]
  let s := mix s 1 5 9 13 block[2] block[3]
  let s := mix s 2 6 10 14 block[4] block[5]
  let s := mix s 3 7 11 15 block[6] block[7]
  let s := mix s 0 5 10 15 block[8] block[9]
  let s := mix s 1 6 11 12 block[10] block[11]
  let s := mix s 2 7 8 13 block[12] block[13]
  mix s 3 4 9 14 block[14] block[15]

/-- The order in which a block is taken by the next round. -/
def permute (block : Block) : Block :=
  #v[block[2], block[6], block[3], block[10], block[7], block[0], block[4], block[13],
     block[1], block[11], block[12], block[5], block[9], block[14], block[15], block[8]]

/-- Mix a block in a number of rounds. -/
def rounds : Nat → Block → Block → Block
  | 0, state, _ => state
  | more + 1, state, block => rounds more (mixBlock state block) (permute block)

/-- What one compression works on. -/
structure Node where
  /-- The chaining value that comes in. -/
  chaining : Chaining
  /-- The block. -/
  block : Block
  /-- The number of the chunk, zero for parents. -/
  counter : UInt64
  /-- How many bytes of the block count. -/
  length : UInt32
  /-- The role of the block. -/
  flags : UInt32

/-- The chaining value that comes out of a compression. -/
def Node.compress (node : Node) : Chaining :=
  let cv := node.chaining
  let iv := initialChaining
  let state : Block :=
    #v[cv[0], cv[1], cv[2], cv[3], cv[4], cv[5], cv[6], cv[7], iv[0], iv[1], iv[2], iv[3],
       node.counter.toUInt32, (node.counter >>> 32).toUInt32, node.length, node.flags]
  let mixed := rounds 7 state node.block
  Vector.ofFn fun i : Fin 8 => mixed[i.val] ^^^ mixed[i.val + 8]

/-- Cut a sequence into pieces of a size, the last one being what is left. -/
def pieces (size : Nat) (bytes : List UInt8) : List (List UInt8) :=
  if 0 < size ∧ size < bytes.length then bytes.take size :: pieces size (bytes.drop size)
  else [bytes]
termination_by bytes.length
decreasing_by simp only [List.length_drop]; omega

/-- The word that begins at a byte, the lowest byte first and zero behind the end. -/
def wordAt (bytes : Array UInt8) (start : Nat) : UInt32 :=
  let byte (i : Nat) : UInt32 := (bytes.getD (start + i) 0).toUInt32
  byte 0 ||| (byte 1 <<< 8) ||| (byte 2 <<< 16) ||| (byte 3 <<< 24)

/-- The words of at most 64 bytes. -/
def blockOf (bytes : List UInt8) : Block :=
  let bytes := bytes.toArray
  Vector.ofFn fun i : Fin 16 => wordAt bytes (4 * i.val)

/-- The last compression of a chunk, given its blocks that are left. -/
def chunkNode (counter : UInt64) (chaining : Chaining) (flags : UInt32) :
    List (List UInt8) → Node
  | [] => ⟨chaining, blockOf [], counter, 0, flags ||| chunkEnd⟩
  | [last] => ⟨chaining, blockOf last, counter, last.length.toUInt32, flags ||| chunkEnd⟩
  | bytes :: rest =>
    chunkNode counter (Node.compress ⟨chaining, blockOf bytes, counter, 64, flags⟩) 0 rest

/-- The compression of two children. -/
def parentNode (left right : Chaining) : Node :=
  ⟨initialChaining, left ++ right, 0, 64, parentFlag⟩

/-- How many of several chunks lie in the left half of a tree: the largest
power of two that leaves some for the right half. -/
def leftSize (chunks : Nat) : Nat := Nat.pow 2 (chunks - 1).log2

/-- Both halves of a tree have chunks. -/
theorem leftSize_bounds {chunks : Nat} (several : 1 < chunks) :
    0 < leftSize chunks ∧ leftSize chunks < chunks := by
  have bound := Nat.log2_self_le (n := chunks - 1) (by omega)
  simp only [leftSize, Nat.pow_eq]
  exact ⟨Nat.two_pow_pos _, by omega⟩

/-- The last compression of a tree over chunks that are numbered from a start. -/
def treeNode (start : UInt64) (chunks : List (List UInt8)) : Node :=
  if several : 1 < chunks.length then
    let left := leftSize chunks.length
    have := leftSize_bounds several
    parentNode (treeNode start (chunks.take left)).compress
      (treeNode (start + left.toUInt64) (chunks.drop left)).compress
  else chunkNode start initialChaining chunkStart (pieces 64 (chunks.headD []))
termination_by chunks.length
decreasing_by
  all_goals
    simp only [List.length_take, List.length_drop]
    omega

/-- The digest of bytes. -/
def blake3 (bytes : List UInt8) : Chaining :=
  let root := treeNode 0 (pieces 1024 bytes)
  Node.compress { root with flags := root.flags ||| rootFlag }

/-- The digits of a word, its lowest byte first. -/
def wordDigits (word : UInt32) : List Char :=
  let digit (shift : UInt32) : Char :=
    let value := ((word >>> shift) &&& 15).toNat
    if value < 10 then Char.ofNat ('0'.toNat + value) else Char.ofNat ('a'.toNat + (value - 10))
  [digit 4, digit 0, digit 12, digit 8, digit 20, digit 16, digit 28, digit 24]

/-- The digest of a text's bytes in 64 hexadecimal digits. -/
def ofText (text : String) : String :=
  String.ofList ((blake3 text.toUTF8.data.toList).toList.flatMap wordDigits)

/-- A digest has 64 digits. -/
theorem length_ofText (text : String) : (ofText text).toList.length = 64 := by
  have eight : ∀ word, (wordDigits word).length = 8 := fun _ => rfl
  have words : ∀ l : List UInt32, (l.flatMap wordDigits).length = 8 * l.length := fun l => by
    induction l with
    | nil => rfl
    | cons word rest ih => simp only [List.flatMap_cons, List.length_append, ih, eight,
        List.length_cons]; omega
  rw [ofText, String.toList_ofList, words, Vector.length_toList]

end HeaderExports.Digest
