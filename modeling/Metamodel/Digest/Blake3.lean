/-!
# BLAKE3

The hash function BLAKE3 with its default output of 256 bits.  The input is cut into chunks of 1024 bytes, which are the
leaves of a binary tree whose left subtrees are full; a chunk is a chain of compressions over blocks of 64 bytes, and an
inner node compresses the values of its two subtrees.  The tree is built by recursion on the input, cut at the largest
number of chunks that is a power of two and leaves something for the right subtree.
-/

namespace Metamodel.Blake3

abbrev Words := Array UInt32

/-! ### Compression -/

def initialWords : Words :=
  #[0x6A09E667, 0xBB67AE85, 0x3C6EF372, 0xA54FF53A, 0x510E527F, 0x9B05688C, 0x1F83D9AB, 0x5BE0CD19]

/-- Where the words of a block come from in the next round. -/
def schedule : List Nat :=
  [2, 6, 3, 10, 7, 0, 4, 13, 1, 11, 12, 5, 9, 14, 15, 8]

def rotateRight (w n : UInt32) : UInt32 :=
  (w >>> n) ||| (w <<< (32 - n))

def word (ws : Words) (i : Nat) : UInt32 :=
  ws.getD i 0

/-- One mixing of four words of the state with two words of the block. -/
def mix (s : Words) (a b c d : Nat) (x y : UInt32) : Words :=
  let a₁ := word s a + word s b + x
  let d₁ := rotateRight (word s d ^^^ a₁) 16
  let c₁ := word s c + d₁
  let b₁ := rotateRight (word s b ^^^ c₁) 12
  let a₂ := a₁ + b₁ + y
  let d₂ := rotateRight (d₁ ^^^ a₂) 8
  let c₂ := c₁ + d₂
  let b₂ := rotateRight (b₁ ^^^ c₂) 7
  (((s.setIfInBounds a a₂).setIfInBounds b b₂).setIfInBounds c c₂).setIfInBounds d d₂

/-- The columns of the state and then its diagonals. -/
def round (s m : Words) : Words :=
  let s := mix s 0 4 8 12 (word m 0) (word m 1)
  let s := mix s 1 5 9 13 (word m 2) (word m 3)
  let s := mix s 2 6 10 14 (word m 4) (word m 5)
  let s := mix s 3 7 11 15 (word m 6) (word m 7)
  let s := mix s 0 5 10 15 (word m 8) (word m 9)
  let s := mix s 1 6 11 12 (word m 10) (word m 11)
  let s := mix s 2 7 8 13 (word m 12) (word m 13)
  mix s 3 4 9 14 (word m 14) (word m 15)

def permute (m : Words) : Words :=
  (schedule.map (word m)).toArray

def rounds : Nat → Words → Words → Words
  | 0, s, _ => s
  | n + 1, s, m => rounds n (round s m) (permute m)

/-- A compression that has yet to be carried out. -/
structure Node where
  chaining : Words
  block : Words
  counter : Nat
  length : Nat
  flags : UInt32

def chunkStart : UInt32 := 1
def chunkEnd : UInt32 := 2
def parent : UInt32 := 4
def root : UInt32 := 8

/-- The eight words that a compression gives. -/
def Node.compress (n : Node) : Words :=
  let counter := n.counter.toUInt64
  let s := n.chaining ++ initialWords.extract 0 4 ++
    #[counter.toUInt32, (counter >>> 32).toUInt32, n.length.toUInt32, n.flags]
  let s := rounds 7 s n.block
  ((List.range 8).map fun i => word s i ^^^ word s (i + 8)).toArray

/-! ### Chunks -/

/-- Little-endian words. -/
def wordsOf : List UInt8 → List UInt32
  | a :: b :: c :: d :: rest =>
    (a.toUInt32 ||| (b.toUInt32 <<< 8) ||| (c.toUInt32 <<< 16) ||| (d.toUInt32 <<< 24)) :: wordsOf rest
  | _ => []

/-- The words of a block, filled up with zeros. -/
def blockWords (bytes : List UInt8) : Words :=
  (wordsOf (bytes ++ List.replicate (64 - bytes.length) 0)).toArray

/-- The last compression of a chunk, after blocks that gave the value `chaining`; `blocks` bounds the number of blocks
still to come. -/
def chunkNode (counter : Nat) : Nat → UInt32 → Words → List UInt8 → Node
  | blocks, start, chaining, bytes =>
    let node : Node := ⟨chaining, blockWords (bytes.take 64), counter, min bytes.length 64, start⟩
    match blocks with
    | 0 => { node with flags := start ||| chunkEnd }
    | blocks + 1 =>
      if bytes.length ≤ 64 then { node with flags := start ||| chunkEnd }
      else chunkNode counter blocks 0 node.compress (bytes.drop 64)

/-! ### The tree -/

/-- The number of bytes in the left subtree of an input of more than one chunk. -/
def leftLength (length : Nat) : Nat :=
  1024 <<< ((length - 1) / 1024).log2

private theorem leftLength_pos (length : Nat) : 0 < leftLength length := by
  rw [leftLength, Nat.shiftLeft_eq]
  exact Nat.mul_pos (by decide) (Nat.two_pow_pos _)

private theorem leftLength_lt {length : Nat} (h : 1024 < length) : leftLength length < length := by
  have h₁ : (length - 1) / 1024 ≠ 0 := by omega
  have h₂ := Nat.log2_self_le h₁
  have h₃ : leftLength length ≤ 1024 * ((length - 1) / 1024) := by
    rw [leftLength, Nat.shiftLeft_eq]
    exact Nat.mul_le_mul_left 1024 h₂
  omega

/-- The topmost compression for an input whose first chunk has the number `counter`. -/
def treeNode (counter : Nat) (bytes : List UInt8) : Node :=
  if bytes.length ≤ 1024 then chunkNode counter 15 chunkStart initialWords bytes
  else
    let n := leftLength bytes.length
    let left := (treeNode counter (bytes.take n)).compress
    let right := (treeNode (counter + n / 1024) (bytes.drop n)).compress
    ⟨initialWords, left ++ right, 0, 64, parent⟩
termination_by bytes.length
decreasing_by
  · have := leftLength_lt (Nat.lt_of_not_le ‹_›)
    simp only [List.length_take]
    omega
  · have := leftLength_pos bytes.length
    simp only [List.length_drop]
    omega

/-! ### Output -/

def hash (bytes : List UInt8) : List UInt8 :=
  let node := treeNode 0 bytes
  let ws := { node with flags := node.flags ||| root }.compress
  ws.toList.flatMap fun (w : UInt32) => [w.toUInt8, (w >>> 8).toUInt8, (w >>> 16).toUInt8, (w >>> 24).toUInt8]

/-- Two lower-case hexadecimal digits a byte. -/
def hex (bytes : List UInt8) : String :=
  String.ofList (bytes.flatMap fun b => [Nat.digitChar (b.toNat / 16), Nat.digitChar (b.toNat % 16)])

/-- The hash of the UTF-8 form of a text. -/
def hexDigest (s : String) : String :=
  hex (hash s.toUTF8.toList)

end Metamodel.Blake3
