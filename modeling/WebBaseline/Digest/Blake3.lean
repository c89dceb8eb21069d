import WebBaseline.Text.Hex

/-!
# BLAKE3

The message is cut into chunks of 1024 bytes, each chunk into blocks of 64.
The blocks of a chunk are chained, and the results of the chunks are joined in
pairs along a binary tree, whose left branches are as large as possible.
-/

namespace WebBaseline.Digest.Blake3

/-- Eight words that are handed on. -/
abbrev Chain := Array UInt32

/-- The first chain. -/
def initial : Chain := #[
  0x6a09e667, 0xbb67ae85, 0x3c6ef372, 0xa54ff53a, 0x510e527f, 0x9b05688c, 0x1f83d9ab, 0x5be0cd19]

/-- How the words of a block change places between rounds. -/
def permutation : List Nat := [2, 6, 3, 10, 7, 0, 4, 13, 1, 11, 12, 5, 9, 14, 15, 8]

/-- The mark of the first block of a chunk. -/
def chunkStart : UInt32 := 1

/-- The mark of the last block of a chunk. -/
def chunkEnd : UInt32 := 2

/-- The mark of a pair of branches. -/
def parent : UInt32 := 4

/-- The mark of the last compression of all. -/
def root : UInt32 := 8

/-- Rotate a word to the right. -/
def rotate (x : UInt32) (n : UInt32) : UInt32 := (x >>> n) ||| (x <<< (32 - n))

/-- Mix two words of a block into four words of the state. -/
def quarter (s : Array UInt32) (ia ib ic id : Nat) (x y : UInt32) : Array UInt32 :=
  let a := s.getD ia 0
  let b := s.getD ib 0
  let c := s.getD ic 0
  let d := s.getD id 0
  let a := a + b + x
  let d := rotate (d ^^^ a) 16
  let c := c + d
  let b := rotate (b ^^^ c) 12
  let a := a + b + y
  let d := rotate (d ^^^ a) 8
  let c := c + d
  let b := rotate (b ^^^ c) 7
  (((s.setIfInBounds ia a).setIfInBounds ib b).setIfInBounds ic c).setIfInBounds id d

/-- One round over the columns and the diagonals of the state. -/
def round (s m : Array UInt32) : Array UInt32 :=
  let w (i : Nat) : UInt32 := m.getD i 0
  let s := quarter s 0 4 8 12 (w 0) (w 1)
  let s := quarter s 1 5 9 13 (w 2) (w 3)
  let s := quarter s 2 6 10 14 (w 4) (w 5)
  let s := quarter s 3 7 11 15 (w 6) (w 7)
  let s := quarter s 0 5 10 15 (w 8) (w 9)
  let s := quarter s 1 6 11 12 (w 10) (w 11)
  let s := quarter s 2 7 8 13 (w 12) (w 13)
  quarter s 3 4 9 14 (w 14) (w 15)

/-- The words of a block in their next places. -/
def permute (m : Array UInt32) : Array UInt32 := (permutation.map fun i => m.getD i 0).toArray

/-- Some rounds, with the words permuted in between. -/
def rounds : Nat → Array UInt32 → Array UInt32 → Array UInt32
  | 0, s, _ => s
  | n + 1, s, m => rounds n (round s m) (permute m)

/-- The words of bytes, the lowest byte first. -/
def words : List UInt8 → List UInt32
  | a :: b :: c :: d :: rest =>
    (a.toUInt32 ||| (b.toUInt32 <<< 8) ||| (c.toUInt32 <<< 16) ||| (d.toUInt32 <<< 24)) ::
      words rest
  | _ => []

/-- The words of a block that may be shorter than 64 bytes. -/
def blockWords (block : List UInt8) : Array UInt32 :=
  (words (block ++ List.replicate (64 - block.length) 0)).toArray

/-- Compress the words of a block into a chain. -/
def compress (chain : Chain) (m : Array UInt32) (counter length : Nat) (flags : UInt32) : Chain :=
  let start := chain ++ (initial.extract 0 4) ++
    #[UInt32.ofNat counter, UInt32.ofNat (counter >>> 32), UInt32.ofNat length, flags]
  let s := rounds 7 start m
  ((List.range 8).map fun i => s.getD i 0 ^^^ s.getD (i + 8) 0).toArray

/-- Chain the blocks of a chunk; `last` are the marks of its last block. -/
def chainBlocks (counter : Nat) (last : UInt32) : Nat → UInt32 → Chain → List UInt8 → Chain
  | 0, _, chain, _ => chain
  | fuel + 1, marks, chain, bytes =>
    let block := bytes.take 64
    let rest := bytes.drop 64
    if rest.isEmpty then
      compress chain (blockWords block) counter block.length (marks ||| chunkEnd ||| last)
    else
      chainBlocks counter last fuel 0
        (compress chain (blockWords block) counter block.length marks) rest

/-- The chain of a chunk. -/
def chunk (counter : Nat) (last : UInt32) (bytes : List UInt8) : Chain :=
  chainBlocks counter last 16 chunkStart initial bytes

/-- The number of chunks in the left branch over more than one chunk. -/
def leftChunks (chunks : Nat) : Nat := Nat.pow 2 (chunks - 1).log2

/-- The chain of a tree over chunks, the first of which has the given number. -/
def tree : Nat → Nat → UInt32 → List UInt8 → Chain
  | 0, counter, last, bytes => chunk counter last bytes
  | depth + 1, counter, last, bytes =>
    if bytes.length ≤ 1024 then chunk counter last bytes
    else
      let left := leftChunks ((bytes.length + 1023) / 1024)
      let a := tree depth counter 0 (bytes.take (1024 * left))
      let b := tree depth (counter + left) 0 (bytes.drop (1024 * left))
      compress initial (a ++ b) 0 64 (parent ||| last)

/-- The bytes of a word, the lowest first. -/
def wordBytes (w : UInt32) : List UInt8 :=
  [w.toUInt8, (w >>> 8).toUInt8, (w >>> 16).toUInt8, (w >>> 24).toUInt8]

/-- The digest of a message. -/
def digest (message : List UInt8) : List UInt8 :=
  (tree (message.length.log2 + 1) 0 root message).toList.flatMap wordBytes

end WebBaseline.Digest.Blake3

namespace WebBaseline.Digest

/-- The digest of a text as digits of base sixteen. -/
def blake3 (text : String) : String := Text.hexOfBytes (Blake3.digest (Text.bytesOf text))

end WebBaseline.Digest
