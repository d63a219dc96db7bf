import Mathlib

/-!
# BLAKE2s

The unkeyed BLAKE2s hash with a digest of `nn ≤ 32` bytes, on byte lists.  A message is cut into blocks of 64
bytes, the last one padded with zeros; each block is mixed into the eight state words together with the number of
bytes read so far.  Only the length of the hexadecimal digest is used in proofs (`length_hexdigest`); the function
itself is here to be run.
-/

namespace Blake2s

def iv : List UInt32 :=
  [0x6A09E667, 0xBB67AE85, 0x3C6EF372, 0xA54FF53A, 0x510E527F, 0x9B05688C, 0x1F83D9AB, 0x5BE0CD19]

def sigma : List (List Nat) :=
  [[0, 1, 2, 3, 4, 5, 6, 7, 8, 9, 10, 11, 12, 13, 14, 15],
   [14, 10, 4, 8, 9, 15, 13, 6, 1, 12, 0, 2, 11, 7, 5, 3],
   [11, 8, 12, 0, 5, 2, 15, 13, 10, 14, 3, 6, 7, 1, 9, 4],
   [7, 9, 3, 1, 13, 12, 11, 14, 2, 6, 5, 10, 4, 0, 15, 8],
   [9, 0, 5, 7, 2, 4, 10, 15, 14, 1, 11, 12, 6, 8, 3, 13],
   [2, 12, 6, 10, 0, 11, 8, 3, 4, 13, 7, 5, 15, 14, 1, 9],
   [12, 5, 1, 15, 14, 13, 4, 10, 0, 7, 6, 3, 9, 2, 8, 11],
   [13, 11, 7, 14, 12, 1, 3, 9, 5, 0, 15, 4, 8, 6, 2, 10],
   [6, 15, 14, 9, 11, 3, 0, 8, 12, 2, 13, 7, 1, 4, 10, 5],
   [10, 2, 8, 4, 7, 6, 1, 5, 15, 11, 9, 14, 3, 12, 13, 0]]

def rotateRight (x : UInt32) (n : UInt32) : UInt32 := (x >>> n) ||| (x <<< (32 - n))

/-- The mixing function `G` on the words at `a, b, c, d`. -/
def mix (v : List UInt32) (a b c d : Nat) (x y : UInt32) : List UInt32 :=
  let va := v.getD a 0 + v.getD b 0 + x
  let vd := rotateRight (v.getD d 0 ^^^ va) 16
  let vc := v.getD c 0 + vd
  let vb := rotateRight (v.getD b 0 ^^^ vc) 12
  let va := va + vb + y
  let vd := rotateRight (vd ^^^ va) 8
  let vc := vc + vd
  let vb := rotateRight (vb ^^^ vc) 7
  (((v.set a va).set b vb).set c vc).set d vd

def round (m : List UInt32) (v : List UInt32) (s : List Nat) : List UInt32 :=
  let w := fun i => m.getD (s.getD i 0) 0
  let v := mix v 0 4 8 12 (w 0) (w 1)
  let v := mix v 1 5 9 13 (w 2) (w 3)
  let v := mix v 2 6 10 14 (w 4) (w 5)
  let v := mix v 3 7 11 15 (w 6) (w 7)
  let v := mix v 0 5 10 15 (w 8) (w 9)
  let v := mix v 1 6 11 12 (w 10) (w 11)
  let v := mix v 2 7 8 13 (w 12) (w 13)
  mix v 3 4 9 14 (w 14) (w 15)

/-- The sixteen little-endian words of a block; missing bytes are zero. -/
def words (block : List UInt8) : List UInt32 :=
  (List.range 16).map fun i =>
    let b := fun j => (block.getD (4 * i + j) 0).toUInt32
    b 0 ||| (b 1 <<< 8) ||| (b 2 <<< 16) ||| (b 3 <<< 24)

/-- Mix one block into the state `h`; `read` bytes were read up to the end of the block. -/
def compress (h : List UInt32) (block : List UInt8) (read : Nat) (last : Bool) : List UInt32 :=
  let lo := UInt32.ofNat read
  let hi := UInt32.ofNat (read / 2 ^ 32)
  let v := h ++ iv
  let v := (v.set 12 (v.getD 12 0 ^^^ lo)).set 13 (v.getD 13 0 ^^^ hi)
  let v := if last then v.set 14 (v.getD 14 0 ^^^ 0xFFFFFFFF) else v
  let v := sigma.foldl (round (words block)) v
  (List.range 8).map fun i => h.getD i 0 ^^^ v.getD i 0 ^^^ v.getD (i + 8) 0

def absorb (h : List UInt32) (read : Nat) : Nat → List UInt8 → List UInt32
  | 0, _ => h
  | fuel + 1, message =>
    if message.length ≤ 64 then compress h message (read + message.length) true
    else absorb (compress h (message.take 64) (read + 64) false) (read + 64) fuel (message.drop 64)

/-- The first `nn` bytes of the final state. -/
def digest (nn : Nat) (message : List UInt8) : List UInt8 :=
  let h := absorb (iv.set 0 (iv.getD 0 0 ^^^ 0x01010000 ^^^ UInt32.ofNat nn)) 0 (message.length + 1) message
  (List.range nn).map fun i => ((h.getD (i / 4) 0) >>> UInt32.ofNat (8 * (i % 4))).toUInt8

def hexDigit (n : Nat) : Char := Nat.digitChar (n % 16)

def hexdigest (nn : Nat) (message : List UInt8) : List Char :=
  (digest nn message).flatMap fun b => [hexDigit (b.toNat / 16), hexDigit b.toNat]

theorem length_hexdigest (nn : Nat) (message : List UInt8) : (hexdigest nn message).length = 2 * nn := by
  have hdigest : (digest nn message).length = nn := by simp [digest]
  have htwo : ∀ l : List UInt8, (l.flatMap fun b => [hexDigit (b.toNat / 16), hexDigit b.toNat]).length = 2 * l.length := by
    intro l
    induction l with
    | nil => rfl
    | cons b l ih => simp only [List.flatMap_cons, List.length_append, ih, List.length_cons, List.length_nil]; omega
  rw [hexdigest, htwo, hdigest]

example : String.ofList (hexdigest 4 [0x61, 0x62, 0x63]) = "df7101d3" := by decide +kernel

end Blake2s
