/- The SHA-1 digest of a list of bytes: the message is padded to whole blocks of 64 bytes, and each
   block is mixed into a state of five 32-bit words by eighty rounds. -/
namespace DocAudit
namespace Sha1

structure State where
  a : UInt32
  b : UInt32
  c : UInt32
  d : UInt32
  e : UInt32
deriving DecidableEq, Repr

def initial : State := ⟨0x67452301, 0xEFCDAB89, 0x98BADCFE, 0x10325476, 0xC3D2E1F0⟩

def blockBytes : Nat := 64

def rotateLeft (x : UInt32) (n : UInt32) : UInt32 := (x <<< n) ||| (x >>> (32 - n))

def bigEndian (count n : Nat) : List UInt8 :=
  (List.range count).reverse.map fun i => UInt8.ofNat (n / Nat.pow 256 i % 256)

/-- A one bit, zeros up to eight bytes short of a whole block, and the message length in bits. -/
def padding (length : Nat) : List UInt8 :=
  let zeros := (2 * blockBytes - 9 - length % blockBytes) % blockBytes
  0x80 :: (List.replicate zeros 0 ++ bigEndian 8 (8 * length))

def words : List UInt8 → List UInt32
  | w :: x :: y :: z :: rest =>
    ((w.toUInt32 <<< 24) ||| (x.toUInt32 <<< 16) ||| (y.toUInt32 <<< 8) ||| z.toUInt32) ::
      words rest
  | _ => []

/-- Continues the words of a block, the latest of which comes first, by so many more. -/
def extend : Nat → List UInt32 → List UInt32
  | 0, latest => latest
  | count + 1, latest =>
    let word (back : Nat) : UInt32 := latest.getD (back - 1) 0
    extend count (rotateLeft (word 3 ^^^ word 8 ^^^ word 14 ^^^ word 16) 1 :: latest)

def schedule (block : List UInt8) : List UInt32 := (extend 64 (words block).reverse).reverse

def mixing (round : Nat) (s : State) : UInt32 × UInt32 :=
  if round < 20 then ((s.b &&& s.c) ||| (~~~s.b &&& s.d), 0x5A827999)
  else if round < 40 then (s.b ^^^ s.c ^^^ s.d, 0x6ED9EBA1)
  else if round < 60 then ((s.b &&& s.c) ||| (s.b &&& s.d) ||| (s.c &&& s.d), 0x8F1BBCDC)
  else (s.b ^^^ s.c ^^^ s.d, 0xCA62C1D6)

def round (s : State) (word : UInt32 × Nat) : State :=
  let (f, k) := mixing word.2 s
  ⟨rotateLeft s.a 5 + f + s.e + k + word.1, s.a, rotateLeft s.b 30, s.c, s.d⟩

def compress (s : State) (block : List UInt8) : State :=
  let t := (schedule block).zipIdx.foldl round s
  ⟨s.a + t.a, s.b + t.b, s.c + t.c, s.d + t.d, s.e + t.e⟩

def absorb : Nat → State → List UInt8 → State
  | 0, s, _ => s
  | blocks + 1, s, bytes =>
    absorb blocks (compress s (bytes.take blockBytes)) (bytes.drop blockBytes)

def digest (message : List UInt8) : List UInt8 :=
  let padded := message ++ padding message.length
  let s := absorb (padded.length / blockBytes) initial padded
  [s.a, s.b, s.c, s.d, s.e].flatMap fun word => bigEndian 4 word.toNat

end Sha1
end DocAudit
