/-!
The hash SHA-1 over octets, in a form that can go on from a given state.
-/
namespace PredicateSql.Sha1

/-- Five words: the state between blocks, and the hash at the end. -/
structure Digest where
  a : UInt32
  b : UInt32
  c : UInt32
  d : UInt32
  e : UInt32
deriving DecidableEq, Repr

def initial : Digest :=
  ⟨0x67452301, 0xEFCDAB89, 0x98BADCFE, 0x10325476, 0xC3D2E1F0⟩

def rotate (x n : UInt32) : UInt32 :=
  (x <<< n) ||| (x >>> (32 - n))

/-- Extends the sixteen words of a block by `n` more. -/
def schedule : Nat → Array UInt32 → Array UInt32
  | 0, w => w
  | n + 1, w =>
    let i := w.size
    schedule n (w.push (rotate
      (w.getD (i - 3) 0 ^^^ w.getD (i - 8) 0 ^^^ w.getD (i - 14) 0 ^^^ w.getD (i - 16) 0) 1))

/-- Runs `n` rounds from round `t` on. -/
def rounds (w : Array UInt32) : Nat → Nat → UInt32 → UInt32 → UInt32 → UInt32 → UInt32 → Digest
  | 0, _, a, b, c, d, e => ⟨a, b, c, d, e⟩
  | n + 1, t, a, b, c, d, e =>
    let f :=
      if t < 20 then ((b &&& c) ||| (~~~b &&& d)) + 0x5A827999
      else if t < 40 then (b ^^^ c ^^^ d) + 0x6ED9EBA1
      else if t < 60 then ((b &&& c) ||| (b &&& d) ||| (c &&& d)) + 0x8F1BBCDC
      else (b ^^^ c ^^^ d) + 0xCA62C1D6
    rounds w n (t + 1) (rotate a 5 + f + e + w.getD t 0) a (rotate b 30) c d

def compress (h : Digest) (block : Array UInt32) : Digest :=
  let r := rounds (schedule 64 block) 80 0 h.a h.b h.c h.d h.e
  ⟨h.a + r.a, h.b + r.b, h.c + r.c, h.d + r.d, h.e + r.e⟩

/-- Takes in one word; a block is complete at sixteen. -/
def absorb (state : Digest × Array UInt32) (word : UInt32) : Digest × Array UInt32 :=
  let block := state.2.push word
  if block.size = 16 then (compress state.1 block, #[]) else (state.1, block)

/-- Words of four octets each, the high one first. -/
def words : List UInt8 → List UInt32
  | a :: b :: c :: d :: rest =>
    ((a.toUInt32 <<< 24) ||| (b.toUInt32 <<< 16) ||| (c.toUInt32 <<< 8) ||| d.toUInt32) ::
      words rest
  | _ => []

def wordOctets (w : UInt32) : List UInt8 :=
  [(w >>> 24).toUInt8, (w >>> 16).toUInt8, (w >>> 8).toUInt8, w.toUInt8]

/-- What follows a message of `length` octets: a one bit, zeros, and the length in bits. -/
def padding (length : Nat) : List UInt8 :=
  let bits := (length * 8).toUInt64
  0x80 :: (List.replicate ((119 - length % 64) % 64) (0 : UInt8) ++
    wordOctets (bits >>> 32).toUInt32 ++ wordOctets bits.toUInt32)

/-- Ends a hash whose state is `h` after `before` octets, a whole number of blocks. -/
def finish (h : Digest) (before : Nat) (octets : List UInt8) : Digest :=
  ((words (octets ++ padding (before + octets.length))).foldl absorb (h, #[])).1

def Digest.octets (h : Digest) : List UInt8 :=
  wordOctets h.a ++ wordOctets h.b ++ wordOctets h.c ++ wordOctets h.d ++ wordOctets h.e

def Digest.add (x y : Digest) : Digest :=
  ⟨x.a ^^^ y.a, x.b ^^^ y.b, x.c ^^^ y.c, x.d ^^^ y.d, x.e ^^^ y.e⟩

def hash (octets : List UInt8) : Digest :=
  finish initial 0 octets

end PredicateSql.Sha1
