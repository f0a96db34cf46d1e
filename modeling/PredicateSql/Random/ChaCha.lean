/-!
The stream generator ChaCha with twelve rounds, seeded by one 64-bit number.
-/
namespace PredicateSql

/-- A key of eight words, the number of the next block, and the words of the last block that are not
used yet. -/
structure ChaCha where
  key : List UInt32
  counter : UInt64
  pending : List UInt32

namespace ChaCha

def rotateLeft (x n : UInt32) : UInt32 :=
  (x <<< n) ||| (x >>> (32 - n))

/-- Mixes four of the sixteen words. -/
def quarterRound (a b c d : Nat) (s : Array UInt32) : Array UInt32 :=
  let xa := s.getD a 0 + s.getD b 0
  let xd := rotateLeft (s.getD d 0 ^^^ xa) 16
  let xc := s.getD c 0 + xd
  let xb := rotateLeft (s.getD b 0 ^^^ xc) 12
  let ya := xa + xb
  let yd := rotateLeft (xd ^^^ ya) 8
  let yc := xc + yd
  let yb := rotateLeft (xb ^^^ yc) 7
  (((s.setIfInBounds a ya).setIfInBounds b yb).setIfInBounds c yc).setIfInBounds d yd

/-- A round on the columns and a round on the diagonals. -/
def doubleRound (s : Array UInt32) : Array UInt32 :=
  let s := quarterRound 3 7 11 15 (quarterRound 2 6 10 14
    (quarterRound 1 5 9 13 (quarterRound 0 4 8 12 s)))
  quarterRound 3 4 9 14 (quarterRound 2 7 8 13 (quarterRound 1 6 11 12 (quarterRound 0 5 10 15 s)))

/-- The words of one block. -/
def block (key : List UInt32) (counter : UInt64) : List UInt32 :=
  let constants : List UInt32 := [0x61707865, 0x3320646e, 0x79622d32, 0x6b206574]
  let start := (constants ++ key ++ [counter.toUInt32, (counter >>> 32).toUInt32, 0, 0]).toArray
  let mixed := (List.range 6).foldl (fun s _ => doubleRound s) start
  List.zipWith (· + ·) mixed.toList start.toList

/-- Key words from a seed, by a permuted congruential generator. -/
def keyWords : Nat → UInt64 → List UInt32
  | 0, _ => []
  | n + 1, state =>
    let state := state * 6364136223846793005 + 11634580027462260723
    let x := (((state >>> 18) ^^^ state) >>> 27).toUInt32
    let turn := (state >>> 59).toUInt32
    ((x >>> turn) ||| (x <<< ((32 - turn) % 32))) :: keyWords n state

def seeded (seed : UInt64) : ChaCha :=
  ⟨keyWords 8 seed, 0, []⟩

/-- The next 64 bits: two words, the low one first. A block has an even number of words. -/
def next (g : ChaCha) : UInt64 × ChaCha :=
  match g.pending with
  | low :: high :: rest => (low.toUInt64 ||| (high.toUInt64 <<< 32), { g with pending := rest })
  | _ =>
    match block g.key g.counter with
    | low :: high :: rest =>
      (low.toUInt64 ||| (high.toUInt64 <<< 32), ⟨g.key, g.counter + 1, rest⟩)
    | _ => (0, ⟨g.key, g.counter + 1, []⟩)

end ChaCha
end PredicateSql
