import PredicateSql.Cipher.Sha1

/-!
Keys from passphrases: PBKDF2 over HMAC with SHA-1. The two states of the HMAC key are computed once
and every iteration starts from them.
-/
namespace PredicateSql.KeyDerivation

open Sha1

/-- An HMAC key as the hash states after its inner and its outer block. -/
structure MacKey where
  inner : Digest
  outer : Digest

/-- A key as a block of 64 octets: hashed if longer, filled up with zeros. -/
def keyBlock (key : List UInt8) : List UInt8 :=
  let key := if 64 < key.length then (Sha1.hash key).octets else key
  key ++ List.replicate (64 - key.length) 0

def keyState (pad : UInt8) (block : List UInt8) : Digest :=
  ((words (block.map (· ^^^ pad))).foldl absorb (initial, #[])).1

def macKey (key : List UInt8) : MacKey :=
  let block := keyBlock key
  ⟨keyState 0x36 block, keyState 0x5C block⟩

def finishDigest (h x : Digest) : Digest :=
  compress h #[x.a, x.b, x.c, x.d, x.e, 0x80000000, 0, 0, 0, 0, 0, 0, 0, 0, 0, 672]

def mac (key : MacKey) (octets : List UInt8) : Digest :=
  finishDigest key.outer (finish key.inner 64 octets)

/-- Adds up `n` more iterations, each the MAC of the one before. -/
def iterate (key : MacKey) : Nat → Digest → Digest → Digest
  | 0, _, sum => sum
  | n + 1, last, sum =>
    let next := finishDigest key.outer (finishDigest key.inner last)
    iterate key n next (sum.add next)

/-- Block `i` of the derived octets, with `n + 1` iterations. -/
def block (key : MacKey) (salt : List UInt8) (n i : Nat) : Digest :=
  let first := mac key (salt ++ wordOctets i.toUInt32)
  iterate key n first first

def iterations : Nat := 1000

/-- The first `length` octets derived from a passphrase and a salt. -/
def derive (passphrase salt : List UInt8) (length : Nat) : List UInt8 :=
  let key := macKey passphrase
  ((List.range ((length + 19) / 20)).flatMap fun i =>
    (block key salt (iterations - 1) (i + 1)).octets).take length

end PredicateSql.KeyDerivation
