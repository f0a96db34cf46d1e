import PredicateSql.Cipher.Aes

/-!
Chaining of blocks, and the padding that fills up the last one: as many octets as are missing, each
of that value, and a whole block where none are missing.
-/
namespace PredicateSql.Cbc

open Aes

def blockLength : Nat := 16

/-- Every block is added to the ciphertext before it and then encrypted. -/
def encryptBlocks (keys : List Block) : Block → List Block → List Block
  | _, [] => []
  | before, b :: rest =>
    let c := encryptBlock keys (b.add before)
    c :: encryptBlocks keys c rest

def decryptBlocks (keys : List Block) : Block → List Block → List Block
  | _, [] => []
  | before, c :: rest => (decryptBlock keys c).add before :: decryptBlocks keys c rest

def padLength (octets : List UInt8) : Nat :=
  blockLength - octets.length % blockLength

def pad (octets : List UInt8) : List UInt8 :=
  octets ++ List.replicate (padLength octets) (padLength octets).toUInt8

/-- Takes the padding off, if it is sound. -/
def unpad? (octets : List UInt8) : Option (List UInt8) :=
  match octets.getLast? with
  | none => none
  | some n =>
    let kept := octets.length - n.toNat
    if 1 ≤ n.toNat && n.toNat ≤ blockLength && n.toNat ≤ octets.length &&
        (octets.drop kept).all (· = n) then
      some (octets.take kept)
    else none

def encrypt (keys : List Block) (start : Block) (octets : List UInt8) : List UInt8 :=
  (encryptBlocks keys start (Block.ofOctets (pad octets))).flatMap Block.octets

def decrypt? (keys : List Block) (start : Block) (octets : List UInt8) : Option (List UInt8) :=
  unpad? ((decryptBlocks keys start (Block.ofOctets octets)).flatMap Block.octets)

end PredicateSql.Cbc
