/-!
UTF-8. The decoder names the first fault: how many octets before it are sound, and how long the
ill-formed piece is, or that the octets end inside a piece that is sound so far.
-/
namespace PredicateSql.Text.Utf8

/-- Why octets are not UTF-8. -/
structure Fault where
  /-- Length of the sound part in front. -/
  index : Nat
  /-- Length of the ill-formed piece; `none` where the octets end too early. -/
  length : Option Nat
deriving DecidableEq, Repr

def Fault.message (fault : Fault) : String :=
  match fault.length with
  | some n => s!"invalid utf-8 sequence of {n} bytes from index {fault.index}"
  | none => s!"incomplete utf-8 byte sequence from index {fault.index}"

/-- The octets of one character. -/
def encodeChar (c : Char) : List UInt8 :=
  let n := c.toNat
  if n < 0x80 then [n.toUInt8]
  else if n < 0x800 then [(0xC0 + n / 64).toUInt8, (0x80 + n % 64).toUInt8]
  else if n < 0x10000 then
    [(0xE0 + n / 4096).toUInt8, (0x80 + n / 64 % 64).toUInt8, (0x80 + n % 64).toUInt8]
  else
    [(0xF0 + n / 262144).toUInt8, (0x80 + n / 4096 % 64).toUInt8, (0x80 + n / 64 % 64).toUInt8,
      (0x80 + n % 64).toUInt8]

def encode (s : String) : List UInt8 :=
  s.toList.flatMap encodeChar

def continues (b : UInt8) : Bool :=
  0x80 ≤ b && b ≤ 0xBF

/-- The second octets allowed after a leading octet of a three-octet character: no longer spelling
than needed, and no surrogate. -/
def secondOfThree (a b : UInt8) : Bool :=
  if a = 0xE0 then 0xA0 ≤ b && b ≤ 0xBF
  else if a = 0xED then 0x80 ≤ b && b ≤ 0x9F
  else continues b

/-- The second octets allowed after a leading octet of a four-octet character: no longer spelling
than needed, and nothing beyond the last code point. -/
def secondOfFour (a b : UInt8) : Bool :=
  if a = 0xF0 then 0x90 ≤ b && b ≤ 0xBF
  else if a = 0xF4 then 0x80 ≤ b && b ≤ 0x8F
  else continues b

def lowSix (b : UInt8) : Nat := b.toNat % 64

/-- Reads the characters of octets that stand at `index`. -/
def decodeFrom (index : Nat) : List UInt8 → Except Fault (List Char)
  | [] => .ok []
  | a :: rest =>
    if a < 0x80 then
      (decodeFrom (index + 1) rest).map (Char.ofNat a.toNat :: ·)
    else if 0xC2 ≤ a && a ≤ 0xDF then
      match rest with
      | [] => .error ⟨index, none⟩
      | b :: rest =>
        if !continues b then .error ⟨index, some 1⟩
        else (decodeFrom (index + 2) rest).map
          (Char.ofNat (a.toNat % 32 * 64 + lowSix b) :: ·)
    else if 0xE0 ≤ a && a ≤ 0xEF then
      match rest with
      | [] => .error ⟨index, none⟩
      | [b] => if secondOfThree a b then .error ⟨index, none⟩ else .error ⟨index, some 1⟩
      | b :: c :: rest =>
        if !secondOfThree a b then .error ⟨index, some 1⟩
        else if !continues c then .error ⟨index, some 2⟩
        else (decodeFrom (index + 3) rest).map
          (Char.ofNat (a.toNat % 16 * 4096 + lowSix b * 64 + lowSix c) :: ·)
    else if 0xF0 ≤ a && a ≤ 0xF4 then
      match rest with
      | [] => .error ⟨index, none⟩
      | [b] => if secondOfFour a b then .error ⟨index, none⟩ else .error ⟨index, some 1⟩
      | [b, c] =>
        if !secondOfFour a b then .error ⟨index, some 1⟩
        else if !continues c then .error ⟨index, some 2⟩
        else .error ⟨index, none⟩
      | b :: c :: d :: rest =>
        if !secondOfFour a b then .error ⟨index, some 1⟩
        else if !continues c then .error ⟨index, some 2⟩
        else if !continues d then .error ⟨index, some 3⟩
        else (decodeFrom (index + 4) rest).map
          (Char.ofNat (a.toNat % 8 * 262144 + lowSix b * 4096 + lowSix c * 64 + lowSix d) :: ·)
    else .error ⟨index, some 1⟩

theorem decodeFrom_nil (index : Nat) : decodeFrom index [] = .ok [] := by
  rw [decodeFrom.eq_def]

def decode (octets : List UInt8) : Except Fault String :=
  (decodeFrom 0 octets).map String.ofList

end PredicateSql.Text.Utf8
