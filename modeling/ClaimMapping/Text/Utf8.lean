namespace ClaimMapping.Text.Utf8

def encodeChar (c : Char) : List UInt8 :=
  let n := c.toNat
  if n < 0x80 then [.ofNat n]
  else if n < 0x800 then [.ofNat (0xC0 + n / 64), .ofNat (0x80 + n % 64)]
  else if n < 0x10000 then
    [.ofNat (0xE0 + n / 4096), .ofNat (0x80 + n / 64 % 64), .ofNat (0x80 + n % 64)]
  else
    [.ofNat (0xF0 + n / 262144), .ofNat (0x80 + n / 4096 % 64), .ofNat (0x80 + n / 64 % 64),
      .ofNat (0x80 + n % 64)]

/-- Writes characters as bytes. -/
def encode (text : List Char) : List UInt8 := text.flatMap encodeChar

/-- How many bytes follow a leading byte, and the range of the first of them: the narrow ranges
exclude overlong forms, surrogates and code points past the last one. -/
def lead? (b : Nat) : Option (Nat × Nat × Nat) :=
  if 0xC2 ≤ b ∧ b ≤ 0xDF then some (1, 0x80, 0xBF)
  else if b = 0xE0 then some (2, 0xA0, 0xBF)
  else if b = 0xED then some (2, 0x80, 0x9F)
  else if 0xE1 ≤ b ∧ b ≤ 0xEF then some (2, 0x80, 0xBF)
  else if b = 0xF0 then some (3, 0x90, 0xBF)
  else if 0xF1 ≤ b ∧ b ≤ 0xF3 then some (3, 0x80, 0xBF)
  else if b = 0xF4 then some (3, 0x80, 0x8F)
  else none

def isTail (b : Nat) : Bool := 0x80 ≤ b && b ≤ 0xBF

/-- The first character and the bytes after it. -/
def decodeChar? : List UInt8 → Option (Char × List UInt8)
  | [] => none
  | b :: rest =>
    let a := b.toNat
    if a < 0x80 then some (Char.ofNat a, rest)
    else match lead? a, rest with
      | some (1, low, high), c :: rest =>
        let c := c.toNat
        if low ≤ c ∧ c ≤ high then some (Char.ofNat (a % 32 * 64 + c % 64), rest) else none
      | some (2, low, high), c :: d :: rest =>
        let c := c.toNat
        let d := d.toNat
        if low ≤ c ∧ c ≤ high ∧ isTail d then
          some (Char.ofNat (a % 16 * 4096 + c % 64 * 64 + d % 64), rest)
        else none
      | some (3, low, high), c :: d :: e :: rest =>
        let c := c.toNat
        let d := d.toNat
        let e := e.toNat
        if low ≤ c ∧ c ≤ high ∧ isTail d ∧ isTail e then
          some (Char.ofNat (a % 8 * 262144 + c % 64 * 4096 + d % 64 * 64 + e % 64), rest)
        else none
      | _, _ => none

def decodeUpTo : Nat → List UInt8 → Option (List Char)
  | _, [] => some []
  | 0, _ :: _ => none
  | fuel + 1, bytes => do
    let (c, rest) ← decodeChar? bytes
    let text ← decodeUpTo fuel rest
    return c :: text

/-- The text of well-formed bytes: everything that `encode` does not write is refused. -/
def decode? (bytes : List UInt8) : Option (List Char) := decodeUpTo bytes.length bytes

/-- What follows the longest start of a character that malformed bytes begin with, at least one
byte on. -/
def skipMalformed : List UInt8 → List UInt8
  | [] => []
  | b :: rest =>
    match lead? b.toNat, rest with
    | some (n, low, high), c :: rest =>
      if low ≤ c.toNat ∧ c.toNat ≤ high then
        match rest with
        | d :: rest => if n = 3 ∧ isTail d.toNat then rest else d :: rest
        | [] => []
      else c :: rest
    | _, rest => rest

def decodeLossyUpTo : Nat → List UInt8 → List Char
  | _, [] => []
  | 0, _ :: _ => []
  | fuel + 1, bytes =>
    match decodeChar? bytes with
    | some (c, rest) => c :: decodeLossyUpTo fuel rest
    | none => '\uFFFD' :: decodeLossyUpTo fuel (skipMalformed bytes)

/-- Each maximal malformed piece becomes one replacement character. -/
def decodeLossy (bytes : List UInt8) : List Char := decodeLossyUpTo bytes.length bytes

def charSize (c : Char) : Nat :=
  if c.toNat < 0x80 then 1 else if c.toNat < 0x800 then 2 else if c.toNat < 0x10000 then 3 else 4

def size (text : List Char) : Nat := text.foldl (fun n c => n + charSize c) 0

/-- The character that takes exactly the one byte at an offset. -/
def singleByteAt? : List Char → Nat → Option Char
  | [], _ => none
  | c :: text, offset =>
    if offset = 0 then if charSize c = 1 then some c else none
    else if offset < charSize c then none
    else singleByteAt? text (offset - charSize c)

end ClaimMapping.Text.Utf8
