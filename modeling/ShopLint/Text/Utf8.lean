/-!
Text as bytes, and text from bytes. Every byte that is not part of an encoded character is read as a
character of its own that stands for such bytes.
-/

namespace ShopLint.Utf8

/-- The bytes of a text. -/
def encode (text : String) : List UInt8 := text.toList.flatMap String.utf8EncodeChar

/-- What stray bytes are read as. -/
def replacement : Char := '\uFFFD'

/-- What stray bytes of a document are read as: a character that no document may hold. -/
def noncharacter : Char := '\uFFFE'

def isTail (b : UInt8) : Bool := 0x80 ≤ b && b < 0xC0

def tailBits (b : UInt8) : Nat := b.toNat - 0x80

/-- The code of the character that starts with the byte `a`, and how many of the bytes that follow
belong to it. -/
def code? (a : UInt8) (rest : List UInt8) : Option (Nat × Nat) :=
  if a < 0x80 then some (a.toNat, 0)
  else
    match rest with
    | [] => none
    | b :: rest =>
      if !isTail b then none
      else if 0xC2 ≤ a && a < 0xE0 then some ((a.toNat - 0xC0) * 0x40 + tailBits b, 1)
      else
        match rest with
        | [] => none
        | c :: rest =>
          if !isTail c then none
          else if 0xE0 ≤ a && a < 0xF0 then
            let n := (a.toNat - 0xE0) * 0x1000 + tailBits b * 0x40 + tailBits c
            if n < 0x800 || (0xD800 ≤ n && n < 0xE000) then none else some (n, 2)
          else
            match rest with
            | [] => none
            | d :: _ =>
              if !isTail d || !(0xF0 ≤ a) then none
              else
                let n := (a.toNat - 0xF0) * 0x40000 + tailBits b * 0x1000 + tailBits c * 0x40 + tailBits d
                if n < 0x10000 || 0x10FFFF < n then none else some (n, 3)

/-- The characters after the first `skip` bytes, `stray` for each byte that is not part of one. -/
def decodeFrom (stray : Char) : Nat → List UInt8 → List Char
  | _, [] => []
  | skip + 1, _ :: rest => decodeFrom stray skip rest
  | 0, a :: rest =>
    match code? a rest with
    | some (n, more) => Char.ofNat n :: decodeFrom stray more rest
    | none => stray :: decodeFrom stray 0 rest

def decode (stray : Char) (bytes : List UInt8) : String := String.ofList (decodeFrom stray 0 bytes)

end ShopLint.Utf8
