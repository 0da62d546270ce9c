/-!
# UTF-8

* `Bytes.encodeText` — the bytes of a text
* `Bytes.decodeText?` — the text of bytes; `none` for anything but the shortest form of each
  character, and for surrogates
-/

namespace TypedSheets.Bytes

/-- The lowest eight bits of a number. -/
def byte (n : Nat) : UInt8 := UInt8.ofNat n

/-- The bytes of a character. -/
def encodeChar (c : Char) : List UInt8 :=
  let n := c.toNat
  if n < 0x80 then [byte n]
  else if n < 0x800 then [byte (0xC0 + n / 0x40), byte (0x80 + n % 0x40)]
  else if n < 0x10000 then
    [byte (0xE0 + n / 0x1000), byte (0x80 + n / 0x40 % 0x40), byte (0x80 + n % 0x40)]
  else
    [byte (0xF0 + n / 0x40000), byte (0x80 + n / 0x1000 % 0x40), byte (0x80 + n / 0x40 % 0x40),
      byte (0x80 + n % 0x40)]

/-- The bytes of the characters of a text. -/
def encodeChars (s : List Char) : List UInt8 := s.flatMap encodeChar

/-- The bytes of a text. -/
def encodeText (s : String) : List UInt8 := encodeChars s.toList

/-- The six bits of a continuation byte. -/
def continuation? (b : UInt8) : Option Nat :=
  if b.toNat / 0x40 == 2 then some (b.toNat % 0x40) else none

/-- The character of a code point from `least` on, surrogates excepted. -/
def charFrom? (least n : Nat) : Option Char :=
  if h : n.isValidChar then if least ≤ n then some (Char.ofNatAux n h) else none else none

/-- The characters of bytes. -/
def decodeChars? : List UInt8 → Option (List Char)
  | [] => some []
  | b :: rest =>
    let n := b.toNat
    if n < 0x80 then (decodeChars? rest).map (Char.ofNat n :: ·)
    else
      match rest with
      | [] => none
      | b1 :: rest1 =>
        match continuation? b1 with
        | none => none
        | some c1 =>
          if 0xC0 ≤ n && n < 0xE0 then
            match charFrom? 0x80 ((n - 0xC0) * 0x40 + c1) with
            | some c => (decodeChars? rest1).map (c :: ·)
            | none => none
          else
            match rest1 with
            | [] => none
            | b2 :: rest2 =>
              match continuation? b2 with
              | none => none
              | some c2 =>
                if 0xE0 ≤ n && n < 0xF0 then
                  match charFrom? 0x800 ((n - 0xE0) * 0x1000 + c1 * 0x40 + c2) with
                  | some c => (decodeChars? rest2).map (c :: ·)
                  | none => none
                else
                  match rest2 with
                  | [] => none
                  | b3 :: rest3 =>
                    match continuation? b3 with
                    | none => none
                    | some c3 =>
                      if 0xF0 ≤ n && n < 0xF8 then
                        match charFrom? 0x10000
                            ((n - 0xF0) * 0x40000 + c1 * 0x1000 + c2 * 0x40 + c3) with
                        | some c => (decodeChars? rest3).map (c :: ·)
                        | none => none
                      else none

/-- The text of bytes. -/
def decodeText? (bytes : List UInt8) : Option String :=
  (decodeChars? bytes).map String.ofList

end TypedSheets.Bytes
