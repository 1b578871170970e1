/-!
# UTF-8

`encode` writes a text in UTF-8.  `scan` reads bytes: it gives the characters there are, and `none` for every maximal
ill-formed part, that is, for every longest run of bytes that starts a character and cannot be completed, or else for a
single byte.  `decodeLossy` puts U+FFFD in the place of each such part, `decode?` accepts none.

* `scan_ascii`: bytes below 0x80 stand for themselves.
-/

namespace ThreatModel.Text

/-- The bytes of a character. -/
def encodeChar (c : Char) : List UInt8 :=
  let n := c.toNat
  if n < 0x80 then [n.toUInt8]
  else if n < 0x800 then [(0xC0 + n / 0x40).toUInt8, (0x80 + n % 0x40).toUInt8]
  else if n < 0x10000 then
    [(0xE0 + n / 0x1000).toUInt8, (0x80 + n / 0x40 % 0x40).toUInt8, (0x80 + n % 0x40).toUInt8]
  else
    [(0xF0 + n / 0x40000).toUInt8, (0x80 + n / 0x1000 % 0x40).toUInt8, (0x80 + n / 0x40 % 0x40).toUInt8,
      (0x80 + n % 0x40).toUInt8]

/-- The bytes of a text. -/
def encode (s : List Char) : List UInt8 := s.flatMap encodeChar

/-- How many bytes follow a lead byte, and the bounds of the first of them. -/
def leadBounds? (b : UInt8) : Option (Nat × UInt8 × UInt8) :=
  if 0xC2 ≤ b && b ≤ 0xDF then some (1, 0x80, 0xBF)
  else if b == 0xE0 then some (2, 0xA0, 0xBF)
  else if b == 0xED then some (2, 0x80, 0x9F)
  else if 0xE1 ≤ b && b ≤ 0xEF then some (2, 0x80, 0xBF)
  else if b == 0xF0 then some (3, 0x90, 0xBF)
  else if 0xF1 ≤ b && b ≤ 0xF3 then some (3, 0x80, 0xBF)
  else if b == 0xF4 then some (3, 0x80, 0x8F)
  else none

/-- A byte that continues a character. -/
def isContinuation (b : UInt8) : Bool := 0x80 ≤ b && b ≤ 0xBF

/-- The bits that a byte of a longer character adds. -/
def low6 (b : UInt8) : Nat := b.toNat % 0x40

/-- The characters written by bytes, and `none` for every maximal ill-formed part. -/
def scan : List UInt8 → List (Option Char)
  | []     => []
  | b :: s =>
    if b < 0x80 then some (Char.ofNat b.toNat) :: scan s
    else
      match leadBounds? b with
      | none => none :: scan s
      | some (more, lo, hi) =>
        match s with
        | []      => [none]
        | c :: s₁ =>
          if !(lo ≤ c && c ≤ hi) then none :: scan (c :: s₁)
          else if more = 1 then some (Char.ofNat (b.toNat % 0x20 * 0x40 + low6 c)) :: scan s₁
          else
            match s₁ with
            | []      => [none]
            | d :: s₂ =>
              if !isContinuation d then none :: scan (d :: s₂)
              else if more = 2 then
                some (Char.ofNat ((b.toNat % 0x10 * 0x40 + low6 c) * 0x40 + low6 d)) :: scan s₂
              else
                match s₂ with
                | []      => [none]
                | e :: s₃ =>
                  if !isContinuation e then none :: scan (e :: s₃)
                  else
                    some (Char.ofNat (((b.toNat % 8 * 0x40 + low6 c) * 0x40 + low6 d) * 0x40 + low6 e)) :: scan s₃
termination_by s => s.length

/-- The text of bytes, with U+FFFD for every ill-formed part. -/
def decodeLossy (bytes : List UInt8) : List Char := (scan bytes).map fun c => c.getD (Char.ofNat 0xFFFD)

/-- The text of bytes if all of them are well-formed. -/
def decode? (bytes : List UInt8) : Option (List Char) := (scan bytes).mapM id

/-- Bytes below 0x80 stand for themselves. -/
theorem scan_ascii {b : UInt8} (h : b < 0x80) (s : List UInt8) : scan (b :: s) = some (Char.ofNat b.toNat) :: scan s := by
  rw [scan]; simp [h]

end ThreatModel.Text
