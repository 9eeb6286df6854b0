/-!
# UTF-8 bytes

File names and file contents are bytes. `encode` writes a text as bytes and `decode` reads bytes
as a sequence of characters, with a gap (`none`) for each maximal run of bytes that begins a
character without completing it. `text?` is the text of bytes without gaps; `lossy` shows each
gap as the replacement character.
-/

namespace ImageLabeling.Utf8

/-- The bytes of a text. -/
def encode (text : String) : List UInt8 :=
  text.toList.flatMap String.utf8EncodeChar

/-- What a leading byte announces: how many bytes follow, the bits it contributes, and the range
of the next byte, which excludes overlong forms and surrogates. -/
def lead (b : UInt8) : Option (Nat × Nat × UInt8 × UInt8) :=
  if b < 0x80 then some (0, b.toNat, 0x80, 0xbf)
  else if b < 0xc2 then none
  else if b < 0xe0 then some (1, b.toNat - 0xc0, 0x80, 0xbf)
  else if b = 0xe0 then some (2, 0, 0xa0, 0xbf)
  else if b = 0xed then some (2, 0xd, 0x80, 0x9f)
  else if b < 0xf0 then some (2, b.toNat - 0xe0, 0x80, 0xbf)
  else if b = 0xf0 then some (3, 0, 0x90, 0xbf)
  else if b < 0xf4 then some (3, b.toNat - 0xf0, 0x80, 0xbf)
  else if b = 0xf4 then some (3, 4, 0x80, 0x8f)
  else none

/-- Reads the bytes that a leading byte announced, the next one between `low` and `high`. -/
def readTail : Nat → UInt8 → UInt8 → Nat → List UInt8 → Option Char × List UInt8
  | 0, _, _, code, rest => (some (Char.ofNat code), rest)
  | _ + 1, _, _, _, [] => (none, [])
  | n + 1, low, high, code, b :: rest =>
    if low ≤ b ∧ b ≤ high then readTail n 0x80 0xbf (64 * code + (b.toNat - 0x80)) rest
    else (none, b :: rest)

theorem length_readTail_le (n : Nat) (low high : UInt8) (code : Nat) (bytes : List UInt8) :
    (readTail n low high code bytes).2.length ≤ bytes.length := by
  fun_induction readTail n low high code bytes with
  | case1 | case2 | case4 => simp
  | case3 n low high code b rest h ih => simp only [List.length_cons]; omega

/-- Reads one character or one gap. -/
def readChar (b : UInt8) (rest : List UInt8) : Option Char × List UInt8 :=
  match lead b with
  | none => (none, rest)
  | some (n, code, low, high) => readTail n low high code rest

theorem length_readChar_le (b : UInt8) (rest : List UInt8) :
    (readChar b rest).2.length ≤ rest.length := by
  unfold readChar
  split
  · exact Nat.le_refl _
  · exact length_readTail_le ..

/-- The characters of a byte sequence, with a gap for each run that is no character. -/
def decode : List UInt8 → List (Option Char)
  | [] => []
  | b :: rest => (readChar b rest).1 :: decode (readChar b rest).2
termination_by bytes => bytes.length
decreasing_by exact Nat.lt_succ_of_le (length_readChar_le b rest)

/-- The text of a byte sequence, if it has no gaps. -/
def text? (bytes : List UInt8) : Option String :=
  ((decode bytes).mapM id).map String.ofList

/-- The text of a byte sequence with the replacement character for each gap. -/
def lossy (bytes : List UInt8) : String :=
  String.ofList ((decode bytes).map fun c => c.getD '\uFFFD')

end ImageLabeling.Utf8
