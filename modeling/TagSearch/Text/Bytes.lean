/-!
Text in bytes. Bytes that are no UTF-8 are read as replacement characters, one for each start of a character that
does not go on and one for each byte that no character starts with.
-/
namespace TagSearch.Text

def bytes (text : String) : List UInt8 := text.toUTF8.toList

/-- The first bytes of a character. -/
structure Opening where
  value : Nat
  /-- How many bytes are missing. -/
  missing : Nat
  /-- The least and the greatest byte that may follow. -/
  low : UInt8
  high : UInt8

/-- The first of several bytes of a character. The bounds leave out numbers that fewer bytes can hold, and those
that are no characters. -/
def Opening.ofByte? (b : UInt8) : Option Opening :=
  if b < 0xC2 then none
  else if b < 0xE0 then some ⟨b.toNat - 0xC0, 1, 0x80, 0xBF⟩
  else if b < 0xF0 then some ⟨b.toNat - 0xE0, 2, if b = 0xE0 then 0xA0 else 0x80, if b = 0xED then 0x9F else 0xBF⟩
  else if b < 0xF5 then some ⟨b.toNat - 0xF0, 3, if b = 0xF0 then 0x90 else 0x80, if b = 0xF4 then 0x8F else 0xBF⟩
  else none

/-- What a byte between two characters gives: a character, or the opening of one. -/
def startChar (b : UInt8) : List Char × Option Opening :=
  if b < 0x80 then ([Char.ofNat b.toNat], none)
  else match Opening.ofByte? b with
    | some opening => ([], some opening)
    | none => (['\ufffd'], none)

/-- What a byte after an opening gives. -/
def Opening.next (o : Opening) (b : UInt8) : List Char × Option Opening :=
  if o.low ≤ b ∧ b ≤ o.high then
    let value := 64 * o.value + (b.toNat - 0x80)
    if o.missing ≤ 1 then ([Char.ofNat value], none) else ([], some ⟨value, o.missing - 1, 0x80, 0xBF⟩)
  else
    let (read, opening) := startChar b
    ('\ufffd' :: read, opening)

/-- The characters in bytes after an opening. -/
def charsFrom (opening : Option Opening) : List UInt8 → List Char
  | [] => if opening.isSome then ['\ufffd'] else []
  | b :: rest =>
    let (read, opening) := match opening with
      | some o => o.next b
      | none => startChar b
    read ++ charsFrom opening rest

def ofBytes (bytes : List UInt8) : String := String.ofList (charsFrom none bytes)

end TagSearch.Text
