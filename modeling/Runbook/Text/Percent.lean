import Runbook.Text.Digit

/-!
Percent escapes. In an address a character may be written as the bytes of its UTF-8 form, each as
a percent sign and two hexadecimal digits.
-/
namespace Runbook.Text

/-- The value of a hexadecimal digit. -/
def hexValue? (c : Char) : Option Nat :=
  if isDigit c then some (c.toNat - 48)
  else if 'a' ≤ c ∧ c ≤ 'f' then some (c.toNat - 87)
  else if 'A' ≤ c ∧ c ≤ 'F' then some (c.toNat - 55)
  else none

/-- The byte that an escape stands for. -/
def escapedByte? (high low : Char) : Option UInt8 := do
  return (16 * (← hexValue? high) + (← hexValue? low)).toUInt8

/-- The bytes of a text; escapes are bytes already. -/
def unescapedBytes : List Char → List UInt8
  | '%' :: high :: low :: rest =>
    match escapedByte? high low with
    | some b => b :: unescapedBytes rest
    | none => 37 :: unescapedBytes (high :: low :: rest)
  | c :: rest => (String.ofList [c]).toUTF8.toList ++ unescapedBytes rest
  | [] => []

/-- The text of some bytes. When they are not UTF-8, every byte outside ASCII becomes the
replacement character. -/
def ofBytes (bs : List UInt8) : String :=
  match String.fromUTF8? ⟨bs.toArray⟩ with
  | some s => s
  | none => String.ofList (bs.map fun b =>
      if b < 128 then Char.ofNat b.toNat else Char.ofNat 0xfffd)

/-- A text with its escapes taken out. -/
def percentDecoded (s : String) : String := ofBytes (unescapedBytes s.toList)

end Runbook.Text
