import TestBench.Text.HiddenTable
/-
  Quoted text in messages.

  Text stands between double quotes; quotes and backslashes are marked by a backslash, the common
  controls have short forms, and every other hidden character is shown by its code point in
  hexadecimal digits between braces.
-/
namespace TestBench.Text

/-- Whether a character has no visible form of its own. -/
def isHidden (c : Char) : Bool :=
  let n := c.toNat
  if 0x20 ≤ n ∧ n < 0x7F then false
  else hiddenRanges.any fun (first, last) => first ≤ n && n ≤ last

/-- Lower-case hexadecimal digits without leading zeros. -/
def hexText (n : Nat) : String := String.ofList (Nat.toDigits 16 n)

/-- One character as it stands between the quotes. -/
def quotedChar (c : Char) : String :=
  if c = '"' then "\\\""
  else if c = '\\' then "\\\\"
  else if c = '\n' then "\\n"
  else if c = '\r' then "\\r"
  else if c = '\t' then "\\t"
  else if c.toNat = 0 then "\\0"
  else if isHidden c then "\\u\x7b" ++ hexText c.toNat ++ "\x7d"
  else String.singleton c

/-- The text between double quotes, with everything invisible made visible. -/
def quoted (s : String) : String :=
  "\"" ++ String.join (s.toList.map quotedChar) ++ "\""

end TestBench.Text
