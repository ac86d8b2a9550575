import RequestGate.Text.AlphanumericTable

/-!
# Letters and digits

`RequestGate.Text.isAlphanumeric` is the class of letters and numbers of any script.
-/

namespace RequestGate.Text

/-- Whether a character is a letter or a number. -/
def isAlphanumeric (c : Char) : Bool :=
  if c.toNat < 0x80 then c.isAlphanum
  else alphanumericRanges.any fun r => r.1 ≤ c.toNat && c.toNat ≤ r.2

end RequestGate.Text
