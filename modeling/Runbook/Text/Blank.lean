/-!
# Blank text

A character is blank when it has the white space property: the ASCII blanks from tab to carriage
return, the space, and the other spaces and separators of the standard.
-/

namespace Runbook.Text

def isBlank (c : Char) : Bool :=
  let code := c.toNat
  (0x9 ≤ code && code ≤ 0xd) || code == 0x20 || code == 0x85 || code == 0xa0 || code == 0x1680 ||
    (0x2000 ≤ code && code ≤ 0x200a) || code == 0x2028 || code == 0x2029 || code == 0x202f ||
    code == 0x205f || code == 0x3000

end Runbook.Text
