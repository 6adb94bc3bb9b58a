/-!
# White space

The characters that Unicode counts as white space, with the four information separators, which a
few line-oriented formats count too.
-/

set_option autoImplicit false

namespace CadenceEntry.Text

/-- Whether a character is white space. -/
def isBlank (c : Char) : Bool :=
  let n := c.toNat
  (9 ≤ n && n ≤ 13) || (28 ≤ n && n ≤ 32) || n == 0x85 || n == 0xa0 || n == 0x1680 ||
    (0x2000 ≤ n && n ≤ 0x200a) || n == 0x2028 || n == 0x2029 || n == 0x202f || n == 0x205f ||
    n == 0x3000

end CadenceEntry.Text
