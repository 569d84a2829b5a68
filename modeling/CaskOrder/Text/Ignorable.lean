/-!
# Characters that a display may leave out

An ignorable character is one that a display without special support for it shows as
nothing at all.  Most are format characters, marks, or code points kept free for such;
the four Hangul fillers are letters by their general category, and still have nothing to
be seen.  The ranges below are the Unicode 17.0 property `Default_Ignorable_Code_Point`.
-/

namespace CaskOrder.Text

/-- The ignorable code points, as closed ranges in ascending order. -/
def ignorableRanges : List (Nat × Nat) :=
  [(0xad, 0xad), (0x34f, 0x34f), (0x61c, 0x61c), (0x115f, 0x1160), (0x17b4, 0x17b5),
   (0x180b, 0x180f), (0x200b, 0x200f), (0x202a, 0x202e), (0x2060, 0x206f), (0x3164, 0x3164),
   (0xfe00, 0xfe0f), (0xfeff, 0xfeff), (0xffa0, 0xffa0), (0xfff0, 0xfff8), (0x1bca0, 0x1bca3),
   (0x1d173, 0x1d17a), (0xe0000, 0xe0fff)]

def isIgnorable (c : Char) : Bool :=
  ignorableRanges.any fun range => range.1 ≤ c.toNat && c.toNat ≤ range.2

end CaskOrder.Text
