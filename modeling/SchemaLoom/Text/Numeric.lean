/-
  The numerals: the characters of the general category `N` (decimal digits,
  letter numbers and other numbers such as fractions).
-/
import SchemaLoom.Text.CodeRun

namespace SchemaLoom.Text

/-- The code points of the category `N`. -/
def numericRuns : List CodeRun := [
    ⟨48, 57, 1⟩, ⟨178, 179, 1⟩, ⟨185, 185, 1⟩, ⟨188, 190, 1⟩, ⟨1632, 1641, 1⟩,
    ⟨1776, 1785, 1⟩, ⟨1984, 1993, 1⟩, ⟨2406, 2415, 1⟩, ⟨2534, 2543, 1⟩, ⟨2548, 2553, 1⟩,
    ⟨2662, 2671, 1⟩, ⟨2790, 2799, 1⟩, ⟨2918, 2927, 1⟩, ⟨2930, 2935, 1⟩, ⟨3046, 3058, 1⟩,
    ⟨3174, 3183, 1⟩, ⟨3192, 3198, 1⟩, ⟨3302, 3311, 1⟩, ⟨3416, 3422, 1⟩, ⟨3430, 3448, 1⟩,
    ⟨3558, 3567, 1⟩, ⟨3664, 3673, 1⟩, ⟨3792, 3801, 1⟩, ⟨3872, 3891, 1⟩, ⟨4160, 4169, 1⟩,
    ⟨4240, 4249, 1⟩, ⟨4969, 4988, 1⟩, ⟨5870, 5872, 1⟩, ⟨6112, 6121, 1⟩, ⟨6128, 6137, 1⟩,
    ⟨6160, 6169, 1⟩, ⟨6470, 6479, 1⟩, ⟨6608, 6618, 1⟩, ⟨6784, 6793, 1⟩, ⟨6800, 6809, 1⟩,
    ⟨6992, 7001, 1⟩, ⟨7088, 7097, 1⟩, ⟨7232, 7241, 1⟩, ⟨7248, 7257, 1⟩, ⟨8304, 8304, 1⟩,
    ⟨8308, 8313, 1⟩, ⟨8320, 8329, 1⟩, ⟨8528, 8578, 1⟩, ⟨8581, 8585, 1⟩, ⟨9312, 9371, 1⟩,
    ⟨9450, 9471, 1⟩, ⟨10102, 10131, 1⟩, ⟨11517, 11517, 1⟩, ⟨12295, 12295, 1⟩,
    ⟨12321, 12329, 1⟩, ⟨12344, 12346, 1⟩, ⟨12690, 12693, 1⟩, ⟨12832, 12841, 1⟩,
    ⟨12872, 12879, 1⟩, ⟨12881, 12895, 1⟩, ⟨12928, 12937, 1⟩, ⟨12977, 12991, 1⟩,
    ⟨42528, 42537, 1⟩, ⟨42726, 42735, 1⟩, ⟨43056, 43061, 1⟩, ⟨43216, 43225, 1⟩,
    ⟨43264, 43273, 1⟩, ⟨43472, 43481, 1⟩, ⟨43504, 43513, 1⟩, ⟨43600, 43609, 1⟩,
    ⟨44016, 44025, 1⟩, ⟨65296, 65305, 1⟩, ⟨65799, 65843, 1⟩, ⟨65856, 65912, 1⟩,
    ⟨65930, 65931, 1⟩, ⟨66273, 66299, 1⟩, ⟨66336, 66339, 1⟩, ⟨66369, 66369, 1⟩,
    ⟨66378, 66378, 1⟩, ⟨66513, 66517, 1⟩, ⟨66720, 66729, 1⟩, ⟨67672, 67679, 1⟩,
    ⟨67705, 67711, 1⟩, ⟨67751, 67759, 1⟩, ⟨67835, 67839, 1⟩, ⟨67862, 67867, 1⟩,
    ⟨68028, 68029, 1⟩, ⟨68032, 68047, 1⟩, ⟨68050, 68095, 1⟩, ⟨68160, 68168, 1⟩,
    ⟨68221, 68222, 1⟩, ⟨68253, 68255, 1⟩, ⟨68331, 68335, 1⟩, ⟨68440, 68447, 1⟩,
    ⟨68472, 68479, 1⟩, ⟨68521, 68527, 1⟩, ⟨68858, 68863, 1⟩, ⟨68912, 68921, 1⟩,
    ⟨68928, 68937, 1⟩, ⟨69216, 69246, 1⟩, ⟨69405, 69414, 1⟩, ⟨69457, 69460, 1⟩,
    ⟨69573, 69579, 1⟩, ⟨69714, 69743, 1⟩, ⟨69872, 69881, 1⟩, ⟨69942, 69951, 1⟩,
    ⟨70096, 70105, 1⟩, ⟨70113, 70132, 1⟩, ⟨70384, 70393, 1⟩, ⟨70736, 70745, 1⟩,
    ⟨70864, 70873, 1⟩, ⟨71248, 71257, 1⟩, ⟨71360, 71369, 1⟩, ⟨71376, 71395, 1⟩,
    ⟨71472, 71483, 1⟩, ⟨71904, 71922, 1⟩, ⟨72016, 72025, 1⟩, ⟨72688, 72697, 1⟩,
    ⟨72784, 72812, 1⟩, ⟨73040, 73049, 1⟩, ⟨73120, 73129, 1⟩, ⟨73184, 73193, 1⟩,
    ⟨73552, 73561, 1⟩, ⟨73664, 73684, 1⟩, ⟨74752, 74862, 1⟩, ⟨90416, 90425, 1⟩,
    ⟨92768, 92777, 1⟩, ⟨92864, 92873, 1⟩, ⟨93008, 93017, 1⟩, ⟨93019, 93025, 1⟩,
    ⟨93552, 93561, 1⟩, ⟨93824, 93846, 1⟩, ⟨94196, 94198, 1⟩, ⟨118000, 118009, 1⟩,
    ⟨119488, 119507, 1⟩, ⟨119520, 119539, 1⟩, ⟨119648, 119672, 1⟩, ⟨120782, 120831, 1⟩,
    ⟨123200, 123209, 1⟩, ⟨123632, 123641, 1⟩, ⟨124144, 124153, 1⟩, ⟨124401, 124410, 1⟩,
    ⟨125127, 125135, 1⟩, ⟨125264, 125273, 1⟩, ⟨126065, 126123, 1⟩, ⟨126125, 126127, 1⟩,
    ⟨126129, 126132, 1⟩, ⟨126209, 126253, 1⟩, ⟨126255, 126269, 1⟩, ⟨127232, 127244, 1⟩,
    ⟨130032, 130041, 1⟩]

/-- Digits of every script, letter numbers, fractions and superscripts. -/
def isNumeric (c : Char) : Bool := inRuns numericRuns c.toNat

end SchemaLoom.Text
