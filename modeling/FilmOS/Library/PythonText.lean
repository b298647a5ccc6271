import Mathlib.Data.List.Basic
import Mathlib.Data.List.TakeWhile
import Mathlib.Data.Nat.Notation

/-!
# Text as Python's `str` sees it

The operations of Python's built-in strings that look at character classes: white space (`isspace`,
`strip`, and `\s` of regular expressions; the property `White_Space` is a little narrower), decimal
digits (`\d`, which is every character of category `Nd`, and the value that `int`, `float` and
`Decimal` give it), full case folding (`casefold`) and lower case (`lower`). The tables are those of
Unicode 15.0, the version of the interpreter. Case folding and lower case are character by
character; the one context-dependent mapping, the final form of the Greek sigma under `lower`, is
left out.

`casefold_eq_empty_iff` is the fact that compatibility rules rest on: folding never makes a text
empty.
-/

set_option autoImplicit false
set_option relaxedAutoImplicit false

namespace FilmOS.PythonText

/-! ### Tables -/

/-- The code points for which `str.isspace` holds, which are also those matched by `\s`. -/
def spaceCodes : List ℕ :=
  [0x9, 0xa, 0xb, 0xc, 0xd, 0x1c, 0x1d, 0x1e, 0x1f, 0x20, 0x85, 0xa0, 0x1680, 0x2000, 0x2001,
    0x2002, 0x2003, 0x2004, 0x2005, 0x2006, 0x2007, 0x2008, 0x2009, 0x200a, 0x2028, 0x2029, 0x202f,
    0x205f, 0x3000]

/-- The code points with the property `White_Space`. `str.isspace` holds for four separators more.
-/
def whiteSpaceCodes : List ℕ :=
  [0x9, 0xa, 0xb, 0xc, 0xd, 0x20, 0x85, 0xa0, 0x1680, 0x2000, 0x2001, 0x2002, 0x2003, 0x2004,
    0x2005, 0x2006, 0x2007, 0x2008, 0x2009, 0x200a, 0x2028, 0x2029, 0x202f, 0x205f, 0x3000]

/-- The digits zero of category `Nd`; each is followed by its nine other digits. -/
def zeroDigits : List ℕ :=
  [0x30, 0x660, 0x6f0, 0x7c0, 0x966, 0x9e6, 0xa66, 0xae6, 0xb66, 0xbe6, 0xc66, 0xce6, 0xd66, 0xde6,
    0xe50, 0xed0, 0xf20, 0x1040, 0x1090, 0x17e0, 0x1810, 0x1946, 0x19d0, 0x1a80, 0x1a90, 0x1b50,
    0x1bb0, 0x1c40, 0x1c50, 0xa620, 0xa8d0, 0xa900, 0xa9d0, 0xa9f0, 0xaa50, 0xabf0, 0xff10,
    0x104a0, 0x10d30, 0x11066, 0x110f0, 0x11136, 0x111d0, 0x112f0, 0x11450, 0x114d0, 0x11650,
    0x116c0, 0x11730, 0x118e0, 0x11950, 0x11c50, 0x11d50, 0x11da0, 0x11f50, 0x16a60, 0x16ac0,
    0x16b50, 0x1d7ce, 0x1d7d8, 0x1d7e2, 0x1d7ec, 0x1d7f6, 0x1e140, 0x1e2f0, 0x1e4f0, 0x1e950,
    0x1fbf0]

/-- Case folding to one character: first and last code point of a run, its stride, and the image of
the first. -/
def foldRanges : List (ℕ × ℕ × ℕ × ℕ) :=
  [(0x41, 0x5a, 1, 0x61), (0xb5, 0xb5, 1, 0x3bc), (0xc0, 0xd6, 1, 0xe0), (0xd8, 0xde, 1, 0xf8),
    (0x100, 0x12e, 2, 0x101), (0x132, 0x136, 2, 0x133), (0x139, 0x147, 2, 0x13a),
    (0x14a, 0x176, 2, 0x14b), (0x178, 0x178, 1, 0xff), (0x179, 0x17d, 2, 0x17a),
    (0x17f, 0x17f, 1, 0x73), (0x181, 0x181, 1, 0x253), (0x182, 0x184, 2, 0x183),
    (0x186, 0x186, 1, 0x254), (0x187, 0x187, 1, 0x188), (0x189, 0x18a, 1, 0x256),
    (0x18b, 0x18b, 1, 0x18c), (0x18e, 0x18e, 1, 0x1dd), (0x18f, 0x18f, 1, 0x259),
    (0x190, 0x190, 1, 0x25b), (0x191, 0x191, 1, 0x192), (0x193, 0x193, 1, 0x260),
    (0x194, 0x194, 1, 0x263), (0x196, 0x196, 1, 0x269), (0x197, 0x197, 1, 0x268),
    (0x198, 0x198, 1, 0x199), (0x19c, 0x19c, 1, 0x26f), (0x19d, 0x19d, 1, 0x272),
    (0x19f, 0x19f, 1, 0x275), (0x1a0, 0x1a4, 2, 0x1a1), (0x1a6, 0x1a6, 1, 0x280),
    (0x1a7, 0x1a7, 1, 0x1a8), (0x1a9, 0x1a9, 1, 0x283), (0x1ac, 0x1ac, 1, 0x1ad),
    (0x1ae, 0x1ae, 1, 0x288), (0x1af, 0x1af, 1, 0x1b0), (0x1b1, 0x1b2, 1, 0x28a),
    (0x1b3, 0x1b5, 2, 0x1b4), (0x1b7, 0x1b7, 1, 0x292), (0x1b8, 0x1b8, 1, 0x1b9),
    (0x1bc, 0x1bc, 1, 0x1bd), (0x1c4, 0x1c4, 1, 0x1c6), (0x1c5, 0x1c5, 1, 0x1c6),
    (0x1c7, 0x1c7, 1, 0x1c9), (0x1c8, 0x1c8, 1, 0x1c9), (0x1ca, 0x1ca, 1, 0x1cc),
    (0x1cb, 0x1db, 2, 0x1cc), (0x1de, 0x1ee, 2, 0x1df), (0x1f1, 0x1f1, 1, 0x1f3),
    (0x1f2, 0x1f4, 2, 0x1f3), (0x1f6, 0x1f6, 1, 0x195), (0x1f7, 0x1f7, 1, 0x1bf),
    (0x1f8, 0x21e, 2, 0x1f9), (0x220, 0x220, 1, 0x19e), (0x222, 0x232, 2, 0x223),
    (0x23a, 0x23a, 1, 0x2c65), (0x23b, 0x23b, 1, 0x23c), (0x23d, 0x23d, 1, 0x19a),
    (0x23e, 0x23e, 1, 0x2c66), (0x241, 0x241, 1, 0x242), (0x243, 0x243, 1, 0x180),
    (0x244, 0x244, 1, 0x289), (0x245, 0x245, 1, 0x28c), (0x246, 0x24e, 2, 0x247),
    (0x345, 0x345, 1, 0x3b9), (0x370, 0x372, 2, 0x371), (0x376, 0x376, 1, 0x377),
    (0x37f, 0x37f, 1, 0x3f3), (0x386, 0x386, 1, 0x3ac), (0x388, 0x38a, 1, 0x3ad),
    (0x38c, 0x38c, 1, 0x3cc), (0x38e, 0x38f, 1, 0x3cd), (0x391, 0x3a1, 1, 0x3b1),
    (0x3a3, 0x3ab, 1, 0x3c3), (0x3c2, 0x3c2, 1, 0x3c3), (0x3cf, 0x3cf, 1, 0x3d7),
    (0x3d0, 0x3d0, 1, 0x3b2), (0x3d1, 0x3d1, 1, 0x3b8), (0x3d5, 0x3d5, 1, 0x3c6),
    (0x3d6, 0x3d6, 1, 0x3c0), (0x3d8, 0x3ee, 2, 0x3d9), (0x3f0, 0x3f0, 1, 0x3ba),
    (0x3f1, 0x3f1, 1, 0x3c1), (0x3f4, 0x3f4, 1, 0x3b8), (0x3f5, 0x3f5, 1, 0x3b5),
    (0x3f7, 0x3f7, 1, 0x3f8), (0x3f9, 0x3f9, 1, 0x3f2), (0x3fa, 0x3fa, 1, 0x3fb),
    (0x3fd, 0x3ff, 1, 0x37b), (0x400, 0x40f, 1, 0x450), (0x410, 0x42f, 1, 0x430),
    (0x460, 0x480, 2, 0x461), (0x48a, 0x4be, 2, 0x48b), (0x4c0, 0x4c0, 1, 0x4cf),
    (0x4c1, 0x4cd, 2, 0x4c2), (0x4d0, 0x52e, 2, 0x4d1), (0x531, 0x556, 1, 0x561),
    (0x10a0, 0x10c5, 1, 0x2d00), (0x10c7, 0x10c7, 1, 0x2d27), (0x10cd, 0x10cd, 1, 0x2d2d),
    (0x13f8, 0x13fd, 1, 0x13f0), (0x1c80, 0x1c80, 1, 0x432), (0x1c81, 0x1c81, 1, 0x434),
    (0x1c82, 0x1c82, 1, 0x43e), (0x1c83, 0x1c84, 1, 0x441), (0x1c85, 0x1c85, 1, 0x442),
    (0x1c86, 0x1c86, 1, 0x44a), (0x1c87, 0x1c87, 1, 0x463), (0x1c88, 0x1c88, 1, 0xa64b),
    (0x1c90, 0x1cba, 1, 0x10d0), (0x1cbd, 0x1cbf, 1, 0x10fd), (0x1e00, 0x1e94, 2, 0x1e01),
    (0x1e9b, 0x1e9b, 1, 0x1e61), (0x1ea0, 0x1efe, 2, 0x1ea1), (0x1f08, 0x1f0f, 1, 0x1f00),
    (0x1f18, 0x1f1d, 1, 0x1f10), (0x1f28, 0x1f2f, 1, 0x1f20), (0x1f38, 0x1f3f, 1, 0x1f30),
    (0x1f48, 0x1f4d, 1, 0x1f40), (0x1f59, 0x1f5f, 2, 0x1f51), (0x1f68, 0x1f6f, 1, 0x1f60),
    (0x1fb8, 0x1fb9, 1, 0x1fb0), (0x1fba, 0x1fbb, 1, 0x1f70), (0x1fbe, 0x1fbe, 1, 0x3b9),
    (0x1fc8, 0x1fcb, 1, 0x1f72), (0x1fd8, 0x1fd9, 1, 0x1fd0), (0x1fda, 0x1fdb, 1, 0x1f76),
    (0x1fe8, 0x1fe9, 1, 0x1fe0), (0x1fea, 0x1feb, 1, 0x1f7a), (0x1fec, 0x1fec, 1, 0x1fe5),
    (0x1ff8, 0x1ff9, 1, 0x1f78), (0x1ffa, 0x1ffb, 1, 0x1f7c), (0x2126, 0x2126, 1, 0x3c9),
    (0x212a, 0x212a, 1, 0x6b), (0x212b, 0x212b, 1, 0xe5), (0x2132, 0x2132, 1, 0x214e),
    (0x2160, 0x216f, 1, 0x2170), (0x2183, 0x2183, 1, 0x2184), (0x24b6, 0x24cf, 1, 0x24d0),
    (0x2c00, 0x2c2f, 1, 0x2c30), (0x2c60, 0x2c60, 1, 0x2c61), (0x2c62, 0x2c62, 1, 0x26b),
    (0x2c63, 0x2c63, 1, 0x1d7d), (0x2c64, 0x2c64, 1, 0x27d), (0x2c67, 0x2c6b, 2, 0x2c68),
    (0x2c6d, 0x2c6d, 1, 0x251), (0x2c6e, 0x2c6e, 1, 0x271), (0x2c6f, 0x2c6f, 1, 0x250),
    (0x2c70, 0x2c70, 1, 0x252), (0x2c72, 0x2c72, 1, 0x2c73), (0x2c75, 0x2c75, 1, 0x2c76),
    (0x2c7e, 0x2c7f, 1, 0x23f), (0x2c80, 0x2ce2, 2, 0x2c81), (0x2ceb, 0x2ced, 2, 0x2cec),
    (0x2cf2, 0x2cf2, 1, 0x2cf3), (0xa640, 0xa66c, 2, 0xa641), (0xa680, 0xa69a, 2, 0xa681),
    (0xa722, 0xa72e, 2, 0xa723), (0xa732, 0xa76e, 2, 0xa733), (0xa779, 0xa77b, 2, 0xa77a),
    (0xa77d, 0xa77d, 1, 0x1d79), (0xa77e, 0xa786, 2, 0xa77f), (0xa78b, 0xa78b, 1, 0xa78c),
    (0xa78d, 0xa78d, 1, 0x265), (0xa790, 0xa792, 2, 0xa791), (0xa796, 0xa7a8, 2, 0xa797),
    (0xa7aa, 0xa7aa, 1, 0x266), (0xa7ab, 0xa7ab, 1, 0x25c), (0xa7ac, 0xa7ac, 1, 0x261),
    (0xa7ad, 0xa7ad, 1, 0x26c), (0xa7ae, 0xa7ae, 1, 0x26a), (0xa7b0, 0xa7b0, 1, 0x29e),
    (0xa7b1, 0xa7b1, 1, 0x287), (0xa7b2, 0xa7b2, 1, 0x29d), (0xa7b3, 0xa7b3, 1, 0xab53),
    (0xa7b4, 0xa7c2, 2, 0xa7b5), (0xa7c4, 0xa7c4, 1, 0xa794), (0xa7c5, 0xa7c5, 1, 0x282),
    (0xa7c6, 0xa7c6, 1, 0x1d8e), (0xa7c7, 0xa7c9, 2, 0xa7c8), (0xa7d0, 0xa7d0, 1, 0xa7d1),
    (0xa7d6, 0xa7d8, 2, 0xa7d7), (0xa7f5, 0xa7f5, 1, 0xa7f6), (0xab70, 0xabbf, 1, 0x13a0),
    (0xff21, 0xff3a, 1, 0xff41), (0x10400, 0x10427, 1, 0x10428), (0x104b0, 0x104d3, 1, 0x104d8),
    (0x10570, 0x1057a, 1, 0x10597), (0x1057c, 0x1058a, 1, 0x105a3), (0x1058c, 0x10592, 1, 0x105b3),
    (0x10594, 0x10595, 1, 0x105bb), (0x10c80, 0x10cb2, 1, 0x10cc0), (0x118a0, 0x118bf, 1, 0x118c0),
    (0x16e40, 0x16e5f, 1, 0x16e60), (0x1e900, 0x1e921, 1, 0x1e922)]

/-- Case folding to several characters. -/
def foldExpansions : List (ℕ × List ℕ) :=
  [(0xdf, [0x73, 0x73]), (0x130, [0x69, 0x307]), (0x149, [0x2bc, 0x6e]), (0x1f0, [0x6a, 0x30c]),
    (0x390, [0x3b9, 0x308, 0x301]), (0x3b0, [0x3c5, 0x308, 0x301]), (0x587, [0x565, 0x582]),
    (0x1e96, [0x68, 0x331]), (0x1e97, [0x74, 0x308]), (0x1e98, [0x77, 0x30a]),
    (0x1e99, [0x79, 0x30a]), (0x1e9a, [0x61, 0x2be]), (0x1e9e, [0x73, 0x73]),
    (0x1f50, [0x3c5, 0x313]), (0x1f52, [0x3c5, 0x313, 0x300]), (0x1f54, [0x3c5, 0x313, 0x301]),
    (0x1f56, [0x3c5, 0x313, 0x342]), (0x1f80, [0x1f00, 0x3b9]), (0x1f81, [0x1f01, 0x3b9]),
    (0x1f82, [0x1f02, 0x3b9]), (0x1f83, [0x1f03, 0x3b9]), (0x1f84, [0x1f04, 0x3b9]),
    (0x1f85, [0x1f05, 0x3b9]), (0x1f86, [0x1f06, 0x3b9]), (0x1f87, [0x1f07, 0x3b9]),
    (0x1f88, [0x1f00, 0x3b9]), (0x1f89, [0x1f01, 0x3b9]), (0x1f8a, [0x1f02, 0x3b9]),
    (0x1f8b, [0x1f03, 0x3b9]), (0x1f8c, [0x1f04, 0x3b9]), (0x1f8d, [0x1f05, 0x3b9]),
    (0x1f8e, [0x1f06, 0x3b9]), (0x1f8f, [0x1f07, 0x3b9]), (0x1f90, [0x1f20, 0x3b9]),
    (0x1f91, [0x1f21, 0x3b9]), (0x1f92, [0x1f22, 0x3b9]), (0x1f93, [0x1f23, 0x3b9]),
    (0x1f94, [0x1f24, 0x3b9]), (0x1f95, [0x1f25, 0x3b9]), (0x1f96, [0x1f26, 0x3b9]),
    (0x1f97, [0x1f27, 0x3b9]), (0x1f98, [0x1f20, 0x3b9]), (0x1f99, [0x1f21, 0x3b9]),
    (0x1f9a, [0x1f22, 0x3b9]), (0x1f9b, [0x1f23, 0x3b9]), (0x1f9c, [0x1f24, 0x3b9]),
    (0x1f9d, [0x1f25, 0x3b9]), (0x1f9e, [0x1f26, 0x3b9]), (0x1f9f, [0x1f27, 0x3b9]),
    (0x1fa0, [0x1f60, 0x3b9]), (0x1fa1, [0x1f61, 0x3b9]), (0x1fa2, [0x1f62, 0x3b9]),
    (0x1fa3, [0x1f63, 0x3b9]), (0x1fa4, [0x1f64, 0x3b9]), (0x1fa5, [0x1f65, 0x3b9]),
    (0x1fa6, [0x1f66, 0x3b9]), (0x1fa7, [0x1f67, 0x3b9]), (0x1fa8, [0x1f60, 0x3b9]),
    (0x1fa9, [0x1f61, 0x3b9]), (0x1faa, [0x1f62, 0x3b9]), (0x1fab, [0x1f63, 0x3b9]),
    (0x1fac, [0x1f64, 0x3b9]), (0x1fad, [0x1f65, 0x3b9]), (0x1fae, [0x1f66, 0x3b9]),
    (0x1faf, [0x1f67, 0x3b9]), (0x1fb2, [0x1f70, 0x3b9]), (0x1fb3, [0x3b1, 0x3b9]),
    (0x1fb4, [0x3ac, 0x3b9]), (0x1fb6, [0x3b1, 0x342]), (0x1fb7, [0x3b1, 0x342, 0x3b9]),
    (0x1fbc, [0x3b1, 0x3b9]), (0x1fc2, [0x1f74, 0x3b9]), (0x1fc3, [0x3b7, 0x3b9]),
    (0x1fc4, [0x3ae, 0x3b9]), (0x1fc6, [0x3b7, 0x342]), (0x1fc7, [0x3b7, 0x342, 0x3b9]),
    (0x1fcc, [0x3b7, 0x3b9]), (0x1fd2, [0x3b9, 0x308, 0x300]), (0x1fd3, [0x3b9, 0x308, 0x301]),
    (0x1fd6, [0x3b9, 0x342]), (0x1fd7, [0x3b9, 0x308, 0x342]), (0x1fe2, [0x3c5, 0x308, 0x300]),
    (0x1fe3, [0x3c5, 0x308, 0x301]), (0x1fe4, [0x3c1, 0x313]), (0x1fe6, [0x3c5, 0x342]),
    (0x1fe7, [0x3c5, 0x308, 0x342]), (0x1ff2, [0x1f7c, 0x3b9]), (0x1ff3, [0x3c9, 0x3b9]),
    (0x1ff4, [0x3ce, 0x3b9]), (0x1ff6, [0x3c9, 0x342]), (0x1ff7, [0x3c9, 0x342, 0x3b9]),
    (0x1ffc, [0x3c9, 0x3b9]), (0xfb00, [0x66, 0x66]), (0xfb01, [0x66, 0x69]),
    (0xfb02, [0x66, 0x6c]), (0xfb03, [0x66, 0x66, 0x69]), (0xfb04, [0x66, 0x66, 0x6c]),
    (0xfb05, [0x73, 0x74]), (0xfb06, [0x73, 0x74]), (0xfb13, [0x574, 0x576]),
    (0xfb14, [0x574, 0x565]), (0xfb15, [0x574, 0x56b]), (0xfb16, [0x57e, 0x576]),
    (0xfb17, [0x574, 0x56d])]

/-- Lower case to one character, in the form of `foldRanges`. -/
def lowerRanges : List (ℕ × ℕ × ℕ × ℕ) :=
  [(0x41, 0x5a, 1, 0x61), (0xc0, 0xd6, 1, 0xe0), (0xd8, 0xde, 1, 0xf8), (0x100, 0x12e, 2, 0x101),
    (0x132, 0x136, 2, 0x133), (0x139, 0x147, 2, 0x13a), (0x14a, 0x176, 2, 0x14b),
    (0x178, 0x178, 1, 0xff), (0x179, 0x17d, 2, 0x17a), (0x181, 0x181, 1, 0x253),
    (0x182, 0x184, 2, 0x183), (0x186, 0x186, 1, 0x254), (0x187, 0x187, 1, 0x188),
    (0x189, 0x18a, 1, 0x256), (0x18b, 0x18b, 1, 0x18c), (0x18e, 0x18e, 1, 0x1dd),
    (0x18f, 0x18f, 1, 0x259), (0x190, 0x190, 1, 0x25b), (0x191, 0x191, 1, 0x192),
    (0x193, 0x193, 1, 0x260), (0x194, 0x194, 1, 0x263), (0x196, 0x196, 1, 0x269),
    (0x197, 0x197, 1, 0x268), (0x198, 0x198, 1, 0x199), (0x19c, 0x19c, 1, 0x26f),
    (0x19d, 0x19d, 1, 0x272), (0x19f, 0x19f, 1, 0x275), (0x1a0, 0x1a4, 2, 0x1a1),
    (0x1a6, 0x1a6, 1, 0x280), (0x1a7, 0x1a7, 1, 0x1a8), (0x1a9, 0x1a9, 1, 0x283),
    (0x1ac, 0x1ac, 1, 0x1ad), (0x1ae, 0x1ae, 1, 0x288), (0x1af, 0x1af, 1, 0x1b0),
    (0x1b1, 0x1b2, 1, 0x28a), (0x1b3, 0x1b5, 2, 0x1b4), (0x1b7, 0x1b7, 1, 0x292),
    (0x1b8, 0x1b8, 1, 0x1b9), (0x1bc, 0x1bc, 1, 0x1bd), (0x1c4, 0x1c4, 1, 0x1c6),
    (0x1c5, 0x1c5, 1, 0x1c6), (0x1c7, 0x1c7, 1, 0x1c9), (0x1c8, 0x1c8, 1, 0x1c9),
    (0x1ca, 0x1ca, 1, 0x1cc), (0x1cb, 0x1db, 2, 0x1cc), (0x1de, 0x1ee, 2, 0x1df),
    (0x1f1, 0x1f1, 1, 0x1f3), (0x1f2, 0x1f4, 2, 0x1f3), (0x1f6, 0x1f6, 1, 0x195),
    (0x1f7, 0x1f7, 1, 0x1bf), (0x1f8, 0x21e, 2, 0x1f9), (0x220, 0x220, 1, 0x19e),
    (0x222, 0x232, 2, 0x223), (0x23a, 0x23a, 1, 0x2c65), (0x23b, 0x23b, 1, 0x23c),
    (0x23d, 0x23d, 1, 0x19a), (0x23e, 0x23e, 1, 0x2c66), (0x241, 0x241, 1, 0x242),
    (0x243, 0x243, 1, 0x180), (0x244, 0x244, 1, 0x289), (0x245, 0x245, 1, 0x28c),
    (0x246, 0x24e, 2, 0x247), (0x370, 0x372, 2, 0x371), (0x376, 0x376, 1, 0x377),
    (0x37f, 0x37f, 1, 0x3f3), (0x386, 0x386, 1, 0x3ac), (0x388, 0x38a, 1, 0x3ad),
    (0x38c, 0x38c, 1, 0x3cc), (0x38e, 0x38f, 1, 0x3cd), (0x391, 0x3a1, 1, 0x3b1),
    (0x3a3, 0x3ab, 1, 0x3c3), (0x3cf, 0x3cf, 1, 0x3d7), (0x3d8, 0x3ee, 2, 0x3d9),
    (0x3f4, 0x3f4, 1, 0x3b8), (0x3f7, 0x3f7, 1, 0x3f8), (0x3f9, 0x3f9, 1, 0x3f2),
    (0x3fa, 0x3fa, 1, 0x3fb), (0x3fd, 0x3ff, 1, 0x37b), (0x400, 0x40f, 1, 0x450),
    (0x410, 0x42f, 1, 0x430), (0x460, 0x480, 2, 0x461), (0x48a, 0x4be, 2, 0x48b),
    (0x4c0, 0x4c0, 1, 0x4cf), (0x4c1, 0x4cd, 2, 0x4c2), (0x4d0, 0x52e, 2, 0x4d1),
    (0x531, 0x556, 1, 0x561), (0x10a0, 0x10c5, 1, 0x2d00), (0x10c7, 0x10c7, 1, 0x2d27),
    (0x10cd, 0x10cd, 1, 0x2d2d), (0x13a0, 0x13ef, 1, 0xab70), (0x13f0, 0x13f5, 1, 0x13f8),
    (0x1c90, 0x1cba, 1, 0x10d0), (0x1cbd, 0x1cbf, 1, 0x10fd), (0x1e00, 0x1e94, 2, 0x1e01),
    (0x1e9e, 0x1e9e, 1, 0xdf), (0x1ea0, 0x1efe, 2, 0x1ea1), (0x1f08, 0x1f0f, 1, 0x1f00),
    (0x1f18, 0x1f1d, 1, 0x1f10), (0x1f28, 0x1f2f, 1, 0x1f20), (0x1f38, 0x1f3f, 1, 0x1f30),
    (0x1f48, 0x1f4d, 1, 0x1f40), (0x1f59, 0x1f5f, 2, 0x1f51), (0x1f68, 0x1f6f, 1, 0x1f60),
    (0x1f88, 0x1f8f, 1, 0x1f80), (0x1f98, 0x1f9f, 1, 0x1f90), (0x1fa8, 0x1faf, 1, 0x1fa0),
    (0x1fb8, 0x1fb9, 1, 0x1fb0), (0x1fba, 0x1fbb, 1, 0x1f70), (0x1fbc, 0x1fbc, 1, 0x1fb3),
    (0x1fc8, 0x1fcb, 1, 0x1f72), (0x1fcc, 0x1fcc, 1, 0x1fc3), (0x1fd8, 0x1fd9, 1, 0x1fd0),
    (0x1fda, 0x1fdb, 1, 0x1f76), (0x1fe8, 0x1fe9, 1, 0x1fe0), (0x1fea, 0x1feb, 1, 0x1f7a),
    (0x1fec, 0x1fec, 1, 0x1fe5), (0x1ff8, 0x1ff9, 1, 0x1f78), (0x1ffa, 0x1ffb, 1, 0x1f7c),
    (0x1ffc, 0x1ffc, 1, 0x1ff3), (0x2126, 0x2126, 1, 0x3c9), (0x212a, 0x212a, 1, 0x6b),
    (0x212b, 0x212b, 1, 0xe5), (0x2132, 0x2132, 1, 0x214e), (0x2160, 0x216f, 1, 0x2170),
    (0x2183, 0x2183, 1, 0x2184), (0x24b6, 0x24cf, 1, 0x24d0), (0x2c00, 0x2c2f, 1, 0x2c30),
    (0x2c60, 0x2c60, 1, 0x2c61), (0x2c62, 0x2c62, 1, 0x26b), (0x2c63, 0x2c63, 1, 0x1d7d),
    (0x2c64, 0x2c64, 1, 0x27d), (0x2c67, 0x2c6b, 2, 0x2c68), (0x2c6d, 0x2c6d, 1, 0x251),
    (0x2c6e, 0x2c6e, 1, 0x271), (0x2c6f, 0x2c6f, 1, 0x250), (0x2c70, 0x2c70, 1, 0x252),
    (0x2c72, 0x2c72, 1, 0x2c73), (0x2c75, 0x2c75, 1, 0x2c76), (0x2c7e, 0x2c7f, 1, 0x23f),
    (0x2c80, 0x2ce2, 2, 0x2c81), (0x2ceb, 0x2ced, 2, 0x2cec), (0x2cf2, 0x2cf2, 1, 0x2cf3),
    (0xa640, 0xa66c, 2, 0xa641), (0xa680, 0xa69a, 2, 0xa681), (0xa722, 0xa72e, 2, 0xa723),
    (0xa732, 0xa76e, 2, 0xa733), (0xa779, 0xa77b, 2, 0xa77a), (0xa77d, 0xa77d, 1, 0x1d79),
    (0xa77e, 0xa786, 2, 0xa77f), (0xa78b, 0xa78b, 1, 0xa78c), (0xa78d, 0xa78d, 1, 0x265),
    (0xa790, 0xa792, 2, 0xa791), (0xa796, 0xa7a8, 2, 0xa797), (0xa7aa, 0xa7aa, 1, 0x266),
    (0xa7ab, 0xa7ab, 1, 0x25c), (0xa7ac, 0xa7ac, 1, 0x261), (0xa7ad, 0xa7ad, 1, 0x26c),
    (0xa7ae, 0xa7ae, 1, 0x26a), (0xa7b0, 0xa7b0, 1, 0x29e), (0xa7b1, 0xa7b1, 1, 0x287),
    (0xa7b2, 0xa7b2, 1, 0x29d), (0xa7b3, 0xa7b3, 1, 0xab53), (0xa7b4, 0xa7c2, 2, 0xa7b5),
    (0xa7c4, 0xa7c4, 1, 0xa794), (0xa7c5, 0xa7c5, 1, 0x282), (0xa7c6, 0xa7c6, 1, 0x1d8e),
    (0xa7c7, 0xa7c9, 2, 0xa7c8), (0xa7d0, 0xa7d0, 1, 0xa7d1), (0xa7d6, 0xa7d8, 2, 0xa7d7),
    (0xa7f5, 0xa7f5, 1, 0xa7f6), (0xff21, 0xff3a, 1, 0xff41), (0x10400, 0x10427, 1, 0x10428),
    (0x104b0, 0x104d3, 1, 0x104d8), (0x10570, 0x1057a, 1, 0x10597), (0x1057c, 0x1058a, 1, 0x105a3),
    (0x1058c, 0x10592, 1, 0x105b3), (0x10594, 0x10595, 1, 0x105bb), (0x10c80, 0x10cb2, 1, 0x10cc0),
    (0x118a0, 0x118bf, 1, 0x118c0), (0x16e40, 0x16e5f, 1, 0x16e60), (0x1e900, 0x1e921, 1, 0x1e922)]

/-- Lower case to several characters. -/
def lowerExpansions : List (ℕ × List ℕ) :=
  [(0x130, [0x69, 0x307])]

/-! ### Characters -/

/-- `str.isspace` on one character. -/
def isSpace (c : Char) : Bool := spaceCodes.contains c.toNat

/-- The character is white space by its property `White_Space`. -/
def isWhiteSpace (c : Char) : Bool := whiteSpaceCodes.contains c.toNat

/-- The value of a decimal digit of any script. -/
def digitValue? (c : Char) : Option ℕ :=
  (zeroDigits.find? (fun first ↦ first ≤ c.toNat ∧ c.toNat < first + 10)).map (c.toNat - ·)

/-- `\d` on one character. -/
def isDigit (c : Char) : Bool := (digitValue? c).isSome

/-- The image of a code point under a table of runs and a table of expansions. -/
def mapCode (ranges : List (ℕ × ℕ × ℕ × ℕ)) (expansions : List (ℕ × List ℕ)) (code : ℕ) :
    List ℕ :=
  match expansions.find? (fun entry ↦ entry.1 = code) with
  | some entry => entry.2
  | none =>
    match ranges.find? (fun (first, last, stride, _) ↦
        first ≤ code ∧ code ≤ last ∧ (code - first) % stride = 0) with
    | some (first, _, _, image) => [image + (code - first)]
    | none => [code]

/-- The full case folding of one character. -/
def foldChar (c : Char) : List Char :=
  (mapCode foldRanges foldExpansions c.toNat).map Char.ofNat

/-- The lower case of one character. -/
def lowerChar (c : Char) : List Char :=
  (mapCode lowerRanges lowerExpansions c.toNat).map Char.ofNat

/-! ### Strings -/

/-- A text without the white space at its ends, for a notion of white space. -/
def stripBy (space : Char → Bool) (s : String) : String :=
  String.ofList ((s.toList.dropWhile space).reverse.dropWhile space).reverse

/-- `str.strip()`. -/
def strip (s : String) : String := stripBy isSpace s

/-- The trimming of a schema with `str_strip_whitespace`, which goes by the property
`White_Space`. -/
def trim (s : String) : String := stripBy isWhiteSpace s

/-- `str.casefold()`. -/
def casefold (s : String) : String := String.ofList (s.toList.flatMap foldChar)

/-- `str.lower()`. -/
def lower (s : String) : String := String.ofList (s.toList.flatMap lowerChar)

/-- `str.replace(c, "")` for one character. -/
def removeChar (c : Char) (s : String) : String := String.ofList (s.toList.filter (· ≠ c))

/-- `str.endswith`. -/
def endsWith (s suffix : String) : Bool := suffix.toList.isSuffixOf s.toList

/-- `separator.join(parts)`. -/
def join (separator : String) (parts : List String) : String := String.intercalate separator parts

section Strip

variable {space : Char → Bool}

/-- A text without white space at its ends is left alone. -/
theorem stripBy_ofList {text rest init : List Char} {first last : Char}
    (hfirst : text = first :: rest) (hlast : text = init ++ [last])
    (hfirstSpace : space first = false) (hlastSpace : space last = false) :
    stripBy space (String.ofList text) = String.ofList text := by
  have hleft : text.dropWhile space = text := by
    rw [hfirst, List.dropWhile_cons_of_neg (by simp [hfirstSpace])]
  have hright : text.reverse.dropWhile space = text.reverse := by
    rw [hlast, List.reverse_append, List.reverse_singleton, List.singleton_append,
      List.dropWhile_cons_of_neg (by simp [hlastSpace])]
  unfold stripBy
  rw [String.toList_ofList, hleft, hright, List.reverse_reverse]

/-- Nothing is left to strip from a stripped text. -/
theorem stripBy_stripBy (space : Char → Bool) (s : String) :
    stripBy space (stripBy space s) = stripBy space s := by
  set text := ((s.toList.dropWhile space).reverse.dropWhile space).reverse with htext
  change stripBy space (String.ofList text) = String.ofList text
  rcases List.eq_nil_or_concat text with hnil | ⟨init, last, hlast⟩
  · rw [hnil]
    rfl
  · obtain ⟨first, rest, hfirst⟩ := List.exists_cons_of_ne_nil
      (show text ≠ [] by rw [hlast]; simp)
    rw [List.concat_eq_append] at hlast
    refine stripBy_ofList hfirst hlast ?_ ?_
    · have hhead : (s.toList.dropWhile space).head? = some first := by
        obtain ⟨dropped, hdropped⟩ : text <+: s.toList.dropWhile space := by
          rw [htext, ← List.reverse_suffix, List.reverse_reverse]
          exact List.dropWhile_suffix _
        rw [← hdropped, hfirst]
        rfl
      have := List.head?_dropWhile_not space s.toList
      rw [hhead] at this
      simpa using this
    · have hhead : ((s.toList.dropWhile space).reverse.dropWhile space).head? = some last := by
        rw [← List.reverse_reverse (List.dropWhile _ _), ← htext, hlast]
        simp
      have := List.head?_dropWhile_not space (s.toList.dropWhile space).reverse
      rw [hhead] at this
      simpa using this

theorem length_stripBy_le (space : Char → Bool) (s : String) :
    (stripBy space s).length ≤ s.length := by
  unfold stripBy
  rw [String.length_ofList, List.length_reverse, ← String.length_toList]
  calc _ ≤ (s.toList.dropWhile space).reverse.length := (List.dropWhile_suffix _).length_le
    _ = (s.toList.dropWhile space).length := List.length_reverse
    _ ≤ s.toList.length := (List.dropWhile_suffix _).length_le

/-- A text without white space is left alone. -/
theorem stripBy_of_noSpace {text : List Char} (h : ∀ c ∈ text, space c = false) :
    stripBy space (String.ofList text) = String.ofList text := by
  rcases List.eq_nil_or_concat text with rfl | ⟨init, last, hlast⟩
  · rfl
  · obtain ⟨first, rest, hfirst⟩ := List.exists_cons_of_ne_nil
      (show text ≠ [] by rw [hlast]; simp)
    rw [List.concat_eq_append] at hlast
    exact stripBy_ofList hfirst hlast (h first (by simp [hfirst])) (h last (by simp [hlast]))

/-- What is stripped off a text is white space. -/
theorem mem_stripBy {s : String} {c : Char} (h : c ∈ s.toList) :
    c ∈ (stripBy space s).toList ∨ space c = true := by
  have hends : ∀ {text : List Char}, c ∈ text → c ∈ text.dropWhile space ∨ space c = true := by
    intro text hc
    rw [← @List.takeWhile_append_dropWhile _ space text, List.mem_append] at hc
    exact hc.symm.imp_right List.mem_takeWhile_imp
  unfold stripBy
  rw [String.toList_ofList, List.mem_reverse]
  rcases hends h with hleft | hspace
  · exact hends (List.mem_reverse.mpr hleft)
  · exact Or.inr hspace

/-- Nothing is left of a text exactly when it is white space throughout. -/
theorem stripBy_eq_empty_iff {s : String} :
    stripBy space s = "" ↔ ∀ c ∈ s.toList, space c = true := by
  constructor
  · intro h c hc
    refine (mem_stripBy hc).resolve_left ?_
    rw [h]
    exact List.not_mem_nil
  · intro h
    have hleft : s.toList.dropWhile space = [] := List.dropWhile_eq_nil_iff.mpr h
    unfold stripBy
    rw [hleft]
    rfl

end Strip

theorem strip_strip (s : String) : strip (strip s) = strip s := stripBy_stripBy isSpace s

theorem trim_trim (s : String) : trim (trim s) = trim s := stripBy_stripBy isWhiteSpace s

theorem length_trim_le (s : String) : (trim s).length ≤ s.length := length_stripBy_le isWhiteSpace s

/-- What has the property `White_Space` is white space for Python. -/
theorem isSpace_of_isWhiteSpace {c : Char} (h : isWhiteSpace c = true) : isSpace c = true := by
  have hcodes : ∀ code ∈ whiteSpaceCodes, code ∈ spaceCodes := by decide
  exact List.contains_iff_mem.mpr (hcodes _ (List.contains_iff_mem.mp h))

theorem strip_of_noSpace {text : List Char} (h : ∀ c ∈ text, isSpace c = false) :
    strip (String.ofList text) = String.ofList text :=
  stripBy_of_noSpace h

theorem trim_of_noSpace {text : List Char} (h : ∀ c ∈ text, isSpace c = false) :
    trim (String.ofList text) = String.ofList text := by
  refine stripBy_of_noSpace fun c hc ↦ Bool.eq_false_iff.mpr fun hwhite ↦ ?_
  have hspace := isSpace_of_isWhiteSpace hwhite
  rw [h c hc] at hspace
  cases hspace

/-- A text that is not white space throughout is not so when it was trimmed. -/
theorem strip_trim_ne_empty {s : String} (h : strip s ≠ "") : strip (trim s) ≠ "" := by
  refine fun htrimmed ↦ h (stripBy_eq_empty_iff.mpr fun c hc ↦ ?_)
  rcases @mem_stripBy isWhiteSpace _ _ hc with hkept | hwhite
  · exact stripBy_eq_empty_iff.mp htrimmed c hkept
  · exact isSpace_of_isWhiteSpace hwhite

theorem length_join_le {separator : String} {bound : ℕ} {parts : List String}
    (h : ∀ part ∈ parts, part.length ≤ bound) :
    (join separator parts).length ≤ parts.length * (bound + separator.length) := by
  unfold join
  induction parts with
  | nil => simp
  | cons part parts ih =>
    have hpart := h part List.mem_cons_self
    have ih := ih fun part hmem ↦ h part (List.mem_cons_of_mem _ hmem)
    rw [List.length_cons, Nat.succ_mul]
    cases parts with
    | nil =>
      rw [String.intercalate_singleton]
      omega
    | cons next parts =>
      rw [String.intercalate_cons_cons, String.length_append, String.length_append]
      omega

theorem foldChar_ne_nil (c : Char) : foldChar c ≠ [] := by
  have hexpansions : ∀ entry ∈ foldExpansions, entry.2 ≠ [] := by decide
  unfold foldChar mapCode
  intro h
  rw [List.map_eq_nil_iff] at h
  split at h
  · rename_i entry hfind
    exact hexpansions entry (List.mem_of_find?_eq_some hfind) h
  · split at h <;> cases h

/-- Case folding never makes a text empty. -/
theorem casefold_eq_empty_iff (s : String) : casefold s = "" ↔ s = "" := by
  unfold casefold
  constructor
  · intro h
    have hnil : s.toList.flatMap foldChar = [] := by
      have := congrArg String.toList h
      simpa using this
    rw [List.flatMap_eq_nil_iff] at hnil
    cases hs : s.toList with
    | nil => exact String.toList_eq_nil_iff.mp hs
    | cons c rest =>
      exact absurd (hnil c (by rw [hs]; exact List.mem_cons_self)) (foldChar_ne_nil c)
  · rintro rfl
    rfl

end FilmOS.PythonText
