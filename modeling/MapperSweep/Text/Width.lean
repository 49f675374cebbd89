import MapperSweep.Text.CharWidth
import MapperSweep.Text.Emoji

/-!
# Display width

How many columns of a fixed-width screen a text takes.  Mostly that is the sum of the widths of its
characters, but some neighbours share their columns: two letters that are drawn as one, an emoji
with its skin tone, the emoji of one family, the letters of a flag.  The text is read from its end,
so that each character meets what follows it: `Tail` says how that begins, `Selector` says how the
character should be drawn, and `step` gives the columns that it adds.  A character may take back
columns of what follows it, so columns are whole numbers until the end.
-/

namespace MapperSweep.Text

/-- A mark that asks for a certain look of the character before it. -/
inductive Selector where
  /-- As a picture. -/
  | emoji
  /-- As a letter. -/
  | text
  /-- As a wide quotation mark. -/
  | quote
deriving Repr, DecidableEq

/-- The look that a character asks for, if it is a selector. -/
def Selector.ofChar? (c : Char) : Option Selector :=
  match c.toNat with
  | 0xFE0F => some .emoji
  | 0xFE0E => some .text
  | 0xFE01 => some .quote
  | _ => none

/-- How the text after a character begins, as far as that character can join it.  Where a joiner
    makes a difference, `joined` says that there is one in front. -/
inductive Tail where
  /-- With nothing that a character joins. -/
  | plain
  /-- With the Hebrew letter lamed. -/
  | lamed (joined : Bool)
  /-- With a form of the Arabic letter alef. -/
  | alef
  /-- With a Khmer letter that can stand below another. -/
  | subscript
  /-- With the Buginese letter ya. -/
  | ya (joined : Bool)
  /-- With a joined Buginese ya that has the vowel i. -/
  | yaVowel
  /-- With a Tifinagh consonant. -/
  | tifinagh (joined : Bool)
  /-- With a Tifinagh consonant that has the joiner of that script. -/
  | tifinaghJoiner
  /-- With a second tone letter of Lisu. -/
  | lisuTone
  /-- With the Old Turkic letter i. -/
  | orkhonI (joined : Bool)
  /-- With the Kirat Rai vowel e. -/
  | kiratE
  /-- With the Kirat Rai vowel ai. -/
  | kiratAi
  /-- With an emoji. -/
  | emoji
  /-- With a skin tone. -/
  | skinTone
  /-- With one regional indicator. -/
  | indicator
  /-- With more than one regional indicator. -/
  | indicators
  /-- With a joiner and an emoji. -/
  | joinedEmoji
  /-- With a keycap before a joined emoji. -/
  | joinedKeycap
  /-- With one regional indicator before a joined emoji. -/
  | joinedIndicator
  /-- With an even number of regional indicators before a joined emoji. -/
  | joinedIndicatorsEven
  /-- With an odd number of regional indicators, above one, before a joined emoji. -/
  | joinedIndicatorsOdd
  /-- With the end of a tag before a joined emoji, and that many tag letters in front of it. -/
  | tagLetters (count : Nat)
  /-- With the end of a tag before a joined emoji, and that many tag digits as the first of it. -/
  | tagDigits (count : Nat)
deriving Repr, DecidableEq

/-- `isJoiner c` holds of the zero-width joiner, U+200D. -/
def isJoiner (c : Char) : Bool := c.toNat = 0x200D

/-- The ranges of Khmer letters that stand below the letter before them, after the sign for that. -/
def khmerSubscripts : List (Nat × Nat) :=
  [(0x1780, 0x1782), (0x1784, 0x1787), (0x1789, 0x178C), (0x178E, 0x1793), (0x1795, 0x1798),
    (0x179B, 0x179D), (0x17A0, 0x17A0), (0x17A2, 0x17A2), (0x17A7, 0x17A7), (0x17AB, 0x17AC),
    (0x17AF, 0x17AF)]

/-- The ranges of the forms of alef that are drawn as one with a form of lam, see `arabicLams`. -/
def arabicAlefs : List (Nat × Nat) :=
  [(0x622, 0x623), (0x625, 0x625), (0x627, 0x627), (0x671, 0x673), (0x675, 0x675), (0x773, 0x774),
    (0x870, 0x882)]

/-- The ranges of the forms of lam that are drawn as one with a form of alef, see `arabicAlefs`. -/
def arabicLams : List (Nat × Nat) :=
  [(0x644, 0x644), (0x6B5, 0x6B8), (0x76A, 0x76A), (0x8A6, 0x8A6), (0x8C7, 0x8C7)]

/-- The ranges of the characters of no width that end the joining of Arabic letters. -/
def nonJoining : List (Nat × Nat) :=
    [(0x605, 0x605), (0x890, 0x891), (0x8E2, 0x8E2), (0x9BE, 0x9BE), (0x9D7, 0x9D7), (0xB3E, 0xB3E),
    (0xB57, 0xB57), (0xBBE, 0xBBE), (0xBD7, 0xBD7), (0xCC0, 0xCC0), (0xCC2, 0xCC2), (0xCC7, 0xCC8),
    (0xCCA, 0xCCB), (0xCD5, 0xCD6), (0xD3E, 0xD3E), (0xD4E, 0xD4E), (0xD57, 0xD57), (0xDCF, 0xDCF),
    (0xDDF, 0xDDF), (0x1160, 0x11FF), (0x1715, 0x1715), (0x1734, 0x1734), (0x180E, 0x180E),
    (0x1B35, 0x1B35), (0x1B3B, 0x1B3B), (0x1B3D, 0x1B3D), (0x1B43, 0x1B44), (0x1BAA, 0x1BAA),
    (0x1BF2, 0x1BF3), (0x200C, 0x200D), (0x2065, 0x2069), (0x302E, 0x302F), (0x3164, 0x3164),
    (0xA8FA, 0xA8FA), (0xA953, 0xA953), (0xA9C0, 0xA9C0), (0xD7B0, 0xD7C6), (0xD7CB, 0xD7FB),
    (0xFFA0, 0xFFA0), (0xFFF0, 0xFFF8), (0x111C0, 0x111C0), (0x111C2, 0x111C3), (0x11235, 0x11235),
    (0x1133E, 0x1133E), (0x1134D, 0x1134D), (0x11357, 0x11357), (0x113B8, 0x113B8),
    (0x113C2, 0x113C2), (0x113C5, 0x113C5), (0x113C7, 0x113C9), (0x113CF, 0x113CF),
    (0x113D1, 0x113D1), (0x114B0, 0x114B0), (0x114BD, 0x114BD), (0x115AF, 0x115AF),
    (0x116B6, 0x116B6), (0x11930, 0x11930), (0x1193D, 0x1193D), (0x1193F, 0x1193F),
    (0x11941, 0x11941), (0x11A84, 0x11A89), (0x11D46, 0x11D46), (0x11F02, 0x11F02),
    (0x11F41, 0x11F41), (0x16FF0, 0x16FF1), (0x1D165, 0x1D166), (0x1D16D, 0x1D172),
    (0xE0000, 0xE0000), (0xE0002, 0xE001F), (0xE0080, 0xE00FF), (0xE01F0, 0xE0FFF)]

/-- `isTifinaghConsonant c` holds of a Tifinagh consonant. -/
def isTifinaghConsonant (c : Char) : Bool := inRanges [(0x2D31, 0x2D65), (0x2D6F, 0x2D6F)] c.toNat

/-- `isQuotationMark c` holds of a curly quotation mark, which a selector can make wide. -/
def isQuotationMark (c : Char) : Bool := inRanges [(0x2018, 0x2019), (0x201C, 0x201D)] c.toNat

/-- `isTransparentMark c` holds of a mark of no width over which Arabic letters join: one that is
    not in `nonJoining`. -/
def isTransparentMark (c : Char) : Bool := charWidth c = 0 && !inRanges nonJoining c.toNat

/-- `isInvisibleMark c` holds of a mark of no width and no look, over which letters are drawn as
    one. -/
def isInvisibleMark (c : Char) : Bool :=
  inRanges [(0x34F, 0x34F), (0x17B4, 0x17B5), (0x180B, 0x180D), (0x180F, 0x180F), (0xFE00, 0xFE0F),
    (0xE0100, 0xE01EF)] c.toNat

namespace Tail

/-- What `c` by itself is for the character before it. -/
def ofChar (c : Char) : Tail :=
  let n := c.toNat
  if n = 0x5DC then .lamed false
  else if inRanges arabicAlefs n then .alef
  else if inRanges khmerSubscripts n then .subscript
  else if n = 0x1A10 then .ya false
  else if isTifinaghConsonant c then .tifinagh false
  else if n = 0xA4FC || n = 0xA4FD then .lisuTone
  else if n = 0x10C03 then .orkhonI false
  else if n = 0x16D67 then .kiratE
  else if n = 0x16D68 then .kiratAi
  else if isRegionalIndicator c then .indicator
  else if isSkinTone c then .skinTone
  else if isPicture c then .emoji
  else .plain

/-- `tail.isLigature` holds if the character before is drawn as one with `tail`, also over marks for
    which `isInvisibleMark` holds. -/
def isLigature : Tail → Bool
  | lamed _ | subscript | ya _ | yaVowel | tifinagh _ | tifinaghJoiner | lisuTone
  | orkhonI _ => true
  | _ => false

/-- `tail.isLetter` holds if `tail` is still to be joined after a selector in front of it. -/
def isLetter (tail : Tail) : Bool := tail.isLigature || tail = alef

/-- `tail.isJoined` holds if an emoji in front of `tail` is one with it. -/
def isJoined : Tail → Bool
  | joinedEmoji | joinedKeycap => true
  | _ => false

/-- `tail.join` is `tail` with a joiner in front of it, for the letters that have to be joined. -/
def join : Tail → Tail
  | lamed _ => lamed true
  | ya _ => ya true
  | tifinagh _ => tifinagh true
  | orkhonI _ => orkhonI true
  | tail => tail

/-- How `c` joins the text after it, which begins with `tail`: the columns that `c` adds, and how
    the text begins then.  `none` if the two stand side by side. -/
def extend? (c : Char) (tail : Tail) : Option (Int × Tail) :=
  let n := c.toNat
  match tail with
  | alef =>
    if inRanges arabicLams n then some (0, plain)
    else if isTransparentMark c then some (0, alef)
    else none
  | lamed true => if n = 0x5D0 then some (0, plain) else none
  | subscript => if n = 0x17D2 then some (-1, plain) else none
  | ya true => if n = 0x1A17 then some (0, yaVowel) else none
  | yaVowel => if n = 0x1A15 then some (0, plain) else none
  | tifinagh joined =>
    if n = 0x2D7F then some (1, tifinaghJoiner)
    else if joined && isTifinaghConsonant c then some (0, plain)
    else none
  | tifinaghJoiner => if isTifinaghConsonant c then some (-1, plain) else none
  | lisuTone => if inRanges [(0xA4F8, 0xA4FB)] n then some (0, plain) else none
  | orkhonI true => if n = 0x10C32 then some (0, plain) else none
  | kiratE =>
    if n = 0x16D63 || n = 0x16D69 then some (0, plain)
    else if n = 0x16D67 then some (0, kiratAi)
    else if n = 0x16D68 then some (1, kiratE)
    else none
  | kiratAi => if n = 0x16D63 then some (0, plain) else none
  | emoji => if isJoiner c then some (0, joinedEmoji) else none
  | skinTone =>
    if isTintable c then some (0, emoji)
    else if isJoiner c then some (0, joinedEmoji)
    else none
  | indicator => if isRegionalIndicator c then some (1, indicators) else none
  | indicators =>
    if isRegionalIndicator c then some (1, indicators)
    else if isJoiner c then some (0, joinedEmoji)
    else none
  | joinedEmoji =>
    if n = 0x20E3 then some (0, joinedKeycap)
    else if isRegionalIndicator c then some (1, joinedIndicator)
    else if isSkinTone c then some (0, skinTone)
    else if n = 0xE007F then some (0, tagLetters 0)
    else if isPicture c then some (0, emoji)
    else none
  | joinedIndicator => if isRegionalIndicator c then some (-1, joinedIndicatorsEven) else none
  | joinedIndicatorsEven =>
    if isRegionalIndicator c then some (3, joinedIndicatorsOdd)
    else if isJoiner c then some (0, joinedEmoji)
    else none
  | joinedIndicatorsOdd =>
    if isRegionalIndicator c then some (-1, joinedIndicatorsEven)
    else if isJoiner c then some (0, joinedEmoji)
    else none
  | tagLetters count =>
    if inRanges [(0xE0061, 0xE007A)] n && count < 6 then some (0, tagLetters (count + 1))
    else if inRanges [(0xE0030, 0xE0039)] n && count < 5 then some (0, tagDigits 1)
    else if n = 0x1F3F4 && 3 ≤ count then some (0, emoji)
    else none
  | tagDigits count =>
    if inRanges [(0xE0030, 0xE0039)] n && count < 3 then some (0, tagDigits (count + 1))
    else if n = 0x1F3F4 && count = 3 then some (0, emoji)
    else none
  | plain | lamed false | ya false | orkhonI false | joinedKeycap => none

/-- The columns that `c` adds to the text after it, which begins with `tail`, and how the text
    begins then. -/
def step (c : Char) (tail : Tail) : Int × Tail :=
  if tail.isLigature && isJoiner c then (0, tail.join)
  else if tail.isLigature && isInvisibleMark c then (0, tail)
  else (tail.extend? c).getD (charWidth c, ofChar c)

end Tail

/-- What a character meets in the text after it: a `Selector`, if one stands there, and a `Tail`. -/
structure Following where
  /-- The selector that stands right after the character. -/
  selector : Option Selector
  /-- How the text begins, selectors aside. -/
  tail : Tail
deriving Repr, DecidableEq

namespace Following

/-- The text that begins with `tail` and with no selector. -/
def bare (tail : Tail) : Following := ⟨none, tail⟩

/-- The text `next` with the selector `s` in front.  Emoji in it stay open to an emoji before `s`
    only if they have a joiner. -/
def select (s : Selector) (next : Following) : Following :=
  { selector := some s
    tail := if next.tail.isLetter || (s = .emoji && next.tail.isJoined) then next.tail else .plain }

/-- The text `next` behind a selector for emoji that the character before it does not heed. -/
def unselect (next : Following) : Following :=
  if next.selector = some .emoji then bare (if next.tail.isLetter then next.tail else .plain)
  else next

/-- The columns that `c` adds to the text `next`, and what the text is then: one `Following.step` of
    `measure`. -/
def step (c : Char) (next : Following) : Int × Following :=
  if next.selector = some .emoji && isVariable c then
    (if next.tail.isJoined then 0 else 2, bare .emoji)
  else if c.toNat < 0xA1 then (1, bare .plain)
  else
    let next := next.unselect
    match Selector.ofChar? c with
    | some s => (0, next.select s)
    | none =>
      if next.selector = some .text && isNarrowable c then (1, bare .plain)
      else if next.selector = some .quote && isQuotationMark c then (2, bare .plain)
      else
        let (columns, tail) := next.tail.step c
        (columns, bare tail)

end Following

/-- The columns of `cs` and what a character before it meets, from the last character to the
    first. -/
def measure (cs : List Char) : Int × Following :=
  cs.foldr
    (fun c (columns, next) =>
      let (more, next) := next.step c
      (columns + more, next))
    (0, .bare .plain)

/-- The columns that `cs` takes: the number that `measure` finds. -/
def width (cs : List Char) : Nat := (measure cs).1.toNat

end MapperSweep.Text
