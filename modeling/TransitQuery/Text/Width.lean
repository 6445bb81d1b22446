import TransitQuery.Text.Emoji
import TransitQuery.Text.Letter
import TransitQuery.Text.Wide

/-!
# Widths of texts

How many columns a text takes up where all characters stand in a grid. A character on its own
takes none if it is a mark, two if it is wide, and else mostly one (`columns`). Characters that
join, such as the parts of a flag, of a family of pictures or of a ligature, take up the columns of
what they join into. So a text is measured from its end, and each character is looked at with a
note on what stands after it (`step`).

The width of a sequence cannot be summed over its characters, and it cannot be found by looking one
character back either: whether a joiner counts depends on what it joins, and that stands behind it.
Going from the end, `Ahead` carries what the next character to the left has to know, the kind of
what follows and whether a selector was passed. Each step yields the columns that the character
adds, which may be negative where a join takes a column away again.
-/

namespace TransitQuery

namespace Text

/-- The columns that a character takes up on its own. Two Khmer signs stand for several letters
and are as wide as these. -/
def columns (c : Char) : Int :=
  if isMark c then 0
  else if c = '\u17D8' then 3
  else if c = '\u17A4' || isWide c then 2
  else 1

/-! ### What follows -/

/-- What stands after a character, as far as the character may join it. The flag of a letter says
that a joiner stands in front of it. -/
inductive Follower
  /-- Nothing that a character joins. -/
  | other
  | lineFeed
  | alef
  | lamed (isJoined : Bool)
  /-- The Buginese letter. -/
  | ya (isJoined : Bool)
  /-- A joined `ya` with the vowel sign in front. -/
  | yaVowel
  | tifinagh (isJoined : Bool)
  /-- A Tifinagh consonant with the consonant joiner in front. -/
  | tifinaghJoiner
  | secondTone
  /-- The Old Turkic letter. -/
  | orkhonI (isJoined : Bool)
  /-- A Khmer letter that can be written below another one. -/
  | subscriptable
  /-- The Kirat Rai vowel sign E. -/
  | vowelE
  /-- The Kirat Rai vowel sign AI. -/
  | vowelAi
  | picture
  | modifier
  /-- Regional indicators, one or several. -/
  | indicators (areSeveral : Bool)
  /-- A picture with a joiner in front. -/
  | joiner
  /-- A joined picture with the sign of a key in front. -/
  | joinerKey
  /-- A joined picture with regional indicators in front, in pairs or with one left over. -/
  | joinerIndicators (arePaired : Bool)
  /-- A joined picture with the end of a tag in front: some letters, and some digits before them. -/
  | joinerTag (letters digits : Nat)
deriving DecidableEq, Repr

namespace Follower

/-- Whether this is a letter or a sign of a script, which a mark that is not shown does not keep
from joining. -/
def isLetter : Follower → Bool
  | alef | lamed _ | ya _ | yaVowel | tifinagh _ | tifinaghJoiner | secondTone | orkhonI _
  | subscriptable | vowelE | vowelAi => true
  | _ => false

/-- Whether a picture in front belongs to a sequence of joined pictures. -/
def isJoiner : Follower → Bool
  | joiner | joinerKey => true
  | _ => false

/-- A letter with a joiner in front of it. -/
def joined : Follower → Follower
  | lamed _ => lamed true
  | ya _ => ya true
  | tifinagh _ => tifinagh true
  | orkhonI _ => orkhonI true
  | f => f

end Follower

/-- What a character is to the one before it, when it joins nothing itself. -/
def follower (c : Char) : Follower :=
  if isAlef c then .alef
  else if c = '\u05DC' then .lamed false
  else if c = '\u1A10' then .ya false
  else if isTifinagh c then .tifinagh false
  else if isSecondTone c then .secondTone
  else if c.toNat = 0x10C03 then .orkhonI false
  else if isSubscriptable c then .subscriptable
  else if c.toNat = 0x16D67 then .vowelE
  else if c.toNat = 0x16D68 then .vowelAi
  else if isIndicator c then .indicators false
  else if isModifier c then .modifier
  else if isPicture c then .picture
  else .other

/-! ### Joins -/

/-- How a letter, or a mark in front of one, joins a letter: its columns, and what both are to the
character before them. -/
def Follower.withLetter? (f : Follower) (c : Char) : Option (Int × Follower) :=
  if f = .alef then
    if isLam c then some (0, .other)
    else if isTransparent c then some (0, .alef)
    else none
  else if c = '\u200D' && f.isLetter then some (0, f.joined)
  else if isFormSelector c && f.isLetter then some (0, f)
  else
    match f with
    | lamed true => if c = '\u05D0' then some (0, .other) else none
    | ya true => if c = '\u1A17' then some (0, .yaVowel) else none
    | yaVowel => if c = '\u1A15' then some (0, .other) else none
    | tifinagh isJoined =>
      if c = '\u2D7F' then some (1, .tifinaghJoiner)
      else if isJoined && isTifinagh c then some (0, .other)
      else none
    -- The joiner and the two consonants take up one column together.
    | tifinaghJoiner => if isTifinagh c then some (-1, .other) else none
    | secondTone => if isFirstTone c then some (0, .other) else none
    | orkhonI true => if c.toNat = 0x10C32 then some (0, .other) else none
    -- The sign that writes a letter below another one takes away its column.
    | subscriptable => if c = '\u17D2' then some (-1, .other) else none
    | vowelE =>
      if c.toNat = 0x16D63 || c.toNat = 0x16D69 then some (0, .other)
      else if c.toNat = 0x16D67 then some (0, .vowelAi)
      else if c.toNat = 0x16D68 then some (1, .vowelE)
      else none
    | vowelAi => if c.toNat = 0x16D63 then some (0, .other) else none
    | _ => none

/-- How a character joins the end of a tag, read backwards. A tag has three to six letters, or
three digits before at most four letters, and stands after a black flag. -/
def Follower.withTag? (letters digits : Nat) (c : Char) : Option (Int × Follower) :=
  if digits = 0 && letters < 6 && isTagLetter c then some (0, .joinerTag (letters + 1) 0)
  else if letters ≤ 4 && digits < 3 && isTagDigit c then some (0, .joinerTag letters (digits + 1))
  else if (digits = 0 && 3 ≤ letters || digits = 3) && c.toNat = 0x1F3F4 then
    some (0, .picture)
  else none

/-- How a character joins a picture: its columns, and what both are to the character before
them. -/
def Follower.withPicture? (f : Follower) (c : Char) : Option (Int × Follower) :=
  match f with
  | picture => if c = '\u200D' then some (0, .joiner) else none
  | modifier =>
    if isModifiable c then some (0, .picture)
    else if c = '\u200D' then some (0, .joiner)
    else none
  | indicators areSeveral =>
    if isIndicator c then some (1, .indicators true)
    else if areSeveral && c = '\u200D' then some (0, .joiner)
    else none
  | joiner =>
    if c = '\u20E3' then some (0, .joinerKey)
    else if isIndicator c then some (1, .joinerIndicators false)
    else if isModifier c then some (0, .modifier)
    else if c.toNat = 0xE007F then some (0, .joinerTag 0 0)
    else if isPicture c then some (0, .picture)
    else none
  -- Joined flags take up no columns, but an indicator that is left over takes up one: a second
  -- one takes it back, and a third one also lets go of the pair.
  | joinerIndicators arePaired =>
    if isIndicator c then some (if arePaired then 3 else -1, .joinerIndicators !arePaired)
    else if arePaired && c = '\u200D' then some (0, .joiner)
    else none
  | joinerTag letters digits => withTag? letters digits c
  | _ => none

/-! ### The measure -/

/-- What stands after a character: a follower, and whether selectors of the picture style or the
text style stand in between. -/
structure Ahead where
  follower : Follower
  isPictureStyle : Bool
  isTextStyle : Bool

namespace Ahead

/-- A follower without selectors in between. -/
def of (f : Follower) : Ahead :=
  ⟨f, false, false⟩

/-- A selector of the picture style in front. -/
def pictureStyle (a : Ahead) : Ahead :=
  if a.follower.isLetter || a.follower.isJoiner then { a with isPictureStyle := true }
  else ⟨.other, true, false⟩

/-- A selector of the text style in front. -/
def textStyle (a : Ahead) : Ahead :=
  if a.follower.isLetter then { a with isTextStyle := true } else ⟨.other, false, true⟩

/-- Without the picture style, which keeps all but letters apart. -/
def dropPictureStyle (a : Ahead) : Ahead :=
  if !a.isPictureStyle then a
  else if a.follower.isLetter then { a with isPictureStyle := false }
  else of .other

/-- The follower without the text style, which keeps all but letters apart. -/
def dropTextStyle (a : Ahead) : Follower :=
  if !a.isTextStyle || a.follower.isLetter then a.follower else .other

end Ahead

/-- The columns of a character with what stands after it, and what it is to the character
before. Up to the blank that does not break, nothing joins. -/
def step (c : Char) (a : Ahead) : Int × Ahead :=
  if a.isPictureStyle && hasPictureStyle c then
    (if a.follower.isJoiner then 0 else 2, .of .picture)
  else
    let a := a.dropPictureStyle
    if c = '\n' then (1, .of .lineFeed)
    else if c ≤ '\u00A0' then (if c = '\r' && a.follower = .lineFeed then 0 else 1, .of .other)
    else if c = '\uFE0F' then (0, a.pictureStyle)
    else if c = '\uFE0E' then (0, a.textStyle)
    else if a.isTextStyle && hasNarrowStyle c then (1, .of .other)
    else
      let f := a.dropTextStyle
      match (f.withLetter? c).or (f.withPicture? c) with
      | some (n, f) => (n, .of f)
      | none => (columns c, .of (follower c))

/-- The columns of a text, and what its start is to a character before it. -/
def measure (s : List Char) : Int × Ahead :=
  s.foldr (fun c rest => let (n, a) := step c rest.2; (n + rest.1, a)) (0, .of .other)

/-- The columns that a text takes up. -/
def width (s : List Char) : Nat :=
  (measure s).1.toNat

end Text

end TransitQuery
