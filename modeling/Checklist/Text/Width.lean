import Checklist.Text
import Checklist.Text.Extenders
import Checklist.Text.Width.Tables
import Checklist.Text.Width.Emoji

namespace Checklist.Text

namespace Width

/-- What stands to the right of a character, as far as it can change the width of the two
together. A `joined` letter has a zero-width joiner to its left. -/
inductive Follower
  | plain
  | lineFeed
  | skinTone
  | emoji
  | joinedEmoji
  | joinedKeycap
  | flagHalf
  | flagHalves
  | joinedFlagHalf
  | joinedFlags (even : Bool)
  | joinedTags (letters digits : Nat)
  | kiratE
  | kiratAi
  | alef
  | lamed (joined : Bool)
  | ya (joined : Bool)
  | vowelYa
  | tifinagh (joined : Bool)
  | tifinaghBelowJoiner
  | lisuTone
  | orkhonI (joined : Bool)
  | coengLetter
  deriving DecidableEq

/-- The look that a variation selector asks for. -/
inductive Look
  | text
  | emoji
  deriving DecidableEq

structure Right where
  follower : Follower
  look : Option Look
  deriving DecidableEq

namespace Follower

/-- Letters that may merge with a letter to their left. -/
def isLigatureEnd : Follower → Bool
  | alef | lamed _ | ya _ | vowelYa | tifinagh _ | tifinaghBelowJoiner | lisuTone | orkhonI _
  | coengLetter => true
  | _ => false

def alone (f : Follower) : Right := ⟨f, none⟩

/-- The look is for the next character to the left, and only a ligature outlasts it. -/
def withLook (f : Follower) (look : Look) : Right :=
  if f.isLigatureEnd || (look == .emoji && (f == joinedEmoji || f == joinedKeycap)) then
    ⟨f, some look⟩
  else ⟨plain, some look⟩

def join : Follower → Follower
  | lamed _ => lamed true
  | ya _ => ya true
  | tifinagh _ => tifinagh true
  | orkhonI _ => orkhonI true
  | f => f

end Follower

def isRegional (c : Char) : Bool := 0x1f1e6 ≤ c.toNat && c.toNat ≤ 0x1f1ff

def isSkinTone (c : Char) : Bool := 0x1f3fb ≤ c.toNat && c.toNat ≤ 0x1f3ff

def isTagLetter (c : Char) : Bool := 0xe0061 ≤ c.toNat && c.toNat ≤ 0xe007a

def isTagDigit (c : Char) : Bool := 0xe0030 ≤ c.toNat && c.toNat ≤ 0xe0039

def isLisuTone (c : Char) : Bool := 0xa4f8 ≤ c.toNat && c.toNat ≤ 0xa4fb

/-- The width of a character on its own; a control takes one column. -/
def ofChar (c : Char) : Nat :=
  if c.toNat ≤ 0xa0 || c == '\u2d7f' then 1
  else if c == '\u115f' || c == '\u17a4' then 2
  else if c == '\u17d8' then 3
  else if extenders.covers c || ignorable.covers c || conjoining.covers c || aboveText.covers c then 0
  else if wide.covers c then 2
  else 1

def isTransparentMark (c : Char) : Bool :=
  ofChar c == 0 && !joinBreaking.covers c

/-- What a character is to the one on its left. -/
def asFollower (c : Char) : Right :=
  if c == '\ufe0e' then ⟨.plain, some .text⟩
  else if c == '\ufe0f' then ⟨.plain, some .emoji⟩
  else if c == '\u05dc' then (Follower.lamed false).alone
  else if alefs.covers c then Follower.alef.alone
  else if coengLetters.covers c then Follower.coengLetter.alone
  else if c == '\u1a10' then (Follower.ya false).alone
  else if tifinaghConsonants.covers c then (Follower.tifinagh false).alone
  else if c == '\ua4fc' || c == '\ua4fd' then Follower.lisuTone.alone
  else if c == Char.ofNat 0x10c03 then (Follower.orkhonI false).alone
  else if c == Char.ofNat 0x16d67 then Follower.kiratE.alone
  else if c == Char.ofNat 0x16d68 then Follower.kiratAi.alone
  else if isRegional c then Follower.flagHalf.alone
  else if isSkinTone c then Follower.skinTone.alone
  else if emojiByDefault.covers c then Follower.emoji.alone
  else Follower.plain.alone

/-- The width that `c` adds in front of a follower it forms a unit with. -/
def merged (c : Char) : Follower → Option (Int × Right)
  | .alef =>
    if lams.covers c then some (0, Follower.plain.alone)
    else if isTransparentMark c then some (0, Follower.alef.alone)
    else none
  | .lamed true => if c == '\u05d0' then some (0, Follower.plain.alone) else none
  | .coengLetter => if c == '\u17d2' then some (-1, Follower.plain.alone) else none
  | .ya true => if c == '\u1a17' then some (0, Follower.vowelYa.alone) else none
  | .vowelYa => if c == '\u1a15' then some (0, Follower.plain.alone) else none
  | .tifinagh joined =>
    if c == '\u2d7f' then some (1, Follower.tifinaghBelowJoiner.alone)
    else if joined && tifinaghConsonants.covers c then some (0, Follower.plain.alone)
    else none
  | .tifinaghBelowJoiner =>
    if tifinaghConsonants.covers c then some (-1, Follower.plain.alone) else none
  | .lisuTone => if isLisuTone c then some (0, Follower.plain.alone) else none
  | .orkhonI true =>
    if c == Char.ofNat 0x10c32 then some (0, Follower.plain.alone) else none
  | .skinTone =>
    if modifierBases.covers c then some (0, Follower.emoji.alone)
    else if c == '\u200d' then some (0, Follower.joinedEmoji.alone)
    else none
  | .flagHalf => if isRegional c then some (1, Follower.flagHalves.alone) else none
  | .flagHalves =>
    if isRegional c then some (1, Follower.flagHalves.alone)
    else if c == '\u200d' then some (0, Follower.joinedEmoji.alone)
    else none
  | .emoji => if c == '\u200d' then some (0, Follower.joinedEmoji.alone) else none
  | .joinedFlags even =>
    if c == '\u200d' then some (0, Follower.joinedEmoji.alone)
    else if isRegional c then
      if even then some (3, (Follower.joinedFlags false).alone)
      else some (-1, (Follower.joinedFlags true).alone)
    else none
  | .joinedFlagHalf =>
    if isRegional c then some (-1, (Follower.joinedFlags true).alone) else none
  | .joinedEmoji =>
    if c == '\u20e3' then some (0, Follower.joinedKeycap.alone)
    else if isRegional c then some (1, Follower.joinedFlagHalf.alone)
    else if isSkinTone c then some (0, Follower.skinTone.alone)
    else if c == Char.ofNat 0xe007f then some (0, (Follower.joinedTags 0 0).alone)
    else if emojiByDefault.covers c then some (0, Follower.emoji.alone)
    else none
  | .joinedTags letters digits =>
    if isTagLetter c && digits == 0 && letters < 6 then
      some (0, (Follower.joinedTags (letters + 1) 0).alone)
    else if isTagDigit c && digits == 0 && letters < 5 then
      some (0, (Follower.joinedTags 0 1).alone)
    else if isTagDigit c && 0 < digits && digits < 3 then
      some (0, (Follower.joinedTags 0 (digits + 1)).alone)
    else if c == Char.ofNat 0x1f3f4 && (3 ≤ letters || digits == 3) then
      some (0, Follower.emoji.alone)
    else none
  | .kiratE =>
    if c == Char.ofNat 0x16d63 || c == Char.ofNat 0x16d69 then some (0, Follower.plain.alone)
    else if c == Char.ofNat 0x16d67 then some (0, Follower.kiratAi.alone)
    else if c == Char.ofNat 0x16d68 then some (1, Follower.kiratE.alone)
    else none
  | .kiratAi => if c == Char.ofNat 0x16d63 then some (1, Follower.plain.alone) else none
  | _ => none

/-- The width that `c` adds in front of what follows it, where no look is asked for. -/
def beside (c : Char) (follower : Follower) : Int × Right :=
  if c == '\n' then (0, Follower.lineFeed.alone)
  else if c == '\r' && follower == .lineFeed then (0, Follower.plain.alone)
  else if c.toNat ≤ 0xa0 then (1, Follower.plain.alone)
  else if c == '\ufe0f' then (0, follower.withLook .emoji)
  else if c == '\ufe0e' then (0, follower.withLook .text)
  else if follower.isLigatureEnd && follower != .alef && ligatureTransparent.covers c then
    (0, (if c == '\u200d' then follower.join else follower).alone)
  else (merged c follower).getD (ofChar c, asFollower c)

/-- The follower once a look that does not apply is dropped. -/
def Right.dropLook (right : Right) : Follower :=
  if right.look.isSome && !right.follower.isLigatureEnd then .plain else right.follower

def add (c : Char) (right : Right) : Int × Right :=
  if right.look == some .emoji && emojiBases.covers c then
    let merges := right.follower == .joinedEmoji || right.follower == .joinedKeycap
    (if merges then 0 else 2, Follower.emoji.alone)
  else if right.look == some .text && c != '\ufe0f' && c != '\ufe0e' && textBases.covers c then
    (1, Follower.plain.alone)
  else beside c right.dropLook

end Width

/-- The columns that a text takes in a terminal, read from its end: joined emoji and ligatures
take the columns of one character. -/
def displayWidth (t : Text) : Nat :=
  (t.foldr (fun c (total, right) => let (width, right) := Width.add c right; (total + width, right))
    ((0 : Int), Width.Follower.plain.alone)).1.toNat

end Checklist.Text
