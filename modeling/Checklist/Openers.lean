import Checklist.Text

namespace Checklist

/-- A literal found at the start of a line, after its indentation. -/
structure Opening where
  offset : Nat
  indent : Text
  token : Text
  deriving DecidableEq, Repr

namespace Opening

def literal (opening : Opening) : Text :=
  opening.indent ++ opening.token

end Opening

/-- The literals that can open a line, in the order in which they are tried. They may be any
texts: empty, overlapping, blank or with line feeds. -/
structure Openers where
  alternatives : List Text
  deriving DecidableEq, Repr

namespace Openers

/-- Puts a text before the first that is not longer. -/
def insertByLength (t : Text) : List Text → List Text
  | [] => [t]
  | u :: rest => if u.length ≤ t.length then t :: u :: rest else u :: insertByLength t rest

/-- Longest first; texts of one length stay in order. -/
def longestFirst : List Text → List Text
  | [] => []
  | t :: rest => insertByLength t (longestFirst rest)

/-- The comment marker leads the tokens of its length. -/
def ofLiterals (tokens : List Text) (comment : Text) : Openers :=
  ⟨longestFirst (comment :: tokens)⟩

/-- The longest indentation of `t` after which some alternative stands, and the first such
alternative. -/
def openingAt (openers : Openers) : Text → Option (Text × Text)
  | [] => (openers.alternatives.find? (·.isPrefixOf [])).map (([], ·))
  | c :: t =>
    let here := (openers.alternatives.find? (·.isPrefixOf (c :: t))).map (([], ·))
    if Text.isBlank c then
      match openers.openingAt t with
      | some (indent, token) => some (c :: indent, token)
      | none => here
    else here

/-- Openings at or after `offset`. `covered` counts the characters that the last opening still
reaches over, and is `none` once they have been left behind: an empty opening may not touch it. -/
def openingsFrom (openers : Openers) (offset : Nat) (atStart : Bool) (covered : Option Nat)
    (t : Text) : List Opening :=
  let found :=
    if atStart && (covered == none || covered == some 0) then
      (openers.openingAt t).filter fun (indent, token) =>
        covered == none || !(indent ++ token).isEmpty
    else none
  match t, found with
  | [], none => []
  | [], some (indent, token) => [⟨offset, indent, token⟩]
  | c :: t, none =>
    let covered := match covered with
      | some (n + 1) => some n
      | _ => none
    openers.openingsFrom (offset + c.utf8Size) (c == '\n') covered t
  | c :: t, some (indent, token) =>
    let covered := match indent.length + token.length with
      | 0 => none
      | n + 1 => some n
    ⟨offset, indent, token⟩ :: openers.openingsFrom (offset + c.utf8Size) (c == '\n') covered t

/-- All openings of a text, in order and without overlap. -/
def openings (openers : Openers) (t : Text) : List Opening :=
  openers.openingsFrom 0 true none t

end Openers

end Checklist
