import Checklist.Document
import Checklist.Screen
import Checklist.Style
import Checklist.Text.Width

namespace Checklist

/-- How a document is laid out on a screen. -/
structure Display where
  lineNumbers : Bool := false
  tabWidth : Nat := 8
  columns : Nat
  deriving DecidableEq, Repr

namespace Display

/-- The columns of a line number and the space after it. -/
def numberWidth (display : Display) (lineCount : Nat) : Nat :=
  if display.lineNumbers then max 3 (Text.decimal lineCount).length + 1 else 0

/-- The text with spaces up to the next tab stop. -/
def padToStop (tabWidth : Nat) (t : Text) : Text :=
  t ++ List.replicate (tabWidth - t.displayWidth % tabWidth) ' '

/-- The text with spaces for its tabs. -/
def expandTabs (tabWidth : Nat) (t : Text) : Text :=
  match t.splitAll '\t' with
  | [] => []
  | first :: rest => rest.foldl (fun out piece => padToStop tabWidth out ++ piece) first

def alignRight (width : Nat) (t : Text) : Text :=
  List.replicate (width - t.length) ' ' ++ t

/-- A line number counted from one and a space, or nothing. -/
def numberField (numberWidth i : Nat) : Text :=
  if numberWidth = 0 then [] else alignRight (numberWidth - 1) (Text.decimal (i + 1)) ++ [' ']

/-- A mark in the ruler's color, and the text on its background up to the last column. -/
def highlighted (display : Display) (numberWidth : Nat) (style : Style) (t : Text) : Text :=
  let base := Color.solid 0 0 0
  Screen.foreground (style.ruler.onto base) ++ '▌' ::
    Screen.background (style.background.onto base) ++ Screen.intensity style.isDim ++ t ++
    List.replicate (display.columns - (numberWidth + 1 + t.displayWidth)) ' ' ++ Screen.reset

def plain (t : Text) : Text :=
  ' ' :: t

/-- The style of a line under regions of which none ends before it. -/
def styleAt? (regions : List Region) (styles : List Style) (i : Nat) : Option Style :=
  match regions with
  | [] => none
  | region :: _ => if region.contains i then styles[region.state]? else none

def drawLine (display : Display) (numberWidth i : Nat) (style : Option Style) (line : Text) : Text :=
  let t := expandTabs display.tabWidth line
  numberField numberWidth i ++
    (match style with
    | some style => display.highlighted numberWidth style t
    | none => plain t) ++ ['\n']

/-- Draws lines from number `i` on. The regions stand in the order of the document, and those that
end before a line are done with. -/
def drawLines (display : Display) (numberWidth : Nat) (styles : List Style) :
    Nat → List Region → List Text → Text
  | _, _, [] => []
  | i, regions, line :: rest =>
    let regions := regions.dropWhile fun region => region.endLine < i
    display.drawLine numberWidth i (styleAt? regions styles i) line ++
      display.drawLines numberWidth styles (i + 1) regions rest

/-- The whole document as a screen shows it, each region in the style of its state. -/
def render (display : Display) (doc : Document) (regions : List Region) (styles : List Style) :
    Text :=
  display.drawLines (display.numberWidth doc.lineCount) styles 0 regions doc.lines

/-- The same, unless there is a tab and no tab stop. -/
def render? (display : Display) (doc : Document) (regions : List Region) (styles : List Style) :
    Option Text :=
  if display.tabWidth = 0 && doc.text.contains '\t' then none
  else some (display.render doc regions styles)

end Display

end Checklist
