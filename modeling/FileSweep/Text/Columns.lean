import FileSweep.Text.Width

/-! Text as a console shows it: control characters that move the cursor are dropped, and
a tab fills up to the next multiple of eight columns of its line. How many columns a text
takes depends on more than its characters, because some of them change their neighbours. -/
namespace FileSweep
namespace Text

/-- Bell, backspace, vertical tab, form feed and carriage return print nothing. -/
def isCursorControl (c : Char) : Bool :=
  c.toNat == 7 || c.toNat == 8 || c.toNat == 11 || c.toNat == 12 || c.toNat == 13

/-- The character that joins the one behind it to the one before it. -/
def joiner : Char := '\u200d'

/-- The character that asks for the pictograph of the one before it. -/
def pictographSelector : Char := '\ufe0f'

/-- What is seen of a text: a joiner hides itself and whatever stands behind it. -/
def dropJoined : List Char → List Char
  | [] => []
  | [c] => if c = joiner then [] else [c]
  | c :: d :: cs => if c = joiner then dropJoined cs else c :: dropJoined (d :: cs)

/-- The columns of the characters seen. A selector widens the last one that took a
column, and only once; `last` is that one, if there is any. -/
def columnsAfter : Option Char → List Char → Nat
  | _, [] => 0
  | last, c :: cs =>
    if c = pictographSelector then
      (if last.any hasPictograph then 1 else 0) + columnsAfter none cs
    else if columnWidth c = 0 then columnsAfter last cs
    else columnWidth c + columnsAfter (some c) cs

def columns (cs : List Char) : Nat := columnsAfter none (dropJoined cs)

def tabWidth : Nat := 8

/-- The columns between a column and the next stop. -/
def roomToStop (column : Nat) : Nat := (tabWidth - column % tabWidth) % tabWidth

/-- A text followed by a tab: a blank stands for the tab, and further blanks fill up to
the next stop. A joiner at the end hides the first of them. -/
def fillToStop (cs : List Char) : List Char :=
  let cell := cs ++ [' ']
  cell ++ List.replicate (roomToStop (columns cell)) ' '

/-- Replaces tabs. What stands since the last stop of the line is handed on reversed. -/
def expandTabs : List Char → List Char → List Char
  | cell, [] => cell.reverse
  | cell, c :: cs =>
    if c = '\n' then cell.reverse ++ c :: expandTabs [] cs
    else if c = '\t' then fillToStop cell.reverse ++ expandTabs [] cs
    else expandTabs (c :: cell) cs

def consoleLine (s : String) : String :=
  String.ofList (expandTabs [] (s.toList.filter fun c => !isCursorControl c) ++ ['\n'])

end Text
end FileSweep
