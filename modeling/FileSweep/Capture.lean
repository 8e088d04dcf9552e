import FileSweep.Text.Utf8

/-! Capturing the output of a process. A reader cuts the bytes into lines at line feeds as they are
delivered. Each line is decoded by itself and loses its line end, and the text has one line feed after
every line, also after a last one that had none. A line that grows beyond a limit is dropped. -/
namespace FileSweep

/-- What a process writes to one of its outputs, as it is delivered to the reader of it: piece by
piece. -/
abbrev Output := List (List UInt8)

namespace Capture

def dropLastChar (c : Char) (cs : List Char) : List Char :=
  if cs.getLast? = some c then cs.dropLast else cs

def lineChars (bytes : List UInt8) : List Char :=
  dropLastChar '\r' (dropLastChar '\n' (Text.decodeLossyChars bytes))

def decodeLine (bytes : List UInt8) : String := String.ofList (lineChars bytes)

/-- What a reader meets: a line, with its line feed if it has one; a line that ends beyond the limit;
or one that is beyond the limit and has not ended. -/
inductive Reading where
  | line (bytes : List UInt8)
  | overlong
  | unended
  deriving DecidableEq, Repr

namespace Reading

def line? : Reading → Option (List UInt8)
  | line bytes => some bytes
  | _ => none

def reason? : Reading → Option String
  | line _ => none
  | overlong => some "Separator is found, but chunk is longer than limit"
  | unended => some "Separator is not found, and chunk exceed the limit"

end Reading

/-- The length of the longest line that a reader lets through, its line feed aside. -/
def lineLimit : Nat := 16 * 1024 * 1024

/-- Reads a piece behind the line begun, to what is then begun. Of a line dropped before its end
nothing is kept, so that the rest of it is read as a line of its own. -/
def readPiece (limit : Nat) : List UInt8 → List UInt8 → List Reading × List UInt8
  | begun, [] => if limit < begun.length then ([.unended], []) else ([], begun)
  | begun, b :: bs =>
    if b = 10 then
      let (readings, held) := readPiece limit [] bs
      ((if limit < begun.length then .overlong else .line (begun ++ [b])) :: readings, held)
    else readPiece limit (begun ++ [b]) bs

def readFrom (limit : Nat) : List UInt8 → Output → List Reading
  | begun, [] => if begun.isEmpty then [] else [.line begun]
  | begun, piece :: pieces =>
    let (readings, held) := readPiece limit begun piece
    readings ++ readFrom limit held pieces

def read (output : Output) : List Reading := readFrom lineLimit [] output

def joinLines (lines : List (List UInt8)) : List Char :=
  lines.flatMap fun line => lineChars line ++ ['\n']

def captured (output : Output) : String :=
  String.ofList (joinLines ((read output).filterMap Reading.line?))

/-- Cuts bytes after every line feed; `line` is the line begun. -/
def linesFrom : List UInt8 → List UInt8 → List (List UInt8)
  | line, [] => if line.isEmpty then [] else [line]
  | line, b :: bs =>
    if b = 10 then (line ++ [b]) :: linesFrom [] bs else linesFrom (line ++ [b]) bs

def lines (bytes : List UInt8) : List (List UInt8) := linesFrom [] bytes

def textChars (bytes : List UInt8) : List Char := joinLines (lines bytes)

/-- The text of bytes that all come through their reader. -/
def text (bytes : List UInt8) : String := String.ofList (textChars bytes)

def unifyEnds : List Char → List Char
  | '\r' :: '\n' :: cs => '\n' :: unifyEnds cs
  | c :: cs => c :: unifyEnds cs
  | [] => []

def normalizeChars (cs : List Char) : List Char :=
  ((unifyEnds cs).reverse.dropWhile (· == '\n')).reverse

/-- The text with line ends unified and without trailing blank lines. -/
def normalize (s : String) : String := String.ofList (normalizeChars s.toList)

end Capture

/-- Where the output of a process goes when it does not stay with the console. -/
inductive Sink where
  | buffer
  | discard
  | file (path : String) (names : List String) (append : Bool)
  deriving DecidableEq, Repr

namespace Sink

/-- Whether the output is read line by line instead of being left to the system. -/
def captures : Sink → Bool
  | discard => false
  | _ => true

end Sink
end FileSweep
