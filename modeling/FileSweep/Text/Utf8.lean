import FileSweep.Text.Hex

/-! UTF-8 as a machine over bytes. A byte string falls into pieces, each a character or
the longest run of bytes that begins one and goes wrong. Lossy decoding shows a bad
piece as U+FFFD; strict decoding stops at the first one. -/
namespace FileSweep
namespace Text

inductive Malformed where
  | startByte
  | continuationByte
  | truncated
  deriving DecidableEq, Repr

def Malformed.message : Malformed → String
  | startByte => "invalid start byte"
  | continuationByte => "invalid continuation byte"
  | truncated => "unexpected end of data"

inductive Piece where
  | char (c : Char)
  | bad (bytes : List UInt8) (cause : Malformed)
  deriving DecidableEq, Repr

/-- A character begun: its bytes so far, the value they give, how many bytes are owed,
and the least and greatest next byte. -/
structure Partial where
  bytes : List UInt8
  value : Nat
  owed : Nat
  low : Nat
  high : Nat
  deriving DecidableEq, Repr

/-- The effect of a byte that stands where a character begins. -/
def openByte (b : UInt8) : List Piece × Option Partial :=
  let n := b.toNat
  let wait (value owed low high : Nat) : List Piece × Option Partial :=
    ([], some ⟨[b], value, owed, low, high⟩)
  if n < 0x80 then ([.char (Char.ofNat n)], none)
  else if n < 0xC2 then ([.bad [b] .startByte], none)
  else if n < 0xE0 then wait (n - 0xC0) 1 0x80 0xBF
  else if n = 0xE0 then wait 0 2 0xA0 0xBF
  else if n = 0xED then wait 13 2 0x80 0x9F
  else if n < 0xF0 then wait (n - 0xE0) 2 0x80 0xBF
  else if n = 0xF0 then wait 0 3 0x90 0xBF
  else if n < 0xF4 then wait (n - 0xF0) 3 0x80 0xBF
  else if n = 0xF4 then wait 4 3 0x80 0x8F
  else ([.bad [b] .startByte], none)

/-- One byte: the pieces it settles and the character it leaves begun. A byte that cannot
go on the begun character ends it badly and is then read afresh. -/
def stepByte : Option Partial → UInt8 → List Piece × Option Partial
  | none, b => openByte b
  | some p, b =>
    if p.low ≤ b.toNat ∧ b.toNat ≤ p.high then
      let value := p.value * 64 + (b.toNat - 0x80)
      if p.owed ≤ 1 then ([.char (Char.ofNat value)], none)
      else ([], some ⟨p.bytes ++ [b], value, p.owed - 1, 0x80, 0xBF⟩)
    else
      let (pieces, next) := openByte b
      (.bad p.bytes .continuationByte :: pieces, next)

def closePartial : Option Partial → List Piece
  | none => []
  | some p => [.bad p.bytes .truncated]

def piecesFrom : Option Partial → List UInt8 → List Piece
  | st, [] => closePartial st
  | st, b :: bs => (stepByte st b).1 ++ piecesFrom (stepByte st b).2 bs

def pieces (bytes : List UInt8) : List Piece := piecesFrom none bytes

def Piece.shown : Piece → Char
  | char c => c
  | bad _ _ => '\uFFFD'

/-- Decoding in which every bad piece becomes one replacement character. -/
def decodeLossyChars (bytes : List UInt8) : List Char := (pieces bytes).map Piece.shown

def decodeLossy (bytes : List UInt8) : String := String.ofList (decodeLossyChars bytes)

/-- Where strict decoding stops, and on which bytes. -/
structure DecodeError where
  position : Nat
  bytes : List UInt8
  cause : Malformed
  deriving DecidableEq, Repr

def DecodeError.message (e : DecodeError) : String :=
  let place := match e.bytes with
    | [b] => "byte 0x" ++ hex 2 b.toNat ++ " in position " ++ toString e.position
    | bs => "bytes in position " ++ toString e.position ++ "-" ++
        toString (e.position + bs.length - 1)
  "'utf-8' codec can't decode " ++ place ++ ": " ++ e.cause.message

def encodeChars (cs : List Char) : List UInt8 := cs.flatMap String.utf8EncodeChar

def encode (s : String) : List UInt8 := encodeChars s.toList

def strictChars : Nat → List Piece → Except DecodeError (List Char)
  | _, [] => .ok []
  | position, .char c :: rest =>
    (strictChars (position + (String.utf8EncodeChar c).length) rest).map (c :: ·)
  | position, .bad bytes cause :: _ => .error ⟨position, bytes, cause⟩

def decodeStrict (bytes : List UInt8) : Except DecodeError String :=
  (strictChars 0 (pieces bytes)).map String.ofList

@[simp] theorem pieces_nil : pieces [] = [] := rfl
@[simp] theorem encode_empty : encode "" = [] := rfl

end Text
end FileSweep
