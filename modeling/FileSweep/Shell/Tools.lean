import FileSweep.Host.Files
import FileSweep.Shell.Arithmetic

/-! The small programs that scripts are made of, as functions of their arguments. -/
namespace FileSweep
namespace Shell

def bytesOf (cs : List Char) : List UInt8 := Text.encodeChars cs

def escapeByte? : Char → Option UInt8
  | 'a' => some 7
  | 'b' => some 8
  | 'f' => some 12
  | 'n' => some 10
  | 'r' => some 13
  | 't' => some 9
  | 'v' => some 11
  | '\\' => some 92
  | '"' => some 34
  | _ => none

/-- The escape after a backslash: its bytes and the number of characters it takes.
`leadingZero` tells that octal digits follow a zero. -/
def escapeAt (leadingZero : Bool) (cs : List Char) : Option (List UInt8 × Nat) :=
  match cs with
  | [] => none
  | c :: rest =>
    match escapeByte? c with
    | some b => if c = '"' && leadingZero then none else some ([b], 1)
    | none =>
      if leadingZero then
        if c = '0' then
          let ds := (rest.takeWhile isOctal).take 3
          some ([(octalValue ds).toUInt8], ds.length + 1)
        else none
      else
        let ds := (cs.takeWhile isOctal).take 3
        if ds.isEmpty then none else some ([(octalValue ds).toUInt8], ds.length)

/-- The bytes of a text with escapes, the first `skip` characters of it already used. A
`\c` ends the text; the flag tells whether one did. -/
def escapedFrom (leadingZero : Bool) : Nat → List Char → List UInt8 × Bool
  | _, [] => ([], false)
  | skip + 1, _ :: cs => escapedFrom leadingZero skip cs
  | 0, c :: cs =>
    if c = '\\' then
      if cs.head? = some 'c' then ([], true)
      else
        match escapeAt leadingZero cs with
        | some (bytes, taken) =>
          let (more, ended) := escapedFrom leadingZero taken cs
          (bytes ++ more, ended)
        | none =>
          let (more, ended) := escapedFrom leadingZero 0 cs
          (92 :: more, ended)
    else
      let (more, ended) := escapedFrom leadingZero 0 cs
      (bytesOf [c] ++ more, ended)

def spaced (args : List (List Char)) : List Char := (args.intersperse [' ']).flatten

/-- The `echo` of the shell, which knows escapes. -/
def echoBuiltin (args : List (List Char)) : List UInt8 :=
  let (newline, args) := match args with
    | ['-', 'n'] :: rest => (false, rest)
    | _ => (true, args)
  let (bytes, ended) := escapedFrom true 0 (spaced args)
  bytes ++ (if newline && !ended then [10] else [])

/-- The `echo` that is a program of its own, which does not. -/
def echoProgram (args : List (List Char)) : List UInt8 :=
  match args with
  | ['-', 'n'] :: rest => bytesOf (spaced rest)
  | _ => bytesOf (spaced args) ++ [10]

inductive FormatPart where
  | bytes (b : List UInt8)
  | stop
  | field (left zero : Bool) (width : Nat) (precision : Option Nat) (kind : Char)
  deriving DecidableEq, Repr

/-- The conversion after a percent sign, and the number of characters it takes. -/
def fieldAt? (cs : List Char) : Option (FormatPart × Nat) :=
  let flags := cs.takeWhile fun c => "-0+ #".toList.contains c
  let rest := cs.drop flags.length
  let width := rest.takeWhile Char.isDigit
  let rest := rest.drop width.length
  let (precision, used, rest) := match rest with
    | '.' :: more =>
      let ds := more.takeWhile Char.isDigit
      (some (digitsValue ds), ds.length + 1, more.drop ds.length)
    | _ => (none, 0, rest)
  match rest with
  | kind :: _ =>
    if "sdiuxXocb".toList.contains kind then
      some (.field (flags.contains '-') (flags.contains '0') (digitsValue width) precision kind,
        flags.length + width.length + used + 1)
    else none
  | [] => none

def formatFrom : Nat → List Char → List FormatPart
  | _, [] => []
  | skip + 1, _ :: cs => formatFrom skip cs
  | 0, c :: cs =>
    if c = '\\' then
      if cs.head? = some 'c' then [.stop]
      else
        match escapeAt false cs with
        | some (bytes, taken) => .bytes bytes :: formatFrom taken cs
        | none => .bytes [92] :: formatFrom 0 cs
    else if c = '%' then
      if cs.head? = some '%' then .bytes [37] :: formatFrom 1 cs
      else
        match fieldAt? cs with
        | some (part, taken) => part :: formatFrom taken cs
        | none => .bytes [37] :: formatFrom 0 cs
    else .bytes (bytesOf [c]) :: formatFrom 0 cs

def fillWidth (left zero : Bool) (width : Nat) (cs : List Char) : List Char :=
  let pad := List.replicate (width - cs.length) (if zero && !left then '0' else ' ')
  if left then cs ++ List.replicate (width - cs.length) ' ' else pad ++ cs

/-- The digits that a text begins with, in the base that it names. -/
def leadingNumber (cs : List Char) : List Char :=
  match cs with
  | '0' :: 'x' :: rest => '0' :: 'x' :: rest.takeWhile fun c => (Text.hexValue? c).isSome
  | '0' :: rest => '0' :: rest.takeWhile isOctal
  | _ => cs.takeWhile Char.isDigit

/-- The number that an argument stands for, and the complaint if it is none or goes on
after it. After a quotation mark it is the code of the next character. -/
def argumentNumber (arg : List Char) : Int × Option String :=
  let signed (sign : List Char) (cs : List Char) : Int × Option String :=
    let digits := leadingNumber cs
    match integer? (sign ++ digits) with
    | none => (0, some "expected numeric value")
    | some n => (n, if digits.length < cs.length then some "not completely converted" else none)
  match arg with
  | [] => (0, none)
  | '\'' :: c :: _ => (c.toNat, none)
  | '"' :: c :: _ => (c.toNat, none)
  | '-' :: cs => signed ['-'] cs
  | '+' :: cs => signed [] cs
  | cs => signed [] cs

/-- A number as a machine word, a negative one counted from the word's end. -/
def machineWord (n : Int) : Nat := (n % Nat.pow 2 64).toNat

def fieldBytes (left zero : Bool) (width : Nat) (precision : Option Nat) (kind : Char)
    (arg : List Char) : List UInt8 :=
  let shown (cs : List Char) : List UInt8 := bytesOf (fillWidth left zero width cs)
  let number := (argumentNumber arg).1
  match kind with
  | 's' => shown ((precision.map fun n => arg.take n).getD arg)
  | 'b' => (escapedFrom true 0 arg).1
  | 'c' => shown (arg.take 1)
  | 'x' => shown (Nat.toDigits 16 (machineWord number))
  | 'X' => shown ((Nat.toDigits 16 (machineWord number)).map Char.toUpper)
  | 'o' => shown (Nat.toDigits 8 (machineWord number))
  | 'u' => shown (Nat.toDigits 10 (machineWord number))
  | _ => shown (toString number).toList

/-- What a format has made: the bytes, and the complaints about arguments. -/
structure Formatted where
  bytes : List UInt8 := []
  complaints : List String := []

def fieldComplaint (kind : Char) (arg : List Char) : List String :=
  if "sbc".toList.contains kind then []
  else
    match (argumentNumber arg).2 with
    | none => []
    | some complaint => [String.ofList arg ++ ": " ++ complaint]

/-- One pass through a format: the text made, the arguments left, and whether it was
stopped. -/
def formatPass : List FormatPart → List (List Char) → Formatted × List (List Char) × Bool
  | [], args => ({}, args, false)
  | .stop :: _, args => ({}, args, true)
  | .bytes b :: parts, args =>
    let (more, args, stopped) := formatPass parts args
    ({ more with bytes := b ++ more.bytes }, args, stopped)
  | .field left zero width precision kind :: parts, args =>
    let arg := args.headD []
    let (more, rest, stopped) := formatPass parts (args.drop 1)
    ({ bytes := fieldBytes left zero width precision kind arg ++ more.bytes
       complaints := fieldComplaint kind arg ++ more.complaints }, rest, stopped)

def hasField (parts : List FormatPart) : Bool :=
  parts.any fun
    | .field _ _ _ _ _ => true
    | _ => false

def formatAll (parts : List FormatPart) : Nat → List (List Char) → Formatted
  | 0, _ => {}
  | fuel + 1, args =>
    let (made, rest, stopped) := formatPass parts args
    if stopped || rest.isEmpty || !hasField parts then made
    else
      let more := formatAll parts fuel rest
      { bytes := made.bytes ++ more.bytes, complaints := made.complaints ++ more.complaints }

def printf (form : List Char) (args : List (List Char)) : Formatted :=
  formatAll (formatFrom 0 form) (args.length + 1) args

def testUnary? (h : Host) (op : String) (a : List Char) : Option Bool :=
  let path := String.ofList a
  match op with
  | "-n" => some (!a.isEmpty)
  | "-z" => some a.isEmpty
  | "-e" => some (h.pathExists path)
  | "-f" => some (h.isFile path)
  | "-d" => some (h.isDir path)
  | "-h" => some (h.isLink path)
  | "-L" => some (h.isLink path)
  | "-r" => some (h.pathExists path)
  | "-w" => some (h.pathExists path)
  | "-x" => some ((h.entry? path).any fun e => e.isDir || e.isExecutable)
  | "-s" => some (match h.readBytes path with
    | .ok bytes => !bytes.isEmpty
    | .error _ => h.isDir path)
  | "-t" => some false
  | _ => none

/-- Compares two numbers of a test; the error is the one that is none. -/
def compareNumbers (f : Int → Int → Bool) (a b : List Char) : Except String Bool :=
  let read (cs : List Char) : Except String Int :=
    let text := Text.trimChars cs
    let digits := match text with
      | '-' :: ds => ds
      | '+' :: ds => ds
      | ds => ds
    if digits.isEmpty || !digits.all Char.isDigit then
      .error ("Illegal number: " ++ String.ofList cs)
    else .ok (if text.head? == some '-' then -(digitsValue digits : Int) else digitsValue digits)
  match read a, read b with
  | .ok a, .ok b => .ok (f a b)
  | .error e, _ => .error e
  | _, .error e => .error e

/-- The truth of a test that compares two texts; none if the operator is not known. -/
def testBinary? (a : List Char) (op : String) (b : List Char) : Option (Except String Bool) :=
  match op with
  | "=" => some (.ok (a == b))
  | "!=" => some (.ok (a != b))
  | "<" => some (.ok (decide (a < b)))
  | ">" => some (.ok (decide (b < a)))
  | "-eq" => some (compareNumbers (fun a b => a == b) a b)
  | "-ne" => some (compareNumbers (fun a b => a != b) a b)
  | "-lt" => some (compareNumbers (fun a b => a < b) a b)
  | "-le" => some (compareNumbers (fun a b => a ≤ b) a b)
  | "-gt" => some (compareNumbers (fun a b => b < a) a b)
  | "-ge" => some (compareNumbers (fun a b => b ≤ a) a b)
  | "-a" => some (.ok (!a.isEmpty && !b.isEmpty))
  | "-o" => some (.ok (!a.isEmpty || !b.isEmpty))
  | _ => none

def splitAtWord (word : List Char) : List (List Char) → List (List (List Char))
  | [] => [[]]
  | a :: as =>
    if a = word then [] :: splitAtWord word as
    else
      match splitAtWord word as with
      | [] => [[a]]
      | part :: parts => (a :: part) :: parts

/-- The truth of a test expression; the error is its complaint. -/
def test (h : Host) : Nat → List (List Char) → Except String Bool
  | _, [] => .ok false
  | _, [a] => .ok (!a.isEmpty)
  | 0, a :: _ => .error (String.ofList a ++ ": unexpected operator")
  | fuel + 1, [a, b] =>
    if a = ['!'] then (test h fuel [b]).map fun b => !b
    else
      match testUnary? h (String.ofList a) b with
      | some truth => .ok truth
      | none =>
        if (testBinary? [] (String.ofList b) []).isSome then
          .error (String.ofList b ++ ": argument expected")
        else .error (String.ofList a ++ ": unexpected operator")
  | fuel + 1, args =>
    let direct := match args with
      | [a, op, b] => testBinary? a (String.ofList op) b
      | _ => none
    match direct with
    | some truth => truth
    | none =>
      match splitAtWord ['-', 'o'] args with
      | first :: second :: more =>
        (first :: second :: more).foldl (fun acc part => do
          let a ← acc
          let b ← test h fuel part
          return a || b) (.ok false)
      | _ =>
        match splitAtWord ['-', 'a'] args with
        | first :: second :: more =>
          (first :: second :: more).foldl (fun acc part => do
            let a ← acc
            let b ← test h fuel part
            return a && b) (.ok true)
        | _ =>
          match args with
          | ['!'] :: rest => (test h fuel rest).map fun b => !b
          | a :: _ :: _ => .error (String.ofList a ++ ": unexpected operator")
          | _ => .ok false

/-- The signals: names, numbers, and what is said of a process that one has ended. -/
def signals : List (String × Nat × String) :=
  [("HUP", 1, "Hangup"), ("INT", 2, ""), ("QUIT", 3, "Quit"), ("ABRT", 6, "Aborted"),
    ("KILL", 9, "Killed"), ("USR1", 10, "User defined signal 1"),
    ("SEGV", 11, "Segmentation fault"), ("USR2", 12, "User defined signal 2"), ("PIPE", 13, ""),
    ("ALRM", 14, "Alarm clock"), ("TERM", 15, "Terminated")]

def signalNumber? (s : List Char) : Option Nat :=
  match s with
  | [] => none
  | c :: _ =>
    if c.isDigit then some (digitsValue (s.takeWhile Char.isDigit))
    else
      let name := if "SIG".toList.isPrefixOf s then s.drop 3 else s
      (signals.lookup (String.ofList name)).map Prod.fst

def signalName (number : Nat) : String :=
  ((signals.find? fun e => e.2.1 == number).map Prod.fst).getD (toString number)

def signalText (number : Nat) : String :=
  ((signals.find? fun e => e.2.1 == number).map fun e => e.2.2).getD ""

end Shell
end FileSweep
