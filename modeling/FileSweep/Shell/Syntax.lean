/-! Scripts of the shell that a sweep's commands are usually written for: words with
quotes and expansions, redirections, and compound commands. -/
namespace FileSweep
namespace Shell

/-- A part of a word. The flag tells whether it stands in quotes. -/
inductive Part where
  | text (chars : List Char) (quoted : Bool)
  | param (name : List Char) (quoted : Bool)
  /-- An expansion in braces, by what stands between them. -/
  | braced (content : List Char) (quoted : Bool)
  | arith (expr : List Char) (quoted : Bool)
  | command (script : List Char) (quoted : Bool)
  deriving DecidableEq, Repr

abbrev Word := List Part

def Part.runs : Part → Bool
  | command _ _ => true
  | _ => false

inductive RedirectKind where
  | read
  | write
  | append
  | duplicate
  deriving DecidableEq, Repr

structure Redirect where
  fd : Nat
  kind : RedirectKind
  target : Word
  deriving DecidableEq, Repr

inductive Script where
  | skip
  /-- A command of one program, with the line on which it begins. -/
  | simple (line : Nat) (assignments : List (List Char × Word)) (words : List Word)
      (redirects : List Redirect)
  | seq (first second : Script)
  | both (first second : Script)
  | either (first second : Script)
  | negate (body : Script)
  | pipe (first second : Script)
  | loop (untilTrue : Bool) (condition body : Script)
  | branch (condition yes no : Script)
  | each (name : List Char) (words : Option (List Word)) (body : Script)
  | choose (subject : Word) (arms : List (List Word × Script))
  | group (body : Script) (redirects : List Redirect)
  | subshell (body : Script) (redirects : List Redirect)
  /-- A function, with the line on which it begins. -/
  | define (line : Nat) (name : List Char) (body : Script)
  deriving Repr, Inhabited

end Shell
end FileSweep
