import FileSweep.Path

/-! Home and environment shortcuts in a path that a user typed. A leading tilde stands
for a home directory, and a dollar sign with a name for an environment variable. Values
are put in as they are and not read again. -/
namespace FileSweep

structure Environment where
  values : List (String × String)
  /-- Home directories by user name. -/
  homes : List (String × String)
  /-- The home of the current user where no variable gives one. -/
  home : String
  deriving Repr

namespace Environment

def get? (e : Environment) (name : String) : Option String := e.values.lookup name

def drop (e : Environment) (name : String) : Environment :=
  { e with values := e.values.filter fun v => v.1 != name }

def put (e : Environment) (name value : String) : Environment :=
  { e.drop name with values := (name, value) :: (e.drop name).values }

/-- The home directory that follows a tilde; the empty name is the current user. -/
def homeOf? (e : Environment) (user : String) : Option String :=
  if user.isEmpty then some ((e.get? "HOME").getD e.home) else e.homes.lookup user

end Environment

namespace Path

/-- A path whose tilde names an unknown user is left as it is. -/
def expandHome (e : Environment) (p : String) : String :=
  match p.toList with
  | '~' :: cs =>
    let user := cs.takeWhile (· != '/')
    match e.homeOf? (String.ofList user) with
    | none => p
    | some home =>
      let trimmed := (home.toList.reverse.dropWhile (· == '/')).reverse
      let text := trimmed ++ cs.dropWhile (· != '/')
      if text.isEmpty then "/" else String.ofList text
  | _ => p

def isNameChar (c : Char) : Bool := c.isAlphanum || c == '_'

/-- The variable that follows a dollar sign: its name and the number of characters it
takes. -/
def reference? (cs : List Char) : Option (List Char × Nat) :=
  match cs with
  | '\x7b' :: rest =>
    let name := rest.takeWhile (· != '\x7d')
    if name.length < rest.length then some (name, name.length + 2) else none
  | _ =>
    let name := cs.takeWhile isNameChar
    if name.isEmpty then none else some (name, name.length)

/-- Expands a text of which the first `skip` characters are already dealt with. -/
def expandVariablesFrom (e : Environment) : Nat → List Char → List Char
  | _, [] => []
  | skip + 1, _ :: cs => expandVariablesFrom e skip cs
  | 0, c :: cs =>
    if c = '$' then
      match reference? cs with
      | none => c :: expandVariablesFrom e 0 cs
      | some (name, taken) =>
        match e.get? (String.ofList name) with
        | some value => value.toList ++ expandVariablesFrom e taken cs
        | none => c :: cs.take taken ++ expandVariablesFrom e taken cs
    else c :: expandVariablesFrom e 0 cs

def expandVariables (e : Environment) (p : String) : String :=
  String.ofList (expandVariablesFrom e 0 p.toList)

end Path
end FileSweep
