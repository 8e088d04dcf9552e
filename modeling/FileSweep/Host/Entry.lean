/-! A tree of directory entries: files, programs that the host provides, symbolic links
and directories. -/
namespace FileSweep

inductive Entry where
  | file (content : List UInt8) (mode : Nat)
  | program (name : String)
  | link (target : String)
  | dir (children : List (String × Entry))
  deriving Inhabited, Repr

namespace Entry

def isDir : Entry → Bool
  | dir _ => true
  | _ => false

def isLink : Entry → Bool
  | link _ => true
  | _ => false

def isRegular : Entry → Bool
  | file _ _ => true
  | program _ => true
  | _ => false

def isExecutable : Entry → Bool
  | file _ mode => mode &&& 0o111 != 0
  | program _ => true
  | _ => false

def children : Entry → List (String × Entry)
  | dir cs => cs
  | _ => []

def child? (e : Entry) (name : String) : Option Entry := e.children.lookup name

/-- The entry that a list of names leads to, links not followed. -/
def at? (e : Entry) : List String → Option Entry
  | [] => some e
  | name :: names =>
    match e.child? name with
    | none => none
    | some c => c.at? names

/-- Gives a name of a directory an entry, in its place or after the others. -/
def insertChild (cs : List (String × Entry)) (name : String) (e : Entry) :
    List (String × Entry) :=
  match cs with
  | [] => [(name, e)]
  | (n, c) :: rest => if n = name then (name, e) :: rest else (n, c) :: insertChild rest name e

/-- Puts an entry at the end of a list of names, making the directories on the way. -/
def put (e new : Entry) : List String → Entry
  | [] => new
  | name :: names =>
    dir (insertChild e.children name (((e.child? name).getD (dir [])).put new names))

def remove (e : Entry) : List String → Entry
  | [] => e
  | [name] => dir (e.children.filter fun c => c.1 != name)
  | name :: names =>
    match e.child? name with
    | none => e
    | some c => dir (insertChild e.children name (c.remove names))

@[simp] theorem at?_nil (e : Entry) : e.at? [] = some e := rfl

theorem lookup_insertChild (cs : List (String × Entry)) (name : String) (e : Entry) :
    (insertChild cs name e).lookup name = some e := by
  induction cs with
  | nil => simp [insertChild]
  | cons c rest ih =>
    obtain ⟨n, d⟩ := c
    by_cases h : n = name
    · simp [insertChild, h]
    · have h' : (name == n) = false := by simp [Ne.symm h]
      simp [insertChild, h, List.lookup_cons, h', ih]

theorem at?_put (e new : Entry) (names : List String) : (e.put new names).at? names = some new := by
  induction names generalizing e with
  | nil => rfl
  | cons name names ih => simp [put, at?, child?, children, lookup_insertChild, ih]

end Entry
end FileSweep
