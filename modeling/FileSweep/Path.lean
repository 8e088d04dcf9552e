/-! Slash-separated path names as text: joining, the parts of a name, lexical
normalization, and the way from one directory to a path below or beside it. -/
namespace FileSweep
namespace Path

/-- The last component, which is empty after a final slash. -/
def baseChars (p : List Char) : List Char := (p.reverse.takeWhile (· != '/')).reverse

/-- What precedes the last component, its final slash included. -/
def headChars (p : List Char) : List Char := (p.reverse.dropWhile (· != '/')).reverse

theorem headChars_append_baseChars (p : List Char) : headChars p ++ baseChars p = p := by
  simp only [headChars, baseChars, ← List.reverse_append, List.takeWhile_append_dropWhile,
    List.reverse_reverse]

/-- Drops trailing slashes, but leaves a run that is all slashes. -/
def dropSlashes (p : List Char) : List Char :=
  if p.all (· == '/') then p else (p.reverse.dropWhile (· == '/')).reverse

def dirChars (p : List Char) : List Char := dropSlashes (headChars p)

theorem isPrefix_dropSlashes (p : List Char) : dropSlashes p <+: p := by
  unfold dropSlashes
  split
  · exact List.prefix_refl p
  · have hsuffix := List.dropWhile_suffix (l := p.reverse) (· == '/')
    rw [← List.reverse_prefix, List.reverse_reverse] at hsuffix
    exact hsuffix

theorem isPrefix_dirChars (p : List Char) : dirChars p <+: p :=
  (isPrefix_dropSlashes _).trans ⟨baseChars p, headChars_append_baseChars p⟩

/-- Joins a name to a directory. An absolute name stands for itself. -/
def joinChars (dir name : List Char) : List Char :=
  match name with
  | '/' :: _ => name
  | _ =>
    if dir.isEmpty || dir.getLast? == some '/' then dir ++ name else dir ++ '/' :: name

/-- A path without its extension, and the extension with its dot. Dots that lead the last
component begin no extension. -/
def splitExtensionChars (p : List Char) : List Char × List Char :=
  let name := (baseChars p).reverse
  let suffix := name.takeWhile (· != '.')
  match name.dropWhile (· != '.') with
  | [] => (p, [])
  | _ :: stem =>
    if stem.all (· == '.') then (p, [])
    else (headChars p ++ stem.reverse, '.' :: suffix.reverse)

theorem splitExtensionChars_append (p : List Char) :
    (splitExtensionChars p).1 ++ (splitExtensionChars p).2 = p := by
  have hname := List.takeWhile_append_dropWhile (p := (· != '.')) (l := (baseChars p).reverse)
  unfold splitExtensionChars
  simp only
  split
  · simp
  next dot stem hdrop =>
    split
    · simp
    · have hdot : dot = '.' := by
        have hhead := List.head?_dropWhile_not (· != '.') (baseChars p).reverse
        simpa [hdrop] using hhead
      rw [hdrop, hdot] at hname
      have hbase := congrArg List.reverse hname
      rw [List.reverse_reverse, List.reverse_append, List.reverse_cons, List.append_assoc] at hbase
      rw [List.append_assoc]
      exact (congrArg (headChars p ++ ·) hbase).trans (headChars_append_baseChars p)

def componentsChars : List Char → List (List Char)
  | [] => [[]]
  | c :: cs =>
    if c = '/' then [] :: componentsChars cs
    else
      match componentsChars cs with
      | [] => [[c]]
      | part :: parts => (c :: part) :: parts

/-- Puts one component on the stack of those before it. An empty one and a dot are
dropped, and two dots take back the component before them where there is one. -/
def pushComponent (rooted : Bool) (stack : List (List Char)) (part : List Char) :
    List (List Char) :=
  if part = [] ∨ part = ['.'] then stack
  else if part = ['.', '.'] then
    match stack with
    | [] => if rooted then [] else [part]
    | top :: below => if top = ['.', '.'] then part :: stack else below
  else part :: stack

/-- The slashes that a normalized path starts with: exactly two are kept, more become one. -/
def rootChars : List Char → List Char
  | '/' :: '/' :: '/' :: _ => ['/']
  | '/' :: '/' :: _ => ['/', '/']
  | '/' :: _ => ['/']
  | _ => []

def joinComponents (parts : List (List Char)) : List Char :=
  (parts.intersperse ['/']).flatten

def normalizeChars (p : List Char) : List Char :=
  let root := rootChars p
  let parts := (componentsChars p).foldl (pushComponent (!root.isEmpty)) []
  let text := root ++ joinComponents parts.reverse
  if text.isEmpty then ['.'] else text

def isAbsolute (p : String) : Bool := p.toList.head? == some '/'

def base (p : String) : String := String.ofList (baseChars p.toList)

def dir (p : String) : String := String.ofList (dirChars p.toList)

def join (dir name : String) : String := String.ofList (joinChars dir.toList name.toList)

def stem (p : String) : String :=
  String.ofList (splitExtensionChars (baseChars p.toList)).1

def extension (p : String) : String :=
  String.ofList ((splitExtensionChars p.toList).2.drop 1)

def normalize (p : String) : String := String.ofList (normalizeChars p.toList)

/-- The normalized path that `p` names from the directory `cwd`. -/
def absolute (cwd p : String) : String :=
  normalize (if isAbsolute p then p else join cwd p)

def components (p : String) : List String :=
  ((componentsChars p.toList).filter fun c => !c.isEmpty).map String.ofList

def dropShared : List String → List String → List String × List String
  | a :: as, b :: bs => if a = b then dropShared as bs else (a :: as, b :: bs)
  | as, bs => (as, bs)

/-- The way from the directory `start` to `p`, both absolute. -/
def relative (p start : String) : String :=
  let (up, down) := dropShared (components (normalize start)) (components (normalize p))
  let parts := up.map (fun _ => "..") ++ down
  if parts.isEmpty then "." else String.intercalate "/" parts

end Path
end FileSweep
