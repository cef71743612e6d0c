import NamedQuery.Fault

/-! # Files

What a program needs of a file system is the text of a file, and whether something is at a path. The
effects `m` that this takes are left open, so that programs run on files of the machine as well as on
a `FileTree` in memory. -/

namespace NamedQuery

structure FileAccess (m : Type → Type) where
  read : String → m (Except FileProblem String)
  isThere : String → m Bool

/-! ## Paths

Paths are texts, their parts separated by slashes. Nothing is looked up here: `..` and the like are
left alone, and joining keeps both texts as they are. -/

namespace Path

def parts (path : String) : List String :=
  (path.toList.splitOnP (· == '/')).map String.ofList

def isRelative (path : String) : Bool :=
  path.toList.head? != some '/'

/-- Parts that lead nowhere. -/
def isIdle (part : String) : Bool := part = "" || part = "."

/-- The path of the directory that a path is in: all but the last part, without idle parts at the
end. For a path of one part it is empty. -/
def parent (path : String) : String :=
  match parts path with
  | [] => ""
  | [_] => ""
  | first :: rest =>
    let kept := (rest.dropLast.reverse.dropWhile isIdle).reverse
    if first = "" ∧ kept = [] then "/" else "/".intercalate (first :: kept)

def join (directory path : String) : String :=
  if directory = "" ∨ directory.toList.getLast? = some '/' then directory ++ path
  else directory ++ "/" ++ path

end Path

/-! ## Trees

Files in memory lie below one directory that paths start from. A path is walked part by part, and each
part but the last must lead to a directory. Of the file system around the tree only its directories
are known. -/

/-- Texts by the names that lead to them. -/
abbrev FileTree := List (List String × String)

namespace FileTree

def ofList (files : List (String × String)) : FileTree :=
  files.map fun (path, text) => ((Path.parts path).filter (!Path.isIdle ·), text)

/-- Where a walk has come to: somewhere below the start, or outside of the tree. -/
inductive Place where
  | inside (names : List String)
  | outside
deriving DecidableEq

inductive Node where
  | file (text : String)
  | directory

def node? (tree : FileTree) : Place → Option Node
  | .outside => some .directory
  | .inside names =>
    match tree.lookup names with
    | some text => some (.file text)
    | none =>
      if names.isEmpty || tree.any (names.isPrefixOf ·.1) then some .directory else none

def Place.parent : Place → Place
  | outside => outside
  | inside names => if names.isEmpty then outside else inside names.dropLast

/-- The longest part of a path that can be looked up, in bytes. -/
def maxPartSize : Nat := 255

/-- The size in bytes that no path reaches. -/
def maxPathSize : Nat := 4096

def step (tree : FileTree) (place : Place) (part : String) : Except FileProblem Place :=
  match tree.node? place with
  | none => .error .notFound
  | some (.file _) => .error .notDirectory
  | some .directory =>
    if Path.isIdle part then .ok place
    else if part = ".." then .ok place.parent
    else if maxPartSize < part.utf8ByteSize then .error .nameTooLong
    else
      match place with
      | .outside => .error .notFound
      | .inside names =>
        let next := .inside (names ++ [part])
        if (tree.node? next).isSome then .ok next else .error .notFound

def walk (tree : FileTree) (path : String) : Except FileProblem Place :=
  if path.toList.contains '\x00' then .error .badName
  else if path = "" then .error .notFound
  else if maxPathSize ≤ path.utf8ByteSize then .error .nameTooLong
  else
    (Path.parts path).foldlM tree.step
      (if Path.isRelative path then .inside [] else .outside)

def read (tree : FileTree) (path : String) : Except FileProblem String := do
  match tree.node? (← tree.walk path) with
  | some (.file text) => return text
  | some .directory => throw .isDirectory
  | none => throw .notFound

def isThere (tree : FileTree) (path : String) : Bool :=
  match tree.walk path with
  | .ok _ => true
  | .error _ => false

/-- Access to a tree takes no effects. -/
def access (tree : FileTree) : FileAccess Id where
  read := tree.read
  isThere := tree.isThere

end FileTree

end NamedQuery
