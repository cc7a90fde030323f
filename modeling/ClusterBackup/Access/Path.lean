/-!
# Paths

A path is written without empty parts and without parts that stand for the directory itself. Two
slashes at the front stay two, more become one. A first part that starts with a tilde stands for a
home directory.
-/

namespace ClusterBackup

structure Path where
  root : List Char
  parts : List (List Char)
deriving DecidableEq

namespace Path

def rootOf (cs : List Char) : List Char :=
  match (cs.takeWhile (· == '/')).length with
  | 0 => []
  | 2 => ['/', '/']
  | _ => ['/']

def pieces : List Char → List (List Char)
  | [] => [[]]
  | c :: cs =>
    if c = '/' then [] :: pieces cs
    else
      match pieces cs with
      | piece :: rest => (c :: piece) :: rest
      | [] => [[c]]

def ofText (text : String) : Path where
  root := rootOf text.toList
  parts := (pieces text.toList).filter fun piece => piece ≠ [] ∧ piece ≠ ['.']

def text (p : Path) : String :=
  let cs := p.root ++ ['/'].intercalate p.parts
  String.ofList (if cs.isEmpty then ['.'] else cs)

/-- The path with its home directory put in, if it has one; there is none if the home directory of
the user is not known. The homes are given by user, one's own under the empty name. -/
def expand? (homeOf : String → Option String) (p : Path) : Option Path :=
  match p.root, p.parts with
  | [], ('~' :: user) :: parts =>
    (homeOf (String.ofList user)).map fun home =>
      let home := ofText home
      { home with parts := home.parts ++ parts }
  | _, _ => some p

end Path

end ClusterBackup
