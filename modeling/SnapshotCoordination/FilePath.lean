/-!
# File paths

Two spellings of a path that name the same file share one key. The key is found by looking at
the spelling alone: empty components and `.` are dropped, and `..` cancels the ordinary
component before it, is dropped at the root, and stays where nothing can be cancelled. A
spelling that resolves to nothing at all is its own key.

A path is handled as a `Resolved` value, whether it starts at the root and the components that
are left, last one first.
-/

namespace SnapshotCoordination

namespace FilePath

/-- A component of a path. -/
abbrev Component := List Char

/-- The component `.`, which stays where it is. -/
def here : Component := ['.']

/-- The component `..`, which goes one level up. -/
def up : Component := ['.', '.']

/-- Cut a text at every slash. -/
def splitSlashes : List Char → List Component
  | [] => [[]]
  | c :: cs =>
    if c = '/' then [] :: splitSlashes cs
    else
      match splitSlashes cs with
      | [] => [[c]]
      | w :: ws => (c :: w) :: ws

/-- The components of a text that matter. -/
def components (text : List Char) : List Component :=
  (splitSlashes text).filter fun w => w ≠ [] ∧ w ≠ here

/-- Whether a text starts at the root. -/
def isAbsolute (text : List Char) : Bool := text.head? == some '/'

/-- Append a component to the components so far, of which the last comes first. -/
def push (absolute : Bool) (trail : List Component) (w : Component) : List Component :=
  if w = up then
    match trail with
    | [] => if absolute then [] else [up]
    | last :: rest => if last = up then up :: trail else rest
  else w :: trail

/-- A path after all that can be cancelled has been. -/
structure Resolved where
  absolute : Bool
  /-- The components that are left, last one first. -/
  trail : List Component
  deriving DecidableEq

/-- Resolve a text. -/
def resolve (text : List Char) : Resolved :=
  let absolute := isAbsolute text
  ⟨absolute, (components text).foldl (push absolute) []⟩

/-- Write components with slashes between them. -/
def join : List Component → List Char
  | [] => []
  | [w] => w
  | w :: ws => w ++ '/' :: join ws

namespace Resolved

/-- Whether nothing is left: neither the root nor a component. -/
def isNothing (p : Resolved) : Bool := !p.absolute && p.trail.isEmpty

/-- Write a resolved path. -/
def render (p : Resolved) : List Char :=
  if p.absolute then '/' :: join p.trail.reverse else join p.trail.reverse

end Resolved

/-- The key of a text. -/
def keyChars (text : List Char) : List Char :=
  let p := resolve text
  if p.isNothing then text else p.render

/-- The key shared by the spellings of a path. -/
def key (path : String) : String := String.ofList (keyChars path.toList)

end FilePath

end SnapshotCoordination
