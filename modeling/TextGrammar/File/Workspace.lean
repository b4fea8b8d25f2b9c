import TextGrammar.File.Path

/-!
# The files that can be read

What can be read are files and directories below a place to start from. The directories that lead to
a file are there with it. Above the start there are directories whose names are not known, so paths
lead up to them but not down again.

## Main definitions

* `Lookup`, `Files` — what paths lead to.
* `Workspace` — the files and directories below the start.
* `Workspace.files` — what paths lead to from the start.
-/

namespace TextGrammar

/-- What a path can lead to. -/
inductive Resource where
  | file (bytes : List UInt8)
  | directory
deriving DecidableEq

/-- What following a path comes to. -/
inductive Lookup where
  | nothing
  | found (resource : Resource)
  | nameTooLong
deriving DecidableEq

/-- What paths lead to. -/
abbrev Files := Path → Lookup

/-- Files and directories with the names that lead to them; of several with the same names the last
one counts. -/
structure Workspace where
  entries : List (List Text × Resource)

/-- A place on the way along a path. -/
inductive Place where
  /-- A place below the start, or the start itself. -/
  | below (names : List Text)
  | above
deriving DecidableEq

def byteLength (t : Text) : Nat := (String.ofList t).utf8ByteSize

def maxNameBytes : Nat := 255

def maxPathBytes : Nat := 4095

namespace Workspace

def resource? (w : Workspace) (names : List Text) : Option Resource :=
  match w.entries.reverse.find? (·.1 = names) with
  | some (_, r) => some r
  | none =>
    if names = [] ∨ w.entries.any fun e => names.isPrefixOf e.1 then some .directory else none

def resourceAt? (w : Workspace) : Place → Option Resource
  | .below names => w.resource? names
  | .above => some .directory

/-- The place that a name leads to from a directory; there is no way down from above. -/
def next? (place : Place) (name : Text) : Option Place :=
  match place with
  | .below names =>
    if name = upName then
      some (if names = [] then .above else .below names.dropLast)
    else some (.below (names ++ [name]))
  | .above => if name = upName then some .above else none

/-- What names lead to from a place; every name but the last has to lead to a directory. -/
def follow (w : Workspace) : Place → List Text → Lookup
  | place, [] =>
    match w.resourceAt? place with
    | some r => .found r
    | none => .nothing
  | place, name :: names =>
    match w.resourceAt? place with
    | some .directory =>
      if byteLength name > maxNameBytes then .nameTooLong
      else
        match next? place name with
        | some place => w.follow place names
        | none => .nothing
    | _ => .nothing

def files (w : Workspace) : Files := fun p =>
  if byteLength p.text > maxPathBytes then .nameTooLong
  else if p.absolute then .nothing
  else w.follow (.below []) p.names

end Workspace

end TextGrammar
