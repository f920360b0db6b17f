import VideoOverlay.Text.Utf8

/-!
# `System.Files` — a tree of files

Files have contents, and stand in directories that hold nothing else. A path leads from the working
directory, or from the root if it begins with a slash; it may go up with two points, and one point stays where
it is. Before going on from a component it must be a directory.

## Contents
- `FileError`, `FileError.reason`: why a file cannot be reached.
- `Files`, `Node`: the tree and what stands at a place in it.
- `Path`, `Path.ofText`: the components of a path.
- `Files.walk`, `Files.locate`: where a path leads. `Files.read?`, `Files.readText?`, `Files.write`.
- `Files.read?_of_write`: what was written is read.
-/

namespace VideoOverlay

/-! ## Failures -/

/-- Why a file cannot be reached, written or run. -/
inductive FileError where
  | missing
  | notAllowed
  | notADirectory
  | isADirectory
  | nameTooLong
  | nulInName
  deriving DecidableEq, Repr

/-- A failure in the words of the system. -/
def FileError.reason : FileError → String
  | .missing => "No such file or directory (os error 2)"
  | .notAllowed => "Permission denied (os error 13)"
  | .notADirectory => "Not a directory (os error 20)"
  | .isADirectory => "Is a directory (os error 21)"
  | .nameTooLong => "File name too long (os error 36)"
  | .nulInName => "file name contained an unexpected NUL byte"

/-! ## Trees -/

/-- A place in a tree: the names that lead to it from the root. -/
abbrev Place := List String

/-- The files of a tree, each with its place and contents. A directory is what a file stands in, besides the
working directory and those it stands in. -/
structure Files where
  workingDirectory : Place := []
  files : List (Place × ByteArray) := []

/-- What stands at a place. -/
inductive Node where
  | directory
  | file (contents : ByteArray)

namespace Files

/-- What stands at a place, if anything does. -/
def node? (t : Files) (place : Place) : Option Node :=
  match List.lookup place t.files with
  | some contents => some (.file contents)
  | none =>
    if place.isPrefixOf t.workingDirectory || t.files.any fun f => place.isPrefixOf f.1 then some .directory
    else none

/-- The tree with a file, new or instead of the one that stood there. -/
def put (t : Files) (place : Place) (contents : ByteArray) : Files :=
  { t with files := (place, contents) :: t.files }

end Files

/-! ## Paths -/

/-- A path: whether it leads from the root, the components to go through, the last one, and whether a slash
behind it asks for a directory. -/
structure Path where
  fromRoot : Bool
  through : List String
  last : String
  closed : Bool
  deriving DecidableEq, Repr

/-- The text between slashes. -/
def splitSlashes : List Char → List (List Char)
  | [] => [[]]
  | c :: cs =>
    if c = '/' then [] :: splitSlashes cs
    else
      match splitSlashes cs with
      | [] => [[c]]
      | part :: parts => (c :: part) :: parts

/-- The components of a path; slashes alone lead to the root itself. -/
def Path.ofText (text : String) : Path :=
  let names := ((splitSlashes text.toList).filter (· ≠ [])).map String.ofList
  ⟨text.toList.head? = some '/', names.dropLast, names.getLast?.getD ".", text.toList.getLast? = some '/'⟩

/-- The most bytes that a component has, and that a path has. -/
def nameLimit : Nat × Nat := (255, 4095)

namespace Files

/-- The place that one component leads to, from a directory. -/
def enter (place : Place) (name : String) : Place :=
  if name = "." then place else if name = ".." then place.dropLast else place ++ [name]

/-- The directory that components lead to, one after the other. -/
def walk (t : Files) (place : Place) : List String → Except FileError Place
  | [] => .ok place
  | name :: names =>
    if nameLimit.1 < name.utf8ByteSize then .error .nameTooLong
    else
      match t.node? (enter place name) with
      | some .directory => walk t (enter place name) names
      | some (.file _) => .error .notADirectory
      | none => .error .missing

/-- The directory that the last component of a path is looked for in. -/
def base (t : Files) (path : Path) : Except FileError Place :=
  t.walk (if path.fromRoot then [] else t.workingDirectory) path.through

/-- What stands where a path leads. -/
def locate (t : Files) (text : String) : Except FileError Node :=
  if text.toList.contains '\x00' then .error .nulInName
  else if text = "" then .error .missing
  else if nameLimit.2 < text.utf8ByteSize then .error .nameTooLong
  else do
    let path := Path.ofText text
    let directory ← t.base path
    if nameLimit.1 < path.last.utf8ByteSize then .error .nameTooLong
    else
      match t.node? (enter directory path.last) with
      | some (.file contents) => if path.closed then .error .notADirectory else .ok (.file contents)
      | some .directory => .ok .directory
      | none => .error .missing

/-- The contents of a file. -/
def read? (t : Files) (text : String) : Option ByteArray :=
  match t.locate text with
  | .ok (.file contents) => some contents
  | _ => none

/-- The text that a file holds, if it holds one. -/
def readText? (t : Files) (text : String) : Option String := (t.read? text).bind Text.strictText?

/-- The tree with a file written, which may be new; the directory it stands in is not. -/
def write (t : Files) (text : String) (contents : ByteArray) : Except FileError Files :=
  if text.toList.contains '\x00' then .error .nulInName
  else if text = "" then .error .missing
  else if nameLimit.2 < text.utf8ByteSize then .error .nameTooLong
  else do
    let path := Path.ofText text
    let directory ← t.base path
    if path.closed || path.last = "." || path.last = ".." then .error .isADirectory
    else if nameLimit.1 < path.last.utf8ByteSize then .error .nameTooLong
    else
      match t.node? (directory ++ [path.last]) with
      | some .directory => .error .isADirectory
      | _ => .ok (t.put (directory ++ [path.last]) contents)

/-! ## Reading what was written -/

/-- A new file makes no directory vanish, except one that stood in its place. -/
theorem node?_put_of_directory {t : Files} {place other : Place} {contents : ByteArray} (hne : other ≠ place)
    (h : t.node? other = some .directory) : (t.put place contents).node? other = some .directory := by
  simp only [node?, put, List.lookup_cons, beq_false_of_ne hne] at h ⊢
  split at h
  · cases h
  · rename_i hl
    simp only [hl, List.any_cons]
    split at h
    · rename_i hd
      simp only [Bool.or_eq_true] at hd ⊢
      rw [if_pos]
      rcases hd with hd | hd
      · exact .inl hd
      · exact .inr (.inr hd)
    · cases h

/-- A new file stands in its place. -/
theorem node?_put_self (t : Files) (place : Place) (contents : ByteArray) :
    (t.put place contents).node? place = some (.file contents) := by
  simp only [node?, put, List.lookup_cons, beq_self_eq_true]

/-- Where a new file does not stand in the place of a directory, components lead where they led before. -/
theorem walk_put {t : Files} {place : Place} {contents : ByteArray} (hp : t.node? place ≠ some .directory)
    {start directory : Place} {names : List String} (h : t.walk start names = .ok directory) :
    (t.put place contents).walk start names = .ok directory := by
  induction names generalizing start with
  | nil => exact h
  | cons name names ih =>
    simp only [walk] at h ⊢
    split at h
    · cases h
    · rename_i hlen
      rw [if_neg hlen]
      split at h
      · rename_i hd
        have hne : enter start name ≠ place := fun he => hp (he ▸ hd)
        rw [node?_put_of_directory hne hd]
        exact ih h
      · cases h
      · cases h

/-- What was written is read. -/
theorem read?_of_write {t next : Files} {text : String} {contents : ByteArray}
    (h : t.write text contents = .ok next) : next.read? text = some contents := by
  simp only [write] at h
  split at h <;> try contradiction
  split at h <;> try contradiction
  split at h <;> try contradiction
  rename_i h1 h2 h3
  cases hb : t.base (Path.ofText text) with
  | error e => rw [hb] at h; cases h
  | ok directory =>
    rw [hb] at h
    simp only [bind, Except.bind] at h
    split at h
    · cases h
    · rename_i h4
      split at h
      · cases h
      · rename_i h5
        simp only [Bool.or_eq_true, not_or, decide_eq_true_eq, Bool.not_eq_true] at h4
        -- The file is not written over a directory, so no directory on the way to it is lost.
        have hp : t.node? (directory ++ [(Path.ofText text).last]) ≠ some .directory := by
          intro hd
          simp only [hd] at h
          cases h
        have hn : t.put (directory ++ [(Path.ofText text).last]) contents = next := by
          split at h
          · cases h
          · exact Except.ok.inj h
        subst hn
        -- The path leads to the same place as before, and the file stands there.
        have hw : (t.put (directory ++ [(Path.ofText text).last]) contents).walk _ _ = .ok directory :=
          walk_put hp hb
        have he : enter directory (Path.ofText text).last = directory ++ [(Path.ofText text).last] := by
          simp [enter, h4.1.2, h4.2]
        simp only [read?, locate, if_neg h1, if_neg h2, if_neg h3, base]
        rw [show (t.put (directory ++ [(Path.ofText text).last]) contents).workingDirectory
          = t.workingDirectory from rfl, hw]
        simp only [bind, Except.bind, if_neg h5, he, node?_put_self, h4.1.1, Bool.false_eq_true, if_false]

end Files
end VideoOverlay
