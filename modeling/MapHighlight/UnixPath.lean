import MapHighlight.Text

/-!
# Paths

A path is a sequence of bytes whose components are separated by slashes. Empty components and
single dots lead nowhere and are left out, which also drops trailing slashes.
-/

namespace MapHighlight.UnixPath

/-- The byte between components. -/
def slash : UInt8 :=
  47

/-- The component that stays where it is. -/
def here : List UInt8 :=
  [46]

/-- The component that leads to the directory above. -/
def above : List UInt8 :=
  [46, 46]

/-- The components of a path that lead somewhere. -/
def components (path : List UInt8) : List (List UInt8) :=
  (path.splitOn slash).filter fun component => !component.isEmpty && component != here

/-- The file name of a path: its last component, unless that leads to the directory above. -/
def fileName (path : List UInt8) : Option (List UInt8) :=
  match (components path).getLast? with
  | none => none
  | some component => if component == above then none else some component

end MapHighlight.UnixPath
