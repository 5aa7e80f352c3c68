import TraceWorkbench.Files.OsError
import TraceWorkbench.Files.Tree
import TraceWorkbench.Path

set_option autoImplicit false

/-!
# Access to files by path

Paths are resolved from a working directory, and symbolic links on the way are followed, up to a
limit. An operation answers what it found, or the tree that it leaves behind, or why the system
refuses it.
-/
namespace TraceWorkbench

structure FileTree where
  root : Node
  cwd : Place
  deriving Repr, Inhabited

namespace FileTree

def linkLimit : Nat := 40

/-- Goes down from a directory, whose place is given in reverse. A link is handed to `follow`
together with the parts behind it; the last part is followed only if `last` says so. -/
def descend (root : Node) (last : Bool) (follow : Place → List Path.Part → Except OsError Place) :
    Place → List Path.Part → Except OsError Place
  | up, [] => .ok up.reverse
  | _, .root :: rest => descend root last follow [] rest
  | up, .here :: rest => descend root last follow up rest
  | up, .up :: rest => descend root last follow up.tail rest
  | up, .name n :: rest =>
    let name := String.ofList n
    if name.utf8ByteSize > 255 then .error .nameTooLong
    else
      match root.at? (name :: up).reverse with
      | none =>
        if rest.isEmpty && ((root.at? up.reverse).map Node.isDir).getD false then
          .ok (name :: up).reverse
        else .error .noEntry
      | some (.dir _) => descend root last follow (name :: up) rest
      | some (.file ..) => if rest.isEmpty then .ok (name :: up).reverse else .error .notDirectory
      | some (.link target) =>
        if rest.isEmpty && !last then .ok (name :: up).reverse
        else if target.isEmpty then .error .noEntry
        else follow up (Path.partsOf target.toList ++ rest)

def walk (root : Node) (last : Bool) : Nat → Place → List Path.Part → Except OsError Place
  | 0, up, parts => descend root last (fun _ _ => .error .tooManyLinks) up parts
  | n + 1, up, parts => descend root last (walk root last n) up parts

/-- Whether the path can only mean a directory. -/
def wantsDirectory (p : Path) : Bool :=
  match (Path.segments p.text.toList).getLast? with
  | some seg => Path.isIdle seg
  | none => false

/-- The place that a path means. Its directory exists; the place itself may be free. -/
def resolve (t : FileTree) (p : Path) (last : Bool) : Except OsError Place :=
  if p.text.toList.contains '\x00' then .error .nulInPath
  else if p.text.isEmpty then .error .noEntry
  else if p.text.utf8ByteSize ≥ 4096 then .error .nameTooLong
  else
    match walk t.root (last || wantsDirectory p) linkLimit t.cwd.reverse p.parts with
    | .error e => .error e
    | .ok place =>
      match t.root.at? place with
      | some (.file ..) => if wantsDirectory p then .error .notDirectory else .ok place
      | _ => .ok place

/-- What stands at a path. Links are followed, also at its end. -/
def stat (t : FileTree) (p : Path) : Except OsError Node :=
  match t.resolve p true with
  | .error e => .error e
  | .ok place => (t.root.at? place).elim (.error .noEntry) .ok

/-- What stands at a path, be it a link. -/
def linkStat (t : FileTree) (p : Path) : Except OsError Node :=
  match t.resolve p false with
  | .error e => .error e
  | .ok place => (t.root.at? place).elim (.error .noEntry) .ok

def exists? (t : FileTree) (p : Path) : Bool := (t.stat p).toOption.isSome

def isDirectory (t : FileTree) (p : Path) : Bool := ((t.stat p).toOption.map Node.isDir).getD false

def readBytes (t : FileTree) (p : Path) : Except OsError Bytes :=
  match t.stat p with
  | .error e => .error e
  | .ok (.file content _) => .ok content
  | .ok _ => .error .isDirectory

def readText (t : FileTree) (p : Path) : Except OsError String :=
  match t.readBytes p with
  | .error e => .error e
  | .ok content => (String.ofBytes? content).elim (.error .notText) .ok

def setRoot (t : FileTree) (root : Node) : FileTree := { t with root }

def openForWriting (t : FileTree) (p : Path) (truncate : Bool) :
    Except OsError (Place × FileTree) :=
  match t.resolve p true with
  | .error e => .error e
  | .ok place =>
    match t.root.at? place with
    | some (.dir _) => .error .isDirectory
    | some (.link _) => .error .tooManyLinks
    | some (.file content executable) =>
      let content := if truncate then [] else content
      .ok (place, t.setRoot (t.root.alterAt (fun _ => some (.file content executable)) place))
    | none =>
      if wantsDirectory p then .error .isDirectory
      else .ok (place, t.setRoot (t.root.alterAt (fun _ => some (.file [] false)) place))

/-- Adds bytes at the end of an open file; they are lost if it is gone. -/
def append (t : FileTree) (place : Place) (bytes : Bytes) : FileTree :=
  t.setRoot (t.root.alterAt (fun
    | some (.file content executable) => some (.file (content ++ bytes) executable)
    | other => other) place)

def write (t : FileTree) (p : Path) (bytes : Bytes) : Except OsError FileTree :=
  match t.openForWriting p true with
  | .error e => .error e
  | .ok (place, t) => .ok (t.append place bytes)

def writeText (t : FileTree) (p : Path) (text : String) : Except OsError FileTree :=
  t.write p text.utf8Bytes

def removeFile (t : FileTree) (p : Path) : Except OsError FileTree :=
  match t.resolve p false with
  | .error e => .error e
  | .ok place =>
    match t.root.at? place with
    | none => .error .noEntry
    | some (.dir _) => .error .isDirectory
    | some _ => .ok (t.setRoot (t.root.alterAt (fun _ => none) place))

def removeTree (t : FileTree) (p : Path) : Except OsError FileTree :=
  match t.resolve p false with
  | .error e => .error e
  | .ok place =>
    match t.root.at? place with
    | none => .error .noEntry
    | some _ => .ok (t.setRoot (t.root.alterAt (fun _ => none) place))

def create (t : FileTree) (p : Path) (n : Node) : Except OsError FileTree :=
  match t.resolve p false with
  | .error e => .error e
  | .ok place =>
    match t.root.at? place with
    | some _ => .error .alreadyExists
    | none => .ok (t.setRoot (t.root.alterAt (fun _ => some n) place))

def makeDir (t : FileTree) (p : Path) : Except OsError FileTree := t.create p (.dir [])

def makeDirsFrom (t : FileTree) : Nat → Path → Except OsError FileTree
  | 0, _ => .ok t
  | n + 1, p =>
    if p.text.isEmpty then .ok t
    else
      match t.makeDir p with
      | .ok t => .ok t
      | .error .noEntry =>
        match p.parent with
        | none => .error .noEntry
        | some above =>
          match t.makeDirsFrom n above with
          | .error e => .error e
          | .ok t =>
            match t.makeDir p with
            | .ok t => .ok t
            | .error e => if t.isDirectory p then .ok t else .error e
      | .error e => if t.isDirectory p then .ok t else .error e

def makeDirs (t : FileTree) (p : Path) : Except OsError FileTree :=
  t.makeDirsFrom (p.parts.length + 1) p

def makeExecutable (t : FileTree) (p : Path) : Except OsError FileTree :=
  match t.resolve p true with
  | .error e => .error e
  | .ok place =>
    match t.root.at? place with
    | some (.file content _) =>
      .ok (t.setRoot (t.root.alterAt (fun _ => some (.file content true)) place))
    | some _ => .ok t
    | none => .error .noEntry

def placePath (place : Place) : Path := ⟨"/" ++ "/".intercalate place⟩

/-- The absolute path without links, `.` and `..` that means the same; it has to exist. -/
def canonical (t : FileTree) (p : Path) : Except OsError Path :=
  match t.resolve p true with
  | .error e => .error e
  | .ok place => if (t.root.at? place).isSome then .ok (placePath place) else .error .noEntry

def listing (t : FileTree) (p : Path) : List String :=
  match t.stat p with
  | .ok n => (n.listing "").mergeSort fun a b => a ≤ b
  | .error _ => []

end FileTree

end TraceWorkbench
