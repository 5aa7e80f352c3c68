set_option autoImplicit false

/-!
# Paths

A path is kept as it was written. Its meaning is its list of parts: repeated separators, inner `.`
segments and a trailing separator do not count, `..` does. Two paths are the `same` when their
parts are. Nothing here looks at a file system.

Paths are texts. A name whose bytes are not UTF-8 has no text of its own, and no path here has it.
-/
namespace TraceWorkbench

structure Path where
  text : String
  deriving DecidableEq, Repr, Inhabited

namespace Path

inductive Part where
  | root
  | here
  | up
  | name (text : List Char)
  deriving DecidableEq, Repr

/-- The segments between separators; there is always at least one. -/
def segments : List Char → List (List Char)
  | [] => [[]]
  | c :: rest =>
    if c = '/' then [] :: segments rest
    else
      match segments rest with
      | [] => [[c]]
      | seg :: more => (c :: seg) :: more

def isIdle (seg : List Char) : Bool := seg == [] || seg == ['.']

def partOf? (seg : List Char) : Option Part :=
  if isIdle seg then none else if seg == ['.', '.'] then some .up else some (.name seg)

def split (s : List Char) : Option Part × List (List Char) :=
  match s with
  | '/' :: rest => (some .root, segments rest)
  | _ =>
    match segments s with
    | ['.'] :: more => (some .here, more)
    | segs => (none, segs)

def partsOf (s : List Char) : List Part :=
  let (lead, segs) := split s
  lead.toList ++ segs.filterMap partOf?

def joinSegments : List (List Char) → List Char
  | [] => []
  | [seg] => seg
  | seg :: more => seg ++ '/' :: joinSegments more

def dropIdleEnd (segs : List (List Char)) : List (List Char) :=
  (segs.reverse.dropWhile isIdle).reverse

/-- Drops the first `n` segments that count, and the idle ones around them. -/
def dropParts : Nat → List (List Char) → List (List Char)
  | 0, segs => segs.dropWhile isIdle
  | n + 1, segs =>
    match segs with
    | [] => []
    | seg :: more => if isIdle seg then dropParts (n + 1) more else dropParts n more

def parts (p : Path) : List Part := partsOf p.text.toList

def same (p q : Path) : Bool := p.parts == q.parts

def startsWith (p q : Path) : Bool := q.parts.isPrefixOf p.parts

def isAbsolute (p : Path) : Bool := p.text.toList.head? == some '/'

/-- `q` read from the directory `p`: an absolute `q` stands for itself. -/
def join (p q : Path) : Path :=
  if q.isAbsolute then q
  else
    match p.text.toList.getLast? with
    | none => q
    | some '/' => ⟨p.text ++ q.text⟩
    | some _ => ⟨p.text ++ "/" ++ q.text⟩

def fileName (p : Path) : Option String :=
  match p.parts.getLast? with
  | some (.name n) => some (String.ofList n)
  | _ => none

/-- A leading part as it is written, the first separator after `.` apart. -/
def leadText : Option Part → List Char
  | some .root => ['/']
  | some .here => ['.']
  | _ => []

def withLead (lead : Option Part) (segs : List (List Char)) : List Char :=
  match lead, segs with
  | some .here, _ :: _ => '.' :: '/' :: joinSegments segs
  | _, _ => leadText lead ++ joinSegments segs

/-- The path without its last part; the root and the empty path have no parent. -/
def parent (p : Path) : Option Path :=
  let (lead, segs) := split p.text.toList
  match (dropIdleEnd segs).reverse with
  | _ :: before => some ⟨String.ofList (withLead lead (dropIdleEnd before.reverse))⟩
  | [] => if lead == some .here then some ⟨""⟩ else none

def relativeTo? (p base : Path) : Option Path :=
  if !p.startsWith base then none
  else
    let (lead, segs) := split p.text.toList
    match base.parts with
    | [] => some ⟨String.ofList (withLead lead (dropIdleEnd segs))⟩
    | parts =>
      let counted := parts.length - lead.toList.length
      some ⟨String.ofList (joinSegments (dropIdleEnd (dropParts counted segs)))⟩

theorem segments_ne_nil (s : List Char) : segments s ≠ [] := by
  fun_cases segments s <;> simp_all

theorem joinSegments_segments (s : List Char) : joinSegments (segments s) = s := by
  induction s with
  | nil => rfl
  | cons c rest ih =>
    by_cases hc : c = '/'
    · subst hc
      simp only [segments, if_true]
      match h : segments rest with
      | [] => exact absurd h (segments_ne_nil rest)
      | seg :: more => rw [h] at ih; simp [joinSegments, ih]
    · simp only [segments, hc, if_false]
      match h : segments rest with
      | [] => exact absurd h (segments_ne_nil rest)
      | [seg] => rw [h] at ih; simp_all [joinSegments]
      | seg :: seg' :: more => rw [h] at ih; simp_all [joinSegments]

theorem same_refl (p : Path) : p.same p = true := by simp [same]

end Path

end TraceWorkbench
