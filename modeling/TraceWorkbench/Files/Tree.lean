import TraceWorkbench.Text.Utf8

set_option autoImplicit false

/-!
# File trees

A tree of directories, regular files and symbolic links. A place in it is the list of names that
lead to it from the root. Nothing here follows a link.

A file is in one place only: there are no hard links. Every name is a text.
-/
namespace TraceWorkbench

inductive Node where
  | file (content : Bytes) (executable : Bool)
  | link (target : String)
  | dir (entries : List (String × Node))
  deriving Repr, Inhabited

abbrev Entries := List (String × Node)

/-- The names that lead from the root to a place. -/
abbrev Place := List String

namespace Node

def isDir : Node → Bool
  | dir _ => true
  | _ => false

def isFile : Node → Bool
  | file .. => true
  | _ => false

def entries : Node → Entries
  | dir es => es
  | _ => []

end Node

namespace Entries

def find? (name : String) : Entries → Option Node
  | [] => none
  | (k, n) :: rest => if k = name then some n else find? name rest

/-- Puts an entry; new ones keep the order of the names. -/
def put (name : String) (n : Node) : Entries → Entries
  | [] => [(name, n)]
  | (k, m) :: rest =>
    if k = name then (name, n) :: rest
    else if name < k then (name, n) :: (k, m) :: rest
    else (k, m) :: put name n rest

def remove (name : String) : Entries → Entries
  | [] => []
  | (k, m) :: rest => if k = name then remove name rest else (k, m) :: remove name rest

def alter (name : String) (f : Option Node → Option Node) (es : Entries) : Entries :=
  match f (find? name es) with
  | some n => put name n es
  | none => remove name es

theorem find?_put (name k : String) (n : Node) (es : Entries) :
    find? k (put name n es) = if name = k then some n else find? k es := by
  induction es with
  | nil => simp [put, find?]
  | cons e rest ih =>
    obtain ⟨l, m⟩ := e
    unfold put
    split
    · rename_i hl
      subst hl
      by_cases hk : l = k <;> simp [find?, hk]
    · rename_i hl
      split
      · rfl
      · by_cases hk : name = k
        · subst hk
          simp [find?, hl, ih]
        · simp [find?, hk, ih]

theorem find?_remove (name k : String) (es : Entries) :
    find? k (remove name es) = if name = k then none else find? k es := by
  induction es with
  | nil => simp [remove, find?]
  | cons e rest ih =>
    obtain ⟨l, m⟩ := e
    unfold remove
    split
    · rename_i hl
      subst hl
      rw [ih]
      by_cases hk : l = k <;> simp [find?, hk]
    · rename_i hl
      by_cases hk : name = k
      · subst hk
        simp [find?, hl, ih]
      · simp [find?, hk, ih]

theorem find?_alter (name k : String) (f : Option Node → Option Node) (es : Entries) :
    find? k (alter name f es) = if name = k then f (find? name es) else find? k es := by
  unfold alter
  cases f (find? name es) with
  | some n => exact find?_put name k n es
  | none => exact find?_remove name k es

end Entries

namespace Node

def child? (n : Node) (name : String) : Option Node := Entries.find? name n.entries

def at? : Place → Node → Option Node
  | [], n => some n
  | name :: rest, n =>
    match n.child? name with
    | some c => at? rest c
    | none => none

/-- Puts, changes or removes what stands at a place; nothing happens if its directory is missing. -/
def alterAt (f : Option Node → Option Node) : Place → Node → Node
  | [], n => (f (some n)).getD n
  | [name], dir es => dir (Entries.alter name f es)
  | name :: rest, dir es => dir (Entries.alter name (fun c => c.map (alterAt f rest)) es)
  | _ :: _, n => n

theorem at?_nil (n : Node) : at? [] n = some n := rfl

theorem at?_cons (name : String) (rest : Place) (n : Node) :
    at? (name :: rest) n = (n.child? name).bind (at? rest) := by
  rw [at?]
  cases n.child? name <;> rfl

theorem at?_append (p q : Place) (n : Node) : at? (p ++ q) n = (at? p n).bind (at? q) := by
  induction p generalizing n with
  | nil => rfl
  | cons name rest ih =>
    rw [List.cons_append, at?_cons, at?_cons]
    cases n.child? name with
    | none => rfl
    | some c => exact ih c

theorem at?_concat (p : Place) (name : String) (n : Node) :
    at? (p ++ [name]) n = (at? p n).bind fun m => m.child? name := by
  rw [at?_append]
  cases at? p n with
  | none => rfl
  | some m =>
    change at? [name] m = m.child? name
    rw [at?_cons]
    cases m.child? name <;> rfl

theorem child?_eq_some {n c : Node} {name : String} (h : n.child? name = some c) :
    ∃ es, n = dir es ∧ Entries.find? name es = some c := by
  cases n with
  | dir es => exact ⟨es, rfl, h⟩
  | file content executable => simp [child?, entries, Entries.find?] at h
  | link target => simp [child?, entries, Entries.find?] at h

mutual

/-- All places below a node, each with its mark: `/` for directories and `@` for links. -/
def listing (above : String) : Node → List String
  | dir es => listingEntries above es
  | _ => []

def listingEntries (above : String) : List (String × Node) → List String
  | [] => []
  | (name, n) :: rest =>
    let path := above ++ name
    (match n with
      | file .. => [path]
      | link _ => [path ++ "@"]
      | dir es => (path ++ "/") :: listing (path ++ "/") (.dir es)) ++ listingEntries above rest

end

end Node

end TraceWorkbench
