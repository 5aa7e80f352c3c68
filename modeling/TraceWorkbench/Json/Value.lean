set_option autoImplicit false

/-!
# JSON values

The members of an object are kept in increasing order of their keys, and a later member replaces an
earlier one of the same key. A number is an integer if it was written as one and fits 64 bits, and
the bits of a double otherwise.
-/
namespace TraceWorkbench.Json

inductive Number where
  | int (value : Int)
  | double (bits : UInt64)
  deriving DecidableEq, Repr, Inhabited

inductive Value where
  | null
  | bool (b : Bool)
  | number (n : Number)
  | string (s : String)
  | array (items : List Value)
  | object (members : List (String × Value))
  deriving Repr, Inhabited, BEq

abbrev Members := List (String × Value)

/-- Adds a member in its place, or replaces the one of the same key. -/
def Members.insert (key : String) (value : Value) : Members → Members
  | [] => [(key, value)]
  | (k, v) :: rest =>
    if key < k then (key, value) :: (k, v) :: rest
    else if key = k then (key, value) :: rest
    else (k, v) :: Members.insert key value rest

def Members.find? (key : String) : Members → Option Value
  | [] => none
  | (k, v) :: rest => if k = key then some v else Members.find? key rest

/-- An object of the given members, of which the last one of a key counts. -/
def Value.ofMembers (ms : List (String × Value)) : Value :=
  .object (ms.foldl (fun acc (k, v) => Members.insert k v acc) [])

def Value.get? (v : Value) (key : String) : Option Value :=
  match v with
  | .object ms => Members.find? key ms
  | _ => none

def Value.nat (n : Nat) : Value := .number (.int n)

def Value.ofOption {α : Type} (f : α → Value) : Option α → Value
  | some a => f a
  | none => .null

def Value.strings (ss : List String) : Value := .array (ss.map .string)

end TraceWorkbench.Json
