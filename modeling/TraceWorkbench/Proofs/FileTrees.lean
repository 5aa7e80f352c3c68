import TraceWorkbench.Files.Access

set_option autoImplicit false

/-!
# Resolving and writing

Where a path leads depends only on the directories and links on its way. A file that is written
changes none of them, so paths lead afterwards where they led before.
-/
namespace TraceWorkbench

namespace Entries

theorem mem_of_find? {name : String} {n : Node} {es : Entries} (h : find? name es = some n) :
    (name, n) ∈ es := by
  induction es with
  | nil => simp [find?] at h
  | cons e rest ih =>
    obtain ⟨k, m⟩ := e
    by_cases hk : k = name
    · obtain rfl : m = n := by simpa [find?, hk] using h
      simp [hk]
    · exact List.mem_cons_of_mem _ (ih (by simpa [find?, hk] using h))

variable (name : String) (m n : Node) (es : Entries)

theorem put_put : put name n (put name m es) = put name n es := by
  induction es with
  | nil => simp [put]
  | cons e rest ih =>
    obtain ⟨k, l⟩ := e
    by_cases hk : k = name
    · simp [put, hk]
    · by_cases hlt : name < k
      · simp [put, hk, hlt]
      · simp [put, hk, hlt, ih]

theorem remove_remove : remove name (remove name es) = remove name es := by
  induction es with
  | nil => rfl
  | cons e rest ih =>
    obtain ⟨k, l⟩ := e
    by_cases hk : k = name
    · simp [remove, hk, ih]
    · simp [remove, hk, ih]

end Entries

namespace Node

/-- Directories and links stay, and a free place becomes at most a file. -/
def Keeps : Option Node → Option Node → Prop
  | none, b => b = none ∨ ∃ content executable, b = some (.file content executable)
  | some (.file ..), b => ∃ content executable, b = some (.file content executable)
  | some (.link target), b => b = some (.link target)
  | some (.dir _), b => ∃ es, b = some (.dir es)

theorem Keeps.refl (a : Option Node) : Keeps a a := by
  rcases a with _ | ⟨content, executable⟩ | target | es
  · exact .inl rfl
  · exact ⟨content, executable, rfl⟩
  · rfl
  · exact ⟨es, rfl⟩

def Writable (a : Option Node) : Prop :=
  a = none ∨ ∃ content executable, a = some (.file content executable)

theorem dir_root {n : Node} {place : Place} {es : Entries} (h : at? place n = some (.dir es)) :
    ∃ es', at? [] n = some (.dir es') := by
  cases place with
  | nil => exact ⟨es, h⟩
  | cons name rest =>
    rw [at?_cons] at h
    obtain ⟨c, hc, -⟩ := Option.bind_eq_some_iff.1 h
    obtain ⟨es', rfl, -⟩ := child?_eq_some hc
    exact ⟨es', rfl⟩

theorem child?_dir (es : Entries) (name : String) : (dir es).child? name = Entries.find? name es :=
  rfl

theorem bind_at?_nil (a : Option Node) : a.bind (at? []) = a := by
  cases a <;> rfl

/-- No directory, so nothing is below. -/
def Leaf (a : Option Node) : Prop := ∀ es, a ≠ some (.dir es)

theorem Leaf.below {a : Option Node} (ha : Leaf a) (name : String) (q : Place) :
    a.bind (at? (name :: q)) = none := by
  rcases a with _ | ⟨content, executable⟩ | target | es
  · rfl
  · rfl
  · rfl
  · exact absurd rfl (ha es)

theorem leaf_of_writable {a : Option Node} (ha : Writable a) : Leaf a := by
  intro es hes
  rcases ha with rfl | ⟨content, executable, rfl⟩ <;> simp at hes

theorem keeps_of_writable {a b : Option Node} (ha : Writable a)
    (hb : ∃ content executable, b = some (.file content executable)) (q : Place) :
    Keeps (a.bind (at? q)) (b.bind (at? q)) := by
  obtain ⟨content, executable, rfl⟩ := hb
  cases q with
  | nil =>
    rcases ha with rfl | ⟨content', executable', rfl⟩
    · exact .inr ⟨content, executable, rfl⟩
    · exact ⟨content, executable, rfl⟩
  | cons name q =>
    rw [(leaf_of_writable ha).below]
    exact .inl rfl

section

variable (f : Option Node → Option Node) (name : String)

theorem alterAt_of_not_dir {n : Node} (hn : n.isDir = false) (rest : Place) :
    alterAt f (name :: rest) n = n := by
  cases n with
  | file content executable => cases rest <;> rfl
  | link target => cases rest <;> rfl
  | dir es => simp [isDir] at hn

theorem alterAt_cons_dir (rest : Place) (es : Entries) :
    ∃ es', alterAt f (name :: rest) (dir es) = dir es' := by
  cases rest <;> exact ⟨_, rfl⟩

theorem child?_alterAt_last (es : Entries) (k : String) :
    (alterAt f [name] (dir es)).child? k =
      if name = k then f (Entries.find? name es) else Entries.find? k es :=
  Entries.find?_alter name k f es

theorem child?_alterAt_below (r : String) (rest : Place) (es : Entries) (k : String) :
    (alterAt f (name :: r :: rest) (dir es)).child? k =
      if name = k then (Entries.find? name es).map (alterAt f (r :: rest))
      else Entries.find? k es :=
  Entries.find?_alter name k _ es

end

theorem keeps_alterAt (f : Option Node → Option Node) (place : Place) (n : Node)
    (hw : Writable (at? place n))
    (hf : ∃ content executable, f (at? place n) = some (.file content executable)) (q : Place) :
    Keeps (at? q n) (at? q (alterAt f place n)) := by
  induction place generalizing n q with
  | nil =>
    obtain ⟨content, executable, hf⟩ := hf
    have hroot : alterAt f [] n = .file content executable := by
      rw [at?_nil] at hf
      simp [alterAt, hf]
    rw [hroot]
    exact keeps_of_writable hw ⟨content, executable, rfl⟩ q
  | cons name rest ih =>
    cases n with
    | file content executable =>
      rw [alterAt_of_not_dir f name rfl]
      exact .refl _
    | link target =>
      rw [alterAt_of_not_dir f name rfl]
      exact .refl _
    | dir es =>
      cases q with
      | nil => cases rest <;> exact ⟨_, rfl⟩
      | cons k q =>
        rw [at?_cons, at?_cons, child?_dir]
        rw [at?_cons, child?_dir] at hw hf
        cases rest with
        | nil =>
          rw [child?_alterAt_last]
          by_cases hk : name = k
          · subst hk
            rw [bind_at?_nil] at hw hf
            rw [if_pos rfl]
            exact keeps_of_writable hw hf q
          · rw [if_neg hk]
            exact .refl _
        | cons r rest =>
          rw [child?_alterAt_below]
          by_cases hk : name = k
          · subst hk
            rw [if_pos rfl]
            cases hc : Entries.find? name es with
            | none => exact .inl rfl
            | some c =>
              rw [hc] at hw hf
              exact ih c hw hf q
          · rw [if_neg hk]
            exact .refl _

theorem at?_alterAt_self (f : Option Node → Option Node) (place : Place) (name : String) (n : Node)
    {es : Entries} (hd : at? place n = some (.dir es)) :
    at? (place ++ [name]) (alterAt f (place ++ [name]) n) = f (Entries.find? name es) := by
  induction place generalizing n with
  | nil =>
    obtain rfl : n = .dir es := Option.some.inj hd
    rw [List.nil_append, at?_cons, child?_alterAt_last, if_pos rfl]
    cases f (Entries.find? name es) <;> rfl
  | cons a rest ih =>
    rw [at?_cons] at hd
    obtain ⟨c, hc, hdir⟩ := Option.bind_eq_some_iff.1 hd
    obtain ⟨es', rfl, hfind⟩ := child?_eq_some hc
    obtain ⟨r, more, hmore⟩ : ∃ r more, rest ++ [name] = r :: more := by
      cases rest with
      | nil => exact ⟨name, [], rfl⟩
      | cons r rest => exact ⟨r, rest ++ [name], rfl⟩
    have hrec := ih c hdir
    rw [List.cons_append, at?_cons]
    rw [hmore] at hrec ⊢
    rw [child?_alterAt_below, if_pos rfl, hfind]
    exact hrec

theorem alterAt_alterAt (f : Option Node → Option Node) {m m' : Node} (hf : f (some m) = some m')
    (place : Place) (n : Node) :
    alterAt f place (alterAt (fun _ => some m) place n) = alterAt (fun _ => some m') place n := by
  induction place generalizing n with
  | nil => simp [alterAt, hf]
  | cons name rest ih =>
    cases n with
    | file content executable => cases rest <;> rfl
    | link target => cases rest <;> rfl
    | dir es =>
      cases rest with
      | nil => simp [alterAt, Entries.alter, Entries.find?_put, hf, Entries.put_put]
      | cons r rest =>
        cases hc : Entries.find? name es with
        | none => simp [alterAt, Entries.alter, hc, Entries.find?_remove, Entries.remove_remove]
        | some c => simp [alterAt, Entries.alter, hc, Entries.find?_put, Entries.put_put, ih]

end Node

end TraceWorkbench
