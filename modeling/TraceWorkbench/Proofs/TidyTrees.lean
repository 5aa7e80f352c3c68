import Mathlib.Data.String.Basic
import TraceWorkbench.Proofs.FileTrees

set_option autoImplicit false

/-!
# Tidy trees

No directory has two entries of one name, so a tree lists each of them in the order of the names. A
file that is put into such a tree gets its place in one list, and all others stay as they are.
-/
namespace TraceWorkbench

namespace Entries

def Sorted (es : Entries) : Prop := es.Pairwise fun a b => a.1 < b.1

variable {name : String} {n : Node} {es : Entries}

theorem find?_of_lt (h : ∀ e ∈ es, name < e.1) : find? name es = none := by
  induction es with
  | nil => rfl
  | cons e rest ih =>
    obtain ⟨k, m⟩ := e
    have hne : k ≠ name := (h (k, m) List.mem_cons_self).ne'
    simp [find?, hne, ih fun e he => h e (List.mem_cons_of_mem _ he)]

theorem remove_of_find? (h : find? name es = none) : remove name es = es := by
  induction es with
  | nil => rfl
  | cons e rest ih =>
    obtain ⟨k, m⟩ := e
    have hk : k ≠ name := by
      rintro rfl
      simp [find?] at h
    simp [remove, hk, ih (by simpa [find?, hk] using h)]

/-- The place of a name in a sorted list, which is the same before and after an entry is put. -/
structure Split (name : String) (es front back : Entries) : Prop where
  old : es = front ++ ((find? name es).map fun m => (name, m)).toList ++ back
  new : ∀ n, put name n es = front ++ (name, n) :: back
  smaller : ∀ e ∈ front, e.1 < name
  greater : ∀ e ∈ back, name < e.1

theorem Sorted.split (h : Sorted es) (name : String) : ∃ front back, Split name es front back := by
  induction es with
  | nil => exact ⟨[], [], rfl, fun _ => rfl, by simp, by simp⟩
  | cons e rest ih =>
    obtain ⟨k, m⟩ := e
    obtain ⟨hk, hrest⟩ := List.pairwise_cons.1 h
    rcases lt_trichotomy name k with hlt | rfl | hgt
    · have hall : ∀ e ∈ (k, m) :: rest, name < e.1 := by
        intro e he
        rcases List.mem_cons.1 he with rfl | he
        · exact hlt
        · exact hlt.trans (hk e he)
      refine ⟨[], (k, m) :: rest, ?_, fun n => ?_, by simp, hall⟩
      · simp [find?_of_lt hall]
      · simp [put, hlt.ne', hlt]
    · refine ⟨[], rest, ?_, fun n => ?_, by simp, hk⟩
      · simp [find?]
      · simp [put]
    · obtain ⟨front, back, hold, hnew, hsmaller, hgreater⟩ := ih hrest
      refine ⟨(k, m) :: front, back, ?_, fun n => ?_, ?_, hgreater⟩
      · simpa [find?, hgt.ne] using hold
      · simp [put, hgt.ne, hgt.not_gt, hnew]
      · intro e he
        rcases List.mem_cons.1 he with rfl | he
        · exact hgt
        · exact hsmaller e he

theorem Split.mem_put {front back : Entries} (h : Split name es front back) {e : String × Node}
    (he : e ∈ put name n es) : e = (name, n) ∨ e ∈ es := by
  rw [h.new] at he
  rw [h.old]
  simp only [List.mem_append, List.mem_cons] at he ⊢
  tauto

theorem Sorted.put (h : Sorted es) (name : String) (n : Node) : Sorted (put name n es) := by
  obtain ⟨front, back, hsplit⟩ := h.split name
  have hold := h
  rw [Sorted, hsplit.old, List.append_assoc, List.pairwise_append] at hold
  obtain ⟨hfront, hbehind, hbetween⟩ := hold
  have hback := (List.pairwise_append.1 hbehind).2.1
  rw [Sorted, hsplit.new, List.pairwise_append]
  refine ⟨hfront, List.pairwise_cons.2 ⟨hsplit.greater, hback⟩, ?_⟩
  intro a ha b hb
  rcases List.mem_cons.1 hb with rfl | hb
  · exact hsplit.smaller a ha
  · exact hbetween a ha b (List.mem_append_right _ hb)

end Entries

namespace Node

/-- Every directory lists its entries in the order of their names. -/
inductive Tidy : Node → Prop
  | file (content : Bytes) (executable : Bool) : Tidy (.file content executable)
  | link (target : String) : Tidy (.link target)
  | dir (es : Entries) (sorted : Entries.Sorted es) (inner : ∀ e ∈ es, Tidy e.2) : Tidy (.dir es)

theorem Tidy.entries {es : Entries} (h : Tidy (.dir es)) :
    Entries.Sorted es ∧ ∀ e ∈ es, e.2.Tidy := by
  cases h with
  | dir _ sorted inner => exact ⟨sorted, inner⟩

theorem Tidy.put {es : Entries} (h : Tidy (.dir es)) (name : String) {n : Node} (hn : n.Tidy) :
    Tidy (.dir (Entries.put name n es)) := by
  obtain ⟨hsorted, hinner⟩ := h.entries
  obtain ⟨front, back, hsplit⟩ := hsorted.split name
  refine .dir _ (hsorted.put name n) fun e he => ?_
  rcases hsplit.mem_put he with rfl | he
  · exact hn
  · exact hinner e he

theorem Tidy.at? {n m : Node} (h : n.Tidy) {place : Place} (hm : at? place n = some m) :
    m.Tidy := by
  induction place generalizing n with
  | nil =>
    obtain rfl : n = m := Option.some.inj hm
    exact h
  | cons name rest ih =>
    rw [at?_cons] at hm
    obtain ⟨c, hc, hrest⟩ := Option.bind_eq_some_iff.1 hm
    obtain ⟨es, rfl, hfind⟩ := child?_eq_some hc
    exact ih (h.entries.2 _ (Entries.mem_of_find? hfind)) hrest

theorem Tidy.alterAt {n m : Node} (h : n.Tidy) (hm : m.Tidy) (place : Place) :
    (alterAt (fun _ => some m) place n).Tidy := by
  induction place generalizing n with
  | nil => exact hm
  | cons name rest ih =>
    cases n with
    | file content executable => rwa [alterAt_of_not_dir _ name rfl]
    | link target => rwa [alterAt_of_not_dir _ name rfl]
    | dir es =>
      cases rest with
      | nil => exact h.put name hm
      | cons r rest =>
        cases hc : Entries.find? name es with
        | none => simpa [Node.alterAt, Entries.alter, hc, Entries.remove_of_find? hc] using h
        | some c =>
          have hinner := ih (h.entries.2 _ (Entries.mem_of_find? hc))
          simpa [Node.alterAt, Entries.alter, hc] using h.put name hinner

theorem alterAt_seen_from (f : Option Node → Option Node) {q d : Place} {n : Node} {es : Entries}
    (hq : Leaf (at? q n)) (hd : at? d n = some (.dir es)) :
    at? d (alterAt f q n) = some (.dir es) ∨
      ∃ name r, q = d ++ name :: r ∧
        at? d (alterAt f q n) = some (alterAt f (name :: r) (.dir es)) := by
  induction d generalizing q n with
  | nil =>
    obtain rfl : n = .dir es := Option.some.inj hd
    cases q with
    | nil => exact absurd rfl (hq es)
    | cons name r => exact .inr ⟨name, r, rfl, rfl⟩
  | cons k d ih =>
    rw [at?_cons] at hd
    obtain ⟨c, hc, hdir⟩ := Option.bind_eq_some_iff.1 hd
    obtain ⟨es', rfl, hfind⟩ := child?_eq_some hc
    cases q with
    | nil => exact absurd rfl (hq es')
    | cons name r =>
      rw [at?_cons, child?_dir] at hq
      rw [at?_cons]
      by_cases hk : name = k
      · subst hk
        rw [hfind] at hq
        cases r with
        | nil =>
          obtain ⟨es'', hc'⟩ := dir_root hdir
          exact absurd hc' (hq es'')
        | cons r more =>
          rw [child?_alterAt_below, if_pos rfl, hfind]
          rcases ih hq hdir with hsame | ⟨next, rest, hnext, hchanged⟩
          · exact .inl hsame
          · exact .inr ⟨next, rest, by rw [hnext]; rfl, hchanged⟩
      · refine .inl ?_
        cases r with
        | nil => rw [child?_alterAt_last, if_neg hk, hfind]; exact hdir
        | cons r more => rw [child?_alterAt_below, if_neg hk, hfind]; exact hdir

end Node

end TraceWorkbench
