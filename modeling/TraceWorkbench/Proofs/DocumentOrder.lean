import Mathlib.Data.String.Basic
import TraceWorkbench.Json.Reader

set_option autoImplicit false

/-!
# Documents in the order of their keys

A member that is read is put in its place among those before it. So in every document the members of
each object, however deep it stands, come in the order of their keys, each key once.
-/
namespace TraceWorkbench.Json

def Members.Ordered (ms : Members) : Prop := ms.Pairwise fun a b => a.1 < b.1

section

variable {key : String} {value : Value} {ms : Members} {m : String × Value}

theorem Members.of_mem_insert (h : m ∈ Members.insert key value ms) :
    m = (key, value) ∨ m ∈ ms := by
  induction ms with
  | nil => exact .inl (List.mem_singleton.1 h)
  | cons n ms ih =>
    obtain ⟨k, v⟩ := n
    unfold Members.insert at h
    split at h
    · exact List.mem_cons.1 h
    · split at h
      · exact (List.mem_cons.1 h).imp_right (List.mem_cons_of_mem _)
      · rcases List.mem_cons.1 h with rfl | hmem
        · exact .inr List.mem_cons_self
        · exact (ih hmem).imp_right (List.mem_cons_of_mem _)

theorem Members.Ordered.insert (h : Members.Ordered ms) (key : String) (value : Value) :
    Members.Ordered (Members.insert key value ms) := by
  induction ms with
  | nil => exact List.pairwise_singleton _ _
  | cons n ms ih =>
    obtain ⟨k, v⟩ := n
    obtain ⟨hfirst, hmore⟩ := List.pairwise_cons.1 h
    unfold Members.insert
    split
    · rename_i hlt
      refine List.pairwise_cons.2 ⟨fun m hm => ?_, h⟩
      rcases List.mem_cons.1 hm with rfl | hm
      · exact hlt
      · exact lt_trans hlt (hfirst m hm)
    · split
      · rename_i heq
        subst heq
        exact List.pairwise_cons.2 ⟨hfirst, hmore⟩
      · rename_i hle hne
        refine List.pairwise_cons.2 ⟨fun m hm => ?_, ih hmore⟩
        rcases Members.of_mem_insert hm with rfl | hm
        · exact lt_of_le_of_ne (le_of_not_gt hle) (Ne.symm hne)
        · exact hfirst m hm

end

/-- In each object of the value the members are ordered. -/
inductive Value.Ordered : Value → Prop where
  | null : Value.Ordered .null
  | bool (b : Bool) : Value.Ordered (.bool b)
  | number (n : Number) : Value.Ordered (.number n)
  | string (s : String) : Value.Ordered (.string s)
  | array {items : List Value} : (∀ v ∈ items, v.Ordered) → Value.Ordered (.array items)
  | object {ms : List (String × Value)} : Members.Ordered ms → (∀ m ∈ ms, m.2.Ordered) →
      Value.Ordered (.object ms)

/-- With this much fuel, what is read is ordered if what was read before it is. -/
structure Orders (fuel : Nat) : Prop where
  value : ∀ {depth s v rest}, value fuel depth s = .ok (v, rest) → v.Ordered
  elements : ∀ {depth acc s v rest}, (∀ item ∈ acc, Value.Ordered item) →
    elements fuel depth acc s = .ok (v, rest) → v.Ordered
  members : ∀ {depth first acc s v rest}, Members.Ordered acc →
    (∀ m ∈ acc, Value.Ordered m.2) → members fuel depth first acc s = .ok (v, rest) → v.Ordered

section

variable {fuel depth : Nat} {s rest : Bytes} {v : Value}

theorem of_map_eq_ok {α : Type} {r : Reading α} {f : α × Bytes → Value × Bytes}
    (h : r.map f = .ok (v, rest)) : ∃ a, (f a).1 = v := by
  cases r with
  | error e => simp [Except.map] at h
  | ok a => exact ⟨a, congrArg Prod.fst (Except.ok.inj h)⟩

theorem of_scalar_eq_ok {x : Value} {r : Except Fault Bytes}
    (h : scalar x r = .ok (v, rest)) : v = x := by
  cases r with
  | error e => simp [scalar, Except.map] at h
  | ok behind => exact (congrArg Prod.fst (Except.ok.inj h)).symm

theorem Orders.value_succ (ih : Orders fuel)
    (h : Json.value (fuel + 1) depth s = .ok (v, rest)) : v.Ordered := by
  simp only [Json.value] at h
  split at h
  · simp [failNext] at h
  split at h
  case isTrue => exact of_scalar_eq_ok h ▸ .null
  split at h
  case isTrue => exact of_scalar_eq_ok h ▸ .bool true
  split at h
  case isTrue => exact of_scalar_eq_ok h ▸ .bool false
  split at h
  case isTrue =>
    obtain ⟨a, rfl⟩ := of_map_eq_ok h
    exact .number a.1
  split at h
  case isTrue =>
    obtain ⟨a, rfl⟩ := of_map_eq_ok h
    exact .number a.1
  split at h
  case isTrue =>
    obtain ⟨a, rfl⟩ := of_map_eq_ok h
    exact .string a.1
  split at h
  case isTrue =>
    split at h
    · simp [failNext] at h
    · exact ih.elements (by simp) h
  split at h
  case isTrue =>
    split at h
    · simp [failNext] at h
    · exact ih.members List.Pairwise.nil (by simp) h
  simp [failNext] at h

theorem Orders.elements_succ (ih : Orders fuel) {acc : List Value}
    (hacc : ∀ item ∈ acc, Value.Ordered item)
    (h : Json.elements (fuel + 1) depth acc s = .ok (v, rest)) : v.Ordered := by
  simp only [Json.elements] at h
  split at h
  · simp at h
  · obtain ⟨rfl, -⟩ := Prod.mk.inj (Except.ok.inj h)
    exact .array fun item hitem => hacc item (List.mem_reverse.1 hitem)
  · split at h
    · simp at h
    · rename_i x s' hvalue
      exact ih.elements (List.forall_mem_cons.2 ⟨ih.value hvalue, hacc⟩) h

theorem Orders.members_succ (ih : Orders fuel) {first : Bool} {acc : Members}
    (hacc : Members.Ordered acc) (hvalues : ∀ m ∈ acc, Value.Ordered m.2)
    (h : Json.members (fuel + 1) depth first acc s = .ok (v, rest)) : v.Ordered := by
  simp only [Json.members] at h
  split at h
  · simp at h
  · obtain ⟨rfl, -⟩ := Prod.mk.inj (Except.ok.inj h)
    exact .object hacc hvalues
  · split at h
    · simp at h
    · rename_i key s₁ hkey
      split at h
      · simp at h
      · split at h
        · simp at h
        · rename_i x s₂ hvalue
          refine ih.members (hacc.insert key x) (fun m hm => ?_) h
          rcases Members.of_mem_insert hm with rfl | hm
          · exact ih.value hvalue
          · exact hvalues m hm

end

theorem orders (fuel : Nat) : Orders fuel := by
  induction fuel with
  | zero => constructor <;> (intros; simp_all [value, elements, members, failHere])
  | succ fuel ih => exact ⟨ih.value_succ, ih.elements_succ, ih.members_succ⟩

theorem ordered_of_parse {text : String} {document : Value} (h : parse text = .ok document) :
    document.Ordered := by
  unfold parse parseBytes readWhole at h
  split at h
  · simp at h
  · rename_i v rest hvalue
    split at h
    · rw [← Except.ok.inj h]
      exact (orders _).value hvalue
    · simp [failNext] at h

theorem Members.mem_of_find? {key : String} {value : Value} {ms : Members}
    (h : Members.find? key ms = some value) : (key, value) ∈ ms := by
  induction ms with
  | nil => simp [Members.find?] at h
  | cons m ms ih =>
    obtain ⟨k, v⟩ := m
    unfold Members.find? at h
    split at h
    · rename_i hk
      rw [hk, Option.some.inj h]
      exact List.mem_cons_self
    · exact List.mem_cons_of_mem _ (ih h)

theorem Value.Ordered.get? {document value : Value} {key : String} (h : document.Ordered)
    (hget : document.get? key = some value) : value.Ordered := by
  cases h with
  | object _ hvalues => exact hvalues _ (Members.mem_of_find? hget)
  | null | bool _ | number _ | string _ | array _ => simp [Value.get?] at hget

end TraceWorkbench.Json
