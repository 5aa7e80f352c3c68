import Mathlib.Data.List.Forall2
import TraceWorkbench.Text.Utf8

set_option autoImplicit false

/-!
# Texts come back from their bytes

The bytes of a character are one segment of a stream, whatever follows them. So the bytes of a text
are decoded to the text.
-/
namespace TraceWorkbench.Utf8

theorem contains_iff {r : Range} {b : UInt8} :
    r.contains b = true ↔ r.low.toNat ≤ b.toNat ∧ b.toNat ≤ r.high.toNat := by
  simp [Range.contains, UInt8.le_iff_toNat_le]

theorem tail_contains_iff {b : UInt8} :
    tail.contains b = true ↔ 0x80 ≤ b.toNat ∧ b.toNat ≤ 0xBF := contains_iff

theorem contains_ofNat {r : Range} {n : Nat} (hl : r.low.toNat ≤ n) (hh : n ≤ r.high.toNat) :
    r.contains (.ofNat n) = true := by
  have hn : (UInt8.ofNat n).toNat = n := by
    have := r.high.toNat_lt
    simp
    omega
  simp [Range.contains, UInt8.le_iff_toNat_le, hn, hl, hh]

theorem expected_ofNat : ∀ n < 256, expected (.ofNat n) =
    if n < 0x80 then some []
    else if n < 0xC2 then none
    else if n < 0xE0 then some [tail]
    else if n < 0xF0 then
      some [⟨if n = 0xE0 then 0xA0 else 0x80, if n = 0xED then 0x9F else 0xBF⟩, tail]
    else if n < 0xF5 then
      some [⟨if n = 0xF0 then 0x90 else 0x80, if n = 0xF4 then 0x8F else 0xBF⟩, tail, tail]
    else none := by
  decide +kernel

section

variable {n : Nat} (hn : n < 256)

include hn

theorem expected_single (h : n < 0x80) : expected (.ofNat n) = some [] := by
  rw [expected_ofNat n hn, if_pos h]

theorem expected_double (hl : 0xC2 ≤ n) (hh : n < 0xE0) : expected (.ofNat n) = some [tail] := by
  rw [expected_ofNat n hn, if_neg (by omega), if_neg (by omega), if_pos hh]

theorem expected_triple (hl : 0xE0 ≤ n) (hh : n < 0xF0) : expected (.ofNat n) =
    some [⟨if n = 0xE0 then 0xA0 else 0x80, if n = 0xED then 0x9F else 0xBF⟩, tail] := by
  rw [expected_ofNat n hn, if_neg (by omega), if_neg (by omega), if_neg (by omega), if_pos hh]

theorem expected_quadruple (hl : 0xF0 ≤ n) (hh : n < 0xF5) : expected (.ofNat n) =
    some [⟨if n = 0xF0 then 0x90 else 0x80, if n = 0xF4 then 0x8F else 0xBF⟩, tail, tail] := by
  rw [expected_ofNat n hn, if_neg (by omega), if_neg (by omega), if_neg (by omega),
    if_neg (by omega), if_pos hh]

theorem expected_none (hl : 0x80 ≤ n) (hh : n < 0xC2 ∨ 0xF5 ≤ n) : expected (.ofNat n) = none := by
  rw [expected_ofNat n hn, if_neg (by omega)]
  rcases hh with hh | hh
  · rw [if_pos hh]
  · rw [if_neg (by omega), if_neg (by omega), if_neg (by omega), if_neg (by omega)]

end

def Range.InTail (r : Range) : Prop := tail.low ≤ r.low ∧ r.high ≤ tail.high

theorem expected_of_contains {r : Range} {x : UInt8} (hr : r.InTail) (hx : r.contains x = true) :
    expected x = none := by
  have hbounds : r.low ≤ x ∧ x ≤ r.high := by simpa [Range.contains] using hx
  have hlow : 0x80 ≤ x.toNat := UInt8.le_iff_toNat_le.1 (UInt8.le_trans hr.1 hbounds.1)
  have hhigh : x.toNat ≤ 0xBF := UInt8.le_iff_toNat_le.1 (UInt8.le_trans hbounds.2 hr.2)
  have hnone := expected_none x.toNat_lt hlow (.inl (by omega))
  rwa [UInt8.ofNat_toNat] at hnone

/-- The bytes of one character: the first says in which ranges the others are. -/
def Whole (bytes : Bytes) : Prop :=
  ∃ first more need, bytes = first :: more ∧ expected first = some need ∧
    List.Forall₂ (fun r b => Range.contains r b = true) need more

theorem segmentsFrom_more (seen rest : Bytes) {more : Bytes} {need : List Range}
    (h : List.Forall₂ (fun r b => Range.contains r b = true) need more) (hn : need ≠ []) :
    segmentsFrom seen need (more ++ rest) = .char (seen ++ more) :: segmentsFrom [] [] rest := by
  induction h generalizing seen with
  | nil => exact absurd rfl hn
  | @cons r b need more hb htail ih =>
    cases htail with
    | nil => simp [segmentsFrom, hb]
    | cons hb' htail' =>
      have hrec := ih (seen ++ [b]) (by simp)
      simp only [List.cons_append, segmentsFrom, hb, if_true] at hrec ⊢
      simpa using hrec

theorem segmentsFrom_whole {bytes : Bytes} (h : Whole bytes) (rest : Bytes) :
    segmentsFrom [] [] (bytes ++ rest) = .char bytes :: segmentsFrom [] [] rest := by
  obtain ⟨first, more, need, rfl, hfirst, hmore⟩ := h
  cases need with
  | nil =>
    cases hmore
    simp [segmentsFrom, hfirst]
  | cons r need =>
    have hrest := segmentsFrom_more [first] rest hmore (by simp)
    simp only [List.cons_append, segmentsFrom, hfirst]
    exact hrest

theorem tail_contains {n : Nat} (hl : 0x80 ≤ n) (hh : n ≤ 0xBF) : tail.contains (.ofNat n) = true :=
  contains_ofNat hl hh

theorem whole_utf8EncodeChar (c : Char) : Whole (String.utf8EncodeChar c) := by
  have hvalid : c.val.toNat < 0xD800 ∨ 0xDFFF < c.val.toNat ∧ c.val.toNat < 0x110000 := c.valid
  unfold String.utf8EncodeChar
  generalize c.val.toNat = v at hvalid
  simp only
  split
  · exact ⟨_, _, _, rfl, expected_single (by omega) (by omega), .nil⟩
  · split
    · exact ⟨_, _, _, rfl, expected_double (by omega) (by omega) (by omega),
        .cons (tail_contains (by omega) (by omega)) .nil⟩
    · split
      · refine ⟨_, _, _, rfl, expected_triple (by omega) (by omega) (by omega),
          .cons (contains_ofNat ?_ ?_) (.cons (tail_contains (by omega) (by omega)) .nil)⟩
        · simp only
          split <;> simp
          all_goals omega
        · simp only
          split <;> (simp; omega)
      · refine ⟨_, _, _, rfl, expected_quadruple (by omega) (by omega) (by omega),
          .cons (contains_ofNat ?_ ?_) (.cons (tail_contains (by omega) (by omega))
            (.cons (tail_contains (by omega) (by omega)) .nil))⟩
        · simp only
          split <;> simp
          all_goals omega
        · simp only
          split <;> (simp; omega)

theorem charOf_utf8EncodeChar (c : Char) : charOf (String.utf8EncodeChar c) = c := by
  have hvalid : c.val.toNat < 0xD800 ∨ 0xDFFF < c.val.toNat ∧ c.val.toNat < 0x110000 := c.valid
  have hself : ∀ n, n = c.toNat → Char.ofNat n = c := by
    rintro n rfl
    exact Char.ofNat_toNat c
  have hval : c.toNat = c.val.toNat := rfl
  unfold String.utf8EncodeChar
  simp only
  split
  · apply hself
    simp
    omega
  · split
    · apply hself
      simp
      omega
    · split
      · apply hself
        simp
        omega
      · apply hself
        simp
        omega

/-! Back from the bytes of a character to the character -/

section

variable {a b c d : UInt8}

theorem val_ofNat {n : Nat} (hn : n.isValidChar) : (Char.ofNat n).val.toNat = n := by
  rw [Char.ofNat, dif_pos hn]
  exact UInt32.toNat_ofNatLT ..

theorem encode_charOf_single (ha : a.toNat < 0x80) : String.utf8EncodeChar (charOf [a]) = [a] := by
  have hval := val_ofNat (n := a.toNat) (.inl (by omega))
  have hle : a.toNat ≤ 0x7F := by omega
  simp only [charOf, String.utf8EncodeChar, hval, hle, if_true, UInt8.ofNat_toNat]

theorem encode_charOf_double (ha : 0xC2 ≤ a.toNat) (ha' : a.toNat < 0xE0)
    (hb : tail.contains b = true) : String.utf8EncodeChar (charOf [a, b]) = [a, b] := by
  rw [tail_contains_iff] at hb
  generalize hv : (a.toNat % 0x20) * 0x40 + b.toNat % 0x40 = v
  have hval := val_ofNat (n := v) (.inl (by omega))
  simp only [charOf, String.utf8EncodeChar, hv, hval]
  rw [if_neg (by omega), if_pos (by omega)]
  simp only [← UInt8.toNat_inj, List.cons.injEq, and_true, UInt8.toNat_ofNat']
  omega

theorem encode_charOf_triple (ha : 0xE0 ≤ a.toNat) (ha' : a.toNat < 0xF0)
    (hb : (if a.toNat = 0xE0 then 0xA0 else 0x80) ≤ b.toNat)
    (hb' : b.toNat ≤ if a.toNat = 0xED then 0x9F else 0xBF) (hc : tail.contains c = true) :
    String.utf8EncodeChar (charOf [a, b, c]) = [a, b, c] := by
  rw [tail_contains_iff] at hc
  generalize hv : (a.toNat % 0x10) * 0x1000 + (b.toNat % 0x40) * 0x40 + c.toNat % 0x40 = v
  have hvalid : v.isValidChar := by
    unfold Nat.isValidChar
    split at hb <;> split at hb' <;> omega
  have hlow : 0x7FF < v := by split at hb <;> split at hb' <;> omega
  simp only [charOf, String.utf8EncodeChar, hv, val_ofNat hvalid]
  rw [if_neg (by omega), if_neg (by omega), if_pos (by omega)]
  simp only [← UInt8.toNat_inj, List.cons.injEq, and_true, UInt8.toNat_ofNat']
  split at hb <;> split at hb' <;> omega

theorem encode_charOf_quadruple (ha : 0xF0 ≤ a.toNat) (ha' : a.toNat < 0xF5)
    (hb : (if a.toNat = 0xF0 then 0x90 else 0x80) ≤ b.toNat)
    (hb' : b.toNat ≤ if a.toNat = 0xF4 then 0x8F else 0xBF) (hc : tail.contains c = true)
    (hd : tail.contains d = true) :
    String.utf8EncodeChar (charOf [a, b, c, d]) = [a, b, c, d] := by
  rw [tail_contains_iff] at hc hd
  generalize hv : (a.toNat % 8) * 0x40000 + (b.toNat % 0x40) * 0x1000 + (c.toNat % 0x40) * 0x40 +
    d.toNat % 0x40 = v
  have hvalid : v.isValidChar := by
    unfold Nat.isValidChar
    split at hb <;> split at hb' <;> omega
  have hlow : 0xFFFF < v := by split at hb <;> split at hb' <;> omega
  simp only [charOf, String.utf8EncodeChar, hv, val_ofNat hvalid]
  rw [if_neg (by omega), if_neg (by omega), if_neg (by omega)]
  simp only [← UInt8.toNat_inj, List.cons.injEq, and_true, UInt8.toNat_ofNat']
  split at hb <;> split at hb' <;> omega

end

theorem utf8EncodeChar_charOf {bytes : Bytes} (h : Whole bytes) :
    String.utf8EncodeChar (charOf bytes) = bytes := by
  obtain ⟨first, more, need, rfl, hfirst, hmore⟩ := h
  have hbyte := first.toNat_lt
  have hneed : ∀ need', expected (.ofNat first.toNat) = some need' → need = need' := by
    intro need' hneed
    rw [UInt8.ofNat_toNat, hfirst] at hneed
    exact Option.some.inj hneed
  have hfour : first.toNat < 0x80 ∨ (0xC2 ≤ first.toNat ∧ first.toNat < 0xE0) ∨
      (0xE0 ≤ first.toNat ∧ first.toNat < 0xF0) ∨ 0xF0 ≤ first.toNat ∧ first.toNat < 0xF5 := by
    by_contra hother
    have hnone := expected_none hbyte (by omega) (by omega)
    rw [UInt8.ofNat_toNat, hfirst] at hnone
    simp at hnone
  rcases hfour with hsingle | ⟨hlow, hhigh⟩ | ⟨hlow, hhigh⟩ | ⟨hlow, hhigh⟩
  · obtain rfl := hneed _ (expected_single hbyte hsingle)
    cases hmore
    exact encode_charOf_single hsingle
  · obtain rfl := hneed _ (expected_double hbyte hlow hhigh)
    cases hmore with
    | cons hb hrest =>
      cases hrest
      exact encode_charOf_double hlow hhigh hb
  · obtain rfl := hneed _ (expected_triple hbyte hlow hhigh)
    rcases hmore with _ | ⟨hb, _ | ⟨hc, ⟨⟩⟩⟩
    rw [contains_iff, apply_ite UInt8.toNat, apply_ite UInt8.toNat] at hb
    exact encode_charOf_triple hlow hhigh hb.1 hb.2 hc
  · obtain rfl := hneed _ (expected_quadruple hbyte hlow hhigh)
    rcases hmore with _ | ⟨hb, _ | ⟨hc, _ | ⟨hd, ⟨⟩⟩⟩⟩
    rw [contains_iff, apply_ite UInt8.toNat, apply_ite UInt8.toNat] at hb
    exact encode_charOf_quadruple hlow hhigh hb.1 hb.2 hc hd

theorem segments_encode (cs : List Char) :
    segments (encode cs) = cs.map fun c => .char (String.utf8EncodeChar c) := by
  induction cs with
  | nil => rfl
  | cons c rest ih =>
    have hfirst := segmentsFrom_whole (whole_utf8EncodeChar c) (encode rest)
    rw [segments] at ih
    rw [ih] at hfirst
    exact hfirst

theorem decode?_encode (cs : List Char) : decode? (encode cs) = some cs := by
  have hall :
      (cs.map fun c => Segment.char (String.utf8EncodeChar c)).all Segment.isChar = true := by
    simp [Segment.isChar]
  have htext : (cs.map fun c => Segment.char (String.utf8EncodeChar c)).map Segment.text = cs := by
    simp [Segment.text, Function.comp_def, charOf_utf8EncodeChar]
  simp only [decode?, segments_encode, hall, if_true, htext]

theorem decodeLossy_encode (cs : List Char) : decodeLossy (encode cs) = cs := by
  simp [decodeLossy, segments_encode, Segment.text, Function.comp_def, charOf_utf8EncodeChar]

theorem encode_append (a b : List Char) : encode (a ++ b) = encode a ++ encode b :=
  List.flatMap_append

theorem encode_cons (c : Char) (s : List Char) :
    encode (c :: s) = String.utf8EncodeChar c ++ encode s :=
  List.flatMap_cons

theorem length_encode_append (a b : List Char) :
    (encode (a ++ b)).length = (encode a).length + (encode b).length := by
  rw [encode_append, List.length_append]

theorem length_encode_cons (c : Char) (s : List Char) :
    (encode (c :: s)).length = c.utf8Size + (encode s).length := by
  rw [encode_cons, List.length_append, String.length_utf8EncodeChar]

theorem length_le_length_encode (s : List Char) : s.length ≤ (encode s).length := by
  induction s with
  | nil => simp
  | cons c s ih =>
    have hc := c.utf8Size_pos
    rw [length_encode_cons, List.length_cons]
    omega

theorem utf8EncodeChar_eq_cons (c : Char) :
    ∃ first more, String.utf8EncodeChar c = first :: more ∧ tail.contains first = false := by
  obtain ⟨first, more, need, hbytes, hfirst, -⟩ := whole_utf8EncodeChar c
  refine ⟨first, more, hbytes, ?_⟩
  rw [← Bool.not_eq_true]
  intro htail
  have hin : tail.InTail := ⟨UInt8.le_refl _, UInt8.le_refl _⟩
  rw [expected_of_contains hin htail] at hfirst
  simp at hfirst

theorem utf8EncodeChar_ascii {c : Char} (hc : c.toNat < 0x80) :
    String.utf8EncodeChar c = [.ofNat c.toNat] := by
  have hval : c.val.toNat ≤ 127 := Nat.le_of_lt_succ hc
  simp only [String.utf8EncodeChar, hval, if_true]
  rfl

theorem utf8EncodeChar_high {c : Char} (hc : 0x80 ≤ c.toNat) :
    ∀ b ∈ String.utf8EncodeChar c, 0x80 ≤ b.toNat := by
  have hval : 0x80 ≤ c.val.toNat := hc
  have hvalid : c.val.toNat < 0x110000 := by
    rcases c.valid with h | h
    · exact Nat.lt_trans h (by decide)
    · exact h.2
  intro b hb
  unfold String.utf8EncodeChar at hb
  simp only at hb
  split at hb
  · omega
  · split at hb
    · simp only [List.mem_cons, List.not_mem_nil, or_false] at hb
      rcases hb with rfl | rfl <;> simp <;> omega
    · split at hb
      · simp only [List.mem_cons, List.not_mem_nil, or_false] at hb
        rcases hb with rfl | rfl | rfl <;> simp <;> omega
      · simp only [List.mem_cons, List.not_mem_nil, or_false] at hb
        rcases hb with rfl | rfl | rfl | rfl <;> simp <;> omega

/-- The byte of an ASCII character stands in no other character. -/
theorem not_mem_utf8EncodeChar {c x : Char} (hx : x.toNat < 0x80) (hne : c ≠ x) :
    UInt8.ofNat x.toNat ∉ String.utf8EncodeChar c := by
  have hbyte : ∀ n < 0x80, (UInt8.ofNat n).toNat = n := by
    intro n hn
    simp
    omega
  intro hmem
  by_cases hc : c.toNat < 0x80
  · rw [utf8EncodeChar_ascii hc, List.mem_singleton, ← UInt8.toNat_inj, hbyte _ hx,
      hbyte _ hc] at hmem
    exact hne (Char.toNat_inj.1 hmem.symm)
  · have hhigh := utf8EncodeChar_high (Nat.le_of_not_lt hc) _ hmem
    rw [hbyte _ hx] at hhigh
    omega

end TraceWorkbench.Utf8

theorem String.ofBytes?_utf8Bytes (s : String) : String.ofBytes? s.utf8Bytes = some s := by
  simp [String.ofBytes?, String.utf8Bytes, TraceWorkbench.Utf8.decode?_encode]
