import TraceWorkbench.Proofs.CompiledOutput

set_option autoImplicit false

/-!
# A stray comma is told from the document

Whatever the reader takes as a value, the last byte of it is no comma, and neither is the byte
before the bracket that closes an object. So no document that is an object has a comma right before
its last character: the repair of the compiler's output leaves each of them alone, and takes out a
comma that was put there.
-/
namespace TraceWorkbench

namespace Json

/-- What a reader leaves of `s` behind a part that does not end in a comma; the part may be
empty. -/
def Leaves (s rest : Bytes) : Prop :=
  ∃ taken, s = taken ++ rest ∧ ∀ b ∈ taken.getLast?, b ≠ byte ','

/-- The same, and something was taken. -/
def Takes (s rest : Bytes) : Prop := ∃ taken last, s = taken ++ last :: rest ∧ last ≠ byte ','

section

variable {s s' rest : Bytes}

theorem Leaves.refl (s : Bytes) : Leaves s s := ⟨[], rfl, by simp⟩

theorem Takes.leaves (h : Takes s rest) : Leaves s rest := by
  obtain ⟨taken, last, rfl, hlast⟩ := h
  exact ⟨taken ++ [last], by simp, by simpa using hlast⟩

theorem Takes.one {b : UInt8} (hb : b ≠ byte ',') : Takes (b :: rest) rest := ⟨[], b, rfl, hb⟩

theorem Leaves.takes {b : UInt8} (h : Leaves s (b :: rest)) (hb : b ≠ byte ',') : Takes s rest := by
  obtain ⟨taken, rfl, -⟩ := h
  exact ⟨taken, b, rfl, hb⟩

theorem Takes.trans (h : Takes s s') (h' : Leaves s' rest) : Takes s rest := by
  obtain ⟨front, last, rfl, hlast⟩ := h
  obtain ⟨taken, rfl, htaken⟩ := h'
  rcases List.eq_nil_or_concat taken with rfl | ⟨taken, b, rfl⟩
  · exact ⟨front, last, rfl, hlast⟩
  · exact ⟨front ++ last :: taken, b, by simp, htaken b (by simp)⟩

theorem Takes.behind (h : Takes s' rest) (hs : s' <:+ s) : Takes s rest := by
  obtain ⟨front, rfl⟩ := hs
  obtain ⟨taken, last, rfl, hlast⟩ := h
  exact ⟨front ++ taken, last, by simp, hlast⟩

theorem Takes.suffix (h : Takes s rest) : rest <:+ s := by
  obtain ⟨taken, last, rfl, -⟩ := h
  exact ⟨taken ++ [last], by simp⟩

theorem Takes.cons (h : Takes s rest) (b : UInt8) : Takes (b :: s) rest :=
  h.behind (List.suffix_cons b s)

end

/-! The words -/

section

variable {s rest : Bytes}

theorem exists_blanks (s : Bytes) :
    ∃ blanks, s = blanks ++ skipBlank s ∧ ∀ b ∈ blanks, isJsonBlank b = true :=
  ⟨s.takeWhile isJsonBlank, List.takeWhile_append_dropWhile.symm,
    List.all_eq_true.1 List.all_takeWhile⟩

theorem skipBlank_suffix (s : Bytes) : skipBlank s <:+ s := List.dropWhile_suffix _

theorem ne_comma_of_isJsonBlank {b : UInt8} (hb : isJsonBlank b = true) : b ≠ byte ',' := by
  rintro rfl
  simp [isJsonBlank, byte] at hb

theorem ne_comma_of_isDigitByte {b : UInt8} (hb : isDigitByte b = true) : b ≠ byte ',' := by
  rintro rfl
  simp [isDigitByte, byte] at hb

theorem literal_eq_ok {mark : Bytes} (h : literal mark s = .ok rest) : s = mark ++ rest := by
  induction mark generalizing s with
  | nil => exact Except.ok.inj h
  | cons t more ih =>
    cases s with
    | nil => simp [literal, failHere] at h
    | cons b s =>
      simp only [literal] at h
      split at h
      · rename_i hb
        rw [ih h, hb, List.cons_append]
      · simp [failHere] at h

theorem takes_literal {mark : Bytes} {b : UInt8} (hmark : ∃ front last, mark = front ++ [last] ∧
    last ≠ byte ',') (h : literal mark s = .ok rest) : Takes (b :: s) rest := by
  obtain ⟨front, last, rfl, hlast⟩ := hmark
  exact ⟨b :: front, last, by simp [literal_eq_ok h], hlast⟩

theorem takes_string {skipping : Bool} {state : StringState} {acc text : Bytes}
    (h : stringFrom skipping state acc s = .ok (text, rest)) : Takes s rest := by
  fun_induction stringFrom skipping state acc s
  case case2 =>
    obtain ⟨-, rfl⟩ := Prod.mk.inj (Except.ok.inj h)
    exact .one (by decide)
  -- Here the automaton goes on behind the byte.
  case case3 ih | case5 ih | case6 ih | case7 ih | case9 ih | case11 ih | case13 ih | case14 ih
    | case15 ih | case17 ih | case19 ih | case22 ih => exact (ih h).cons _
  all_goals simp [failHere] at h

theorem takes_stringBody {text : String} (h : stringBody s = .ok (text, rest)) : Takes s rest := by
  unfold stringBody at h
  cases hs : stringFrom false .plain [] s with
  | error f => simp [hs, Except.map] at h
  | ok r =>
    obtain ⟨text', rest'⟩ := r
    rw [hs] at h
    obtain ⟨-, rfl⟩ := Prod.mk.inj (Except.ok.inj h)
    exact takes_string hs

/-! Numbers -/

theorem leaves_digits (s : Bytes) : Leaves s (s.dropWhile isDigitByte) :=
  ⟨s.takeWhile isDigitByte, List.takeWhile_append_dropWhile.symm, fun b hb =>
    ne_comma_of_isDigitByte (List.all_eq_true.1 List.all_takeWhile b (List.mem_of_getLast? hb))⟩

theorem takes_digits {b : UInt8} (hb : isDigitByte b = true) :
    Takes (b :: s) ((b :: s).dropWhile isDigitByte) := by
  rw [List.dropWhile_cons_of_pos hb]
  exact (Takes.one (ne_comma_of_isDigitByte hb)).trans (leaves_digits s)

variable {positive : Bool} {x : Number}

theorem rest_of_doubleOf {n : Nat} {e : Int} (h : doubleOf positive n e s = .ok (x, rest)) :
    rest = s := by
  unfold doubleOf at h
  split at h
  · exact (Prod.mk.inj (Except.ok.inj h)).2.symm
  · simp [failHere] at h

theorem takes_exponent {n : Nat} {start : Int}
    (h : exponentPart positive n start s = .ok (x, rest)) : Takes s rest := by
  unfold exponentPart at h
  split at h
  rename_i down s' hsign
  have hsuffix : s' <:+ s := by
    split at hsign
    · rename_i b more
      split at hsign
      · obtain ⟨-, rfl⟩ := Prod.mk.inj hsign
        exact List.suffix_cons b _
      · split at hsign
        · obtain ⟨-, rfl⟩ := Prod.mk.inj hsign
          exact List.suffix_cons b _
        · obtain ⟨-, rfl⟩ := Prod.mk.inj hsign
          exact List.suffix_rfl
    · obtain ⟨-, rfl⟩ := Prod.mk.inj hsign
      exact List.suffix_rfl
  cases s' with
  | nil => simp [failHere] at h
  | cons b more =>
    cases hb : isDigitByte b with
    | false => simp [hb, failHere] at h
    | true =>
      refine Takes.behind ?_ hsuffix
      simp only [hb, Bool.not_true, Bool.false_eq_true, if_false] at h
      split at h
      · rw [rest_of_doubleOf h]
        exact takes_digits hb
      · split at h
        · simp [failHere] at h
        · obtain ⟨-, rfl⟩ := Prod.mk.inj (Except.ok.inj h)
          exact takes_digits hb

theorem leaves_afterDigits {n : Nat} {e : Int} (h : afterDigits positive n e s = .ok (x, rest)) :
    Leaves s rest := by
  unfold afterDigits at h
  split at h
  · rename_i b more
    split at h
    · exact ((takes_exponent h).cons b).leaves
    · rw [rest_of_doubleOf h]
      exact .refl _
  · rw [rest_of_doubleOf h]
    exact .refl _

theorem takes_fraction {n : Nat} {start : Int}
    (h : fractionPart positive n start s = .ok (x, rest)) : Takes s rest := by
  unfold fractionPart at h
  cases s with
  | nil => simp [failNext] at h
  | cons b more =>
    cases hb : isDigitByte b with
    | false => simp [hb, failNext] at h
    | true =>
      simp only [List.takeWhile_cons_of_pos hb, List.isEmpty_cons, Bool.false_eq_true,
        if_false] at h
      exact (takes_digits hb).trans (leaves_afterDigits h)

theorem leaves_afterInteger {n left : Nat} (h : afterInteger positive n left s = .ok (x, rest)) :
    Leaves s rest := by
  have hplain : ∀ {r : Reading Number}, r = (if left > 0 then doubleOf positive n left s
      else if positive then .ok (.int n, s)
      else if n = 0 ∨ 1 <<< 63 < n then .ok (signed false (UInt64.ofNat n).toFloat, s)
      else .ok (.int (-n), s)) → r = .ok (x, rest) → rest = s := by
    rintro r rfl hr
    split at hr
    · exact rest_of_doubleOf hr
    · split at hr
      · exact (Prod.mk.inj (Except.ok.inj hr)).2.symm
      · split at hr <;> exact (Prod.mk.inj (Except.ok.inj hr)).2.symm
  unfold afterInteger at h
  simp only at h
  split at h
  · rename_i b more
    split at h
    · exact ((takes_fraction h).cons b).leaves
    · split at h
      · exact ((takes_exponent h).cons b).leaves
      · rw [hplain rfl h]
        exact .refl _
  · rw [hplain rfl h]
    exact .refl _

theorem takes_number (h : number positive s = .ok (x, rest)) : Takes s rest := by
  unfold number at h
  split at h
  · simp [failHere] at h
  · rename_i b more
    split at h
    · rename_i hb
      split at h
      · simp [failNext] at h
      · exact (Takes.one (hb ▸ by decide)).trans (leaves_afterInteger h)
    · split at h
      · rename_i hb
        exact (takes_digits hb).trans (leaves_afterInteger h)
      · simp [failHere] at h

end

/-! Values -/

section

variable {s rest : Bytes}

theorem takes_colon (h : colon s = .ok rest) : Takes s rest := by
  unfold colon at h
  split at h
  · simp [failNext] at h
  · rename_i b more hs
    split at h
    · rename_i hb
      obtain rfl := Except.ok.inj h
      refine Takes.behind ?_ (hs ▸ skipBlank_suffix s)
      exact .one (hb ▸ by decide)
    · simp [failNext] at h

theorem leaves_skipBlank (s : Bytes) : Leaves s (skipBlank s) := by
  obtain ⟨blanks, hs, hblanks⟩ := exists_blanks s
  exact ⟨blanks, hs, fun b hb => ne_comma_of_isJsonBlank (hblanks b (List.mem_of_getLast? hb))⟩

theorem nextElement_spec {first more : Bool} (h : nextElement first s = .ok (more, rest)) :
    rest <:+ s ∧ (more = false → ∃ behind, rest = byte ']' :: behind) := by
  have hblank := skipBlank_suffix s
  unfold nextElement at h
  split at h
  · simp [failNext] at h
  · rename_i b behind hs
    rw [hs] at hblank
    split at h
    · rename_i hb
      obtain ⟨rfl, rfl⟩ := Prod.mk.inj (Except.ok.inj h)
      exact ⟨hblank, fun _ => ⟨behind, by rw [hb]⟩⟩
    · split at h
      · obtain ⟨rfl, rfl⟩ := Prod.mk.inj (Except.ok.inj h)
        exact ⟨hblank, by simp⟩
      · split at h
        · have hafter := skipBlank_suffix behind
          split at h
          · simp [failNext] at h
          · rename_i c after hc
            rw [hc] at hafter
            split at h
            · simp [failNext] at h
            · obtain ⟨rfl, rfl⟩ := Prod.mk.inj (Except.ok.inj h)
              exact ⟨hafter.trans ((List.suffix_cons b behind).trans hblank), by simp⟩
        · simp [failNext] at h

/-- Where no member follows, nothing but blanks stands before the closing bracket: a comma would
have to be followed by a member. -/
theorem nextMember_spec {first more : Bool} (h : nextMember first s = .ok (more, rest)) :
    rest <:+ s ∧ (more = false → ∃ behind, rest = byte '\x7d' :: behind ∧ Leaves s rest) := by
  have hblank := skipBlank_suffix s
  have hleaves := leaves_skipBlank s
  unfold nextMember at h
  split at h
  · simp [failNext] at h
  · rename_i b behind hs
    rw [hs] at hblank hleaves
    split at h
    · rename_i hb
      obtain ⟨rfl, rfl⟩ := Prod.mk.inj (Except.ok.inj h)
      exact ⟨hblank, fun _ => ⟨behind, by rw [hb], hleaves⟩⟩
    · split at h
      · split at h
        · obtain ⟨rfl, rfl⟩ := Prod.mk.inj (Except.ok.inj h)
          exact ⟨hblank, by simp⟩
        · simp [failNext] at h
      · split at h
        · have hafter := skipBlank_suffix behind
          split at h
          · simp [failNext] at h
          · rename_i c after hc
            rw [hc] at hafter
            split at h
            · obtain ⟨rfl, rfl⟩ := Prod.mk.inj (Except.ok.inj h)
              exact ⟨hafter.trans ((List.suffix_cons b behind).trans hblank), by simp⟩
            · split at h <;> simp [failNext] at h
        · simp [failNext] at h

end

/-- With this much fuel, a value ends in no comma, a list in its bracket, and the closing bracket of
an object stands behind no comma. -/
structure EndsWell (fuel : Nat) : Prop where
  value : ∀ {depth s v rest}, value fuel depth s = .ok (v, rest) → Takes s rest
  elements : ∀ {depth acc s v rest}, elements fuel depth acc s = .ok (v, rest) → Takes s rest
  members : ∀ {depth first acc s v rest}, members fuel depth first acc s = .ok (v, rest) →
    Leaves s (byte '\x7d' :: rest)

section

variable {fuel depth : Nat} {s rest : Bytes} {v : Value}

theorem takes_map {α : Type} {r : Reading α} {f : α × Bytes → Value × Bytes}
    (hf : ∀ a behind, (f (a, behind)).2 = behind) (h : r.map f = .ok (v, rest)) :
    ∃ a, r = .ok (a, rest) := by
  cases r with
  | error e => simp [Except.map] at h
  | ok p =>
    obtain ⟨a, behind⟩ := p
    have hrest : (f (a, behind)).2 = rest := congrArg Prod.snd (Except.ok.inj h)
    exact ⟨a, by rw [← hrest, hf]⟩

theorem takes_scalar {b : UInt8} {mark : Bytes} (hmark : ∃ front last, mark = front ++ [last] ∧
    last ≠ byte ',') {value : Value} (h : scalar value (literal mark s) = .ok (v, rest)) :
    Takes (b :: s) rest := by
  unfold scalar at h
  cases hl : literal mark s with
  | error e => simp [hl, Except.map] at h
  | ok behind =>
    rw [hl] at h
    obtain ⟨-, rfl⟩ := Prod.mk.inj (Except.ok.inj h)
    exact takes_literal hmark hl

theorem EndsWell.value_succ (ih : EndsWell fuel)
    (h : Json.value (fuel + 1) depth s = .ok (v, rest)) : Takes s rest := by
  have hblank := skipBlank_suffix s
  simp only [Json.value] at h
  split at h
  · simp [failNext] at h
  rename_i b behind hs
  rw [hs] at hblank
  refine Takes.behind ?_ hblank
  split at h
  case isTrue => exact takes_scalar ⟨[0x75, 0x6C], 0x6C, rfl, by decide⟩ h
  split at h
  case isTrue => exact takes_scalar ⟨[0x72, 0x75], 0x65, rfl, by decide⟩ h
  split at h
  case isTrue => exact takes_scalar ⟨[0x61, 0x6C, 0x73], 0x65, rfl, by decide⟩ h
  split at h
  case isTrue =>
    obtain ⟨x, hx⟩ := takes_map (fun _ _ => rfl) h
    exact (takes_number hx).cons b
  split at h
  case isTrue =>
    obtain ⟨x, hx⟩ := takes_map (fun _ _ => rfl) h
    exact takes_number hx
  split at h
  case isTrue =>
    obtain ⟨x, hx⟩ := takes_map (fun _ _ => rfl) h
    exact (takes_stringBody hx).cons b
  split at h
  case isTrue =>
    split at h
    · simp [failNext] at h
    · exact (ih.elements h).cons b
  split at h
  case isTrue =>
    split at h
    · simp [failNext] at h
    · exact ((ih.members h).takes (by decide)).cons b
  simp [failNext] at h

theorem EndsWell.elements_succ (ih : EndsWell fuel) {acc : List Value}
    (h : Json.elements (fuel + 1) depth acc s = .ok (v, rest)) : Takes s rest := by
  simp only [Json.elements] at h
  split at h
  · simp at h
  · rename_i s₁ hnext
    obtain ⟨hsuffix, hclosed⟩ := nextElement_spec hnext
    obtain ⟨behind, rfl⟩ := hclosed rfl
    obtain ⟨-, rfl⟩ := Prod.mk.inj (Except.ok.inj h)
    exact Takes.behind (.one (by decide)) hsuffix
  · rename_i s₁ hnext
    obtain ⟨hsuffix, -⟩ := nextElement_spec hnext
    split at h
    · simp at h
    · rename_i x s₂ hvalue
      exact (ih.elements h).behind ((ih.value hvalue).suffix.trans hsuffix)

theorem EndsWell.members_succ (ih : EndsWell fuel) {first : Bool} {acc : Members}
    (h : Json.members (fuel + 1) depth first acc s = .ok (v, rest)) :
    Leaves s (byte '\x7d' :: rest) := by
  simp only [Json.members] at h
  split at h
  · simp at h
  · rename_i s₁ hnext
    obtain ⟨-, hclosed⟩ := nextMember_spec hnext
    obtain ⟨behind, rfl, hleaves⟩ := hclosed rfl
    obtain ⟨-, rfl⟩ := Prod.mk.inj (Except.ok.inj h)
    exact hleaves
  · rename_i s₁ hnext
    obtain ⟨hsuffix, -⟩ := nextMember_spec hnext
    split at h
    · simp at h
    · rename_i key s₂ hkey
      split at h
      · simp at h
      · rename_i s₃ hcolon
        split at h
        · simp at h
        · rename_i x s₄ hvalue
          have hfront : s₃ <:+ s := (takes_colon hcolon).suffix.trans
            ((takes_stringBody hkey).suffix.trans ((List.drop_suffix 1 s₁).trans hsuffix))
          exact (((ih.value hvalue).trans (ih.members h)).behind hfront).leaves

end

theorem endsWell (fuel : Nat) : EndsWell fuel := by
  induction fuel with
  | zero => constructor <;> (intros; simp_all [value, elements, members, failHere])
  | succ fuel ih => exact ⟨ih.value_succ, ih.elements_succ, ih.members_succ⟩

/-! Documents -/

section

variable {s rest : Bytes} {document : Value}

theorem leaves_object {fuel depth : Nat} {v : Value}
    (h : value fuel depth (byte '\x7b' :: s) = .ok (v, rest)) : Leaves s (byte '\x7d' :: rest) := by
  cases fuel with
  | zero => simp [value, failHere] at h
  | succ fuel =>
    have hblank : skipBlank (byte '\x7b' :: s) = byte '\x7b' :: s :=
      List.dropWhile_cons_of_neg (by decide)
    simp only [value, hblank] at h
    cases depth with
    | zero => exact absurd h (by simp [failNext, byte, isDigitByte])
    | succ depth => exact (endsWell fuel).members h

theorem object_spec (h : parseBytes (byte '\x7b' :: s) = .ok document) :
    ∃ blanks, Leaves (byte '\x7b' :: s) (byte '\x7d' :: blanks) ∧
      ∀ b ∈ blanks, isJsonBlank b = true := by
  unfold parseBytes readWhole at h
  split at h
  · simp at h
  · rename_i v blanks hvalue
    have hbrace : byte '\x7b' ≠ byte ',' := by decide
    have hobject := (Takes.one hbrace).trans (leaves_object hvalue)
    split at h
    · rename_i hall
      exact ⟨blanks, hobject.leaves, by simpa [skipBlank] using hall⟩
    · simp [failNext] at h

theorem penultimate_ne_comma {blanks : Bytes} (h : Leaves s (byte '\x7d' :: blanks))
    (hblanks : ∀ b ∈ blanks, isJsonBlank b = true) (front : Bytes) (b : UInt8) :
    s ≠ front ++ [byte ',', b] := by
  intro hs
  obtain ⟨taken, rfl, htaken⟩ := h
  rcases List.eq_nil_or_concat blanks with rfl | ⟨blanks, c, rfl⟩
  · have hsplit : taken ++ [byte '\x7d'] = front ++ [byte ','] ++ [b] := by simpa using hs
    obtain ⟨rfl, -⟩ := List.append_inj' hsplit rfl
    exact htaken (byte ',') (by simp) rfl
  · have hsplit : taken ++ byte '\x7d' :: blanks ++ [c] = front ++ [byte ','] ++ [b] := by
      simpa using hs
    obtain ⟨hinit, -⟩ := List.append_inj' hsplit rfl
    have hcomma : byte ',' ∈ byte '\x7d' :: blanks := by
      have hlast := congrArg List.getLast? hinit
      rw [List.getLast?_append_of_ne_nil _ (by simp), List.getLast?_concat] at hlast
      exact List.mem_of_getLast? hlast
    rcases List.mem_cons.1 hcomma with hbracket | hblank
    · exact absurd hbracket (by decide)
    · exact ne_comma_of_isJsonBlank (hblanks _ (by simp [hblank])) rfl

theorem last_is_ascii {blanks : Bytes} (h : Leaves s (byte '\x7d' :: blanks))
    (hblanks : ∀ b ∈ blanks, isJsonBlank b = true) : ∀ b ∈ s.getLast?, b.toNat < 0x80 := by
  obtain ⟨taken, rfl, -⟩ := h
  intro b hb
  have hmem : b ∈ byte '\x7d' :: blanks := by
    rw [List.getLast?_append_of_ne_nil _ (by simp)] at hb
    exact List.mem_of_getLast? hb
  rcases List.mem_cons.1 hmem with rfl | hblank
  · decide
  · have hall := hblanks b hblank
    simp only [isJsonBlank, Bool.or_eq_true, beq_iff_eq] at hall
    rcases hall with ((rfl | rfl) | rfl) | rfl <;> decide

end

/-- No document that is an object has a comma right before its last character. -/
theorem no_stray_comma {text : String} {document : Value}
    (hbrace : text.toList.head? = some '\x7b') (h : parse text = .ok document)
    (front : List Char) (last : Char) : text.toList ≠ front ++ [',', last] := by
  intro hstray
  have hbytes : text.utf8Bytes = Utf8.encode front ++ byte ',' :: String.utf8EncodeChar last := by
    rw [String.utf8Bytes, hstray, Utf8.encode_append]
    simp [Utf8.encode, byte, Utf8.utf8EncodeChar_ascii]
  obtain ⟨more, hmore⟩ : ∃ more, text.utf8Bytes = byte '\x7b' :: more := by
    obtain ⟨more, hmore⟩ := List.head?_eq_some_iff.1 hbrace
    rw [String.utf8Bytes, hmore, Utf8.encode_cons, Utf8.utf8EncodeChar_ascii (by decide)]
    exact ⟨Utf8.encode more, rfl⟩
  rw [parse, hmore] at h
  obtain ⟨blanks, hleaves, hblanks⟩ := object_spec h
  rw [← hmore] at hleaves
  by_cases hascii : last.toNat < 0x80
  · rw [Utf8.utf8EncodeChar_ascii hascii] at hbytes
    exact penultimate_ne_comma hleaves hblanks _ _ hbytes
  · -- All bytes of another character lie beyond ASCII, and one of them would end the document.
    rcases List.eq_nil_or_concat (String.utf8EncodeChar last) with hnil | ⟨init, b, hlast⟩
    · obtain ⟨first, tail, hcons, -⟩ := Utf8.utf8EncodeChar_eq_cons last
      simp [hnil] at hcons
    · have hhigh := Utf8.utf8EncodeChar_high (Nat.le_of_not_lt hascii) b (by simp [hlast])
      have hend : text.utf8Bytes.getLast? = some b := by
        rw [hbytes, hlast, List.concat_eq_append, ← List.cons_append, ← List.append_assoc]
        exact List.getLast?_concat
      have hlow := last_is_ascii hleaves hblanks b hend
      omega

theorem length_of_object {text : String} {document : Value}
    (hbrace : text.toList.head? = some '\x7b') (h : parse text = .ok document) :
    2 ≤ text.toList.length := by
  have hlone : (parse (String.ofList ['\x7b'])).toOption.isSome = false := by decide +kernel
  match htext : text.toList with
  | [] => simp [htext] at hbrace
  | [c] =>
    obtain rfl : c = '\x7b' := by simpa [htext] using hbrace
    rw [← htext, String.ofList_toList, h] at hlone
    simp [Except.toOption] at hlone
  | _ :: _ :: _ => simp

end Json

namespace CompiledSpec

theorem repair_eq_self {s : List Char} (h : ∀ front last, s ≠ front ++ [',', last]) :
    repair s = s := by
  have hreversed : repairReversed s.reverse = s.reverse := by
    unfold repairReversed
    split
    · rename_i last rest hs
      have hsplit := congrArg List.reverse hs
      rw [List.reverse_reverse] at hsplit
      exact absurd (by simpa using hsplit) (h rest.reverse last)
    · rfl
  rw [repair, hreversed, List.reverse_reverse]

def withStray (s : List Char) : List Char := s.dropLast ++ ',' :: s.getLast?.toList

theorem repair_withStray {s : List Char} (hs : s ≠ []) : repair (withStray s) = s := by
  rcases List.eq_nil_or_concat s with rfl | ⟨front, last, rfl⟩
  · exact absurd rfl hs
  · rw [List.concat_eq_append, withStray, List.dropLast_concat, List.getLast?_concat,
      Option.toList_some, repair_stray]

theorem head?_withStray {s : List Char} (hs : 2 ≤ s.length) : (withStray s).head? = s.head? := by
  match s, hs with
  | a :: b :: more, _ => rfl

end CompiledSpec

/-- A text with one comma put right before its last character. -/
def strayComma (text : String) : String := String.ofList (CompiledSpec.withStray text.toList)

/-- A document that is an object is left alone by the repair, and gets rid of a stray comma. So both
are accepted as this document, in whatever chunks they come, and exactly its text is written. -/
theorem stray_comma_repaired_exactly {text : String} {document : Json.Value}
    (hbrace : text.toList.head? = some '\x7b') (hparse : Json.parse text = .ok document) :
    normalizeCompiledSpec text = text ∧ normalizeCompiledSpec (strayComma text) = text ∧
    ∀ (S : Setting) (plan : Plan) (o : Outcome) (t t' : FileTree), o.signal = none →
      o.stdout = text ∨ o.stdout = strayComma text →
      t.writeText S.project.compiledSpec text = .ok t' →
      Stage.compileSpecification.interpret S plan o t =
        .ok (⟨S.project.compiledSpec, plan.input, document⟩, t') ∧
      t'.readBytes S.project.compiledSpec = .ok text.utf8Bytes := by
  have hclean : normalizeCompiledSpec text = text := by
    rw [normalizeCompiledSpec,
      CompiledSpec.repair_eq_self (Json.no_stray_comma hbrace hparse), String.ofList_toList]
  have hlength := Json.length_of_object hbrace hparse
  have hstray : normalizeCompiledSpec (strayComma text) = text := by
    rw [normalizeCompiledSpec, strayComma, String.toList_ofList,
      CompiledSpec.repair_withStray (List.ne_nil_of_length_pos (by omega)), String.ofList_toList]
  refine ⟨hclean, hstray, ?_⟩
  intro S plan o t t' hsignal hprinted hwrite
  have haccepted : Stage.compiledDocument o = .ok (text, document) := by
    rw [Stage.compiledDocument_eq_ok_iff]
    rcases hprinted with hout | hout
    · exact ⟨hsignal, by rw [hout]; exact hbrace, by rw [hout, hclean], hparse⟩
    · refine ⟨hsignal, ?_, by rw [hout, hstray], hparse⟩
      rw [hout, strayComma, String.toList_ofList, CompiledSpec.head?_withStray hlength]
      exact hbrace
  obtain ⟨front, name, hparts⟩ := Project.compiledSpec_named S.project
  obtain ⟨-, -, -, -, -, hbytes⟩ := FileTree.write_changes hparts hwrite
  exact ⟨Stage.compileSpecification_eq_ok_iff.2 ⟨text, haccepted, rfl, rfl, hwrite⟩, hbytes⟩

namespace Demo

def document : String := "\x7b\"items\":[\x7b\"id\":1,\"name\":\"calls\",\"out\":true\x7d]\x7d"

end Demo

theorem stray_comma_repaired_of_demo :
    Demo.document.toList.head? = some '\x7b' ∧ ∃ value, Json.parse Demo.document = .ok value ∧
    Demo.printed.signal = none ∧ Demo.printed.stdout = strayComma Demo.document ∧
    ∃ t, (Demo.tree []).writeText Demo.inDocker.project.compiledSpec Demo.document = .ok t ∧
      Stage.compileSpecification.interpret Demo.inDocker default Demo.printed (Demo.tree []) =
        .ok (⟨Demo.inDocker.project.compiledSpec, none, value⟩, t) ∧
      t.readBytes Demo.inDocker.project.compiledSpec = .ok Demo.document.utf8Bytes := by
  have hbrace : Demo.document.toList.head? = some '\x7b' := by decide +kernel
  have hsome : (Json.parse Demo.document).toOption.isSome = true := by decide +kernel
  have hprinted : Demo.printed.stdout = strayComma Demo.document := by decide +kernel
  have hwritten : ((Demo.tree []).writeText Demo.inDocker.project.compiledSpec
      Demo.document).toOption.isSome = true := by decide +kernel
  cases hparse : Json.parse Demo.document with
  | error e => simp [hparse, Except.toOption] at hsome
  | ok value =>
    cases hwrite : (Demo.tree []).writeText Demo.inDocker.project.compiledSpec Demo.document with
    | error e => simp [hwrite, Except.toOption] at hwritten
    | ok t =>
      obtain ⟨hinterpret, hread⟩ := (stray_comma_repaired_exactly hbrace hparse).2.2
        Demo.inDocker default Demo.printed (Demo.tree []) t rfl (.inr hprinted) hwrite
      exact ⟨hbrace, value, rfl, rfl, hprinted, t, rfl, hinterpret, hread⟩

end TraceWorkbench
