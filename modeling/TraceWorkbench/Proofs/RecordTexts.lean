import TraceWorkbench.Json.Decode
import TraceWorkbench.Proofs.JsonTexts

set_option autoImplicit false

/-!
# Records are read from the texts of their objects

A reader that reads a value reads each of its texts, and stops behind it. So it is with truth values
and strings, and with a record whose fields read the values of the members. The members may come in
any order, and a field that none of them mentions keeps what it was.
-/
namespace TraceWorkbench.Json

open Utf8

theorem encode_ascii {c : Char} (hc : c.toNat < 0x80) (s : List Char) :
    encode (c :: s) = byte c :: encode s := by
  rw [encode_cons, utf8EncodeChar_ascii hc]
  rfl

section

variable {α : Type} {pad : List Char} {k : UInt8 → Bytes → Except Fault α}

theorem skipBlank_padding (h : Padding pad) (s : Bytes) :
    skipBlank (encode pad ++ s) = skipBlank s := by
  induction pad with
  | nil => rfl
  | cons c pad ih =>
    have hc : c.toNat < 0x80 ∧ isJsonBlank (byte c) = true := by
      rcases h c List.mem_cons_self with rfl | rfl | rfl | rfl <;> decide
    rw [encode_ascii hc.1, List.cons_append, skipBlank, List.dropWhile_cons_of_pos hc.2]
    exact ih fun d hd => h d (List.mem_cons_of_mem _ hd)

theorem skipBlank_cons {b : UInt8} (hb : isJsonBlank b = false) (s : Bytes) :
    skipBlank (b :: s) = b :: s := by
  rw [skipBlank, List.dropWhile_cons_of_neg (by simp [hb])]

theorem atValue_padded (h : Padding pad) {b : UInt8} (hb : isJsonBlank b = false) (s : Bytes) :
    atValue k (encode pad ++ b :: s) = k b s := by
  rw [atValue, skipBlank_padding h, skipBlank_cons hb]

end

/-! Strings -/

section

variable {c : Char} {t : List Char} {acc rest : Bytes}

theorem stringFrom_plain {bs : Bytes}
    (h : ∀ b ∈ bs, b ≠ byte '"' ∧ b ≠ byte '\\' ∧ ¬ b < 0x20) :
    stringFrom false .plain acc (bs ++ rest) =
      stringFrom false .plain (bs.reverse ++ acc) rest := by
  induction bs generalizing acc with
  | nil => rfl
  | cons b bs ih =>
    obtain ⟨hquote, hslash, hcontrol⟩ := h b List.mem_cons_self
    rw [List.cons_append, stringFrom, if_neg hquote, if_neg hslash, if_neg hcontrol,
      ih fun x hx => h x (List.mem_cons_of_mem _ hx)]
    simp

theorem utf8EncodeChar_plain (hquote : c ≠ '"') (hslash : c ≠ '\\') (hcontrol : 0x20 ≤ c.toNat) :
    ∀ b ∈ String.utf8EncodeChar c, b ≠ byte '"' ∧ b ≠ byte '\\' ∧ ¬ b < 0x20 := by
  intro b hb
  refine ⟨?_, ?_, ?_⟩
  · rintro rfl
    exact not_mem_utf8EncodeChar (by decide) hquote hb
  · rintro rfl
    exact not_mem_utf8EncodeChar (by decide) hslash hb
  · rw [UInt8.lt_iff_toNat_lt]
    by_cases hc : c.toNat < 0x80
    · rw [utf8EncodeChar_ascii hc, List.mem_singleton] at hb
      subst hb
      simp
      omega
    · have hhigh := utf8EncodeChar_high (Nat.le_of_not_lt hc) b hb
      simp
      omega

theorem hexDigit?_of_hexDigit {n : Nat} (h : HexDigit n c) :
    c.toNat < 0x80 ∧ hexDigit? (byte c) = some n := by
  obtain ⟨hn, rfl | rfl⟩ := h
  · have hall : ∀ n < 16, n.digitChar.toNat < 0x80 ∧ hexDigit? (byte n.digitChar) = some n := by
      decide
    exact hall n hn
  · have hall : ∀ n < 16, n.digitChar.toUpper.toNat < 0x80 ∧
        hexDigit? (byte n.digitChar.toUpper) = some n := by
      decide
    exact hall n hn

theorem encode_hexText {n : Nat} {ds : List Char} (h : HexText n ds) :
    ∃ b₁ b₂ b₃ b₄, encode ds = [b₁, b₂, b₃, b₄] ∧ hexValue? [b₁, b₂, b₃, b₄] = some n := by
  cases h with
  | @digits a b c d w x y z hw hx hy hz =>
    obtain ⟨hw, ha⟩ := hexDigit?_of_hexDigit hw
    obtain ⟨hx, hb⟩ := hexDigit?_of_hexDigit hx
    obtain ⟨hy, hc⟩ := hexDigit?_of_hexDigit hy
    obtain ⟨hz, hd⟩ := hexDigit?_of_hexDigit hz
    refine ⟨byte w, byte x, byte y, byte z, ?_, ?_⟩
    · rw [encode_ascii hw, encode_ascii hx, encode_ascii hy, encode_ascii hz]
      rfl
    · simp only [hexValue?, List.foldl_cons, List.foldl_nil, Option.bind_some, ha, hb, hc, hd,
        Option.map_some]
      congr 1
      omega

theorem stringFrom_hex {n : Nat} {ds : List Char} (h : HexText n ds)
    (hpart : ¬ (0xDC00 ≤ n ∧ n ≤ 0xDFFF)) :
    stringFrom false (.hex []) acc (encode ds ++ rest) =
      if 0xD800 ≤ n ∧ n ≤ 0xDBFF then stringFrom false (.pairSlash n) acc rest
      else stringFrom false .plain ((encodeCode n).reverse ++ acc) rest := by
  obtain ⟨b₁, b₂, b₃, b₄, hbytes, hvalue⟩ := encode_hexText h
  simp only [hbytes, List.cons_append, List.nil_append, stringFrom, List.length_nil,
    List.length_cons, Nat.reduceAdd, Nat.reduceLT, if_true, if_false, hvalue, hpart,
    Bool.false_eq_true]

theorem stringFrom_low {high low : Nat} {ds : List Char} (h : HexText low ds)
    (hlow : 0xDC00 ≤ low) (hlow' : low ≤ 0xDFFF) :
    stringFrom false (.low high []) acc (encode ds ++ rest) =
      stringFrom false .plain ((encodeCode
        ((high - 0xD800) * 0x400 + (low - 0xDC00) + 0x10000)).reverse ++ acc) rest := by
  obtain ⟨b₁, b₂, b₃, b₄, hbytes, hvalue⟩ := encode_hexText h
  have hpart : ¬ (low < 0xDC00 ∨ 0xDFFF < low) := by omega
  simp only [hbytes, List.cons_append, List.nil_append, stringFrom, List.length_nil,
    List.length_cons, Nat.reduceAdd, Nat.reduceLT, if_true, if_false, hvalue, hpart]

theorem encodeCode_toNat (c : Char) : encodeCode c.toNat = String.utf8EncodeChar c := by
  rw [encodeCode, Char.ofNat_toNat]

theorem encode_mark (t : List Char) :
    encode ('\\' :: 'u' :: t) = byte '\\' :: byte 'u' :: encode t := by
  rw [encode_ascii (by decide), encode_ascii (by decide)]

theorem stringFrom_mark (s : Bytes) :
    stringFrom false .plain acc (byte '\\' :: byte 'u' :: s) =
      stringFrom false (.hex []) acc s :=
  rfl

theorem stringFrom_secondMark (high : Nat) (s : Bytes) :
    stringFrom false (.pairSlash high) acc (byte '\\' :: byte 'u' :: s) =
      stringFrom false (.low high []) acc s :=
  rfl

theorem stringFrom_charText (h : CharText c t) :
    stringFrom false .plain acc (encode t ++ rest) =
      stringFrom false .plain ((String.utf8EncodeChar c).reverse ++ acc) rest := by
  cases h with
  | plain hquote hslash hcontrol =>
    have hencode : encode [c] = String.utf8EncodeChar c := by simp [encode]
    rw [hencode]
    exact stringFrom_plain (utf8EncodeChar_plain hquote hslash hcontrol)
  | @short letter h =>
    have hall : ∀ p ∈ shortEscapes, p.1.toNat < 0x80 ∧ p.2.toNat < 0x80 ∧ byte p.2 ≠ byte 'u' ∧
        simpleEscape? (byte p.2) = some (byte p.1) := by
      decide
    obtain ⟨hc, hletter, hne, hescape⟩ := hall _ h
    rw [encode_ascii (by decide), encode_ascii hletter, utf8EncodeChar_ascii hc]
    simp only [List.cons_append, stringFrom, if_neg hne, hescape]
    rfl
  | @code ds h =>
    have hvalid : c.toNat < 0xD800 ∨ 0xDFFF < c.toNat ∧ c.toNat < 0x110000 := c.valid
    rw [encode_mark, List.cons_append, List.cons_append, stringFrom_mark,
      stringFrom_hex h (by omega), if_neg (by omega), encodeCode_toNat]
  | @pair high low ds es hds hes hhigh hhigh' hlow hlow' hcode =>
    rw [encode_mark, encode_append, encode_mark, List.cons_append, List.cons_append,
      List.append_assoc, stringFrom_mark, stringFrom_hex hds (by omega), if_pos ⟨hhigh, hhigh'⟩,
      List.cons_append, List.cons_append, stringFrom_secondMark, stringFrom_low hes hlow hlow',
      ← hcode, encodeCode_toNat]

theorem stringFrom_charsText {cs : List Char} (h : CharsText cs t) :
    stringFrom false .plain acc (encode t ++ byte '"' :: rest) =
      .ok (acc.reverse ++ encode cs, rest) := by
  induction h generalizing acc with
  | nil =>
    have hnil : encode [] = [] := rfl
    rw [hnil, List.nil_append, List.append_nil, stringFrom, if_pos rfl]
  | cons hc _ ih =>
    rw [encode_append, List.append_assoc, stringFrom_charText hc, ih, encode_cons]
    simp

theorem stringBody_charsText {s : String} (h : CharsText s.toList t) :
    stringBody (encode t ++ byte '"' :: rest) = .ok (s, rest) := by
  rw [stringBody, stringFrom_charsText h]
  simp [Except.map, String.ofBytesLossy, decodeLossy_encode]

end

/-! Readers of values -/

/-- Each text of the value is read, with blanks before it, up to its end. -/
def Reads {α : Type} (d : Decoder α) (v : Value) (a : α) : Prop :=
  ∀ {pad t : List Char} {rest : Bytes}, Padding pad → ValueText v t →
    d (encode pad ++ (encode t ++ rest)) = .ok (a, rest)

theorem reads_boolean (b : Bool) : Reads boolean (.bool b) b := by
  intro pad t rest hpad ht
  cases ht with
  | true | false =>
    rw [encode_ascii (by decide), List.cons_append, boolean, atValue_padded hpad (by decide)]
    rfl

theorem encode_quoted (t : List Char) :
    encode ('"' :: (t ++ ['"'])) = byte '"' :: (encode t ++ [byte '"']) := by
  rw [encode_ascii (by decide), encode_append]
  rfl

theorem reads_stringCalled (wanted s : String) : Reads (stringCalled wanted) (.string s) s := by
  intro pad t rest hpad ht
  cases ht with
  | string ht =>
    cases ht with
    | quoted ht =>
      rw [encode_quoted, List.cons_append, List.append_assoc, stringCalled,
        atValue_padded hpad (by decide), if_pos rfl]
      exact stringBody_charsText ht

/-! Records -/

/-- Among the fields is one of this name that reads the value, and puts it into the record. -/
def HasField {σ : Type} (fields : List (Field σ)) (m : String × Value) (put : σ → σ) : Prop :=
  ∃ field, fields.find? (fun f => f.name == m.1) = some field ∧
    ∀ r, Reads (field.read r) m.2 (put r)

theorem reads_of {σ α : Type} {d : Decoder α} {v : Value} {a : α} (h : Reads d v a) (name : String)
    (required : Bool) (put : α → σ → σ) (r : σ) :
    Reads ((Field.of name required d put).read r) v (put a r) := by
  intro pad t rest hpad ht
  simp only [Field.of, h hpad ht]
  rfl

section

variable {σ : Type} {fields : List (Field σ)} {m : String × Value} {put : σ → σ} {r : σ}
  {t pad : List Char} {fuel : Nat} {first : Bool} {seen : List String} {s rest : Bytes}

theorem nextMember_padded (h : Padding pad) : nextMember first (encode pad ++ s) =
    nextMember first s := by
  rw [nextMember, skipBlank_padding h, nextMember]

theorem recordMembers_padded (h : Padding pad) :
    recordMembers fields (fuel + 1) first seen r (encode pad ++ s) =
      recordMembers fields (fuel + 1) first seen r s := by
  rw [recordMembers, nextMember_padded h, recordMembers]

/-- What stands in front of a member: nothing if it is the first one. -/
def joint : Bool → Bytes
  | true => []
  | false => [byte ',']

theorem nextMember_joint (h : Padding pad) :
    nextMember first (joint first ++ (encode pad ++ byte '"' :: s)) =
      .ok (true, byte '"' :: s) := by
  cases first with
  | true =>
    rw [joint, List.nil_append, nextMember_padded h]
    rfl
  | false =>
    have hcomma : skipBlank (byte ',' :: (encode pad ++ byte '"' :: s)) =
        byte ',' :: (encode pad ++ byte '"' :: s) := skipBlank_cons (by decide) _
    have hquote : skipBlank (encode pad ++ byte '"' :: s) = byte '"' :: s := by
      rw [skipBlank_padding h, skipBlank_cons (by decide)]
    simp only [joint, List.cons_append, List.nil_append, nextMember, hcomma, hquote]
    rfl

theorem colon_padded (h : Padding pad) : colon (encode pad ++ byte ':' :: s) = .ok s := by
  rw [colon, skipBlank_padding h]
  rfl

theorem recordMembers_member (hfield : HasField fields m put) (hseen : m.1 ∉ seen)
    (ht : MemberText ValueText m t) (fuel : Nat) (first : Bool) (r : σ) (rest : Bytes) :
    recordMembers fields (fuel + 2) first seen r (joint first ++ (encode t ++ rest)) =
      recordMembers fields (fuel + 1) false (m.1 :: seen) (put r) rest := by
  obtain ⟨field, hfind, hread⟩ := hfield
  cases ht with
  | @named key value before k behind lead t after hbefore hk hbehind hlead ht hafter =>
    cases hk with
    | @quoted k hk =>
      have hcolon : encode (':' :: (lead ++ (t ++ after))) ++ rest =
          byte ':' :: (encode lead ++ (encode t ++ (encode after ++ rest))) := by
        rw [encode_ascii (by decide), encode_append, encode_append]
        simp
      have hnot : seen.contains key = false := by simpa using hseen
      rw [encode_append, encode_append, encode_append, encode_quoted]
      simp only [List.append_assoc, List.cons_append, List.nil_append, hcolon]
      rw [recordMembers]
      simp only [nextMember_joint hbefore, List.drop_one, List.tail_cons,
        stringBody_charsText hk, hfind, hnot, colon_padded hbehind, hread r hlead ht,
        Bool.false_eq_true, if_false]
      exact recordMembers_padded hafter

theorem recordMembers_end (hoptional : ∀ f ∈ fields, f.required = false) :
    recordMembers fields (fuel + 1) first seen r (byte '\x7d' :: s) =
      .ok (r, byte '\x7d' :: s) := by
  have hend : nextMember first (byte '\x7d' :: s) = .ok (false, byte '\x7d' :: s) := rfl
  have hnone : fields.find? (fun f => f.required && !seen.contains f.name) = none := by
    rw [List.find?_eq_none]
    intro f hf
    simp [hoptional f hf]
  simp only [recordMembers, hend, hnone]

theorem MembersText.length_le {ms : Members} (h : MembersText ValueText ms t) :
    ms.length ≤ t.length := by
  have hone : ∀ {m t}, MemberText ValueText m t → 1 ≤ t.length := by
    rintro m t ⟨⟩
    simp
    omega
  induction h with
  | last hm => exact hone hm
  | more hm _ ih =>
    have hm := hone hm
    simp only [List.length_cons, List.length_append]
    omega

/-- All members are read, each into its field. -/
theorem recordMembers_text {ι : Type} {member : ι → String × Value} {put : ι → σ → σ}
    (hoptional : ∀ f ∈ fields, f.required = false) {ms : Members} {L : List ι}
    (h : MembersText ValueText ms t) (hms : ms = L.map member)
    (hfields : ∀ i ∈ L, HasField fields (member i) (put i))
    (hnodup : (ms.map Prod.fst).Nodup) (hseen : ∀ m ∈ ms, m.1 ∉ seen) :
    recordMembers fields (ms.length + fuel + 1) first seen r
        (joint first ++ (encode t ++ byte '\x7d' :: rest)) =
      .ok (L.foldl (fun r i => put i r) r, byte '\x7d' :: rest) := by
  induction h generalizing L first seen r with
  | last hm =>
    obtain ⟨i, rfl, rfl⟩ := List.map_eq_singleton_iff.1 hms.symm
    have hstep := recordMembers_member (hfields i List.mem_cons_self)
      (hseen _ List.mem_cons_self) hm fuel first r (byte '\x7d' :: rest)
    rw [List.length_singleton, Nat.add_comm 1, hstep, recordMembers_end hoptional]
    rfl
  | @more m ms t ts hm hts ih =>
    obtain ⟨i, L, rfl, rfl, rfl⟩ := List.map_eq_cons_iff.1 hms.symm
    obtain ⟨hother, hnodup⟩ := List.nodup_cons.1 hnodup
    have hstep := recordMembers_member (hfields i List.mem_cons_self)
      (hseen _ List.mem_cons_self) hm ((L.map member).length + fuel) first r
      (joint false ++ (encode ts ++ byte '\x7d' :: rest))
    have hlength : ((member i) :: L.map member).length + fuel + 1 =
        (L.map member).length + fuel + 2 := by
      rw [List.length_cons]
      omega
    have htext : encode (t ++ ',' :: ts) ++ byte '\x7d' :: rest =
        encode t ++ (joint false ++ (encode ts ++ byte '\x7d' :: rest)) := by
      rw [encode_append, encode_ascii (by decide)]
      simp [joint]
    rw [hlength, htext, hstep]
    refine ih rfl (fun j hj => hfields j (List.mem_cons_of_mem _ hj)) hnodup fun m hm => ?_
    rw [List.mem_cons, not_or]
    refine ⟨fun hkey => hother ?_, hseen m (List.mem_cons_of_mem _ hm)⟩
    exact hkey ▸ List.mem_map_of_mem hm

theorem encode_braced (t : List Char) (rest : Bytes) :
    encode ('\x7b' :: (t ++ ['\x7d'])) ++ rest =
      byte '\x7b' :: (encode t ++ byte '\x7d' :: rest) := by
  rw [encode_ascii (by decide), encode_append, List.cons_append, List.append_assoc,
    encode_ascii (by decide)]
  rfl

theorem record_braced {start : σ} (name : String) (hpad : Padding pad)
    (h : ∀ fuel, t.length ≤ fuel →
      recordMembers fields (fuel + 1) true [] start (encode t ++ byte '\x7d' :: rest) =
        .ok (r, byte '\x7d' :: rest)) :
    record name start fields (encode pad ++ (encode ('\x7b' :: (t ++ ['\x7d'])) ++ rest)) =
      .ok (r, rest) := by
  have hfuel : t.length ≤ (encode t ++ byte '\x7d' :: rest).length := by
    have hbytes := length_le_length_encode t
    rw [List.length_append]
    omega
  rw [encode_braced, record, atValue_padded hpad (by decide), if_neg (by decide), if_pos rfl,
    h _ hfuel]
  rfl

theorem reads_record {ι : Type} {member : ι → String × Value} {put : ι → σ → σ} {L : List ι}
    (name : String) (start : σ) (hoptional : ∀ f ∈ fields, f.required = false)
    (hfields : ∀ i ∈ L, HasField fields (member i) (put i))
    (hnodup : (L.map fun i => (member i).1).Nodup) :
    Reads (record name start fields) (.object (L.map member))
      (L.foldl (fun r i => put i r) start) := by
  intro pad t rest hpad ht
  generalize hms : L.map member = ms at ht
  cases ht with
  | empty hinner =>
    obtain rfl := List.map_eq_nil_iff.1 hms
    refine record_braced name hpad fun fuel _ => ?_
    rw [recordMembers_padded hinner, recordMembers_end hoptional]
    rfl
  | object hts =>
    refine record_braced name hpad fun fuel hfuel => ?_
    obtain ⟨more, rfl⟩ := Nat.exists_eq_add_of_le (Nat.le_trans hts.length_le hfuel)
    have hnodup : (ms.map Prod.fst).Nodup := by
      rw [← hms, List.map_map]
      exact hnodup
    exact recordMembers_text hoptional hts hms.symm hfields hnodup (by simp)

end

theorem Reads.decode {α : Type} {d : Decoder α} {v : Value} {a : α} (h : Reads d v a)
    {text : String} (ht : DocumentText v text) : decode d text = .ok a := by
  cases ht with
  | @padded before t after hbefore ht hafter =>
    have hbytes : (String.ofList (before ++ (t ++ after))).utf8Bytes =
        encode before ++ (encode t ++ encode after) := by
      rw [String.utf8Bytes, String.toList_ofList, encode_append, encode_append]
    have hblank : skipBlank (encode after) = [] := by
      simpa [skipBlank] using skipBlank_padding hafter []
    rw [Json.decode, hbytes, readWhole, h hbefore ht]
    simp only [hblank]

end TraceWorkbench.Json
