import TraceWorkbench.Proofs.ErrorGrammar
import TraceWorkbench.Proofs.TextBytes
import TraceWorkbench.Spec.ErrorScan

set_option autoImplicit false

/-!
# The scan over bytes agrees with the search over characters

A cursor points at a place between two characters: the bytes before it and after it are those of
two texts. Every step of the scan goes from such a place to such a place, so no slice is taken
inside a character, and every loop passes at least one character in a round.
-/
namespace TraceWorkbench.ErrorScan

open Text Utf8 SpecError

/-! Slices between characters -/

section

variable (front s : List Char)

theorem isBoundary_encode : isBoundary (encode (front ++ s)) (encode front).length = true := by
  cases s with
  | nil => simp [isBoundary]
  | cons c s =>
    obtain ⟨first, more, hbytes, hfirst⟩ := utf8EncodeChar_eq_cons c
    simp [isBoundary, encode_append, encode_cons, hbytes, hfirst]

theorem sliceFrom_encode :
    sliceFrom (encode (front ++ s)) (encode front).length = .ok (encode s) := by
  rw [sliceFrom, if_pos (isBoundary_encode front s), encode_append, List.drop_left]

theorem sliceTo_encode :
    sliceTo (encode (front ++ s)) (encode front).length = .ok (encode front) := by
  rw [sliceTo, if_pos (isBoundary_encode front s), encode_append, List.take_left]

end

theorem firstChar?_encode (s : List Char) : firstChar? (encode s) = s.head? := by
  cases s with
  | nil => rfl
  | cons c s => simp [firstChar?, segments_encode, Segment.text, charOf_utf8EncodeChar]

/-! Numbers in bytes -/

theorem toNat_ofNat_digit {d : Char} (hd : d.isDigit = true) :
    (UInt8.ofNat d.toNat).toNat = d.toNat ∧ d.toNat < 0x80 := by
  have hbounds := isDigit_bounds hd
  constructor
  · simp
    omega
  · omega

theorem isDigit_ofNat {c : Char} (hc : c.toNat < 0x80) :
    isDigit (.ofNat c.toNat) = c.isDigit := by
  have hall : ∀ n < 0x80, isDigit (.ofNat n) = (Char.ofNat n).isDigit := by decide
  have hdigit := hall c.toNat hc
  rwa [Char.ofNat_toNat] at hdigit

theorem takeWhile_isDigit_encode (s : List Char) :
    (encode s).takeWhile isDigit = encode (s.takeWhile Char.isDigit) := by
  induction s with
  | nil => rfl
  | cons c s ih =>
    by_cases hascii : c.toNat < 0x80
    · rw [encode_cons, utf8EncodeChar_ascii hascii, List.singleton_append, List.takeWhile_cons,
        List.takeWhile_cons, isDigit_ofNat hascii, ih]
      split
      · rw [encode_cons, utf8EncodeChar_ascii hascii, List.singleton_append]
      · rfl
    · obtain ⟨first, more, hbytes, -⟩ := utf8EncodeChar_eq_cons c
      have hbyte : isDigit first = false := by
        have hhigh := utf8EncodeChar_high (Nat.le_of_not_lt hascii) first (by simp [hbytes])
        have hdigit : ¬ first ≤ 0x39 := by
          rw [UInt8.le_iff_toNat_le]
          exact fun h => absurd (Nat.le_trans hhigh h) (by decide)
        simp [isDigit, hdigit]
      have hchar : c.isDigit = false := by
        cases hd : c.isDigit with
        | false => rfl
        | true => exact absurd (toNat_ofNat_digit hd).2 hascii
      rw [encode_cons, hbytes, List.cons_append, List.takeWhile_cons_of_neg (by simp [hbyte]),
        List.takeWhile_cons_of_neg (by simp [hchar])]
      rfl

theorem word?_encode {ds : List Char} (hds : ∀ d ∈ ds, d.isDigit = true) :
    word? (encode ds) =
      if UInt32.size ≤ decimal ds then none else some (.ofNat (decimal ds)) := by
  have hfold : ∀ n, (encode ds).foldl (fun n b => 10 * n + (b.toNat - 0x30)) n =
      ds.foldl (fun n d => 10 * n + (d.toNat - '0'.toNat)) n := by
    induction ds with
    | nil => simp [encode]
    | cons d ds ih =>
      intro n
      have hd := toNat_ofNat_digit (hds d List.mem_cons_self)
      rw [encode_cons, utf8EncodeChar_ascii hd.2, List.singleton_append, List.foldl_cons, hd.1,
        List.foldl_cons]
      exact ih (fun d hmem => hds d (List.mem_cons_of_mem _ hmem)) _
  unfold word?
  rw [hfold 0]
  rfl

theorem length_encode_eq_zero_iff {s : List Char} : (encode s).length = 0 ↔ s = [] := by
  constructor
  · intro h
    have hle := length_le_length_encode s
    exact List.length_eq_zero_iff.1 (by omega)
  · rintro rfl
    rfl

/-! A scan agrees with a search -/

/-- The scan ends without a fault, and finds what the search finds. -/
def Agrees {α β : Type} (R : α → β → Prop) (x : Scan α) (y : Option β) : Prop :=
  ∃ found, x.run = .ok found ∧ Option.Rel R found y

namespace Agrees

variable {α β γ δ : Type} {R : α → β → Prop} {S : γ → δ → Prop} {x : Scan α} {y : Option β}

theorem some {a : α} {b : β} (h : R a b) : Agrees R (pure a : Scan α) (.some b) :=
  ⟨.some a, rfl, .some h⟩

theorem none : Agrees R (failure : Scan α) .none := ⟨.none, rfl, .none⟩

theorem run_bind_some {a : α} {f : α → Scan γ} {z : Option δ} (hx : x.run = .ok (.some a))
    (hnext : Agrees S (f a) z) : Agrees S (x >>= f) z := by
  obtain ⟨found, hf, hrel⟩ := hnext
  exact ⟨found, by rw [OptionT.run_bind, hx]; exact hf, hrel⟩

theorem run_bind_none {f : α → Scan γ} (hx : x.run = .ok .none) :
    Agrees S (x >>= f) (.none : Option δ) :=
  ⟨.none, by rw [OptionT.run_bind, hx]; rfl, .none⟩

theorem bind {f : α → Scan γ} {g : β → Option δ} (h : Agrees R x y)
    (hnext : ∀ a b, R a b → Agrees S (f a) (g b)) : Agrees S (x >>= f) (y.bind g) := by
  obtain ⟨found, hx, hrel⟩ := h
  cases hrel with
  | none => exact run_bind_none hx
  | some hab => exact run_bind_some hx (hnext _ _ hab)

theorem run_eq {found : Option α} (h : Agrees (· = ·) x found) : x.run = .ok found := by
  obtain ⟨found', hx, hrel⟩ := h
  cases hrel with
  | none => exact hx
  | some hab => rw [hx, hab]

theorem run_none (h : Agrees R x .none) : x.run = .ok .none := by
  obtain ⟨found, hx, hrel⟩ := h
  cases hrel
  exact hx

theorem run_some {b : β} (h : Agrees R x (.some b)) : ∃ a, x.run = .ok (.some a) ∧ R a b := by
  obtain ⟨found, hx, hrel⟩ := h
  cases hrel with
  | some hab => exact ⟨_, hx, hab⟩

theorem lift {e : Except Fault α} {a : α} {f : α → Scan γ} {z : Option δ} (he : e = .ok a)
    (hnext : Agrees S (f a) z) : Agrees S ((liftM e : Scan α) >>= f) z := by
  subst he
  exact hnext

end Agrees

def Cursor.Before (c : Cursor) (s : List Char) : Prop :=
  ∃ front, c.input = encode (front ++ s) ∧ c.pos = (encode front).length

/-- The value that was read, and the cursor behind it. -/
def Reads {α : Type} (read : α × Cursor) (expected : α × List Char) : Prop :=
  read.1 = expected.1 ∧ read.2.Before expected.2

namespace Cursor

variable {c : Cursor} {s : List Char}

theorem before_encode (s : List Char) : Before ⟨encode s, 0⟩ s := ⟨[], rfl, rfl⟩

theorem Before.rest_eq (h : c.Before s) : c.rest = .ok (encode s) := by
  obtain ⟨front, hinput, hpos⟩ := h
  rw [rest, hinput, hpos, sliceFrom_encode]

theorem Before.length_le (h : c.Before s) : s.length ≤ c.input.length := by
  obtain ⟨front, hinput, -⟩ := h
  have hlen := length_le_length_encode s
  rw [hinput, encode_append, List.length_append]
  omega

theorem Before.advance_append {passed : List Char} (h : c.Before (passed ++ s)) :
    (c.advance (encode passed).length).Before s := by
  obtain ⟨front, hinput, hpos⟩ := h
  refine ⟨front ++ passed, ?_, ?_⟩
  · rw [List.append_assoc]
    exact hinput
  · rw [length_encode_append, ← hpos]
    rfl

theorem Before.advance {x : Char} (h : c.Before (x :: s)) : (c.advance x.utf8Size).Before s := by
  have hpassed : c.Before ([x] ++ s) := h
  have hsize : (encode [x]).length = x.utf8Size := by
    rw [length_encode_cons]
    rfl
  rw [← hsize]
  exact hpassed.advance_append

theorem Before.peek_run (h : c.Before s) : c.peek.run = .ok s.head? := by
  have hrun : c.peek.run = c.rest.map firstChar? := by
    unfold peek
    cases c.rest with
    | ok s => rfl
    | error f => rfl
  rw [hrun, h.rest_eq, ← firstChar?_encode]
  rfl

theorem Before.skipBlanksWithin (h : c.Before s) {rounds : Nat} (hrounds : s.length < rounds) :
    ∃ c', skipBlanksWithin rounds c = .ok c' ∧ c'.Before (trimStart s) := by
  induction rounds generalizing c s with
  | zero => simp at hrounds
  | succ rounds ih =>
    have hstep : Cursor.skipBlanksWithin (rounds + 1) c = (s.head?.filter isBlank).elim (.ok c)
        fun x => Cursor.skipBlanksWithin rounds (c.advance x.utf8Size) := by
      simp only [Cursor.skipBlanksWithin, h.peek_run, bind, Except.bind]
      cases s.head?.filter isBlank <;> rfl
    rw [hstep]
    cases s with
    | nil => exact ⟨c, rfl, h⟩
    | cons x s =>
      by_cases hblank : isBlank x = true
      · simpa [Option.filter_some, hblank, trimStart] using ih h.advance (by simpa using hrounds)
      · simpa [Option.filter_some, hblank, trimStart] using h

theorem Before.skipBlanks (h : c.Before s) :
    ∃ c', c.skipBlanks = .ok c' ∧ c'.Before (trimStart s) :=
  h.skipBlanksWithin (Nat.lt_succ_of_le h.length_le)

theorem Before.blank (h : c.Before s) : Agrees Before c.blank (match s with
    | x :: s => if isBlank x then some s else none
    | [] => none) := by
  cases s with
  | nil => exact .run_bind_none h.peek_run
  | cons x s =>
    refine .run_bind_some h.peek_run ?_
    by_cases hblank : isBlank x = true
    · simpa [hblank] using .some h.advance
    · simpa [hblank] using .none

theorem Before.symbol (h : c.Before s) (x : Char) : Agrees Before (c.symbol x) (symbol? x s) := by
  cases s with
  | nil => exact .run_bind_none h.peek_run
  | cons y s =>
    refine .run_bind_some h.peek_run ?_
    by_cases hy : y = x
    · subst hy
      simpa [symbol?] using .some h.advance
    · simpa [symbol?, hy] using .none

theorem Before.number (h : c.Before s) : Agrees Reads c.number (number? s) := by
  obtain ⟨c', hskip, h'⟩ := h.skipBlanks
  have hsplit := List.takeWhile_append_dropWhile (p := Char.isDigit) (l := trimStart s)
  have hdigits : ∀ d ∈ (trimStart s).takeWhile Char.isDigit, d.isDigit = true :=
    List.all_eq_true.1 List.all_takeWhile
  have hslice := sliceTo_encode ((trimStart s).takeWhile Char.isDigit)
    ((trimStart s).dropWhile Char.isDigit)
  rw [hsplit] at hslice
  have hrest := h'.rest_eq
  rw [← hsplit] at h'
  refine .lift hskip (.lift hrest ?_)
  simp only [takeWhile_isDigit_encode, length_encode_eq_zero_iff, number?, List.isEmpty_iff]
  by_cases hnil : (trimStart s).takeWhile Char.isDigit = []
  · simpa [hnil] using .none
  · rw [if_neg hnil]
    refine .lift hrest (.lift hslice ?_)
    rw [word?_encode hdigits]
    by_cases hlarge : UInt32.size ≤ decimal ((trimStart s).takeWhile Char.isDigit)
    · simpa [hlarge] using .run_bind_none rfl
    · simp only [hlarge, hnil, or_self, if_false]
      exact .run_bind_some rfl (.some ⟨rfl, h'.advance_append⟩)

theorem Before.point (h : c.Before s) : Agrees Reads c.point (point? s) := by
  refine .bind h.number ?_
  rintro ⟨line, c₁⟩ ⟨-, s₁⟩ ⟨rfl, h₁⟩
  obtain ⟨c₂, hskip, h₂⟩ := h₁.skipBlanks
  refine .lift hskip (.bind (h₂.symbol ',') ?_)
  intro c₃ s₃ h₃
  refine .bind h₃.number ?_
  rintro ⟨column, c₄⟩ ⟨-, s₄⟩ ⟨rfl, h₄⟩
  exact .some ⟨rfl, h₄⟩

end Cursor

/-! The word before an opening -/

theorem charIndices_append (offset : Nat) (a b : List Segment) :
    charIndices offset (a ++ b) =
      charIndices offset a ++ charIndices (offset + (a.flatMap Segment.bytes).length) b := by
  induction a generalizing offset with
  | nil => simp [charIndices]
  | cons part a ih => simp [charIndices, ih, Nat.add_assoc]

theorem map_charIndices (offset : Nat) (s : List Char) :
    (charIndices offset (segments (encode s))).map Prod.snd = s := by
  rw [segments_encode]
  induction s generalizing offset with
  | nil => rfl
  | cons c s ih => simp [charIndices, ih, Segment.text, charOf_utf8EncodeChar]

theorem charIndices_word {before word : List Char} (hword : ∀ c ∈ word, isAsciiWord c = true)
    (hbefore : ∀ c ∈ before.getLast?, isAsciiWord c = false) :
    (charIndices 0 (segments (encode (before ++ word)))).reverse.takeWhile (isAsciiWord ·.2) =
      (charIndices (encode before).length (segments (encode word))).reverse := by
  have hsplit : charIndices 0 (segments (encode (before ++ word))) =
      charIndices 0 (segments (encode before)) ++
        charIndices (encode before).length (segments (encode word)) := by
    have happend := charIndices_append 0 (segments (encode before)) (segments (encode word))
    rw [segments_bytes, Nat.zero_add] at happend
    rw [← happend, segments_encode, segments_encode, segments_encode, List.map_append]
  rw [hsplit]
  refine (takeWhile_reverse (fun p hp => ?_) (fun p hp => ?_)).1
  · apply hword
    rw [← map_charIndices (encode before).length word]
    exact List.mem_map_of_mem hp
  · apply hbefore
    rw [← map_charIndices 0 before, List.getLast?_map, Option.mem_def.1 hp]
    rfl

theorem isAlpha_or_underscore {c : Char} (hc : isAsciiWord c = true) :
    (c.isAlpha || c == '_') = !c.isDigit := by
  cases hdigit : c.isDigit with
  | false => simpa [isAsciiWord, Char.isAlphanum, hdigit] using hc
  | true =>
    have hbounds := isDigit_bounds hdigit
    have hall : ∀ n ≤ 57, 48 ≤ n → ((Char.ofNat n).isAlpha || Char.ofNat n == '_') = false := by
      decide
    have hchar := hall c.toNat hbounds.2 hbounds.1
    rwa [Char.ofNat_toNat] at hchar

theorem kindBefore_agrees (front : List Char) :
    Agrees (fun bytes kind => bytes = encode kind) (kindBefore (encode front))
      (kindBefore? front.reverse) := by
  obtain ⟨before, word, hfront, hword, hbefore, hrun⟩ := exists_last_run isAsciiWord front
  subst hfront
  simp only [kindBefore, kindBefore?, charIndices_word hword hbefore, hrun, List.getLast?_reverse]
  cases word with
  | nil => exact .run_bind_none rfl
  | cons c more =>
    rw [segments_encode]
    refine .run_bind_some rfl (.lift (sliceFrom_encode _ _) ?_)
    rw [firstChar?_encode]
    cases hdigit : c.isDigit with
    | true => simpa [isAlpha_or_underscore (hword c List.mem_cons_self), hdigit] using .none
    | false => simpa [isAlpha_or_underscore (hword c List.mem_cons_self), hdigit] using .some rfl

/-! The message -/

theorem findLast_append (mark : UInt8) (a b : Bytes) : findLast mark (a ++ b) =
    match findLast mark b with
    | some i => some (a.length + i)
    | none => findLast mark a := by
  induction a with
  | nil => cases h : findLast mark b <;> simp [findLast, h]
  | cons x a ih =>
    simp only [List.cons_append, findLast, ih]
    cases findLast mark b with
    | some i => simp [Nat.add_right_comm]
    | none => rfl

theorem findLast_eq_none {mark : UInt8} {s : Bytes} (h : mark ∉ s) : findLast mark s = none := by
  induction s with
  | nil => rfl
  | cons b s ih =>
    rw [List.mem_cons, not_or] at h
    simp [findLast, ih h.2, Ne.symm h.1]

theorem findLast_utf8EncodeChar {c x : Char} (hx : x.toNat < 0x80) :
    findLast (.ofNat x.toNat) (String.utf8EncodeChar c) = if c = x then some 0 else none := by
  split
  · rename_i h
    subst h
    simp [utf8EncodeChar_ascii hx, findLast]
  · rename_i h
    exact findLast_eq_none (not_mem_utf8EncodeChar hx h)

theorem beforeLast?_cons (x c : Char) (s : List Char) : beforeLast? x (c :: s) =
    match beforeLast? x s with
    | some m => some (c :: m)
    | none => if c = x then some [] else none := by
  unfold beforeLast?
  rw [List.reverse_cons, List.dropWhile_append]
  cases hdrop : s.reverse.dropWhile (· != x) with
  | nil => by_cases hc : c = x <;> simp [hc]
  | cons y before => simp

theorem findLast_encode {x : Char} (hx : x.toNat < 0x80) (s : List Char) :
    findLast (.ofNat x.toNat) (encode s) = (beforeLast? x s).map fun m => (encode m).length := by
  induction s with
  | nil => rfl
  | cons c s ih =>
    rw [encode_cons, findLast_append, ih, beforeLast?_cons, findLast_utf8EncodeChar hx]
    cases beforeLast? x s with
    | some m => simp [length_encode_cons]
    | none => by_cases hc : c = x <;> simp [hc, encode]

/-! One opening -/

theorem parseAt_agrees (front rest : List Char) :
    Agrees (· = ·) (parseAt (encode (front ++ '(' :: '(' :: rest)) (encode front).length)
      (atOpening? front.reverse rest) := by
  have hafter : sliceFrom (encode (front ++ '(' :: '(' :: rest)) ((encode front).length + 2) =
      .ok (encode rest) := by
    have hlen : (encode (front ++ ['(', '('])).length = (encode front).length + 2 :=
      length_encode_append front ['(', '(']
    have hslice := sliceFrom_encode (front ++ ['(', '(']) rest
    rwa [hlen, List.append_assoc] at hslice
  -- Both read the same things in the same order, so one rule for each reader goes through.
  refine .lift (sliceTo_encode front _) (.bind (kindBefore_agrees front) ?_)
  rintro - kind rfl
  refine .lift hafter (.bind (Cursor.before_encode rest).point ?_)
  rintro ⟨start, c₁⟩ ⟨-, s₁⟩ ⟨rfl, h₁⟩
  obtain ⟨c₂, hskip₁, h₂⟩ := h₁.skipBlanks
  refine .lift hskip₁ (.bind (h₂.symbol '-') ?_)
  intro c₃ s₃ h₃
  refine .bind h₃.point ?_
  rintro ⟨stop, c₄⟩ ⟨-, s₄⟩ ⟨rfl, h₄⟩
  obtain ⟨c₅, hskip₂, h₅⟩ := h₄.skipBlanks
  refine .lift hskip₂ (.bind (h₅.symbol ')') ?_)
  intro c₆ s₆ h₆
  refine .bind (h₆.symbol ':') ?_
  intro c₇ s₇ h₇
  have hblank := h₇.blank
  cases s₇ with
  | nil => exact .run_bind_none hblank.run_none
  | cons blank s =>
    by_cases hb : isBlank blank = true
    · simp only [hb, if_true] at hblank ⊢
      obtain ⟨c₈, hrun, h₈⟩ := hblank.run_some
      refine .run_bind_some hrun (.lift h₈.rest_eq ?_)
      have hclose : findLast 0x29 (encode s) = _ := findLast_encode (x := ')') (by decide) s
      rw [hclose]
      cases hm : beforeLast? ')' s with
      | none => exact .run_bind_none rfl
      | some message =>
        obtain ⟨tail, rfl, -⟩ := beforeLast?_eq_some_iff.1 hm
        refine .run_bind_some rfl (.lift (sliceTo_encode message _) (.some ?_))
        simp only [String.ofBytesLossy, decodeLossy_encode]
    · simp only [hb] at hblank ⊢
      exact .run_bind_none hblank.run_none

/-! A line -/

theorem find_append_of_not_mem {first : UInt8} {mark a : Bytes} (h : first ∉ a) (s : Bytes) :
    find (first :: mark) (a ++ s) = (find (first :: mark) s).map (· + a.length) := by
  induction a with
  | nil => simp
  | cons b a ih =>
    rw [List.mem_cons, not_or] at h
    simp [find, ih h.2, h.1, Function.comp_def, Nat.add_assoc]

theorem find_opens_cons {c : Char} {s : List Char} (h : ∀ rest, ¬ OpensAt (c :: s) [] rest) :
    find opens (encode (c :: s)) = (find opens (encode s)).map (· + c.utf8Size) := by
  have hbyte : ∀ {d : Char}, d ≠ '(' → 0x28 ∉ String.utf8EncodeChar d :=
    not_mem_utf8EncodeChar (x := '(') (by decide)
  by_cases hc : c = '('
  · subst hc
    -- A single bracket: the byte behind it is the first one of another character.
    have hprefix : List.isPrefixOf [0x28] (encode s) = false := by
      cases s with
      | nil => rfl
      | cons d s =>
        have hd : d ≠ '(' := fun hd => h s (by rw [hd]; rfl)
        obtain ⟨first, more, hbytes, -⟩ := utf8EncodeChar_eq_cons d
        have hfirst : (0x28 : UInt8) ≠ first := by
          have hnot := hbyte hd
          rw [hbytes, List.mem_cons, not_or] at hnot
          exact hnot.1
        rw [encode_cons, hbytes, List.cons_append, List.isPrefixOf_cons_cons]
        simp [hfirst]
    rw [encode_cons, utf8EncodeChar_ascii (by decide), List.singleton_append]
    simp only [find, opens, List.isPrefixOf_cons_cons, hprefix, Bool.and_false]
    rfl
  · rw [encode_cons, opens, find_append_of_not_mem (hbyte hc), String.length_utf8EncodeChar]

/-- The search for an opening stops where the search for an error looks first. -/
theorem find_opens_encode (reversed s : List Char) :
    (find opens (encode s) = none ∧ inLine? reversed s = none) ∨
    ∃ front rest, OpensAt s front rest ∧ find opens (encode s) = some (encode front).length ∧
      inLine? reversed s = match atOpening? (front.reverse ++ reversed) rest with
        | some e => some e
        | none => inLine? ('(' :: (front.reverse ++ reversed)) ('(' :: rest) := by
  induction s generalizing reversed with
  | nil => exact .inl ⟨rfl, rfl⟩
  | cons c s ih =>
    by_cases hopen : ∃ rest, OpensAt (c :: s) [] rest
    · obtain ⟨rest, hopen⟩ := hopen
      obtain ⟨rfl, rfl⟩ := List.cons.inj hopen
      exact .inr ⟨[], rest, rfl, rfl, rfl⟩
    · have hno : ∀ rest, ¬ OpensAt (c :: s) [] rest := fun rest h => hopen ⟨rest, h⟩
      have hhere : atCons? reversed c s = none := by
        cases hfound : atCons? reversed c s with
        | none => rfl
        | some e =>
          obtain ⟨after, hafter, -⟩ := atCons?_eq_some_iff.1 hfound
          exact absurd hafter (hno after)
      rw [find_opens_cons hno, inLine?_cons, hhere]
      rcases ih (c :: reversed) with ⟨hfind, hline⟩ | ⟨front, rest, hlater, hfind, hline⟩
      · exact .inl ⟨by rw [hfind]; rfl, hline⟩
      · refine .inr ⟨c :: front, rest, ?_, ?_, ?_⟩
        · exact congrArg (c :: ·) hlater
        · rw [hfind, length_encode_cons, Option.map_some, Nat.add_comm]
        · simpa using hline

theorem parseLineWithin_step {line s : Bytes} {rounds start : Nat}
    (hslice : sliceFrom line start = .ok s) : parseLineWithin line (rounds + 1) start =
      match find opens s with
      | none => .ok none
      | some offset => (parseAt line (start + offset)).run >>= fun found => match found with
        | some e => .ok (some e)
        | none => parseLineWithin line rounds (start + offset + 1) := by
  rw [parseLineWithin, hslice]
  rfl

/-- Each round passes an opening, so the characters left are enough rounds. -/
theorem parseLineWithin_encode {rounds : Nat} (front s : List Char) (h : s.length < rounds) :
    parseLineWithin (encode (front ++ s)) rounds (encode front).length =
      .ok (inLine? front.reverse s) := by
  induction rounds generalizing front s with
  | zero => simp at h
  | succ rounds ih =>
    rw [parseLineWithin_step (sliceFrom_encode front s)]
    rcases find_opens_encode front.reverse s with
      ⟨hfind, hline⟩ | ⟨passed, rest, hopen, hfind, hline⟩
    · rw [hfind, hline]
    · have hsplit : front ++ s = front ++ passed ++ '(' :: '(' :: rest := by
        rw [hopen, List.append_assoc]
      have hparse := (parseAt_agrees (front ++ passed) rest).run_eq
      rw [← hsplit, length_encode_append, List.reverse_append] at hparse
      rw [hfind, hline]
      simp only [hparse]
      cases atOpening? (passed.reverse ++ front.reverse) rest with
      | some e => rfl
      | none =>
        have hlen : s.length = passed.length + (rest.length + 2) := by
          rw [hopen, List.length_append]
          rfl
        have hmore := ih (front ++ passed ++ ['(']) ('(' :: rest) (by rw [List.length_cons]; omega)
        rw [List.append_assoc (front ++ passed), List.singleton_append, ← hsplit,
          length_encode_append, length_encode_append, List.reverse_append,
          List.reverse_append] at hmore
        exact hmore

theorem parseLine_encode (line : List Char) : parseLine (encode line) = .ok (inLine? [] line) :=
  parseLineWithin_encode [] line (Nat.lt_succ_of_le (length_le_length_encode line))

/-- The scan of a text ends, with no fault, and finds what the search finds. -/
theorem scan_eq_locate (text : String) : scan text = .ok (locate text) := by
  unfold scan locate
  induction lines text.toList with
  | nil => rfl
  | cons line more ih =>
    simp only [List.map_cons, scanLines, parseLine_encode, List.findSome?_cons]
    cases inLine? [] line with
    | some e => rfl
    | none => exact ih

/-- Errors with a place are found exactly where the grammar has them: first the first line with one
counts, and in it the leftmost. The scan over the bytes finds the same and never stops with a
fault. -/
theorem locate_finds_first_error (text : String) :
    (∀ e, locate text = some e ↔ ∃ before line after, lines text.toList = before ++ line :: after ∧
      FirstError line e ∧ ∀ other ∈ before, ¬ HasError other) ∧
    ((locate text).isSome ↔ ∃ line ∈ lines text.toList, HasError line) ∧
    scan text = .ok (locate text) :=
  ⟨fun _ => locate_eq_some_iff, locate_isSome_iff, scan_eq_locate text⟩

end TraceWorkbench.ErrorScan
