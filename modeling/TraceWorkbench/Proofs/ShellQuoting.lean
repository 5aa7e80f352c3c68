import Mathlib.Data.List.Forall2
import Mathlib.Data.List.TakeWhile
import TraceWorkbench.Command
import TraceWorkbench.Text.ShellTokens

set_option autoImplicit false

/-!
# What the shell makes of quoted words

A quoted word reads back as the word, wherever it stands. So a rendered script reads back as its
assignments, its words and its redirection, and the text of a command as the command; and this is so
for the script inside the text of a command as well.
-/
namespace TraceWorkbench

namespace Quoted

open ShellText

/-- Every style that a chunk still has carries all of its characters, and there is such a style. -/
structure Chunk.Sound (k : Chunk) : Prop where
  text : k.text ≠ []
  bare : k.styles.bare = true → ∀ c ∈ k.text, isBareChar c = true
  single : k.styles.single = true → ∀ c ∈ k.text, c ≠ '\''
  double : k.styles.double = true → ∀ c ∈ k.text, isDoubleChar c = true
  styled : k.styles.isEmpty = false

theorem carrying_sound (c : Char) (hc : c ≠ '^') : (Chunk.mk [c] (carrying c)).Sound where
  text := by simp
  bare h := by simpa [carrying] using h
  single h := by
    have hs : isSingleChar c = true := h
    simp_all [isSingleChar]
  double h := by simpa [carrying] using h
  styled := by
    by_cases hq : c = '\''
    · subst hq
      rfl
    · by_cases hb : c = '\\'
      · subst hb
        rfl
      · simp [Styles.isEmpty, carrying, isSingleChar, hq, hb, hc]

theorem opening_sound (c : Char) : (Chunk.mk [c] (opening c)).Sound := by
  by_cases hc : c = '^'
  · subst hc
    exact ⟨by simp, by simp [opening], by simp, by simp [opening], rfl⟩
  · simpa [opening, hc] using carrying_sound c hc

theorem Chunk.Sound.extend {k : Chunk} (hk : k.Sound) {c : Char}
    (hc : (k.styles.inter (carrying c)).isEmpty = false) :
    (Chunk.mk (k.text ++ [c]) (k.styles.inter (carrying c))).Sound where
  text := by simp
  bare h d hd := by
    simp only [Styles.inter, carrying, Bool.and_eq_true] at h
    rcases List.mem_append.1 hd with hd | hd
    · exact hk.bare h.1 d hd
    · simpa [List.mem_singleton.1 hd] using h.2
  single h d hd := by
    simp only [Styles.inter, carrying, Bool.and_eq_true] at h
    rcases List.mem_append.1 hd with hd | hd
    · exact hk.single h.1 d hd
    · obtain rfl := List.mem_singleton.1 hd
      have hs := h.2
      simp_all [isSingleChar]
  double h d hd := by
    simp only [Styles.inter, carrying, Bool.and_eq_true] at h
    rcases List.mem_append.1 hd with hd | hd
    · exact hk.double h.1 d hd
    · simpa [List.mem_singleton.1 hd] using h.2
  styled := hc

theorem chunksFrom_sound {k : Chunk} (hk : k.Sound) (s : List Char) :
    ∀ k' ∈ chunksFrom k s, k'.Sound := by
  induction s generalizing k with
  | nil => simpa [chunksFrom] using hk
  | cons c rest ih =>
    simp only [chunksFrom]
    split
    · rw [List.forall_mem_cons]
      exact ⟨hk, ih (opening_sound c)⟩
    · rename_i hc
      exact ih (hk.extend (by simpa using hc))

theorem chunks_sound (s : List Char) : ∀ k ∈ chunks s, k.Sound := by
  cases s with
  | nil => simp [chunks]
  | cons c rest => exact chunksFrom_sound (opening_sound c) rest

def Chunk.letters (k : Chunk) : List Letter := k.text.map fun c => ⟨c, !k.styles.bare⟩

theorem not_mem_of_bare {c : Char} (hc : isBareChar c = true) {l : List Char}
    (hl : l.all (fun d => !isBareChar d) = true) : c ∉ l := by
  intro hm
  have hd := List.all_eq_true.1 hl c hm
  simp [hc] at hd

theorem stepPlain_bare {c : Char} (hc : isBareChar c = true) (w : Option (List Letter)) :
    stepPlain w c = some ([], .plain (some (w.getD [] ++ [⟨c, false⟩]))) := by
  have hblank : isBlank c = false := by
    have h : c ∉ [' ', '\t'] := not_mem_of_bare hc (by decide)
    simpa [isBlank] using h
  have hquote : c ∉ ['\'', '"', '\\'] := not_mem_of_bare hc (by decide)
  simp only [List.mem_cons, List.not_mem_nil, or_false, not_or] at hquote
  have hoperator : isOperatorChar c = false := by
    rw [isOperatorChar, List.contains_eq_mem, decide_eq_false_iff_not]
    exact not_mem_of_bare hc (by decide)
  have hactive : isActive c = false := by
    rw [isActive, List.contains_eq_mem, decide_eq_false_iff_not]
    exact not_mem_of_bare hc (by decide)
  simp [stepPlain, hblank, hquote, hoperator, hactive]

theorem feed_bare_some {s : List Char} (hs : ∀ c ∈ s, isBareChar c = true) (ls : List Letter) :
    feed (.plain (some ls)) s =
      some ([], .plain (some (ls ++ s.map fun c => ⟨c, false⟩))) := by
  induction s generalizing ls with
  | nil => simp [feed]
  | cons c rest ih =>
    rw [List.forall_mem_cons] at hs
    simp [feed, step, stepPlain_bare hs.1, ih hs.2]

theorem feed_bare {s : List Char} (hs : ∀ c ∈ s, isBareChar c = true) (hne : s ≠ [])
    (w : Option (List Letter)) :
    feed (.plain w) s = some ([], .plain (some (w.getD [] ++ s.map fun c => ⟨c, false⟩))) := by
  obtain ⟨c, rest, rfl⟩ := List.exists_cons_of_ne_nil hne
  rw [List.forall_mem_cons] at hs
  simp [feed, step, stepPlain_bare hs.1, feed_bare_some hs.2]

theorem feed_single {s : List Char} (hs : ∀ c ∈ s, c ≠ '\'') (ls : List Letter) :
    feed (.single ls) (s ++ ['\'']) =
      some ([], .plain (some (ls ++ s.map fun c => ⟨c, true⟩))) := by
  induction s generalizing ls with
  | nil => simp [feed, step]
  | cons c rest ih =>
    rw [List.forall_mem_cons] at hs
    simp [feed, step, hs.1, ih hs.2]

theorem feed_double {s : List Char} (hs : ∀ c ∈ s, isDoubleChar c = true) (ls : List Letter) :
    feed (.double ls) (escapeDouble s ++ ['"']) =
      some ([], .plain (some (ls ++ s.map fun c => ⟨c, true⟩))) := by
  induction s generalizing ls with
  | nil => simp [escapeDouble, feed, step]
  | cons c rest ih =>
    rw [List.forall_mem_cons] at hs
    have hc := hs.1
    simp only [isDoubleChar, Bool.and_eq_true, bne_iff_ne, ne_eq] at hc
    by_cases he : c = '"' ∨ c = '\\'
    · have hn : c ≠ '\n' := by rcases he with rfl | rfl <;> decide
      simp [escapeDouble, he, feed, step, hn, ih hs.2]
    · rw [not_or] at he
      simp [escapeDouble, feed, step, he, hc, ih hs.2]

theorem Chunk.Sound.feed_write {k : Chunk} (hk : k.Sound) (w : Option (List Letter)) :
    feed (.plain w) k.write = some ([], .plain (some (w.getD [] ++ k.letters))) := by
  unfold Chunk.write Chunk.letters
  split
  · rename_i hbare
    simp [feed_bare (hk.bare hbare) hk.text, hbare]
  · rename_i hbare
    split
    · rename_i hsingle
      have hopen : stepPlain w '\'' = some ([], .single (w.getD [])) := rfl
      simp [feed, step, hopen, feed_single (hk.single hsingle), hbare]
    · rename_i hsingle
      have hdouble : k.styles.double = true := by
        have hstyled := hk.styled
        simp_all [Styles.isEmpty]
      have hopen : stepPlain w '"' = some ([], .double (w.getD [])) := rfl
      simp [feed, step, hopen, feed_double (hk.double hdouble), hbare]

theorem feed_chunks {ks : List Chunk} (hks : ∀ k ∈ ks, k.Sound) (ls : List Letter) :
    feed (.plain (some ls)) (ks.flatMap Chunk.write) =
      some ([], .plain (some (ls ++ ks.flatMap Chunk.letters))) := by
  induction ks generalizing ls with
  | nil => simp [feed]
  | cons k rest ih =>
    rw [List.forall_mem_cons] at hks
    simp [feed_append, hks.1.feed_write, ih hks.2]

def letters (s : List Char) : List Letter := (chunks s).flatMap Chunk.letters

/-- A quoted word goes on with the word that it stands in, or begins one. -/
theorem feed_encode {s : List Char} (hs : '\x00' ∉ s) (w : Option (List Letter)) :
    feed (.plain w) (encode s) = some ([], .plain (some (w.getD [] ++ letters s))) := by
  cases s with
  | nil => simp [encode, feed, step, stepPlain, isBlank, letters, chunks]
  | cons c rest =>
    have hsound := chunks_sound (c :: rest)
    have hne : chunks (c :: rest) ≠ [] := by
      intro hnil
      have htext := chunks_text (c :: rest)
      simp [hnil] at htext
    obtain ⟨k, ks, hks⟩ := List.exists_cons_of_ne_nil hne
    rw [hks, List.forall_mem_cons] at hsound
    simp [encode, hs, letters, hks, feed_append, hsound.1.feed_write, feed_chunks hsound.2]

theorem letters_char (s : List Char) : (letters s).map Letter.char = s := by
  have hletters : ∀ k : Chunk, k.letters.map Letter.char = k.text := by
    intro k
    simp [Chunk.letters, Function.comp_def]
  rw [letters, List.map_flatMap]
  simp only [hletters, chunks_text]

theorem not_isSign {s : List Char} {l : Letter} (hl : l ∈ letters s) : isSign l = false := by
  obtain ⟨k, hk, hl⟩ := List.mem_flatMap.1 hl
  obtain ⟨c, hc, rfl⟩ := List.mem_map.1 hl
  cases hbare : k.styles.bare with
  | false => simp [isSign]
  | true =>
    have hchar := (chunks_sound s k hk).bare hbare c hc
    have hne : c ∉ ['='] := not_mem_of_bare hchar (by decide)
    simpa [isSign] using hne

theorem ofLetters_letters (s : List Char) : ofLetters (letters s) = .word (String.ofList s) := by
  have hdrop : (letters s).dropWhile (fun l => !isSign l) = [] := by
    rw [List.dropWhile_eq_nil_iff]
    intro l hl
    simp [not_isSign hl]
  simp [ofLetters, hdrop, textOf, letters_char]

theorem bare_of_isNameChar {c : Char} (hc : isNameChar c = true) : isBareChar c = true := by
  simp only [isNameChar, Bool.or_eq_true, beq_iff_eq] at hc
  rcases hc with hc | rfl
  · simp [isBareChar, hc]
  · decide

theorem isNameChar_of_isName {key : List Char} (hk : isName key = true) :
    ∀ c ∈ key, isNameChar c = true := by
  cases key with
  | nil => simp [isName] at hk
  | cons c rest =>
    simp only [isName, Bool.and_eq_true, List.all_eq_true] at hk
    have hc : isNameChar c = true := by
      have hstart := hk.1
      simp only [isNameStart, Bool.or_eq_true] at hstart
      rcases hstart with h | h
      · simp [isNameChar, Char.isAlphanum, h]
      · simp [isNameChar, h]
    rw [List.forall_mem_cons]
    exact ⟨hc, hk.2⟩

theorem ofLetters_assignment {key : List Char} (hk : isName key = true) (value : List Char) :
    ofLetters (key.map (fun c => ⟨c, false⟩) ++ ⟨'=', false⟩ :: letters value) =
      .assignment (String.ofList key) (String.ofList value) := by
  have hname : ∀ l ∈ key.map (fun c => Letter.mk c false), (!isSign l) = true := by
    intro l hl
    obtain ⟨c, hc, rfl⟩ := List.mem_map.1 hl
    have hbare := bare_of_isNameChar (isNameChar_of_isName hk c hc)
    have hne : c ∉ ['='] := not_mem_of_bare hbare (by decide)
    simpa [isSign] using hne
  have hsign : (!isSign ⟨'=', false⟩) = false := rfl
  have hchars : (key.map fun c => Letter.mk c false).map Letter.char = key := by
    simp [Function.comp_def]
  simp only [ofLetters, List.takeWhile_append_of_pos hname, List.dropWhile_append_of_pos hname,
    List.takeWhile_cons, List.dropWhile_cons, hsign, Bool.false_eq_true, if_false, List.append_nil,
    hchars, hk, textOf, letters_char]
  simp

theorem feed_assignment {key value : List Char} (hk : isName key = true) (hv : '\x00' ∉ value) :
    feed (.plain none) (key ++ '=' :: encode value) = some ([], .plain
      (some (key.map (fun c => ⟨c, false⟩) ++ ⟨'=', false⟩ :: letters value))) := by
  have hne : key ≠ [] := by
    rintro rfl
    simp [isName] at hk
  have hbare : ∀ c ∈ key, isBareChar c = true :=
    fun c hc => bare_of_isNameChar (isNameChar_of_isName hk c hc)
  have hsign : ∀ ls, stepPlain (some ls) '=' = some ([], .plain (some (ls ++ [⟨'=', false⟩]))) :=
    fun _ => rfl
  rw [feed_append, feed_bare hbare hne]
  simp [feed, step, hsign, feed_encode hv]

end Quoted

namespace ShellText

/-- The text ends in a word, and these are its tokens. -/
def Reads (text : List Char) (ts : List Token) : Prop :=
  ∃ out ls, feed (.plain none) text = some (out, .plain (some ls)) ∧ ts = out ++ [ofLetters ls]

theorem Reads.read {s : String} {ts : List Token} (hs : Reads s.toList ts) :
    ShellText.read s = some ts := by
  obtain ⟨out, ls, hfeed, rfl⟩ := hs
  simp [ShellText.read, hfeed, finish]

/-- What stands between two texts ends the word before it and leaves none open. -/
theorem Reads.join {a b sep : List Char} {ts us signs : List Token}
    (hsep : ∀ ls, feed (.plain (some ls)) sep = some (ofLetters ls :: signs, .plain none))
    (ha : Reads a ts) (hb : Reads b us) : Reads (a ++ sep ++ b) (ts ++ signs ++ us) := by
  obtain ⟨out, ls, hfeed, rfl⟩ := ha
  obtain ⟨out', ls', hfeed', rfl⟩ := hb
  exact ⟨out ++ ofLetters ls :: signs ++ out', ls', by simp [feed_append, hfeed, hsep, hfeed'],
    by simp⟩

theorem Reads.blank {a b : List Char} {ts us : List Token} (ha : Reads a ts) (hb : Reads b us) :
    Reads (a ++ [' '] ++ b) (ts ++ us) := by
  have hsep : ∀ ls, feed (.plain (some ls)) [' '] = some ([ofLetters ls], .plain none) :=
    fun _ => rfl
  simpa using ha.join hsep hb

theorem Reads.intercalate {ws : List String} {ts : List Token}
    (h : List.Forall₂ (fun w t => Reads w.toList [t]) ws ts) (hne : ws ≠ []) :
    Reads (" ".intercalate ws).toList ts := by
  induction h with
  | nil => exact absurd rfl hne
  | cons hw hrest ih =>
    cases hrest with
    | nil => simpa using hw
    | cons hw' hrest' =>
      rw [String.intercalate_cons_cons, String.toList_append, String.toList_append]
      exact hw.blank (ih (by simp))

end ShellText

end TraceWorkbench
