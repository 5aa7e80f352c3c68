import TraceWorkbench.Json.Writer
import TraceWorkbench.Proofs.TextBytes

set_option autoImplicit false

/-!
# The texts of a value

One value has many texts: there may be blanks around each word, and a character of a string may be
written as it is or by an escape. The members of an object stand in the order of the value. What is
written here, compact or indented, is one of the texts of the value.
-/
namespace TraceWorkbench.Json

def Padding (s : List Char) : Prop := ∀ c ∈ s, c = ' ' ∨ c = '\n' ∨ c = '\t' ∨ c = '\r'

/-- The characters with an escape of one letter, and the letter. -/
def shortEscapes : List (Char × Char) := [
  ('"', '"'), ('\\', '\\'), ('/', '/'), ('\x08', 'b'), ('\x0c', 'f'), ('\n', 'n'), ('\r', 'r'),
  ('\t', 't')]

def HexDigit (n : Nat) (c : Char) : Prop :=
  n < 16 ∧ (c = n.digitChar ∨ c = n.digitChar.toUpper)

inductive HexText : Nat → List Char → Prop where
  | digits {a b c d : Nat} {w x y z : Char} : HexDigit a w → HexDigit b x → HexDigit c y →
      HexDigit d z → HexText (0x1000 * a + 0x100 * b + 0x10 * c + d) [w, x, y, z]

/-- One character of a string. -/
inductive CharText (c : Char) : List Char → Prop where
  | plain : c ≠ '"' → c ≠ '\\' → 0x20 ≤ c.toNat → CharText c [c]
  | short {letter : Char} : (c, letter) ∈ shortEscapes → CharText c ['\\', letter]
  | code {ds : List Char} : HexText c.toNat ds → CharText c ('\\' :: 'u' :: ds)
  | pair {high low : Nat} {ds es : List Char} : HexText high ds → HexText low es →
      0xD800 ≤ high → high ≤ 0xDBFF → 0xDC00 ≤ low → low ≤ 0xDFFF →
      c.toNat = (high - 0xD800) * 0x400 + (low - 0xDC00) + 0x10000 →
      CharText c ('\\' :: 'u' :: (ds ++ '\\' :: 'u' :: es))

inductive CharsText : List Char → List Char → Prop where
  | nil : CharsText [] []
  | cons {c cs t ts} : CharText c t → CharsText cs ts → CharsText (c :: cs) (t ++ ts)

inductive StringText (s : String) : List Char → Prop where
  | quoted {t} : CharsText s.toList t → StringText s ('"' :: (t ++ ['"']))

section

variable (Spelt : Value → List Char → Prop)

inductive MemberText : String × Value → List Char → Prop where
  | named {key value before k behind lead t after} : Padding before → StringText key k →
      Padding behind → Padding lead → Spelt value t → Padding after →
      MemberText (key, value) (before ++ (k ++ (behind ++ ':' :: (lead ++ (t ++ after)))))

inductive MembersText : Members → List Char → Prop where
  | last {m t} : MemberText Spelt m t → MembersText [m] t
  | more {m ms t ts} : MemberText Spelt m t → MembersText ms ts →
      MembersText (m :: ms) (t ++ ',' :: ts)

end

/-- The texts of truth values, of strings and of objects of them. -/
inductive ValueText : Value → List Char → Prop where
  | true : ValueText (.bool true) ['t', 'r', 'u', 'e']
  | false : ValueText (.bool false) ['f', 'a', 'l', 's', 'e']
  | string {s t} : StringText s t → ValueText (.string s) t
  | empty {pad} : Padding pad → ValueText (.object []) ('\x7b' :: (pad ++ ['\x7d']))
  | object {ms t} : MembersText ValueText ms t →
      ValueText (.object ms) ('\x7b' :: (t ++ ['\x7d']))

/-- A whole document: a value and the blanks around it. -/
inductive DocumentText (v : Value) : String → Prop where
  | padded {before t after} : Padding before → ValueText v t → Padding after →
      DocumentText v (String.ofList (before ++ (t ++ after)))

section

variable {c : Char} {s : String} {v : Value} {m : String × Value} {ms : Members}

theorem padding_nil : Padding [] := by
  simp [Padding]

theorem padding_blank : Padding [' '] := by
  simp [Padding]

theorem padding_newline (depth : Nat) : Padding (newline depth) := by
  intro c hc
  rcases List.mem_cons.1 hc with rfl | hc
  · exact .inr (.inl rfl)
  · exact .inl (List.eq_of_mem_replicate hc)

theorem hexText_control (h : c.toNat < 0x20) :
    HexText c.toNat ['0', '0', (c.toNat / 16).digitChar, (c.toNat % 16).digitChar] := by
  have hzero : HexDigit 0 '0' := ⟨by decide, .inl rfl⟩
  have hhigh : HexDigit (c.toNat / 16) (c.toNat / 16).digitChar := ⟨by omega, .inl rfl⟩
  have hlow : HexDigit (c.toNat % 16) (c.toNat % 16).digitChar := ⟨by omega, .inl rfl⟩
  have htext := HexText.digits hzero hzero hhigh hlow
  have hsum : 0x1000 * 0 + 0x100 * 0 + 0x10 * (c.toNat / 16) + c.toNat % 16 = c.toNat := by
    omega
  rwa [hsum] at htext

theorem charText_escapedChar (c : Char) : CharText c (escapedChar c) := by
  unfold escapedChar
  split_ifs with hquote hslash _ _ _ _ _ hcontrol
  iterate 7
    · subst c
      exact .short (by decide)
  · exact .code (hexText_control hcontrol)
  · exact .plain hquote hslash (Nat.le_of_not_lt hcontrol)

theorem charsText_escaped (cs : List Char) : CharsText cs (cs.flatMap escapedChar) := by
  induction cs with
  | nil => exact .nil
  | cons c cs ih => exact .cons (charText_escapedChar c) ih

theorem stringText_quoted (s : String) : StringText s (quoted s) :=
  .quoted (charsText_escaped s.toList)

structure Written (v : Value) : Prop where
  compact : ValueText v v.compact
  indented : ∀ depth, ValueText v (v.indented depth)

theorem written_string (s : String) : Written (.string s) :=
  ⟨.string (stringText_quoted s), fun _ => .string (stringText_quoted s)⟩

theorem written_bool (b : Bool) : Written (.bool b) := by
  cases b with
  | true => exact ⟨.true, fun _ => .true⟩
  | false => exact ⟨.false, fun _ => .false⟩

theorem membersText_compact (h : ∀ n ∈ m :: ms, Written n.2) :
    MembersText ValueText (m :: ms) (quoted m.1 ++ ':' :: m.2.compact ++ compactMembers ms) := by
  induction ms generalizing m with
  | nil =>
    have hm := MemberText.named padding_nil (stringText_quoted m.1) padding_nil padding_nil
      (h m List.mem_cons_self).compact padding_nil
    simpa [compactMembers] using MembersText.last hm
  | cons n ms ih =>
    have hm := MemberText.named padding_nil (stringText_quoted m.1) padding_nil padding_nil
      (h m List.mem_cons_self).compact padding_nil
    have hmore := @ih n fun n hn => h n (List.mem_cons_of_mem _ hn)
    simpa [compactMembers] using MembersText.more hm hmore

theorem membersText_indented (depth : Nat) {after : List Char} (hafter : Padding after)
    (h : ∀ n ∈ m :: ms, Written n.2) :
    MembersText ValueText (m :: ms) (newline depth ++ quoted m.1 ++ ':' :: ' ' ::
      m.2.indented depth ++ indentedMembers depth ms ++ after) := by
  induction ms generalizing m with
  | nil =>
    have hm := MemberText.named (padding_newline depth) (stringText_quoted m.1) padding_nil
      padding_blank ((h m List.mem_cons_self).indented depth) hafter
    simpa [indentedMembers] using MembersText.last hm
  | cons n ms ih =>
    have hm := MemberText.named (padding_newline depth) (stringText_quoted m.1) padding_nil
      padding_blank ((h m List.mem_cons_self).indented depth) padding_nil
    have hmore := @ih n fun n hn => h n (List.mem_cons_of_mem _ hn)
    simpa [indentedMembers] using MembersText.more hm hmore

theorem written_object (h : ∀ m ∈ ms, Written m.2) : Written (.object ms) := by
  cases ms with
  | nil => exact ⟨.empty padding_nil, fun _ => .empty padding_nil⟩
  | cons m ms =>
    constructor
    · have htext := ValueText.object (membersText_compact h)
      simpa [Value.compact] using htext
    · intro depth
      have htext := ValueText.object
        (membersText_indented (depth + 1) (padding_newline depth) h)
      simpa [Value.indented] using htext

theorem documentText_of_valueText {t : List Char} (h : ValueText v t) :
    DocumentText v (String.ofList t) := by
  simpa using DocumentText.padded padding_nil h padding_nil

theorem Written.text (h : Written v) : DocumentText v v.text :=
  documentText_of_valueText h.compact

theorem Written.indentedText (h : Written v) : DocumentText v v.indentedText :=
  documentText_of_valueText (h.indented 0)

end

end TraceWorkbench.Json
