set_option autoImplicit false

/-!
# UTF-8

A byte stream is cut into segments: characters, faulty runs and possibly one cut-off character at
the end. The segments' bytes always add up to the stream (`segments_bytes`). Lossy decoding writes
one U+FFFD for each faulty run and for a cut-off end.
-/
namespace TraceWorkbench

abbrev Bytes := List UInt8

namespace Utf8

structure Range where
  low : UInt8
  high : UInt8
  deriving DecidableEq, Repr

def Range.contains (r : Range) (b : UInt8) : Bool := r.low ≤ b && b ≤ r.high

def tail : Range := ⟨0x80, 0xBF⟩

/-- What a first byte asks of the bytes after it; `none` if no character starts with it. -/
def expected (b : UInt8) : Option (List Range) :=
  if b ≤ 0x7F then some []
  else if b ≤ 0xC1 then none
  else if b ≤ 0xDF then some [tail]
  else if b = 0xE0 then some [⟨0xA0, 0xBF⟩, tail]
  else if b = 0xED then some [⟨0x80, 0x9F⟩, tail]
  else if b ≤ 0xEF then some [tail, tail]
  else if b = 0xF0 then some [⟨0x90, 0xBF⟩, tail, tail]
  else if b ≤ 0xF3 then some [tail, tail, tail]
  else if b = 0xF4 then some [⟨0x80, 0x8F⟩, tail, tail]
  else none

def charOf : Bytes → Char
  | [a] => Char.ofNat a.toNat
  | [a, b] => Char.ofNat ((a.toNat % 0x20) * 0x40 + b.toNat % 0x40)
  | [a, b, c] => Char.ofNat ((a.toNat % 0x10) * 0x1000 + (b.toNat % 0x40) * 0x40 + c.toNat % 0x40)
  | [a, b, c, d] =>
    Char.ofNat ((a.toNat % 8) * 0x40000 + (b.toNat % 0x40) * 0x1000 + (c.toNat % 0x40) * 0x40 +
      d.toNat % 0x40)
  | _ => '\uFFFD'

inductive Segment where
  | char (bytes : Bytes)
  /-- The longest start of a character at a place where its next byte is wrong. -/
  | fault (bytes : Bytes)
  /-- A proper start of a character at the end of the stream. -/
  | cut (bytes : Bytes)
  deriving DecidableEq, Repr

def Segment.bytes : Segment → Bytes
  | .char b | .fault b | .cut b => b

def Segment.text : Segment → Char
  | .char b => charOf b
  | .fault _ | .cut _ => '\uFFFD'

/-- Goes on after the bytes `seen` of a character that still lacks `need`. -/
def segmentsFrom (seen : Bytes) (need : List Range) : Bytes → List Segment
  | [] => if seen.isEmpty then [] else [.cut seen]
  | b :: rest =>
    match need with
    | r :: more =>
      if r.contains b then
        if more.isEmpty then .char (seen ++ [b]) :: segmentsFrom [] [] rest
        else segmentsFrom (seen ++ [b]) more rest
      else
        .fault seen ::
          match expected b with
          | none => .fault [b] :: segmentsFrom [] [] rest
          | some [] => .char [b] :: segmentsFrom [] [] rest
          | some need => segmentsFrom [b] need rest
    | [] =>
      match expected b with
      | none => .fault [b] :: segmentsFrom [] [] rest
      | some [] => .char [b] :: segmentsFrom [] [] rest
      | some need => segmentsFrom [b] need rest

def segments (s : Bytes) : List Segment := segmentsFrom [] [] s

theorem segmentsFrom_bytes (s seen : Bytes) (need : List Range) (h : need = [] → seen = []) :
    (segmentsFrom seen need s).flatMap Segment.bytes = seen ++ s := by
  induction s generalizing seen need with
  | nil => cases seen <;> simp [segmentsFrom, Segment.bytes]
  | cons b rest ih =>
    have fresh : (match expected b with
          | none => Segment.fault [b] :: segmentsFrom [] [] rest
          | some [] => Segment.char [b] :: segmentsFrom [] [] rest
          | some need => segmentsFrom [b] need rest).flatMap Segment.bytes = b :: rest := by
      split
      · simp [Segment.bytes, ih]
      · simp [Segment.bytes, ih]
      · rename_i need' hn _
        rw [ih [b] need' (fun h0 => by subst h0; exact absurd rfl hn)]
        rfl
    match need with
    | [] => simp [segmentsFrom, fresh, h rfl]
    | r :: more =>
      simp only [segmentsFrom]
      split
      · split
        · simp [Segment.bytes, ih]
        · rename_i hm
          rw [ih _ _ (fun h0 => by simp [h0] at hm)]
          simp
      · rw [List.flatMap_cons, fresh]
        simp [Segment.bytes]

theorem segments_bytes (s : Bytes) : (segments s).flatMap Segment.bytes = s :=
  segmentsFrom_bytes s [] [] (fun _ => rfl)

/-- Lossy decoding: one U+FFFD for each faulty run and for a cut-off end. -/
def decodeLossy (s : Bytes) : List Char := (segments s).map Segment.text

def Segment.isChar : Segment → Bool
  | .char _ => true
  | _ => false

def decode? (s : Bytes) : Option (List Char) :=
  let parts := segments s
  if parts.all Segment.isChar then some (parts.map Segment.text) else none

def encode (s : List Char) : Bytes := s.flatMap String.utf8EncodeChar

/-- Splits the bytes read so far into what can be decoded now and what is held back.

Only a cut-off character behind nothing but whole characters is held back; once the bytes hold a
faulty run, all of them are decoded. -/
def decodable (s : Bytes) : Bytes × Bytes :=
  match (segments s).dropWhile Segment.isChar with
  | [.cut rest] => (s.take (s.length - rest.length), rest)
  | _ => (s, [])

theorem decodable_append (s : Bytes) : (decodable s).1 ++ (decodable s).2 = s := by
  unfold decodable
  split
  · rename_i rest h
    have hs := segments_bytes s
    rw [← List.takeWhile_append_dropWhile (p := Segment.isChar) (l := segments s), h] at hs
    simp only [List.flatMap_append, List.flatMap_cons, List.flatMap_nil, Segment.bytes,
      List.append_nil] at hs
    rw [← hs]
    simp
  · simp

end Utf8

end TraceWorkbench

def String.utf8Bytes (s : String) : TraceWorkbench.Bytes := TraceWorkbench.Utf8.encode s.toList

def String.ofBytesLossy (s : TraceWorkbench.Bytes) : String :=
  String.ofList (TraceWorkbench.Utf8.decodeLossy s)

def String.ofBytes? (s : TraceWorkbench.Bytes) : Option String :=
  (TraceWorkbench.Utf8.decode? s).map String.ofList
