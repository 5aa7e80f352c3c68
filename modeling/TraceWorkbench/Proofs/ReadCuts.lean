import TraceWorkbench.Proofs.TextBytes
import TraceWorkbench.Simulation.Pump

set_option autoImplicit false

/-!
# Streams that are cut into reads

A pump decodes a stream read by read. What it holds back at the end of a read is decoded with the
next one, so a cut inside a character does no harm. Once a read has met a fault, however, nothing is
held back: a character that is cut there is lost, and its bytes are shown as more faults than the
stream has.
-/
namespace TraceWorkbench

namespace Utf8

theorem expected_inTail (b : UInt8) : ∀ r ∈ (expected b).getD [], r.InTail := by
  unfold expected Range.InTail
  split_ifs <;> decide

section

variable {seen rest : Bytes} {need more : List Range} {r : Range} {b : UInt8}

theorem segmentsFrom_last (hb : r.contains b = true) :
    segmentsFrom seen [r] (b :: rest) = .char (seen ++ [b]) :: segments rest := by
  simp [segments, segmentsFrom, hb]

theorem segmentsFrom_next (hb : r.contains b = true) (hmore : more ≠ []) :
    segmentsFrom seen (r :: more) (b :: rest) = segmentsFrom (seen ++ [b]) more rest := by
  simp [segmentsFrom, hb, hmore]

theorem segmentsFrom_fault (hb : r.contains b ≠ true) :
    segmentsFrom seen (r :: more) (b :: rest) = .fault seen :: segments (b :: rest) := by
  simp [segments, segmentsFrom, hb]

theorem segments_stray (hb : expected b = none) :
    segments (b :: rest) = .fault [b] :: segments rest := by
  simp [segments, segmentsFrom, hb]

theorem segments_single (hb : expected b = some []) :
    segments (b :: rest) = .char [b] :: segments rest := by
  simp [segments, segmentsFrom, hb]

theorem segments_first (hb : expected b = some (r :: more)) :
    segments (b :: rest) = segmentsFrom [b] (r :: more) rest := by
  simp [segments, segmentsFrom, hb]

theorem segmentsFrom_nil (seen : Bytes) (need : List Range) :
    segmentsFrom seen need [] = if seen = [] then [] else [.cut seen] := by
  simp [segmentsFrom]

end

/-- Where decoding stands: behind the bytes `seen` of a character, or between two characters. -/
structure Underway (seen : Bytes) (need : List Range) : Prop where
  reached : ∀ rest, segments (seen ++ rest) = segmentsFrom seen need rest
  fresh : seen = [] ↔ need = []
  inTail : ∀ r ∈ need, r.InTail

theorem underway_start : Underway [] [] := ⟨fun _ => rfl, by simp, by simp⟩

/-- A segment that does not depend on what comes after it. Only a character stands for itself
wherever its bytes are met. -/
def Segment.Settled : Segment → Prop
  | .char b => ∀ rest, segments (b ++ rest) = .char b :: segments rest
  | .fault _ => True
  | .cut _ => False

def AllSettled (parts : List Segment) : Prop := ∀ p ∈ parts, p.Settled

theorem allSettled_nil : AllSettled [] := by simp [AllSettled]

theorem AllSettled.cons {p : Segment} {parts : List Segment} (hp : p.Settled)
    (hparts : AllSettled parts) : AllSettled (p :: parts) := List.forall_mem_cons.2 ⟨hp, hparts⟩

theorem AllSettled.append {parts more : List Segment} (hp : AllSettled parts)
    (hm : AllSettled more) : AllSettled (parts ++ more) := List.forall_mem_append.2 ⟨hp, hm⟩

theorem AllSettled.no_cut {parts : List Segment} (hp : AllSettled parts) (t : Bytes) :
    Segment.cut t ∉ parts := fun h => hp _ h

theorem AllSettled.segments_chars {parts : List Segment} (hp : AllSettled parts)
    (hchars : ∀ p ∈ parts, p.isChar = true) (rest : Bytes) :
    segments (parts.flatMap Segment.bytes ++ rest) = parts ++ segments rest := by
  induction parts with
  | nil => rfl
  | cons p parts ih =>
    have htail := ih (fun q hq => hp q (List.mem_cons_of_mem p hq))
      (fun q hq => hchars q (List.mem_cons_of_mem p hq))
    have hhead := hp p List.mem_cons_self
    have hchar := hchars p List.mem_cons_self
    cases p with
    | char b =>
      rw [List.flatMap_cons, List.append_assoc, Segment.bytes, hhead, htail]
      rfl
    | fault b => simp [Segment.isChar] at hchar
    | cut b => simp [Segment.isChar] at hchar

theorem segments_byte (b : UInt8) : ∃ parts seen need, Underway seen need ∧ AllSettled parts ∧
    ∀ rest, segments (b :: rest) = parts ++ segmentsFrom seen need rest := by
  cases he : expected b with
  | none =>
    exact ⟨[.fault [b]], [], [], underway_start, .cons trivial allSettled_nil,
      fun _ => segments_stray he⟩
  | some need =>
    cases need with
    | nil =>
      exact ⟨[.char [b]], [], [], underway_start,
        .cons (fun _ => segments_single he) allSettled_nil, fun _ => segments_single he⟩
    | cons r more =>
      have htail := expected_inTail b
      rw [he] at htail
      exact ⟨[], [b], r :: more, ⟨fun _ => segments_first he, by simp, htail⟩, allSettled_nil,
        fun _ => segments_first he⟩

namespace Underway

variable {seen : Bytes} {need : List Range}

theorem next {r : Range} {more : List Range} (hu : Underway seen (r :: more)) {b : UInt8}
    (hb : r.contains b = true) (hmore : more ≠ []) : Underway (seen ++ [b]) more where
  reached rest := by
    rw [List.append_assoc, hu.reached]
    exact segmentsFrom_next hb hmore
  fresh := by simp [hmore]
  inTail r' hr' := hu.inTail r' (List.mem_cons_of_mem r hr')

/-- A byte settles some segments and leads on. -/
theorem step (hu : Underway seen need) (b : UInt8) : ∃ parts seen' need', Underway seen' need' ∧
    AllSettled parts ∧
    ∀ rest, segmentsFrom seen need (b :: rest) = parts ++ segmentsFrom seen' need' rest := by
  cases need with
  | nil =>
    obtain rfl := hu.fresh.2 rfl
    exact segments_byte b
  | cons r more =>
    by_cases hb : r.contains b = true
    · by_cases hmore : more = []
      · subst hmore
        have hchar : Segment.Settled (.char (seen ++ [b])) := by
          intro rest
          rw [List.append_assoc, hu.reached]
          exact segmentsFrom_last hb
        exact ⟨[.char (seen ++ [b])], [], [], underway_start, .cons hchar allSettled_nil,
          fun rest => segmentsFrom_last hb⟩
      · exact ⟨[], seen ++ [b], more, hu.next hb hmore, allSettled_nil,
          fun rest => segmentsFrom_next hb hmore⟩
    · obtain ⟨parts, seen', need', hu', hparts, hnext⟩ := segments_byte b
      refine ⟨.fault seen :: parts, seen', need', hu', .cons trivial hparts, fun rest => ?_⟩
      rw [segmentsFrom_fault hb, hnext, List.cons_append]

theorem run (hu : Underway seen need) (a : Bytes) : ∃ parts seen' need', Underway seen' need' ∧
    AllSettled parts ∧
    ∀ rest, segmentsFrom seen need (a ++ rest) = parts ++ segmentsFrom seen' need' rest := by
  induction a generalizing seen need with
  | nil => exact ⟨[], seen, need, hu, allSettled_nil, fun _ => rfl⟩
  | cons b a ih =>
    obtain ⟨parts, seen₁, need₁, hu₁, hparts, hfirst⟩ := hu.step b
    obtain ⟨more, seen₂, need₂, hu₂, hmore, hrest⟩ := ih hu₁
    refine ⟨parts ++ more, seen₂, need₂, hu₂, hparts.append hmore, fun rest => ?_⟩
    rw [List.cons_append, hfirst, hrest, List.append_assoc]

/-- To begin anew in the middle of a character saves at most the segment that was begun. -/
theorem length_le (hu : Underway seen need) (hneed : need ≠ []) (s : Bytes) :
    (segmentsFrom seen need s).length ≤ (segments s).length + 1 := by
  induction s generalizing seen need with
  | nil =>
    rw [segmentsFrom_nil]
    split <;> simp [segments, segmentsFrom]
  | cons b s ih =>
    cases need with
    | nil => exact absurd rfl hneed
    | cons r more =>
      by_cases hb : r.contains b = true
      · rw [segments_stray (expected_of_contains (hu.inTail r List.mem_cons_self) hb)]
        by_cases hmore : more = []
        · subst hmore
          simp [segmentsFrom_last hb]
        · have hle := ih (hu.next hb hmore) hmore
          rw [segmentsFrom_next hb hmore, List.length_cons]
          omega
      · simp [segmentsFrom_fault hb]

theorem length_lt {r : Range} {more : List Range} (hu : Underway seen (r :: more)) {b : UInt8}
    (hb : r.contains b = true) (s : Bytes) :
    (segmentsFrom seen (r :: more) (b :: s)).length < (segments (b :: s)).length + 1 := by
  rw [segments_stray (expected_of_contains (hu.inTail r List.mem_cons_self) hb)]
  by_cases hmore : more = []
  · subst hmore
    simp [segmentsFrom_last hb]
  · have hle := (hu.next hb hmore).length_le hmore s
    rw [segmentsFrom_next hb hmore, List.length_cons]
    omega

end Underway

/-- A byte goes on with a cut-off character. -/
def GoesOn (t : Bytes) (x : UInt8) : Prop := ∃ whole, segments (t ++ [x]) = [whole]

theorem Underway.goesOn_iff {t : Bytes} {r : Range} {more : List Range}
    (hu : Underway t (r :: more)) (x : UInt8) : GoesOn t x ↔ r.contains x = true := by
  unfold GoesOn
  rw [hu.reached]
  constructor
  · rintro ⟨whole, hwhole⟩
    by_contra hx
    have hne : segments [x] ≠ [] := by
      intro hempty
      have hbytes := segments_bytes [x]
      rw [hempty] at hbytes
      simp at hbytes
    rw [segmentsFrom_fault hx] at hwhole
    exact hne (List.cons.inj hwhole).2
  · intro hx
    by_cases hmore : more = []
    · subst hmore
      exact ⟨_, segmentsFrom_last hx⟩
    · exact ⟨.cut (t ++ [x]), by rw [segmentsFrom_next hx hmore, segmentsFrom_nil]; simp⟩

theorem segments_cases (a : Bytes) : ∃ parts, AllSettled parts ∧
    ((segments a = parts ∧ ∀ b, segments (a ++ b) = parts ++ segments b) ∨
      ∃ t r more, Underway t (r :: more) ∧ segments a = parts ++ [.cut t] ∧
        ∀ b, segments (a ++ b) = parts ++ segmentsFrom t (r :: more) b) := by
  obtain ⟨parts, seen, need, hu, hparts, hrun⟩ := underway_start.run a
  have hend : segments a = parts ++ if seen = [] then [] else [.cut seen] := by
    have hempty := hrun []
    rwa [List.append_nil, segmentsFrom_nil] at hempty
  refine ⟨parts, hparts, ?_⟩
  cases need with
  | nil =>
    obtain rfl := hu.fresh.2 rfl
    exact .inl ⟨by simpa using hend, hrun⟩
  | cons r more =>
    have hseen : seen ≠ [] := fun h => absurd (hu.fresh.1 h) (by simp)
    rw [if_neg hseen] at hend
    exact .inr ⟨seen, r, more, hu, hend, hrun⟩

/-- A stream is severed in the middle of a character. -/
def Severed (a b : Bytes) : Prop :=
  ∃ parts t x, segments a = parts ++ [.cut t] ∧ b.head? = some x ∧ GoesOn t x

theorem AllSettled.not_severed {a : Bytes} (ha : AllSettled (segments a)) (b : Bytes) :
    ¬ Severed a b := by
  rintro ⟨parts, t, x, ht, -⟩
  exact ha.no_cut t (by simp [ht])

/-- Decoding two parts of a stream apart shows as much as decoding both together, unless the stream
is severed between them; then it shows more. -/
theorem decodeLossy_append (a b : Bytes) :
    (¬ Severed a b → decodeLossy (a ++ b) = decodeLossy a ++ decodeLossy b) ∧
      (Severed a b → (decodeLossy (a ++ b)).length < (decodeLossy a ++ decodeLossy b).length) := by
  obtain ⟨parts, hparts, ⟨ha, hab⟩ | ⟨t, r, more, hu, ha, hab⟩⟩ := segments_cases a
  · have hnot : ¬ Severed a b := AllSettled.not_severed (ha ▸ hparts) b
    exact ⟨fun _ => by simp [decodeLossy, hab, ha], fun h => absurd h hnot⟩
  · have hsevered : Severed a b ↔ ∃ x, b.head? = some x ∧ r.contains x = true := by
      constructor
      · rintro ⟨front, t', x, ht', hx, hgoes⟩
        have hsame := (List.append_inj' (ha.symm.trans ht') rfl).2
        obtain rfl : t = t' := by simpa using hsame
        exact ⟨x, hx, (hu.goesOn_iff x).1 hgoes⟩
      · rintro ⟨x, hx, hr⟩
        exact ⟨parts, t, x, ha, hx, (hu.goesOn_iff x).2 hr⟩
    have ht : t ≠ [] := fun h => absurd (hu.fresh.1 h) (by simp)
    rw [hsevered]
    unfold decodeLossy
    rw [hab, ha]
    cases b with
    | nil => exact ⟨fun _ => by simp [segmentsFrom_nil, ht, segments], by simp⟩
    | cons x b =>
      by_cases hx : r.contains x = true
      · have hlt := hu.length_lt hx b
        refine ⟨fun h => absurd ⟨x, rfl, hx⟩ h, fun _ => ?_⟩
        simp only [List.length_map, List.length_append, List.length_singleton]
        omega
      · constructor
        · intro _
          simp [segmentsFrom_fault hx, Segment.text]
        · rintro ⟨y, hy, hr⟩
          exact absurd (Option.some.inj hy ▸ hr) hx

theorem length_decodeLossy_append_le (a b : Bytes) :
    (decodeLossy (a ++ b)).length ≤ (decodeLossy a ++ decodeLossy b).length := by
  by_cases h : Severed a b
  · exact Nat.le_of_lt ((decodeLossy_append a b).2 h)
  · exact Nat.le_of_eq (congrArg List.length ((decodeLossy_append a b).1 h))

theorem decodable_cases (s : Bytes) :
    (∃ parts t, segments s = parts ++ [.cut t] ∧ (∀ p ∈ parts, p.isChar = true) ∧
      decodable s = (parts.flatMap Segment.bytes, t)) ∨
    decodable s = (s, []) ∧
      ∀ parts t, segments s = parts ++ [.cut t] → ∃ p ∈ parts, p.isChar = false := by
  by_cases hheld : ∃ parts t, segments s = parts ++ [.cut t] ∧ ∀ p ∈ parts, p.isChar = true
  · obtain ⟨parts, t, hs, hchars⟩ := hheld
    have hdrop : (segments s).dropWhile Segment.isChar = [.cut t] := by
      rw [hs, List.dropWhile_append_of_pos hchars]
      rfl
    have hbytes := segments_bytes s
    rw [hs, List.flatMap_append] at hbytes
    refine .inl ⟨parts, t, hs, hchars, ?_⟩
    unfold decodable
    rw [hdrop]
    simp only [← hbytes]
    simp [Segment.bytes]
  · refine .inr ⟨?_, fun parts t hs => ?_⟩
    · unfold decodable
      split
      · rename_i rest hdrop
        have hs := List.takeWhile_append_dropWhile (p := Segment.isChar) (l := segments s)
        rw [hdrop] at hs
        exact absurd ⟨_, rest, hs.symm, List.all_eq_true.1 List.all_takeWhile⟩ hheld
      · rfl
    · by_contra hnone
      refine hheld ⟨parts, t, hs, fun p hp => ?_⟩
      by_contra hp'
      exact hnone ⟨p, hp, by simpa using hp'⟩

/-- A read ends inside a character although the bytes at hand hold a fault, and what is read later
goes on with that character. -/
def Torn (held later : Bytes) : Prop :=
  ∃ parts t x, segments held = parts ++ [.cut t] ∧ (∃ p ∈ parts, p.isChar = false) ∧
    later.head? = some x ∧ GoesOn t x

theorem AllSettled.of_cut {held t : Bytes} {parts : List Segment}
    (ht : segments held = parts ++ [.cut t]) : AllSettled parts := by
  obtain ⟨parts', hparts', ⟨hall, -⟩ | ⟨t', r, more, -, hall, -⟩⟩ := segments_cases held
  · have hmem : Segment.cut t ∈ parts' := by simp [← hall, ht]
    exact absurd hmem (hparts'.no_cut t)
  · rw [(List.append_inj' (ht.symm.trans hall) rfl).1]
    exact hparts'

theorem decodeLossy_held {held t : Bytes} {parts : List Segment}
    (ht : segments held = parts ++ [.cut t]) (hchars : ∀ p ∈ parts, p.isChar = true)
    (later : Bytes) :
    decodeLossy (held ++ later) =
      decodeLossy (parts.flatMap Segment.bytes) ++ decodeLossy (t ++ later) := by
  have hsettled := AllSettled.of_cut ht
  have hbytes : held = parts.flatMap Segment.bytes ++ t := by
    have hall := segments_bytes held
    rw [ht, List.flatMap_append] at hall
    simpa [Segment.bytes] using hall.symm
  have hfront : segments (parts.flatMap Segment.bytes) = parts := by
    have hempty := hsettled.segments_chars hchars []
    have hnil : segments [] = [] := rfl
    rwa [List.append_nil, hnil, List.append_nil] at hempty
  unfold decodeLossy
  rw [hbytes, List.append_assoc, hsettled.segments_chars hchars, hfront, List.map_append]

theorem not_torn_of_chars {held t : Bytes} {parts : List Segment}
    (ht : segments held = parts ++ [.cut t]) (hchars : ∀ p ∈ parts, p.isChar = true)
    (later : Bytes) : ¬ Torn held later := by
  rintro ⟨parts', t', x, ht', ⟨p, hp, hfault⟩, -⟩
  rw [← (List.append_inj' (ht.symm.trans ht') rfl).1] at hp
  simp [hchars p hp] at hfault

/-- One read: what is decoded now and `rest`, which is shown of all that is held back and comes
later, make up the whole just if the read is not torn and `rest` is all that there is to show. -/
theorem decodeLossy_decodable (held later : Bytes) (rest : List Char)
    (hle : (decodeLossy ((decodable held).2 ++ later)).length ≤ rest.length) :
    (decodeLossy (held ++ later)).length ≤ (decodeLossy (decodable held).1 ++ rest).length ∧
      (decodeLossy (decodable held).1 ++ rest = decodeLossy (held ++ later) ↔
        ¬ Torn held later ∧ rest = decodeLossy ((decodable held).2 ++ later)) := by
  rcases decodable_cases held with ⟨parts, t, ht, hchars, hd⟩ | ⟨hd, hfault⟩
  · simp only [hd] at hle ⊢
    have huntorn := not_torn_of_chars ht hchars later
    rw [decodeLossy_held ht hchars]
    refine ⟨?_, by simp [huntorn]⟩
    simp only [List.length_append]
    omega
  · simp only [hd, List.nil_append] at hle ⊢
    have htorn : Torn held later ↔ Severed held later := by
      constructor
      · rintro ⟨parts, t, x, ht, -, hx⟩
        exact ⟨parts, t, x, ht, hx⟩
      · rintro ⟨parts, t, x, ht, hx⟩
        exact ⟨parts, t, x, ht, hfault parts t ht, hx⟩
    have hshorter := length_decodeLossy_append_le held later
    rw [List.length_append] at hshorter
    refine ⟨by rw [List.length_append]; omega, ?_⟩
    rw [htorn]
    by_cases hsevered : Severed held later
    · -- more would be shown than there is
      have hlt := (decodeLossy_append held later).2 hsevered
      rw [List.length_append] at hlt
      refine ⟨fun heq => ?_, fun h => absurd hsevered h.1⟩
      have hlength := congrArg List.length heq
      rw [List.length_append] at hlength
      omega
    · rw [(decodeLossy_append held later).1 hsevered]
      simp [hsevered]

/-- Text that is UTF-8 holds no fault, so no read of it is torn, and what is held back is the start
of such text again. -/
theorem chars_decodable {held later : Bytes}
    (hchars : ∀ p ∈ segments (held ++ later), p.isChar = true) :
    ¬ Torn held later ∧ ∀ p ∈ segments ((decodable held).2 ++ later), p.isChar = true := by
  obtain ⟨parts, hparts, ⟨hheld, hall⟩ | ⟨t, r, more, hu, hheld, hall⟩⟩ := segments_cases held
  · have hcut : ∀ {front t}, segments held ≠ front ++ [.cut t] := by
      intro front t ht
      exact hparts.no_cut t (by simp [← hheld, ht])
    have hd : decodable held = (held, []) := by
      rcases decodable_cases held with ⟨front, t, ht, -⟩ | ⟨hd, -⟩
      · exact absurd ht hcut
      · exact hd
    rw [hall, List.forall_mem_append] at hchars
    simp only [hd, List.nil_append]
    exact ⟨fun ⟨front, t, x, ht, _⟩ => hcut ht, hchars.2⟩
  · rw [hall, List.forall_mem_append] at hchars
    have hd : (decodable held).2 = t := by
      rcases decodable_cases held with ⟨front, t', ht', -, hd⟩ | ⟨-, hfault⟩
      · have hsame := (List.append_inj' (hheld.symm.trans ht') rfl).2
        simpa [hd] using hsame.symm
      · obtain ⟨p, hp, hp'⟩ := hfault parts t hheld
        simp [hchars.1 p hp] at hp'
    rw [hd, hu.reached]
    exact ⟨not_torn_of_chars hheld hchars.1 later, hchars.2⟩

end Utf8

namespace Simulation.Pump

open Utf8

/-- The pump after some reads. -/
def after (p : Pump) (reads : List Bytes) : Pump := reads.foldl (fun p piece => (p.feed piece).1) p

/-- All that is passed on of a stream: read by read, and what still waits at its end. -/
def drain (p : Pump) : List Bytes → List Chunk
  | [] => p.close.2
  | piece :: more => (p.feed piece).2 ++ drain (p.feed piece).1 more

def shown (cs : List Chunk) : List Char := cs.flatMap fun c => c.text.toList

theorem shown_append (cs ds : List Chunk) : shown (cs ++ ds) = shown cs ++ shown ds :=
  List.flatMap_append

theorem shown_feed (p : Pump) (piece : Bytes) :
    shown (p.feed piece).2 = decodeLossy (decodable (p.pending ++ piece)).1 := by
  simp only [feed]
  split
  · rename_i hempty
    simpa [shown, String.ofBytesLossy] using hempty.symm
  · simp [shown, String.ofBytesLossy]

theorem shown_close (p : Pump) : shown p.close.2 = decodeLossy p.pending := by
  simp only [close]
  split
  · rename_i hempty
    rw [List.isEmpty_iff.1 hempty]
    rfl
  · simp [shown, String.ofBytesLossy]

/-- None of the reads is torn from what comes after it. -/
def Untorn (p : Pump) (reads : List Bytes) : Prop :=
  ∀ front piece later, reads = front ++ piece :: later →
    ¬ Torn ((p.after front).pending ++ piece) later.flatten

theorem untorn_cons (p : Pump) (piece : Bytes) (more : List Bytes) :
    p.Untorn (piece :: more) ↔
      ¬ Torn (p.pending ++ piece) more.flatten ∧ (p.feed piece).1.Untorn more := by
  constructor
  · intro h
    exact ⟨h [] piece more rfl, fun front piece' later hmore =>
      h (piece :: front) piece' later (by rw [hmore]; rfl)⟩
  · rintro ⟨hfirst, hrest⟩ front piece' later hreads
    cases front with
    | nil =>
      obtain ⟨rfl, rfl⟩ := List.cons.inj hreads
      exact hfirst
    | cons piece₁ front =>
      obtain ⟨rfl, hmore⟩ := List.cons.inj hreads
      exact hrest front piece' later hmore

/-- Reads never show less than the whole stream decoded at once, and just as much if none is
torn. -/
theorem shown_drain (p : Pump) (reads : List Bytes) :
    (decodeLossy (p.pending ++ reads.flatten)).length ≤ (shown (p.drain reads)).length ∧
      (shown (p.drain reads) = decodeLossy (p.pending ++ reads.flatten) ↔ p.Untorn reads) := by
  induction reads generalizing p with
  | nil =>
    have hend : shown (p.drain []) = decodeLossy (p.pending ++ [].flatten) := by
      simp [drain, shown_close]
    rw [hend]
    exact ⟨Nat.le_refl _, by simp [Untorn]⟩
  | cons piece more ih =>
    obtain ⟨hle, hiff⟩ := ih (p.feed piece).1
    have hshown : shown (p.drain (piece :: more)) =
        decodeLossy (decodable (p.pending ++ piece)).1 ++ shown ((p.feed piece).1.drain more) := by
      rw [drain, shown_append, shown_feed]
    rw [hshown, untorn_cons, List.flatten_cons, ← List.append_assoc, ← hiff]
    exact decodeLossy_decodable _ _ _ hle

def fresh (stream : Stream) (pipe : Nat) : Pump := ⟨stream, pipe, [], true⟩

theorem untorn_of_chars (p : Pump) (reads : List Bytes)
    (hchars : ∀ q ∈ segments (p.pending ++ reads.flatten), q.isChar = true) :
    p.Untorn reads := by
  induction reads generalizing p with
  | nil => simp [Untorn]
  | cons piece more ih =>
    rw [List.flatten_cons, ← List.append_assoc] at hchars
    obtain ⟨hfirst, hrest⟩ := chars_decodable hchars
    exact (untorn_cons p piece more).2 ⟨hfirst, ih (p.feed piece).1 hrest⟩

theorem toList_join_drain (p : Pump) (reads : List Bytes) :
    (String.join ((p.drain reads).map Chunk.text)).toList = shown (p.drain reads) := by
  simp [shown, List.flatMap_map]

/-- The reads of what lies ready in a pipe. -/
def pieces : Nat → Bytes → List Bytes
  | 0, _ => []
  | fuel + 1, data =>
    if data.isEmpty then [] else data.take readSize :: pieces fuel (data.drop readSize)

theorem feedAll_close (fuel : Nat) (p : Pump) (data : Bytes) :
    (feedAll fuel p data).2 ++ (feedAll fuel p data).1.close.2 = p.drain (pieces fuel data) := by
  induction fuel generalizing p data with
  | zero => rfl
  | succ fuel ih =>
    unfold feedAll pieces
    split
    · rfl
    · rw [drain, ← ih, List.append_assoc]

theorem feedAll_pipe (fuel : Nat) (p : Pump) (data : Bytes) :
    (feedAll fuel p data).1.pipe = p.pipe := by
  induction fuel generalizing p data with
  | zero => rfl
  | succ fuel ih =>
    unfold feedAll
    split
    · rfl
    · exact ih _ _

theorem isWritten_setData (m : Machine) (pipe : Nat) (data : Bytes) (other : Nat) :
    (m.setData pipe data).isWritten other = m.isWritten other := by
  unfold Machine.setData
  split <;> rfl

/-- So the simulated host drains a pipe that nobody writes any more. -/
theorem read_eq_drain {m : Machine} {p : Pump} (hopen : p.isOpen = true)
    (hend : m.isWritten p.pipe = false) :
    (p.read m).2.2 = p.drain (pieces ((m.data p.pipe).length + 1) (m.data p.pipe)) := by
  simp only [read, hopen, Bool.not_true, Bool.false_eq_true, if_false, isWritten_setData,
    feedAll_pipe, hend]
  exact feedAll_close _ p _

end Simulation.Pump

open Simulation

/-- However a stream is cut into reads, the text that is passed on is the stream decoded as a whole
just if no read is torn: if no read that has met a fault ends inside a character that goes on. This
never happens to a stream that is UTF-8 throughout. -/
theorem reads_show_whole_stream_unless_torn (stream : Stream) (pipe : Nat) (reads : List Bytes) :
    (String.join (((Pump.fresh stream pipe).drain reads).map Chunk.text) =
        String.ofBytesLossy reads.flatten ↔ (Pump.fresh stream pipe).Untorn reads) ∧
      ∀ text, String.ofBytes? reads.flatten = some text →
        String.join (((Pump.fresh stream pipe).drain reads).map Chunk.text) = text := by
  have hiff : String.join (((Pump.fresh stream pipe).drain reads).map Chunk.text) =
      String.ofBytesLossy reads.flatten ↔ (Pump.fresh stream pipe).Untorn reads := by
    rw [← (Pump.shown_drain (.fresh stream pipe) reads).2, ← String.toList_inj,
      Pump.toList_join_drain, String.ofBytesLossy, String.toList_ofList]
    rfl
  refine ⟨hiff, fun text htext => ?_⟩
  obtain ⟨cs, hcs, rfl⟩ := Option.map_eq_some_iff.1 htext
  simp only [Utf8.decode?] at hcs
  split at hcs
  · rename_i hall
    have huntorn : (Pump.fresh stream pipe).Untorn reads :=
      Pump.untorn_of_chars (.fresh stream pipe) reads (List.all_eq_true.1 hall)
    rw [hiff.2 huntorn, ← Option.some.inj hcs]
    rfl
  · simp at hcs

/-- A read that ends in the first byte of a character, behind a byte that starts none. -/
theorem cut_behind_fault_shows_three :
    String.join (((Pump.fresh .stdout 0).drain [[0xFF, 0xC3], [0xA9]]).map Chunk.text) =
        "\uFFFD\uFFFD\uFFFD" ∧
      String.join (((Pump.fresh .stdout 0).drain [[0xFF], [0xC3, 0xA9]]).map Chunk.text) =
        "\uFFFD\u00e9" ∧
      String.ofBytesLossy [0xFF, 0xC3, 0xA9] = "\uFFFD\u00e9" := by
  decide +kernel

example : String.join (((Pump.fresh .stdout 0).drain [[0x61, 0xC3], [0xA9]]).map Chunk.text) =
    "a\u00e9" := by
  decide +kernel

end TraceWorkbench
