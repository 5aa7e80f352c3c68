import TraceWorkbench.Proofs.ReadCuts

set_option autoImplicit false

/-!
# Bytes that pass through a pump

However a stream is read, its bytes are those behind the texts that a pump has passed on, in order,
and then those that it holds back: at most three, the start of a character that may still be
completed. At the end of the stream these are passed on as well.
-/
namespace TraceWorkbench

namespace Utf8

/-- Bytes that begin a character and do not end it. -/
def Begun (t : Bytes) : Prop :=
  t ≠ [] ∧ ∃ c : Char, t <+: String.utf8EncodeChar c ∧ t ≠ String.utf8EncodeChar c

theorem Begun.length_le {t : Bytes} (h : Begun t) : t.length ≤ 3 := by
  obtain ⟨-, c, hstart, hproper⟩ := h
  have hle := hstart.length_le
  have hne : t.length ≠ (String.utf8EncodeChar c).length :=
    fun heq => hproper (hstart.eq_of_length heq)
  have hsize := c.utf8Size_le_four
  rw [String.length_utf8EncodeChar] at hle hne
  omega

theorem expected_low_le (b : UInt8) : ∀ r ∈ (expected b).getD [], r.contains r.low = true := by
  unfold expected
  split_ifs <;> decide

/-- The bytes `seen` begin a character that lacks bytes in the ranges `need`. -/
def Lacks (seen : Bytes) (need : List Range) : Prop :=
  ∃ first more met, seen = first :: more ∧ expected first = some (met ++ need) ∧
    List.Forall₂ (fun r b => Range.contains r b = true) met more

section

variable {seen t : Bytes} {need more : List Range} {r : Range} {b : UInt8}

theorem lacks_first (hb : expected b = some need) : Lacks [b] need :=
  ⟨b, [], [], rfl, hb, .nil⟩

theorem Lacks.next (h : Lacks seen (r :: more)) (hb : r.contains b = true) :
    Lacks (seen ++ [b]) more := by
  obtain ⟨first, bytes, met, rfl, hfirst, hmet⟩ := h
  refine ⟨first, bytes ++ [b], met ++ [r], rfl, by simpa using hfirst, ?_⟩
  exact List.rel_append hmet (.cons hb .nil)

/-- What is lacking can be supplied, each byte by the lowest one of its range. -/
theorem Lacks.begun (h : Lacks seen need) (hneed : need ≠ []) : Begun seen := by
  obtain ⟨first, bytes, met, rfl, hfirst, hmet⟩ := h
  have hlow := expected_low_le first
  rw [hfirst, Option.getD_some, List.forall_mem_append] at hlow
  have hrest : List.Forall₂ (fun r b => Range.contains r b = true) need (need.map Range.low) :=
    List.forall₂_map_right_iff.2 (List.forall₂_same.2 hlow.2)
  have hwhole : Whole (first :: (bytes ++ need.map Range.low)) :=
    ⟨first, _, _, rfl, hfirst, List.rel_append hmet hrest⟩
  refine ⟨by simp, charOf (first :: (bytes ++ need.map Range.low)), ?_⟩
  rw [utf8EncodeChar_charOf hwhole]
  exact ⟨⟨need.map Range.low, rfl⟩, by simpa using hneed⟩

/-- Decoding cuts nothing off but the start of a character. -/
theorem begun_of_cut (s : Bytes) : (.cut t ∈ segments s → Begun t) ∧
    ∀ {seen : Bytes} {r : Range} {more : List Range}, Lacks seen (r :: more) →
      .cut t ∈ segmentsFrom seen (r :: more) s → Begun t := by
  induction s with
  | nil =>
    refine ⟨by simp [segments, segmentsFrom], fun {seen r more} hlacks hcut => ?_⟩
    rw [segmentsFrom_nil] at hcut
    split at hcut
    · simp at hcut
    · rw [List.mem_singleton, Segment.cut.injEq] at hcut
      rw [hcut]
      exact hlacks.begun (by simp)
  | cons b s ih =>
    have hfresh : .cut t ∈ segments (b :: s) → Begun t := by
      intro hcut
      cases he : expected b with
      | none =>
        rw [segments_stray he] at hcut
        exact ih.1 (by simpa using hcut)
      | some need =>
        cases need with
        | nil =>
          rw [segments_single he] at hcut
          exact ih.1 (by simpa using hcut)
        | cons r more =>
          rw [segments_first he] at hcut
          exact ih.2 (lacks_first he) hcut
    refine ⟨hfresh, fun {seen r more} hlacks hcut => ?_⟩
    by_cases hb : r.contains b = true
    · cases more with
      | nil =>
        rw [segmentsFrom_last hb] at hcut
        exact ih.1 (by simpa using hcut)
      | cons r' more =>
        rw [segmentsFrom_next hb (by simp)] at hcut
        exact ih.2 (hlacks.next hb) hcut
    · rw [segmentsFrom_fault hb] at hcut
      exact hfresh (by simpa using hcut)

end

theorem begun_of_decodable (s : Bytes) : (decodable s).2 = [] ∨ Begun (decodable s).2 := by
  rcases decodable_cases s with ⟨parts, t, hs, -, hd⟩ | ⟨hd, -⟩
  · rw [hd]
    exact .inr ((begun_of_cut s).1 (by simp [hs]))
  · exact .inl (by rw [hd])

theorem decodeLossy_eq_nil_iff {s : Bytes} : decodeLossy s = [] ↔ s = [] := by
  constructor
  · intro h
    have hbytes := segments_bytes s
    rw [List.map_eq_nil_iff.1 h] at hbytes
    exact hbytes.symm
  · rintro rfl
    rfl

end Utf8

namespace Simulation.Pump

open Utf8

/-- What is passed on of a stream read by read, before it ends. -/
def sent (p : Pump) : List Bytes → List Chunk
  | [] => []
  | piece :: more => (p.feed piece).2 ++ sent (p.feed piece).1 more

theorem drain_eq (p : Pump) (reads : List Bytes) :
    p.drain reads = p.sent reads ++ (p.after reads).close.2 := by
  induction reads generalizing p with
  | nil => rfl
  | cons piece more ih => rw [drain, ih, sent, List.append_assoc]; rfl

theorem after_stream (p : Pump) (reads : List Bytes) : (p.after reads).stream = p.stream := by
  induction reads generalizing p with
  | nil => rfl
  | cons piece more ih => exact ih _

/-- A chunk is the text of a run of bytes, and not empty. -/
structure Shows (stream : Stream) (run : Bytes) (c : Chunk) : Prop where
  stream : c.stream = stream
  text : c.text = String.ofBytesLossy run
  ne_empty : c.text ≠ ""

theorem shows_run {stream : Stream} {run : Bytes} (hrun : run ≠ []) :
    Shows stream run ⟨stream, String.ofBytesLossy run⟩ := by
  refine ⟨rfl, rfl, fun hempty => hrun (decodeLossy_eq_nil_iff.1 ?_)⟩
  simpa [String.ofBytesLossy] using hempty

/-- The bytes that were read are those behind the chunks, in order, and then those that are held
back: nothing, or the start of a character. -/
structure Accounts (p : Pump) (read : Bytes) (cs : List Chunk) : Prop where
  runs : ∃ runs, List.Forall₂ (Shows p.stream) runs cs ∧ read = runs.flatten ++ p.pending
  held : p.pending = [] ∨ Begun p.pending

variable {p : Pump} {read : Bytes} {cs : List Chunk}

theorem accounts_fresh (stream : Stream) (pipe : Nat) : (fresh stream pipe).Accounts [] [] :=
  ⟨⟨[], .nil, rfl⟩, .inl rfl⟩

theorem feed_eq (p : Pump) (piece : Bytes) :
    p.feed piece = ({ p with pending := (decodable (p.pending ++ piece)).2 },
      if (decodable (p.pending ++ piece)).1 = [] then []
      else [⟨p.stream, String.ofBytesLossy (decodable (p.pending ++ piece)).1⟩]) := by
  simp [feed, String.ofBytesLossy, decodeLossy_eq_nil_iff]

/-- A read adds what is decoded now, if it is anything, to the runs, and holds back the rest. -/
theorem Accounts.feed (h : p.Accounts read cs) (piece : Bytes) :
    (p.feed piece).1.Accounts (read ++ piece) (cs ++ (p.feed piece).2) := by
  obtain ⟨runs, hruns, hread⟩ := h.runs
  have hsplit := decodable_append (p.pending ++ piece)
  have hall : read ++ piece = runs.flatten ++ (p.pending ++ piece) := by
    rw [hread, List.append_assoc]
  rw [feed_eq]
  refine ⟨?_, begun_of_decodable _⟩
  split
  · rename_i hnone
    rw [hnone, List.nil_append] at hsplit
    refine ⟨runs, by simpa using hruns, ?_⟩
    exact hall.trans (congrArg (runs.flatten ++ ·) hsplit.symm)
  · rename_i hsome
    refine ⟨runs ++ [(decodable (p.pending ++ piece)).1], ?_, ?_⟩
    · exact List.rel_append hruns (.cons (shows_run hsome) .nil)
    · rw [hall, List.flatten_append, List.flatten_singleton, List.append_assoc, hsplit]

theorem Accounts.after (h : p.Accounts read cs) (reads : List Bytes) :
    (p.after reads).Accounts (read ++ reads.flatten) (cs ++ p.sent reads) := by
  induction reads generalizing p read cs with
  | nil => simpa [Pump.after, sent] using h
  | cons piece more ih =>
    have hnext := ih (h.feed piece)
    simpa [Pump.after, sent] using hnext

theorem close_eq (p : Pump) : p.close.2 =
    if p.pending = [] then [] else [⟨p.stream, String.ofBytesLossy p.pending⟩] := by
  simp [close]

theorem Accounts.close (h : p.Accounts read cs) :
    ∃ runs, List.Forall₂ (Shows p.stream) runs (cs ++ p.close.2) ∧ read = runs.flatten := by
  obtain ⟨runs, hruns, hread⟩ := h.runs
  rw [close_eq]
  split
  · rename_i hnone
    exact ⟨runs, by simpa using hruns, by simpa [hnone] using hread⟩
  · rename_i hsome
    exact ⟨runs ++ [p.pending], List.rel_append hruns (.cons (shows_run hsome) .nil),
      by simpa using hread⟩

end Simulation.Pump

open Simulation

/-- After each read, the bytes that were read are those behind the chunks that were passed on, each
the text of a run of them, and then at most three, with which a character begins. At the end of the
stream these are passed on, so that all its bytes are behind the chunks; and a stream that is the
text of some characters is passed on as these characters. -/
theorem pump_conserves_bytes (stream : Stream) (pipe : Nat) (reads : List Bytes) :
    ((Pump.fresh stream pipe).after reads).Accounts reads.flatten
        ((Pump.fresh stream pipe).sent reads) ∧
      ((Pump.fresh stream pipe).after reads).pending.length ≤ 3 ∧
      (Pump.fresh stream pipe).drain reads = (Pump.fresh stream pipe).sent reads ++
        (if ((Pump.fresh stream pipe).after reads).pending = [] then []
        else [⟨stream, String.ofBytesLossy ((Pump.fresh stream pipe).after reads).pending⟩]) ∧
      (∃ runs, List.Forall₂ (Pump.Shows stream) runs ((Pump.fresh stream pipe).drain reads) ∧
        reads.flatten = runs.flatten) ∧
      ∀ text : String, reads.flatten = text.utf8Bytes →
        String.join (((Pump.fresh stream pipe).drain reads).map Chunk.text) = text := by
  have haccounts : ((Pump.fresh stream pipe).after reads).Accounts reads.flatten
      ((Pump.fresh stream pipe).sent reads) := (Pump.accounts_fresh stream pipe).after reads
  have hstream : ((Pump.fresh stream pipe).after reads).stream = stream := Pump.after_stream _ reads
  refine ⟨haccounts, ?_, ?_, ?_, fun text htext => ?_⟩
  · rcases haccounts.held with hnone | hbegun
    · simp [hnone]
    · exact hbegun.length_le
  · rw [Pump.drain_eq, Pump.close_eq, hstream]
  · have hclose := haccounts.close
    rwa [hstream, ← Pump.drain_eq] at hclose
  · have hsegments : Utf8.segments ((Pump.fresh stream pipe).pending ++ reads.flatten) =
        text.toList.map fun c => .char (String.utf8EncodeChar c) := by
      rw [htext]
      exact Utf8.segments_encode text.toList
    have huntorn : (Pump.fresh stream pipe).Untorn reads := by
      refine Pump.untorn_of_chars _ reads ?_
      simp [hsegments, Utf8.Segment.isChar]
    have hshown := (Pump.shown_drain (.fresh stream pipe) reads).2.2 huntorn
    apply String.toList_inj.1
    rw [Pump.toList_join_drain, hshown, htext]
    exact Utf8.decodeLossy_encode text.toList

example : ((Pump.fresh .stdout 0).after [[0x61, 0xE2], [0x82]]).pending = [0xE2, 0x82] := by
  decide +kernel

end TraceWorkbench
