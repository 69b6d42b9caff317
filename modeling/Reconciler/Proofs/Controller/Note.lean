import Reconciler.Controller.Failure

/-!
# How much of a note is kept

A note that is too long is cut at the last character boundary that leaves room for the ellipsis. The
boundaries of a text are the ends of its beginnings, so what is kept is the longest beginning that
fits, and a character takes four bytes at most, so a boundary is found within three steps back.

## Main definitions

* `StopsAfter` : so many steps back the search meets the first boundary
* `LongestWithin` : the longest beginning of a text that takes at most so many bytes

## Main results

* `exists_stopsAfter` : within a text three steps are enough
* `longestWithin_lastBoundary` : what stands before the boundary that is found
* `Failure.note_fits` : the note of a failure
-/

namespace Reconciler

open String.Pos (Raw)

variable {s : String} {offset i : Nat}

/-! ### Looking for a boundary -/

/-- The search goes no further forward than where it starts. -/
theorem lastBoundary_le (s : String) (offset : Nat) :
    (lastBoundary s offset).offset.byteIdx ≤ offset := by
  induction offset with
  | zero => exact Nat.le_refl _
  | succ offset ih =>
    rw [lastBoundary]
    split
    · exact Nat.le_refl _
    · exact Nat.le_succ_of_le ih

/-- It passes over no boundary. -/
theorem not_isValid_of_lastBoundary_lt (h : (lastBoundary s offset).offset.byteIdx < i)
    (hi : i ≤ offset) : ¬ Raw.IsValid s ⟨i⟩ := by
  induction offset with
  | zero => omega
  | succ offset ih =>
    rw [lastBoundary] at h
    split at h
    case isTrue hvalid => exact absurd hi (Nat.not_le_of_lt h)
    case isFalse hinvalid =>
      rcases Nat.lt_or_ge offset i with hlt | hle
      · obtain rfl : i = offset + 1 := by omega
        exact hinvalid
      · exact ih h hle

/-- Every boundary up to where the search starts is at or before the one that is found. -/
theorem le_lastBoundary (p : s.Pos) (hp : p.offset.byteIdx ≤ offset) :
    p ≤ lastBoundary s offset := by
  refine Std.not_lt.1 fun hlt => ?_
  exact not_isValid_of_lastBoundary_lt hlt hp p.isValid

/-- The next boundary is one character further on, and beyond where the search starts. -/
theorem lt_lastBoundary_add_four (h : offset < s.utf8ByteSize) :
    offset < (lastBoundary s offset).offset.byteIdx + 4 := by
  have hend : lastBoundary s offset ≠ s.endPos := by
    intro heq
    have hle := lastBoundary_le s offset
    rw [heq, String.offset_endPos] at hle
    exact Nat.not_lt_of_le hle h
  have hnext : offset < ((lastBoundary s offset).next hend).offset.byteIdx := by
    refine Nat.lt_of_not_le fun hreached => ?_
    exact Std.not_lt.2 (le_lastBoundary _ hreached) String.Pos.lt_next
  have hwidth := ((lastBoundary s offset).get hend).utf8Size_le_four
  rw [String.Pos.byteIdx_offset_next] at hnext
  omega

/-- So many steps back from a byte offset, all of which are within the text, the search meets the
first boundary, and that is where it stops. -/
structure StopsAfter (s : String) (offset steps : Nat) : Prop where
  /-- The search stops after so many steps, without going below zero. -/
  stop : (lastBoundary s offset).offset.byteIdx + steps = offset
  /-- There is a boundary, -/
  isBoundary : Raw.IsValid s ⟨offset - steps⟩
  /-- and none on the way. -/
  before : ∀ i < steps, ¬ Raw.IsValid s ⟨offset - i⟩

theorem exists_stopsAfter (h : offset < s.utf8ByteSize) :
    ∃ steps ≤ 3, StopsAfter s offset steps := by
  have hle := lastBoundary_le s offset
  have hlt := lt_lastBoundary_add_four h
  refine ⟨offset - (lastBoundary s offset).offset.byteIdx, by omega, by omega, ?_, fun i hi => ?_⟩
  · rw [Nat.sub_sub_self hle]
    exact (lastBoundary s offset).isValid
  · exact not_isValid_of_lastBoundary_lt (by omega) (Nat.sub_le offset i)

/-! ### What stands before it -/

/-- The longest beginning of a text that takes at most `room` bytes. -/
structure LongestWithin (room : Nat) (s kept : String) : Prop where
  /-- It is a beginning of the text, -/
  begins : ∃ rest, s = kept ++ rest
  /-- there is room for it, -/
  fits : kept.utf8ByteSize ≤ room
  /-- and every beginning of the text that there is room for is a beginning of it. -/
  longest : ∀ other rest, s = other ++ rest → other.utf8ByteSize ≤ room →
    ∃ more, kept = other ++ more

theorem utf8ByteSize_copy_sliceTo (p : s.Pos) :
    (s.sliceTo p).copy.utf8ByteSize = p.offset.byteIdx := by
  rw [p.splits.offset_eq_rawEndPos, String.byteIdx_rawEndPos]

theorem longestWithin_lastBoundary (s : String) (room : Nat) :
    LongestWithin room s (s.sliceTo (lastBoundary s room)).copy where
  begins := ⟨_, (lastBoundary s room).splits.eq_append⟩
  fits := by
    rw [utf8ByteSize_copy_sliceTo]
    exact lastBoundary_le s room
  longest other rest hs hroom := by
    -- The end of the other beginning is a boundary too, so the search stops there at the latest.
    have hother := String.Pos.splits_ofEqAppend hs
    have hle : String.Pos.ofEqAppend hs ≤ lastBoundary s room := by
      refine le_lastBoundary _ ?_
      rwa [hother.offset_eq_rawEndPos, String.byteIdx_rawEndPos]
    obtain ⟨more, hkept, -⟩ :=
      (hother.le_iff_exists_eq_append (lastBoundary s room).splits).1 hle
    exact ⟨more, hkept⟩

/-! ### Notes -/

/-- The text was cut: the longest beginning that takes at most 1021 bytes is kept, an ellipsis
follows, and the cut was found in three steps at most. -/
def CutShort (s note : String) : Prop :=
  ∃ kept, LongestWithin 1021 s kept ∧ note = kept ++ "…" ∧
    ∃ steps ≤ 3, StopsAfter s 1021 steps ∧ kept.utf8ByteSize + steps = 1021

theorem cutShort_cutNote (h : 1024 < s.utf8ByteSize) : CutShort s (cutNote s) := by
  have hcut : cutNote s = (s.sliceTo (lastBoundary s 1021)).copy ++ "…" :=
    (if_neg (Nat.not_le_of_lt h)).trans (String.push_eq_append _)
  have hwithin : 1021 < s.utf8ByteSize := by omega
  obtain ⟨steps, hsteps, hstops⟩ := exists_stopsAfter hwithin
  refine ⟨_, longestWithin_lastBoundary s 1021, hcut, steps, hsteps, hstops, ?_⟩
  rw [utf8ByteSize_copy_sliceTo]
  exact hstops.stop

theorem CutShort.size {note : String} (h : CutShort s note) :
    1021 ≤ note.utf8ByteSize ∧ note.utf8ByteSize ≤ 1024 := by
  obtain ⟨kept, -, rfl, steps, hsteps, -, hsize⟩ := h
  have hellipsis : ("…" : String).utf8ByteSize = 3 := by decide
  rw [String.utf8ByteSize_append, hellipsis]
  omega

/-- The note of a failure is its whole text if that takes 1024 bytes at most, and otherwise the text
is cut and 1021 bytes are filled at least. It is valid UTF-8 and never takes more than 1024
bytes. -/
theorem Failure.note_fits (f : Failure) :
    (f.fullNote.utf8ByteSize ≤ 1024 ∧ f.note = f.fullNote ∨
      1024 < f.fullNote.utf8ByteSize ∧ CutShort f.fullNote f.note ∧
        1021 ≤ f.note.utf8ByteSize) ∧
      f.note.utf8ByteSize ≤ 1024 ∧ f.note.toByteArray.IsValidUTF8 := by
  rcases Nat.lt_or_ge 1024 f.fullNote.utf8ByteSize with hlong | hshort
  · have hcut : CutShort f.fullNote f.note := cutShort_cutNote hlong
    exact ⟨.inr ⟨hlong, hcut, hcut.size.1⟩, hcut.size.2, f.note.isValidUTF8⟩
  · have hwhole : f.note = f.fullNote := if_pos hshort
    exact ⟨.inl ⟨hshort, hwhole⟩, hwhole ▸ hshort, f.note.isValidUTF8⟩

end Reconciler
