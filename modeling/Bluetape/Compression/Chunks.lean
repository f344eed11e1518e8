import Bluetape.Compression.Core

/-!
# The chunks of the input

Which bytes the next call of `_decompress` is given, and what is left after it.

* `takeChunk_cases`: a chunk is cut off the queue, or off the source, or nothing is left;
* `takeChunk_append`: a chunk is the front of what is left;
* `takeChunk_nil`: it is empty only when nothing is left.
-/

namespace Bluetape
namespace Compression

open Base

namespace Progress

/-- The bytes that are still to be read. -/
def rest (source : Bytes) (p : Progress) : Bytes :=
  p.pending.flatten ++ source.drop p.cursor

/-- No piece is empty, the refeed size is positive, and the cursor is inside the source. -/
structure Sound (source : Bytes) (p : Progress) : Prop where
  pieces : ∀ piece ∈ p.pending, piece ≠ []
  size_pos : ∀ size ∈ p.unusedRefeedChunkSize, 0 < size
  cursor_le : p.cursor ≤ source.length

variable {source : Bytes} {p : Progress}

theorem sound_initial
    (limit : Nat) :
    (initial limit).Sound source := by
  constructor
  · simp [initial]
  · simp [initial]
  · exact Nat.zero_le _

theorem inputChunkSize_pos :
    0 < inputChunkSize := by
  decide

theorem nextRefeedChunkSize_pos
    {size : Nat}
    (hsize : 0 < size) :
    0 < nextRefeedChunkSize size := by
  rw [nextRefeedChunkSize]
  split
  · exact Nat.one_pos
  · exact lt_min inputChunkSize_pos (Nat.mul_pos hsize Nat.two_pos)

theorem Sound.pieceSize_pos
    (hsound : p.Sound source) :
    0 < p.pieceSize := by
  rw [pieceSize]
  cases hsize : p.unusedRefeedChunkSize with
  | none =>
      exact inputChunkSize_pos
  | some size =>
      exact hsound.size_pos size hsize

/-- The piece that is cut off the head of the queue. -/
abbrev cut (p : Progress) (queued : Bytes) : Nat :=
  min queued.length p.pieceSize

/-- Where a chunk comes from, and what it leaves. -/
theorem takeChunk_cases
    (source : Bytes) (p : Progress) :
    (∃ queued rest, p.pending = queued :: rest ∧
      p.takeChunk source = (queued.take (p.cut queued),
        { p with
          unusedRefeedChunkSize := p.unusedRefeedChunkSize.map nextRefeedChunkSize
          pending :=
            if p.cut queued < queued.length then queued.drop (p.cut queued) :: rest
            else rest })) ∨
      (p.pending = [] ∧ ∃ next, p.cursor < next ∧ next ≤ source.length ∧
        p.takeChunk source = ((source.take next).drop p.cursor, { p with cursor := next })) ∨
      p.pending = [] ∧ source.length ≤ p.cursor ∧ p.takeChunk source = ([], p) := by
  cases hpending : p.pending with
  | cons queued rest =>
      refine .inl ⟨queued, rest, rfl, ?_⟩
      simp only [takeChunk, hpending]
  | nil =>
      by_cases hcursor : p.cursor < source.length
      · have hnext := Nat.lt_add_of_pos_right (n := p.cursor) inputChunkSize_pos
        refine .inr (.inl ⟨rfl, min (p.cursor + inputChunkSize) source.length,
          lt_min hnext hcursor, Nat.min_le_right _ _, ?_⟩)
        simp only [takeChunk, hpending, if_pos hcursor]
      · refine .inr (.inr ⟨rfl, Nat.le_of_not_lt hcursor, ?_⟩)
        simp only [takeChunk, hpending, if_neg hcursor]

@[simp] theorem takeChunk_remaining
    (source : Bytes) (p : Progress) :
    (p.takeChunk source).2.remaining = p.remaining := by
  obtain ⟨_, _, -, htaken⟩ | ⟨-, _, -, -, htaken⟩ | ⟨-, -, htaken⟩ :=
    takeChunk_cases source p
  · rw [htaken]
  · rw [htaken]
  · rw [htaken]

@[simp] theorem takeChunk_output
    (source : Bytes) (p : Progress) :
    (p.takeChunk source).2.output = p.output := by
  obtain ⟨_, _, -, htaken⟩ | ⟨-, _, -, -, htaken⟩ | ⟨-, -, htaken⟩ :=
    takeChunk_cases source p
  · rw [htaken]
  · rw [htaken]
  · rw [htaken]

/-- A chunk is the front of what is left. -/
theorem takeChunk_append
    (source : Bytes) (p : Progress) :
    (p.takeChunk source).1 ++ (p.takeChunk source).2.rest source = p.rest source := by
  obtain ⟨queued, pending, hpending, htaken⟩ | ⟨hpending, next, hcursor, hnext, htaken⟩ |
    ⟨-, -, htaken⟩ := takeChunk_cases source p
  · simp only [htaken, Progress.rest, hpending]
    split
    case isTrue =>
      rw [List.flatten_cons, List.flatten_cons, ← List.append_assoc, ← List.append_assoc,
        List.take_append_drop]
    case isFalse hwhole =>
      rw [List.take_of_length_le (Nat.le_of_not_lt hwhole), List.flatten_cons,
        List.append_assoc]
  · simp only [htaken, Progress.rest, hpending, List.flatten_nil, List.nil_append]
    rw [← List.drop_append_of_le_length, List.take_append_drop]
    rw [List.length_take]
    omega
  · rw [htaken, List.nil_append]

/-- A chunk is empty only when nothing is left. -/
theorem takeChunk_nil
    (hsound : p.Sound source)
    (hchunk : (p.takeChunk source).1 = []) :
    p.rest source = [] := by
  obtain ⟨queued, pending, hpending, htaken⟩ | ⟨-, next, hcursor, hnext, htaken⟩ |
    ⟨hpending, hcursor, -⟩ := takeChunk_cases source p
  · have hqueued := List.length_pos_of_ne_nil (hsound.pieces queued (by simp [hpending]))
    have hsize := hsound.pieceSize_pos
    rw [htaken, List.take_eq_nil_iff] at hchunk
    rcases hchunk with hcut | hnil
    · exact absurd hcut (lt_min hqueued hsize).ne'
    · exact absurd hnil (List.ne_nil_of_length_pos hqueued)
  · rw [htaken, List.drop_eq_nil_iff, List.length_take] at hchunk
    omega
  · rw [Progress.rest, hpending, List.drop_eq_nil_of_le hcursor]
    rfl

theorem Sound.takeChunk
    (hsound : p.Sound source) :
    (p.takeChunk source).2.Sound source := by
  obtain ⟨queued, pending, hpending, htaken⟩ | ⟨-, next, -, hnext, htaken⟩ | ⟨-, -, htaken⟩ :=
    takeChunk_cases source p
  · rw [htaken]
    constructor
    · intro piece hpiece
      simp only at hpiece
      split at hpiece
      case isTrue hshort =>
        rcases List.mem_cons.mp hpiece with rfl | hpiece
        · exact List.ne_nil_of_length_pos (by rw [List.length_drop]; omega)
        · exact hsound.pieces piece (by simp [hpending, hpiece])
      case isFalse =>
        exact hsound.pieces piece (by simp [hpending, hpiece])
    · intro size hsize
      obtain ⟨size', hsize', rfl⟩ := Option.map_eq_some_iff.mp hsize
      exact nextRefeedChunkSize_pos (hsound.size_pos size' hsize')
    · exact hsound.cursor_le
  · rw [htaken]
    exact ⟨hsound.pieces, hsound.size_pos, hnext⟩
  · rw [htaken]
    exact hsound

@[simp] theorem collect_remaining
    (p : Progress) (decoded : Bytes) :
    (p.collect decoded).remaining = p.remaining - decoded.length := by
  rw [collect]
  split
  · rfl
  · simp_all

@[simp] theorem collect_output
    (p : Progress) (decoded : Bytes) :
    (p.collect decoded).output.flatten = p.output.flatten ++ decoded := by
  rw [collect]
  split
  · simp
  · simp_all

@[simp] theorem rest_collect
    (p : Progress) (decoded : Bytes) :
    (p.collect decoded).rest source = p.rest source := by
  rw [collect]
  split <;> rfl

theorem Sound.collect
    (hsound : p.Sound source) (decoded : Bytes) :
    (p.collect decoded).Sound source := by
  rw [Progress.collect]
  split
  · exact ⟨hsound.pieces, hsound.size_pos, hsound.cursor_le⟩
  · exact hsound

@[simp] theorem endMember_remaining
    (p : Progress) (unusedData : Bytes) :
    (p.endMember unusedData).remaining = p.remaining := by
  rw [endMember]
  split <;> rfl

@[simp] theorem endMember_output
    (p : Progress) (unusedData : Bytes) :
    (p.endMember unusedData).output = p.output := by
  rw [endMember]
  split <;> rfl

theorem rest_endMember
    (p : Progress) (unusedData : Bytes) :
    (p.endMember unusedData).rest source = unusedData ++ p.rest source := by
  rw [endMember]
  split
  · simp [rest, requeue]
  · simp_all [rest]

theorem Sound.endMember
    (hsound : p.Sound source) (unusedData : Bytes) :
    (p.endMember unusedData).Sound source := by
  rw [Progress.endMember]
  constructor
  · intro piece hpiece
    simp only at hpiece
    split at hpiece
    case isTrue hunused =>
      rcases List.mem_cons.mp hpiece with rfl | hpiece
      · exact hunused
      · exact hsound.pieces piece hpiece
    case isFalse =>
      exact hsound.pieces piece hpiece
  · intro size hsize
    by_cases hpending : (if unusedData ≠ [] then p.requeue unusedData else p).pending ≠ []
    · rw [if_pos hpending] at hsize
      cases hsize
      exact Nat.succ_pos 19
    · rw [if_neg hpending] at hsize
      cases hsize
  · simp only
    split <;> exact hsound.cursor_le

/-- Nothing is left in the queue or in the source. -/
theorem Sound.rest_eq_nil_iff
    (hsound : p.Sound source) :
    p.rest source = [] ↔ p.pending = [] ∧ p.cursor = source.length := by
  rw [rest, List.append_eq_nil_iff, List.drop_eq_nil_iff]
  constructor
  · rintro ⟨hflatten, hcursor⟩
    refine ⟨?_, hsound.cursor_le.antisymm hcursor⟩
    cases hpending : p.pending with
    | nil =>
        rfl
    | cons piece pending =>
        have hpiece := hsound.pieces piece (by simp [hpending])
        rw [hpending, List.flatten_cons, List.append_eq_nil_iff] at hflatten
        exact absurd hflatten.1 hpiece
  · rintro ⟨hpending, hcursor⟩
    exact ⟨by rw [hpending]; rfl, hcursor.ge⟩

end Progress

end Compression
end Bluetape
