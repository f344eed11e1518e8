import Bluetape.Compression.Chunks
import Bluetape.Compression.Zlib

/-!
# Bounded decompression does not depend on the chunks

`_decompress` compared with the whole input read byte by byte.

* `Follows`: what the loops keep; `Follows.more`, `Follows.finished`, `Follows.rejected` and
  `Follows.full` say what each answer makes of it;
* `decompress_settles`: `_decompress` ends, and where no call overruns, as the reference says;
* `decompress_chunk_invariant`: the result, the limit, and the order of the bytes.
-/

namespace Bluetape
namespace Compression

open Base
open Base.Dialogue (History Permitted)
open Base.Proc
open Base.StreamDecoder

section Answers

variable {σ : Type} (dec : Decoders σ) (zlib : Zlib) (format : Format) (source : Bytes)
  (limit : Nat)

/-- No call of the run has overrun. -/
abbrev NoneOverruns (h : History ZlibQuestion.Answer) : Prop :=
  Permitted (fun h' q => ¬Overruns dec zlib h' q) h

/-- The loops so far: what was written, and that the reference goes on with the rest. -/
structure Follows (phase : Phase σ) (remaining : Nat) (output rest : Bytes)
    (h : History ZlibQuestion.Answer) : Prop where
  same : ∀ extra, reference dec format source (limit + extra) =
    ((dec format.wbits).decode format.several phase (remaining + extra) rest).map (output ++ ·)
  fed : consumed h ++ rest = source
  inOrder : Permitted (FeedsNext source) h
  kept : NoneOverruns dec zlib h

/-- How `_decompress` ends. -/
structure Settled (result : Except Raised Bytes) (h : History ZlibQuestion.Answer) : Prop where
  inOrder : Permitted (FeedsNext source) h
  whole : ∀ output, result = .ok output → consumed h = source
  verdict : result = outcome (reference dec format source limit) ∧ NoneOverruns dec zlib h ∨
    result = .error invalidData ∧ ¬NoneOverruns dec zlib h ∧
      reference dec format source limit = .error .limitExceeded ∧
      reference dec format source (limit + 1) = .error .corrupted

variable {dec zlib format source limit}

/-- Where the reference fails, and so does the code. -/
theorem settled_of_error
    {h : History ZlibQuestion.Answer} (failure : Failure)
    (hinOrder : Permitted (FeedsNext source) h)
    (hkept : NoneOverruns dec zlib h)
    (hreference : reference dec format source limit = .error failure) :
    Settled dec zlib format source limit (outcome (.error failure)) h := by
  refine ⟨hinOrder, ?_, .inl ⟨by rw [hreference], hkept⟩⟩
  intro output houtput
  cases failure with
  | limitExceeded =>
      cases houtput
  | corrupted =>
      cases houtput

namespace Follows

variable {s : σ} {remaining : Nat} {output chunk rest written : Bytes}
  {h : History ZlibQuestion.Answer} {reading : Reading σ UInt8}
  {answer : Option (Bytes × Attributes)}

/-- The call that feeds a chunk. -/
abbrev call (chunk : Bytes) (remaining : Nat) (answer : Option (Bytes × Attributes)) :
    Dialogue.Exchange ZlibQuestion.Answer :=
  ⟨.decompress chunk (remaining + 1), answer⟩

/-- The reference reads the chunk as a whole. -/
theorem reference_chunk
    (hfollows : Follows dec zlib format source limit (.inside s) remaining output
      (chunk ++ rest) h)
    (hfeed : (dec format.wbits).feed s chunk = (written, reading)) (extra : Nat) :
    reference dec format source (limit + extra) =
      (if remaining + extra < written.length then .error .limitExceeded
        else ((dec format.wbits).resumed format.several (remaining + extra - written.length)
          rest reading).map (written ++ ·)).map (output ++ ·) := by
  rw [hfollows.same, decode_append, hfeed]

theorem inOrder_call
    (hfollows : Follows dec zlib format source limit (.inside s) remaining output
      (chunk ++ rest) h)
    (answer : Option (Bytes × Attributes)) :
    Permitted (FeedsNext source) (call chunk remaining answer :: h) := by
  refine hfollows.inOrder.cons (q := ZlibQuestion.decompress chunk (remaining + 1)) ?_ answer
  exact ⟨rest, by rw [List.append_assoc, hfollows.fed]⟩

/-- A call that is not rejected does not overrun. -/
theorem kept_call
    {phase : Phase σ}
    (hfollows : Follows dec zlib format source limit phase remaining output (chunk ++ rest) h)
    (hcurrent : current dec h = some (format.wbits, s))
    (hfeed : (dec format.wbits).feed s chunk = (written, reading))
    (hanswer : zlib h (.decompress chunk (remaining + 1)) = answer)
    (hquiet : answer ≠ none ∨ reading ≠ .rejected ∨ written.length ≠ remaining + 1) :
    NoneOverruns dec zlib (call chunk remaining answer :: h) := by
  refine hfollows.kept.cons (q := ZlibQuestion.decompress chunk (remaining + 1)) ?_ answer
  rintro ⟨hnone, wbits, s', written', hcurrent', hfeed', hlength⟩
  obtain ⟨rfl, rfl⟩ := Prod.mk.inj (Option.some.inj (hcurrent.symm.trans hcurrent'))
  obtain ⟨rfl, rfl⟩ := Prod.mk.inj (hfeed.symm.trans hfeed')
  rcases hquiet with hquiet | hquiet | hquiet
  · exact hquiet (hanswer.symm.trans hnone)
  · exact hquiet rfl
  · exact hquiet hlength

/-- A chunk that was written completely. -/
theorem more
    {s' : σ}
    (hfollows : Follows dec zlib format source limit (.inside s) remaining output
      (chunk ++ rest) h)
    (hcurrent : current dec h = some (format.wbits, s))
    (hfeed : (dec format.wbits).feed s chunk = (written, .more s'))
    (hanswer : zlib h (.decompress chunk (remaining + 1)) = answer)
    (hreturned : answer = some (written, ⟨false, [], []⟩))
    (hfits : written.length ≤ remaining) :
    Follows dec zlib format source limit (.inside s') (remaining - written.length)
      (output ++ written) rest (call chunk remaining answer :: h) := by
  refine ⟨?_, ?_, hfollows.inOrder_call answer,
    hfollows.kept_call hcurrent hfeed hanswer (.inr (.inl nofun))⟩
  · intro extra
    rw [hfollows.reference_chunk hfeed, if_neg (by omega), map_append_append,
      Nat.sub_add_comm hfits]
    rfl
  · rw [hreturned]
    change consumed h ++ chunk.take chunk.length ++ rest = source
    rw [List.take_length, List.append_assoc, hfollows.fed]

/-- The decompressor goes on where it was. -/
theorem current_more
    {s' : σ}
    (hcurrent : current dec h = some (format.wbits, s))
    (hfeed : (dec format.wbits).feed s chunk = (written, .more s'))
    (hfits : written.length ≤ remaining) :
    current dec (call chunk remaining answer :: h) = some (format.wbits, s') := by
  rw [current, hcurrent]
  change (afterChunk (remaining + 1) ((dec format.wbits).feed s chunk)).bind
    (fun s' => some (format.wbits, s')) = _
  rw [hfeed]
  simp [afterChunk, Nat.lt_succ_of_le hfits]

/-- A chunk in which the stream has ended. -/
theorem finished
    {left : Bytes}
    (hfollows : Follows dec zlib format source limit (.inside s) remaining output
      (chunk ++ rest) h)
    (hcurrent : current dec h = some (format.wbits, s))
    (hfeed : (dec format.wbits).feed s chunk = (written, .finished left))
    (hanswer : zlib h (.decompress chunk (remaining + 1)) = answer)
    (hreturned : answer = some (written, ⟨true, [], left⟩))
    (hfits : written.length ≤ remaining) :
    Follows dec zlib format source limit .ended (remaining - written.length)
      (output ++ written) (left ++ rest) (call chunk remaining answer :: h) := by
  refine ⟨?_, ?_, hfollows.inOrder_call answer,
    hfollows.kept_call hcurrent hfeed hanswer (.inr (.inl nofun))⟩
  · intro extra
    rw [hfollows.reference_chunk hfeed, if_neg (by omega), map_append_append,
      Nat.sub_add_comm hfits]
    rfl
  · obtain ⟨b, read, hchunk⟩ := (dec format.wbits).rest_of_finished hfeed
    rw [hreturned]
    change consumed h ++ chunk.take (chunk.length - left.length) ++ (left ++ rest) = source
    have hread : chunk.take (chunk.length - left.length) = b :: read := by
      rw [hchunk, List.length_append, Nat.add_sub_cancel, List.take_left]
    rw [hread, ← hfollows.fed, hchunk]
    simp

/-- A chunk that is rejected: the error is the reference's, or the call has overrun. -/
theorem rejected
    (hfollows : Follows dec zlib format source limit (.inside s) remaining output
      (chunk ++ rest) h)
    (hcurrent : current dec h = some (format.wbits, s))
    (hfeed : (dec format.wbits).feed s chunk = (written, .rejected))
    (hanswer : zlib h (.decompress chunk (remaining + 1)) = none)
    (hfits : written.length ≤ remaining + 1) :
    Settled dec zlib format source limit (.error invalidData)
      (call chunk remaining none :: h) := by
  have hinOrder := hfollows.inOrder_call none
  rcases hfits.lt_or_eq with hlt | heq
  · refine settled_of_error .corrupted hinOrder
      (hfollows.kept_call hcurrent hfeed hanswer (.inr (.inr hlt.ne))) ?_
    rw [← Nat.add_zero limit, hfollows.reference_chunk hfeed, if_neg (by omega)]
    rfl
  · refine ⟨hinOrder, nofun, .inr ⟨rfl, ?_, ?_, ?_⟩⟩
    · intro hkept
      exact hkept (call chunk remaining none) h (List.suffix_refl _)
        ⟨hanswer, _, s, written, hcurrent, hfeed, heq⟩
    · rw [← Nat.add_zero limit, hfollows.reference_chunk hfeed, if_pos (by omega)]
      rfl
    · rw [hfollows.reference_chunk hfeed, if_neg (by omega)]
      rfl

/-- A chunk whose output goes beyond the limit. -/
theorem full
    {returned : Bytes} {attributes : Attributes}
    (hfollows : Follows dec zlib format source limit (.inside s) remaining output
      (chunk ++ rest) h)
    (hcurrent : current dec h = some (format.wbits, s))
    (hfeed : (dec format.wbits).feed s chunk = (written, reading))
    (hanswer : zlib h (.decompress chunk (remaining + 1)) = some (returned, attributes))
    (hfull : remaining + 1 ≤ written.length) :
    Settled dec zlib format source limit (.error limitExceeded)
      (call chunk remaining (some (returned, attributes)) :: h) := by
  refine settled_of_error .limitExceeded (hfollows.inOrder_call _)
    (hfollows.kept_call hcurrent hfeed hanswer (.inl nofun)) ?_
  rw [← Nat.add_zero limit, hfollows.reference_chunk hfeed, if_pos (by omega)]
  rfl

/-- The input ends inside a stream. -/
theorem truncated
    (hfollows : Follows dec zlib format source limit (.inside s) remaining output [] h) :
    Settled dec zlib format source limit (.error invalidData) h := by
  refine settled_of_error .corrupted hfollows.inOrder hfollows.kept ?_
  rw [← Nat.add_zero limit, hfollows.same, decode_inside_nil]
  rfl

/-- The input ends with a stream. -/
theorem complete
    (hfollows : Follows dec zlib format source limit .ended remaining output [] h) :
    Settled dec zlib format source limit (.ok output) h := by
  refine ⟨hfollows.inOrder, ?_, .inl ⟨?_, hfollows.kept⟩⟩
  · intro _ _
    rw [← hfollows.fed, List.append_nil]
  · rw [← Nat.add_zero limit, hfollows.same, decode_ended_nil]
    exact congrArg Except.ok (List.append_nil output).symm

/-- Another gzip member follows. -/
theorem nextMember
    (hfollows : Follows dec zlib format source limit .ended remaining output rest h)
    (hgzip : format = .gzip)
    (hrest : rest ≠ []) :
    Follows dec zlib format source limit (.inside (dec format.wbits).start) remaining output
      rest h := by
  refine ⟨?_, hfollows.fed, hfollows.inOrder, hfollows.kept⟩
  intro extra
  obtain ⟨b, input, rfl⟩ := List.exists_cons_of_ne_nil hrest
  rw [hfollows.same, hgzip]
  exact congrArg _ (decode_ended_cons _ _ b input)

/-- Something follows a single stream. -/
theorem trailing
    (hfollows : Follows dec zlib format source limit .ended remaining output rest h)
    (hsingle : format ≠ .gzip)
    (hrest : rest ≠ []) :
    Settled dec zlib format source limit (.error invalidData) h := by
  refine settled_of_error .corrupted hfollows.inOrder hfollows.kept ?_
  obtain ⟨b, input, rfl⟩ := List.exists_cons_of_ne_nil hrest
  have hseveral : format.several = false := by
    cases format with
    | gzip =>
        exact absurd rfl hsingle
    | zlib =>
        rfl
    | deflate =>
        rfl
  rw [← Nat.add_zero limit, hfollows.same, hseveral, decode_ended_single]
  rfl

end Follows

section Rounds

variable (dec zlib format source limit)

/-- Between the rounds of a member, of which `bound` bytes and no more are left. -/
structure InMember (bound n : Nat) (loop : Progress × Attributes)
    (h : History ZlibQuestion.Answer) : Prop where
  fresh : loop.2 = .fresh
  left : (loop.1.rest source).length = n
  left_le : n ≤ bound
  sound : loop.1.Sound source
  state : ∃ s, current dec h = some (format.wbits, s) ∧
    Follows dec zlib format source limit (.inside s) loop.1.remaining loop.1.output.flatten
      (loop.1.rest source) h

/-- After the rounds of a member, with less than `bound` bytes left. -/
def MemberEnds (bound : Nat) :
    Except Raised (Progress × Attributes) → History ZlibQuestion.Answer → Prop
  | .ok (p, attributes), h =>
      p.Sound source ∧ (attributes.unusedData ++ p.rest source).length < bound ∧
        Follows dec zlib format source limit .ended p.remaining p.output.flatten
          (attributes.unusedData ++ p.rest source) h
  | .error e, h => Settled dec zlib format source limit (.error e) h

/-- Between the rounds of `while True`. -/
structure BetweenMembers (n : Nat) (p : Progress) (h : History ZlibQuestion.Answer) : Prop where
  left : (p.rest source).length = n
  sound : p.Sound source
  follows : Follows dec zlib format source limit (.inside (dec format.wbits).start) p.remaining
    p.output.flatten (p.rest source) h

variable {dec zlib format source limit}

variable {p : Progress} {s : σ} {h : History ZlibQuestion.Answer} {bound n : Nat}

/-- A round is its call and what is made of the answer. -/
theorem evaluates_memberRound
    (answer : Option (Bytes × Attributes))
    {r : Except Raised ((Progress × Attributes) ⊕ (Progress × Attributes))}
    {h' : History ZlibQuestion.Answer}
    (hanswer : zlib h (.decompress (p.takeChunk source).1
      ((p.takeChunk source).2.remaining + 1)) = answer)
    (hrest : Evaluates zlib (handleAnswer (p.takeChunk source).1 (p.takeChunk source).2 answer).run
      () (Follows.call (p.takeChunk source).1 (p.takeChunk source).2.remaining answer :: h)
      r () h') :
    Evaluates zlib (memberRound source (p, .fresh)).run () h r () h' := by
  subst hanswer
  exact (evaluates_lift _ () h).except_bind hrest

/-- An answer within the limit that leaves nothing unconsumed. -/
theorem handleAnswer_written
    {chunk written unusedData : Bytes} {eof : Bool}
    (hfits : written.length ≤ p.remaining) :
    handleAnswer chunk p (some (written, ⟨eof, [], unusedData⟩)) =
      if eof then return .inr (p.collect written, ⟨eof, [], unusedData⟩)
      else if chunk = [] then throw invalidData
      else return .inl (p.collect written, ⟨eof, [], unusedData⟩) := by
  rw [handleAnswer, if_neg (Nat.not_lt_of_le hfits), if_neg (by simp)]

/-- **One round of a member.** -/
theorem memberRound_keeps
    (hincremental : Incremental dec zlib)
    {loop : Progress × Attributes}
    (hinv : InMember dec zlib format source limit bound n loop h) :
    ∃ r h', Evaluates zlib (memberRound source loop).run () h r () h' ∧
      RoundKeeps (fun n a (_ : Unit) h => InMember dec zlib format source limit bound n a h)
        (fun r (_ : Unit) h => MemberEnds dec zlib format source limit bound r h) n r () h' := by
  obtain ⟨p, attributes⟩ := loop
  obtain ⟨hfresh, hleft, hleft_le, hsound, s, hcurrent, hfollows⟩ := hinv
  cases hfresh
  have hchunk := p.takeChunk_append source
  have hempty := Progress.takeChunk_nil hsound
  have hsound' := hsound.takeChunk
  rw [← hchunk, ← Progress.takeChunk_remaining source p, ← Progress.takeChunk_output source p]
    at hfollows
  rw [← hchunk] at hleft hempty
  have hround := @evaluates_memberRound zlib source p h
  generalize (p.takeChunk source).1 = chunk at *
  generalize (p.takeChunk source).2 = p' at *
  have hanswers := hincremental.answers h _ s chunk (p'.remaining + 1) hcurrent
    (Nat.succ_pos _)
  rcases hfeed : (dec format.wbits).feed s chunk with ⟨written, reading⟩
  rw [hfeed] at hanswers
  generalize hanswer : zlib h (.decompress chunk (p'.remaining + 1)) = answer at hanswers
  cases hanswers with
  | @more _ s' hfits =>
      have hle := Nat.le_of_lt_succ hfits
      have hgoes := hfollows.more hcurrent hfeed hanswer rfl hle
      by_cases hchunk : chunk = []
      · -- the empty chunk at the end of the input
        have hrest := (List.append_eq_nil_iff.mp (hempty hchunk)).2
        rw [hrest] at hgoes
        refine ⟨.error invalidData, _, hround _ hanswer ?_, hgoes.truncated⟩
        rw [handleAnswer_written hle, if_neg nofun, if_pos hchunk]
        exact .ret _ _ _
      · have hless : (p'.rest source).length < n := by
          have hlength := List.length_pos_of_ne_nil hchunk
          rw [List.length_append] at hleft
          omega
        have hin : InMember dec zlib format source limit bound (p'.rest source).length
            (p'.collect written, .fresh)
            (Follows.call chunk p'.remaining (some (written, ⟨false, [], []⟩)) :: h) :=
          ⟨rfl, by simp, hless.le.trans hleft_le, hsound'.collect written, s',
            Follows.current_more hcurrent hfeed hle, by simpa using hgoes⟩
        refine ⟨.ok (.inl (p'.collect written, .fresh)), _, hround _ hanswer ?_, _, hless, hin⟩
        rw [handleAnswer_written hle, if_neg nofun, if_neg hchunk]
        exact .ret _ _ _
  | @finished _ left hfits =>
      have hle := Nat.le_of_lt_succ hfits
      have hgoes := hfollows.finished hcurrent hfeed hanswer rfl hle
      obtain ⟨b, read, hread⟩ := (dec format.wbits).rest_of_finished hfeed
      refine ⟨.ok (.inr (p'.collect written, ⟨true, [], left⟩)), _, hround _ hanswer ?_,
        hsound'.collect written, ?_, by simpa using hgoes⟩
      · rw [handleAnswer_written hle, if_pos rfl]
        exact .ret _ _ _
      · rw [hread] at hleft
        simp only [List.length_append, List.length_cons, Progress.rest_collect] at hleft ⊢
        omega
  | rejected hfits =>
      exact ⟨.error invalidData, _, hround _ hanswer (.ret _ _ _),
        hfollows.rejected hcurrent hfeed hanswer hfits⟩
  | full hfull attributes =>
      refine ⟨.error limitExceeded, _, hround _ hanswer ?_,
        hfollows.full hcurrent hfeed hanswer hfull⟩
      rw [handleAnswer, if_pos]
      · exact .ret _ _ _
      · rw [List.length_take, Nat.min_eq_left hfull]
        exact Nat.lt_succ_self _

/-- The rounds of a member end. -/
theorem evaluates_member
    (hincremental : Incremental dec zlib)
    {loop : Progress × Attributes}
    (hinv : InMember dec zlib format source limit bound n loop h) :
    ∃ r h', Evaluates zlib (exceptLoop (memberRound source) loop).run () h r () h' ∧
      MemberEnds dec zlib format source limit bound r h' := by
  obtain ⟨r, ⟨⟩, h', hrun, hends⟩ := evaluates_exceptLoop
    (fun n a _ h => InMember dec zlib format source limit bound n a h)
    (fun r _ h => MemberEnds dec zlib format source limit bound r h)
    (fun n a _ h hinv => by
      obtain ⟨r, h', hround, hkeeps⟩ := memberRound_keeps hincremental hinv
      exact ⟨r, (), h', hround, hkeeps⟩)
    hinv
  exact ⟨r, h', hrun, hends⟩

/-- After a member: the result, trailing data, or the next member. -/
theorem closeMember_keeps
    {attributes : Attributes}
    (hends : MemberEnds dec zlib format source limit bound (.ok (p, attributes)) h) :
    ∃ r, Evaluates zlib (closeMember format source p attributes).run () h r () h ∧
      RoundKeeps (fun n p (_ : Unit) h => BetweenMembers dec zlib format source limit n p h)
        (fun r (_ : Unit) h => Settled dec zlib format source limit r h) bound r () h := by
  obtain ⟨hsound, hleft, hfollows⟩ := hends
  by_cases hgzip : format = .gzip
  · have hnext := hsound.endMember attributes.unusedData
    rw [← Progress.rest_endMember, ← Progress.endMember_remaining p attributes.unusedData,
      ← Progress.endMember_output p attributes.unusedData] at hfollows
    rw [← Progress.rest_endMember] at hleft
    rw [closeMember, if_neg (not_not.mpr hgzip)]
    generalize p.endMember attributes.unusedData = p' at *
    dsimp only
    by_cases hrest : p'.rest source = []
    · rw [hrest] at hfollows
      refine ⟨.ok (.inr p'.output.flatten), ?_, hfollows.complete⟩
      rw [if_pos (hnext.rest_eq_nil_iff.mp hrest)]
      exact .ret _ _ _
    · refine ⟨.ok (.inl p'), ?_, _, hleft, ⟨rfl, hnext, hfollows.nextMember hgzip hrest⟩⟩
      rw [if_neg (mt hnext.rest_eq_nil_iff.mpr hrest)]
      exact .ret _ _ _
  · rw [closeMember, if_pos hgzip]
    by_cases hrest : attributes.unusedData ++ p.rest source = []
    · obtain ⟨hunused, hnone⟩ := List.append_eq_nil_iff.mp hrest
      obtain ⟨hpending, hcursor⟩ := hsound.rest_eq_nil_iff.mp hnone
      rw [hrest] at hfollows
      refine ⟨.ok (.inr p.output.flatten), ?_, hfollows.complete⟩
      rw [if_neg]
      · exact .ret _ _ _
      · simp [hunused, hpending, hcursor]
    · refine ⟨.error invalidData, ?_, hfollows.trailing hgzip hrest⟩
      rw [if_pos]
      · exact .ret _ _ _
      · by_contra hnothing
        simp only [ne_eq, not_or, not_not] at hnothing
        obtain ⟨hunused, hpending, hcursor⟩ := hnothing
        refine hrest (List.append_eq_nil_iff.mpr ⟨hunused, ?_⟩)
        exact hsound.rest_eq_nil_iff.mpr
          ⟨hpending, hsound.cursor_le.antisymm (Nat.le_of_not_lt hcursor)⟩

/-- The first member. -/
theorem follows_initial
    (imported : Bool) :
    Follows dec zlib format source limit (.inside (dec format.wbits).start) limit [] source
      [⟨.importModule, imported⟩] := by
  refine ⟨?_, rfl, ?_, ?_⟩
  · intro extra
    change reference dec format source (limit + extra) =
      (reference dec format source (limit + extra)).map ([] ++ ·)
    cases reference dec format source (limit + extra) <;> rfl
  · exact Permitted.cons (A := ZlibQuestion.Answer) (q := .importModule) Dialogue.permitted_nil
      trivial imported
  · exact Permitted.cons (A := ZlibQuestion.Answer) (q := .importModule) Dialogue.permitted_nil
      id imported

/-- A new decompressor reads nothing. -/
theorem Follows.decompressobj
    {phase : Phase σ} {remaining : Nat} {output rest : Bytes}
    (hfollows : Follows dec zlib format source limit phase remaining output rest h)
    (wbits : Int) :
    Follows dec zlib format source limit phase remaining output rest
      (⟨.decompressobj wbits, ()⟩ :: h) :=
  ⟨hfollows.same, hfollows.fed,
    hfollows.inOrder.cons (q := ZlibQuestion.decompressobj wbits) trivial (),
    hfollows.kept.cons (q := ZlibQuestion.decompressobj wbits) id ()⟩

/-- **One round of `while True`.** -/
theorem outerRound_keeps
    (hincremental : Incremental dec zlib)
    (hinv : BetweenMembers dec zlib format source limit n p h) :
    ∃ r h', Evaluates zlib (outerRound format source p).run () h r () h' ∧
      RoundKeeps (fun n p (_ : Unit) h => BetweenMembers dec zlib format source limit n p h)
        (fun r (_ : Unit) h => Settled dec zlib format source limit r h) n r () h' := by
  have hmember : InMember dec zlib format source limit n n (p, .fresh)
      (⟨.decompressobj format.wbits, zlib h (.decompressobj format.wbits)⟩ :: h) :=
    ⟨rfl, hinv.left, le_refl n, hinv.sound, _, rfl, hinv.follows.decompressobj _⟩
  obtain ⟨r, h', hrun, hends⟩ := evaluates_member hincremental hmember
  rcases r with e | ⟨p', attributes⟩
  · exact ⟨.error e, h', (evaluates_lift _ () h).except_bind hrun.except_bind_error, hends⟩
  · obtain ⟨r, hclose, hkeeps⟩ := closeMember_keeps hends
    exact ⟨r, h', (evaluates_lift _ () h).except_bind (hrun.except_bind hclose), hkeeps⟩

/-- Before the first member. -/
theorem evaluates_decompress
    (himported : zlib [] .importModule = true)
    (hlimit : limit < maxsize)
    {r : Except Raised Bytes}
    (hrun : Evaluates zlib
      (exceptLoop (outerRound format source) (Progress.initial limit)).run
      () [⟨.importModule, zlib [] .importModule⟩] r () h) :
    Evaluates zlib (decompress source limit format).run () [] r () h := by
  have hvalid : Evaluates zlib (validateMaxOutputSize limit).run () [] (.ok ()) () [] := by
    rw [validateMaxOutputSize, if_neg]
    · exact .ret _ _ _
    · simp [hlimit]
  have himport : Evaluates zlib importZlib.run () [] (.ok ()) ()
      [⟨.importModule, zlib [] .importModule⟩] := by
    refine (evaluates_lift _ () []).except_bind ?_
    rw [himported]
    exact .ret _ _ _
  exact hvalid.except_bind (himport.except_bind hrun)

/-- **`_decompress` ends.** -/
theorem decompress_settles
    (hincremental : Incremental dec zlib)
    (hlimit : limit < maxsize) :
    ∃ r h, Evaluates zlib (decompress source limit format).run () [] r () h ∧
      Settled dec zlib format source limit r h := by
  have hbetween : BetweenMembers dec zlib format source limit source.length
      (Progress.initial limit) [⟨.importModule, zlib [] .importModule⟩] :=
    ⟨rfl, Progress.sound_initial limit, follows_initial _⟩
  obtain ⟨r, ⟨⟩, h, hrun, hsettled⟩ := evaluates_exceptLoop
    (fun n p _ h => BetweenMembers dec zlib format source limit n p h)
    (fun r _ h => Settled dec zlib format source limit r h)
    (fun n p _ h hinv => by
      obtain ⟨r, h', hround, hkeeps⟩ := outerRound_keeps hincremental hinv
      exact ⟨r, (), h', hround, hkeeps⟩)
    hbetween
  exact ⟨r, h, evaluates_decompress (hincremental.imported []) hlimit hrun, hsettled⟩

end Rounds

namespace Settled

variable {result : Except Raised Bytes} {h : History ZlibQuestion.Answer}

/-- The result is the reference's exactly where no call overruns. -/
theorem same_iff
    (hsettled : Settled dec zlib format source limit result h) :
    result = outcome (reference dec format source limit) ↔ NoneOverruns dec zlib h := by
  rcases hsettled.verdict with ⟨hsame, hkept⟩ | ⟨rfl, hoverruns, hlimit, -⟩
  · exact ⟨fun _ => hkept, fun _ => hsame⟩
  · rw [hlimit]
    exact ⟨nofun, fun hkept => absurd hkept hoverruns⟩

/-- Every result that is no error is the reference's. -/
theorem ok_iff
    (hsettled : Settled dec zlib format source limit result h) (output : Bytes) :
    result = .ok output ↔ reference dec format source limit = .ok output := by
  rcases hsettled.verdict with ⟨rfl, -⟩ | ⟨rfl, -, hlimit, -⟩
  · cases reference dec format source limit with
    | ok output' =>
        exact ⟨fun hok => congrArg Except.ok (Except.ok.inj hok),
          fun hok => congrArg Except.ok (Except.ok.inj hok)⟩
    | error failure =>
        cases failure <;> exact ⟨nofun, nofun⟩
  · rw [hlimit]
    exact ⟨nofun, nofun⟩

end Settled

end Answers

section Claims

variable {σ : Type} {dec : Decoders σ} {zlib : Zlib}

/--
**Bounded decompression does not depend on the chunks**, unless a call fails on a chunk whose
output is one byte beyond the limit.
-/
theorem decompress_chunk_invariant
    (hincremental : Incremental dec zlib)
    (format : Format) (source : Bytes) {limit : Nat}
    (hlimit : limit < maxsize) :
    ∃ result h, Evaluates zlib (decompress source limit format).run () [] result () h ∧
      (result = outcome (reference dec format source limit) ↔ NoneOverruns dec zlib h) ∧
      (¬NoneOverruns dec zlib h → result = .error invalidData ∧
        reference dec format source limit = .error .limitExceeded ∧
        reference dec format source (limit + 1) = .error .corrupted) ∧
      (∀ output, result = .ok output →
        reference dec format source limit = .ok output ∧ output.length ≤ limit ∧
          consumed h = source) ∧
      (∀ larger output, reference dec format source larger = .ok output →
        output.length ≤ limit → result = .ok output) ∧
      Permitted (FeedsNext source) h := by
  obtain ⟨result, h, hrun, hsettled⟩ := decompress_settles hincremental hlimit
  refine ⟨result, h, hrun, hsettled.same_iff, ?_, ?_, ?_, hsettled.inOrder⟩
  · intro hoverruns
    rcases hsettled.verdict with ⟨-, hkept⟩ | ⟨rfl, -, hlimit, hbeyond⟩
    · exact absurd hkept hoverruns
    · exact ⟨rfl, hlimit, hbeyond⟩
  · intro output hok
    have hreference := (hsettled.ok_iff output).mp hok
    exact ⟨hreference, length_le_of_decode _ hreference, hsettled.whole output hok⟩
  · intro larger output hreference hfits
    exact (hsettled.ok_iff output).mpr (decode_of_length_le _ hreference hfits)

/-- One stored block with one byte, at exactly the limit. -/
theorem decompress_stored_block :
    ∃ result h, Evaluates (simulated storedBlocks)
        (decompress [1, 1, 0, 254, 255, 97] 1 .deflate).run () [] result () h ∧
      result = .ok [97] ∧ consumed h = [1, 1, 0, 254, 255, 97] := by
  have hreference : reference storedBlocks .deflate [1, 1, 0, 254, 255, 97] 1 = .ok [97] := by
    rfl
  obtain ⟨result, h, hrun, -, -, hok, haccepts, -⟩ :=
    decompress_chunk_invariant (incremental_simulated storedBlocks) .deflate
      [1, 1, 0, 254, 255, 97] (show 1 < maxsize by decide)
  have hresult := haccepts 1 [97] hreference (by decide)
  exact ⟨result, h, hrun, hresult, (hok [97] hresult).2.2⟩

/-- A stored block with one byte, and a block type that does not exist, without any budget. -/
theorem decompress_overrun :
    Incremental storedBlocks (simulated storedBlocks) ∧
      outcome (reference storedBlocks .deflate [0, 1, 0, 254, 255, 97, 7] 0) =
        .error limitExceeded ∧
      ∃ h, Evaluates (simulated storedBlocks)
        (decompress [0, 1, 0, 254, 255, 97, 7] 0 .deflate).run () [] (.error invalidData) () h := by
  refine ⟨incremental_simulated storedBlocks, rfl, ?history, ?run⟩
  case' run =>
  refine evaluates_decompress rfl (show 0 < maxsize by decide) (evaluates_exceptLoop_raise ?_)
  refine (evaluates_lift _ () _).except_bind (Evaluates.except_bind_error ?_)
  refine evaluates_exceptLoop_raise (evaluates_memberRound none rfl ?_)
  exact .ret _ _ _

end Claims

end Compression
end Bluetape
