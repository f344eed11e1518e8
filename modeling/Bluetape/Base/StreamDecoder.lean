import Mathlib.Data.List.Basic
import Mathlib.Tactic

/-!
# Stream decoders

A stream decoder reads one symbol at a time and writes words.  A stream ends by itself, or it
is rejected at some symbol.

* `feed`: what a decoder makes of a whole chunk;
* `decode`: one stream, or streams one after the other, up to an output limit, decided symbol
  by symbol;
* `decode_append`: `decode` reads a chunk as `feed` does;
* `length_le_of_decode`, `decode_of_length_le`: the limit bounds the output, and every output
  within the limit is accepted.
-/

namespace Bluetape
namespace Base

/-- After one symbol. -/
inductive Status (σ : Type)
  | more (state : σ)
  | finished
  | rejected

/-- Inside a stream, or after the end of one. -/
inductive Phase (σ : Type)
  | inside (state : σ)
  | ended

/-- Where the next symbol is read, if it is. -/
def Status.next {σ : Type} : Status σ → Option (Phase σ)
  | .more s => some (.inside s)
  | .finished => some .ended
  | .rejected => none

/-- A decoder of streams over `ι` that writes words over `ω`. -/
structure StreamDecoder (σ ι ω : Type) where
  start : σ
  step : σ → ι → List ω × Status σ

namespace StreamDecoder

variable {σ ι ω : Type} (dec : StreamDecoder σ ι ω)

/-- After a chunk; a stream that has finished leaves the rest of the chunk. -/
inductive Reading (σ ι : Type)
  | more (state : σ)
  | finished (rest : List ι)
  | rejected

/-- What is written for a chunk, and what comes after it. -/
def feed (s : σ) : List ι → List ω × Reading σ ι
  | [] => ([], .more s)
  | b :: chunk =>
      match dec.step s b with
      | (written, .more s') => (written ++ (feed s' chunk).1, (feed s' chunk).2)
      | (written, .finished) => (written, .finished chunk)
      | (written, .rejected) => (written, .rejected)

@[simp] theorem feed_nil
    (s : σ) :
    dec.feed s [] = ([], .more s) := by
  rfl

/-- A stream that finishes has read a symbol at least. -/
theorem rest_of_finished
    {s : σ} {chunk rest : List ι} {written : List ω}
    (hfeed : dec.feed s chunk = (written, .finished rest)) :
    ∃ b read, chunk = b :: read ++ rest := by
  induction chunk generalizing s written with
  | nil =>
      simp at hfeed
  | cons b chunk ih =>
      rw [feed] at hfeed
      split at hfeed
      case h_1 w s' _ =>
        obtain ⟨c, read, hchunk⟩ := ih (Prod.ext rfl (Prod.mk.inj hfeed).2)
        exact ⟨b, c :: read, congrArg (b :: ·) hchunk⟩
      case h_2 =>
        obtain ⟨-, hrest⟩ := Prod.mk.inj hfeed
        cases hrest
        exact ⟨b, [], rfl⟩
      case h_3 =>
        cases (Prod.mk.inj hfeed).2

/-- Why there is no output. -/
inductive Failure
  | limitExceeded
  | corrupted
deriving DecidableEq, Repr

/-- The state that reads the next symbol; after a stream only another one may follow. -/
def resume (several : Bool) : Phase σ → Option σ
  | .inside s => some s
  | .ended => if several then some dec.start else none

/--
One stream with nothing after it, or several, symbol by symbol.  The first output beyond the
limit stops, and so does the first symbol that is rejected.
-/
def decode (several : Bool) : Phase σ → Nat → List ι → Except Failure (List ω)
  | .inside _, _, [] => .error .corrupted
  | .ended, _, [] => .ok []
  | phase, limit, b :: input =>
      match dec.resume several phase with
      | none => .error .corrupted
      | some s =>
          if limit < (dec.step s b).1.length then .error .limitExceeded
          else
            match (dec.step s b).2.next with
            | some phase' =>
                (decode several phase' (limit - (dec.step s b).1.length) input).map
                  ((dec.step s b).1 ++ ·)
            | none => .error .corrupted

section Decode

variable {several : Bool}

@[simp] theorem decode_inside_nil
    (s : σ) (limit : Nat) :
    dec.decode several (.inside s) limit [] = .error .corrupted := by
  rfl

@[simp] theorem decode_ended_nil
    (limit : Nat) :
    dec.decode several .ended limit [] = .ok [] := by
  rfl

/-- After a stream, the next symbol starts another one. -/
theorem decode_ended_cons
    (limit : Nat) (b : ι) (input : List ι) :
    dec.decode true .ended limit (b :: input) =
      dec.decode true (.inside dec.start) limit (b :: input) := by
  rfl

/-- Nothing follows a single stream. -/
theorem decode_ended_single
    (limit : Nat) (b : ι) (input : List ι) :
    dec.decode false .ended limit (b :: input) = .error .corrupted := by
  rfl

/-- What is left to decode after a chunk whose output is within the limit. -/
def resumed (several : Bool) (limit : Nat) (rest : List ι) :
    Reading σ ι → Except Failure (List ω)
  | .more s => dec.decode several (.inside s) limit rest
  | .finished left => dec.decode several .ended limit (left ++ rest)
  | .rejected => .error .corrupted

/-- The first symbol, when a state reads it. -/
theorem decode_cons
    {phase : Phase σ} {s : σ}
    (hresume : dec.resume several phase = some s)
    (limit : Nat) (b : ι) (input : List ι) :
    dec.decode several phase limit (b :: input) =
      if limit < (dec.step s b).1.length then .error .limitExceeded
      else
        match (dec.step s b).2.next with
        | some phase' =>
            (dec.decode several phase' (limit - (dec.step s b).1.length) input).map
              ((dec.step s b).1 ++ ·)
        | none => .error .corrupted := by
  rw [decode, hresume]

theorem map_append_append
    (u v : List ω) (result : Except Failure (List ω)) :
    (result.map (v ++ ·)).map (u ++ ·) = result.map (u ++ v ++ ·) := by
  cases result with
  | error e =>
      rfl
  | ok output =>
      exact congrArg Except.ok (List.append_assoc u v output).symm

/-- **A chunk is read as a whole**: its output is written, or it exceeds the limit. -/
theorem decode_append
    (s : σ) (limit : Nat) (chunk rest : List ι) :
    dec.decode several (.inside s) limit (chunk ++ rest) =
      if limit < (dec.feed s chunk).1.length then .error .limitExceeded
      else
        (dec.resumed several (limit - (dec.feed s chunk).1.length) rest (dec.feed s chunk).2).map
          ((dec.feed s chunk).1 ++ ·) := by
  induction chunk generalizing s limit with
  | nil =>
      change dec.decode several (.inside s) limit rest =
        (dec.decode several (.inside s) limit rest).map ([] ++ ·)
      cases dec.decode several (.inside s) limit rest <;> rfl
  | cons b chunk ih =>
      rw [List.cons_append, dec.decode_cons rfl, feed]
      obtain ⟨written, status⟩ := dec.step s b
      by_cases hexceeds : limit < written.length
      · -- the first symbol alone goes beyond the limit, and so does the chunk
        rw [if_pos hexceeds, if_pos]
        cases status with
        | more s' =>
            exact hexceeds.trans_le (by simp)
        | finished =>
            exact hexceeds
        | rejected =>
            exact hexceeds
      · rw [if_neg hexceeds]
        cases status with
        | more s' =>
            change (dec.decode several (.inside s') (limit - written.length)
                (chunk ++ rest)).map (written ++ ·) = _
            rw [ih]
            by_cases hlater : limit - written.length < (dec.feed s' chunk).1.length
            · rw [if_pos hlater, if_pos]
              · rfl
              · simp only [List.length_append]
                omega
            · rw [if_neg hlater, if_neg, map_append_append]
              · simp only [List.length_append, Nat.sub_add_eq]
              · simp only [List.length_append]
                omega
        | finished =>
            exact (if_neg hexceeds).symm
        | rejected =>
            exact (if_neg hexceeds).symm

/-- A decoded input, symbol by symbol. -/
theorem decode_cons_ok
    {phase : Phase σ} {limit : Nat} {b : ι} {input : List ι} {output : List ω}
    (hdecode : dec.decode several phase limit (b :: input) = .ok output) :
    ∃ s next later, dec.resume several phase = some s ∧
      (dec.step s b).1.length ≤ limit ∧
      (dec.step s b).2.next = some next ∧
      dec.decode several next (limit - (dec.step s b).1.length) input = .ok later ∧
      output = (dec.step s b).1 ++ later := by
  cases hresume : dec.resume several phase with
  | none =>
      rw [decode, hresume] at hdecode
      cases hdecode
  | some s =>
      rw [dec.decode_cons hresume] at hdecode
      split at hdecode
      case isTrue =>
        cases hdecode
      case isFalse hexceeds =>
        cases hnext : (dec.step s b).2.next with
        | none =>
            rw [hnext] at hdecode
            cases hdecode
        | some next =>
            cases hlater : dec.decode several next (limit - (dec.step s b).1.length) input with
            | error e =>
                simp [hnext, hlater, Except.map] at hdecode
            | ok later =>
                simp only [hnext, hlater, Except.map, Except.ok.injEq] at hdecode
                exact ⟨s, next, later, rfl, Nat.le_of_not_lt hexceeds, hnext, hlater,
                  hdecode.symm⟩

/-- The output is within the limit. -/
theorem length_le_of_decode
    {phase : Phase σ} {limit : Nat} {input : List ι} {output : List ω}
    (hdecode : dec.decode several phase limit input = .ok output) :
    output.length ≤ limit := by
  induction input generalizing phase limit output with
  | nil =>
      cases phase with
      | inside s =>
          cases hdecode
      | ended =>
          cases hdecode
          exact Nat.zero_le limit
  | cons b input ih =>
      obtain ⟨s, next, later, -, hfits, -, hlater, rfl⟩ := dec.decode_cons_ok hdecode
      have hlength := ih hlater
      rw [List.length_append]
      omega

/-- An output that is within a limit is accepted under that limit. -/
theorem decode_of_length_le
    {phase : Phase σ} {limit limit' : Nat} {input : List ι} {output : List ω}
    (hdecode : dec.decode several phase limit input = .ok output)
    (hlimit : output.length ≤ limit') :
    dec.decode several phase limit' input = .ok output := by
  induction input generalizing phase limit limit' output with
  | nil =>
      cases phase with
      | inside s =>
          cases hdecode
      | ended =>
          exact hdecode
  | cons b input ih =>
      obtain ⟨s, next, later, hresume, -, hnext, hlater, rfl⟩ := dec.decode_cons_ok hdecode
      rw [List.length_append] at hlimit
      have hrest : dec.decode several next (limit' - (dec.step s b).1.length) input = .ok later :=
        ih hlater (by omega)
      rw [dec.decode_cons hresume, if_neg (by omega), hnext]
      exact congrArg (Except.map _) hrest

end Decode

end StreamDecoder
end Base
end Bluetape
