import Bluetape.Base.JsonDepth
import Bluetape.CacheRedis.JsonFormat

/-!
# The exceptions of the JSON format

`JsonEnvelopeFormat.decode` turns every exception of its checks and of the reader into an
envelope error, but for the recursion error of the interpreter, which no clause catches.

* `json_decode_contract_iff`: decoding keeps its contract exactly on the data whose text
  does not nest more containers than the interpreter has room for.
-/

namespace Bluetape
namespace CacheRedis

open Base Serde Json

section Caught

/-- The `except` clauses of `decode` see to an exception, if there is one. -/
abbrev Caught {β : Type} (r : Except JsonException β) : Prop :=
  Avoids .recursionError r

theorem rejected_ne :
    rejected ≠ .recursionError := by
  rintro ⟨⟩

theorem caught_readPayload
    (value : Document) :
    Caught (readPayload value) := by
  refine (avoids_orRaise (by rintro ⟨⟩) _).bind fun payloadText _ => ?_
  refine (avoids_raiseIf (by rintro ⟨⟩) _).bind fun _ _ => ?_
  refine (avoids_orRaise (by rintro ⟨⟩) _).bind fun payload _ => ?_
  exact (avoids_raiseIf (by rintro ⟨⟩) _).bind fun _ _ => avoids_ok _ payload

theorem caught_readJsonContentType
    (value : Document) :
    Caught (readJsonContentType value) := by
  unfold readJsonContentType
  split
  · exact avoids_ok _ _
  · refine (avoids_orRaise (by rintro ⟨⟩) _).bind fun contentBytes _ => ?_
    exact (avoids_raiseIf (by rintro ⟨⟩) _).bind fun _ _ => avoids_ok _ _
  · exact avoids_error rejected_ne

theorem caught_readMetadata
    (values : List Document) :
    Caught (readMetadata values) := by
  unfold readMetadata
  split
  · refine (avoids_orRaise (by rintro ⟨⟩) _).bind fun serdeFormat _ => ?_
    refine (avoids_orRaise (by rintro ⟨⟩) _).bind fun serdeVersion _ => ?_
    refine (caught_readJsonContentType _).bind fun contentType _ => ?_
    refine (avoids_orRaise (by rintro ⟨⟩) _).bind fun trustValue _ => ?_
    exact (avoids_orRaise (by rintro ⟨⟩) _).bind fun trustProfile _ =>
      avoids_mapError (by rintro _ ⟨⟩) _
  · exact avoids_error rejected_ne

theorem caught_readDocument
    (values : List Document) :
    Caught (readDocument values) := by
  unfold readDocument
  split
  · refine (avoids_orRaise (by rintro ⟨⟩) _).bind fun metadataValues _ => ?_
    refine (avoids_orRaise (by rintro ⟨⟩) _).bind fun version _ => ?_
    refine (avoids_raiseIf (by rintro ⟨⟩) _).bind fun _ _ => ?_
    refine (avoids_orRaise (by rintro ⟨⟩) _).bind fun owner _ => ?_
    refine (avoids_orRaise (by rintro ⟨⟩) _).bind fun compression _ => ?_
    refine (caught_readPayload _).bind fun payload _ => ?_
    refine (caught_readMetadata _).bind fun metadata _ => ?_
    exact avoids_mapError (by rintro _ ⟨⟩) _
  · exact avoids_error rejected_ne

end Caught

/-- The interpreter gives up on the text of the data. -/
def NestsTooDeep (frames : Nat) (data : Bytes) : Prop :=
  ∃ decoded, decodeUtf8 data = some decoded ∧ NestsBeyond documentHooks frames decoded

theorem scanFailure_recursion_iff
    (r : Except (Failure FormatException) (Document × Text)) :
    r.mapError scanFailure = .error .recursionError ↔ r = .error .recursion := by
  cases r with
  | ok pair =>
      simp [Except.mapError]
  | error failure =>
      cases failure with
      | _ => simp [Except.mapError, scanFailure]

/-- The recursion error comes from the reader only. -/
theorem decodeDocument_recursion_iff
    (frames : Nat) (data : Bytes) :
    decodeDocument frames data = .error .recursionError ↔ NestsTooDeep frames data := by
  constructor
  · intro h
    rcases except_bind_eq_error.mp h with hfail | ⟨decoded, hdecoded, h⟩
    · cases (orRaise_eq_error.mp hfail).2
    · rcases except_bind_eq_error.mp h with hscan | ⟨pair, -, h⟩
      · rw [scanFailure_recursion_iff, scanOnce_recursion_iff] at hscan
        exact ⟨decoded, orRaise_eq_ok.mp hdecoded, hscan⟩
      · refine absurd h ((avoids_raiseIf (by rintro ⟨⟩) _).bind fun _ _ => ?_)
        exact (avoids_orRaise (by rintro ⟨⟩) _).bind fun values _ => caught_readDocument values
  · rintro ⟨decoded, hdecoded, hdeep⟩
    rw [← scanOnce_recursion_iff, ← scanFailure_recursion_iff] at hdeep
    refine except_bind_eq_error.mpr (Or.inr ⟨decoded, orRaise_eq_ok.mpr hdecoded, ?_⟩)
    exact except_bind_eq_error.mpr (Or.inl hdeep)

/--
What `decode` promises: an envelope that its class accepts, or one of the envelope
errors of the module.
-/
def DecodeContract : Except JsonException ResultEnvelope → Prop
  | .ok e => 0 < e.version ∧ isOwnerToken e.ownerToken = true ∧
      isAlgorithm e.compressionAlgorithm = true
  | .error (.format e) => e.isEnvelopeError = true
  | .error _ => False

/-- The `except` clauses turn what they catch into an envelope error. -/
theorem decodeContract_redacted
    {r : Except JsonException ResultEnvelope}
    (h : Caught r) :
    DecodeContract (r.mapError redactedJson) := by
  cases r with
  | ok e =>
      exact ⟨e.version_pos, e.owner_valid, e.algorithm_valid⟩
  | error exception =>
      cases exception with
      | format e =>
          exact redacted_isEnvelopeError e
      | unicodeError =>
          rfl
      | recursionError =>
          exact absurd rfl h

/--
**The error contract of the JSON decoder.**  It holds unless the data has an admissible
size and its text nests more containers than the interpreter has room for.
-/
theorem json_decode_contract_iff
    (format : JsonEnvelopeFormat) (frames : Nat) (data : Bytes) :
    DecodeContract (format.decode frames data) ↔
      ¬ (data.length ≤ format.maxEncodedSize ∧ NestsTooDeep frames data) := by
  rw [← decodeDocument_recursion_iff]
  unfold JsonEnvelopeFormat.decode ensureBound raiseIf
  split
  case isTrue hsize =>
    -- the size error is raised in front of the `try` block
    refine iff_of_true rfl ?_
    rintro ⟨hle, -⟩
    omega
  case isFalse hsize =>
    have hle : data.length ≤ format.maxEncodedSize := Nat.le_of_not_lt hsize
    show DecodeContract ((decodeDocument frames data).mapError redactedJson) ↔ _
    constructor
    · rintro h ⟨-, hfail⟩
      rw [hfail] at h
      exact h
    · intro h
      exact decodeContract_redacted fun hfail => h ⟨hle, hfail⟩

/-! ## Brackets only -/

/-- So many opening brackets. -/
def brackets (n : Nat) : Bytes :=
  List.replicate n (byte '[')

theorem decodeUtf8_brackets
    (n : Nat) :
    decodeUtf8 (brackets n) = some (List.replicate n beginArray) := by
  have hbytes : (List.replicate n '[').flatMap String.utf8EncodeChar = brackets n := by
    induction n with
    | zero =>
        rfl
    | succ n ih =>
        rw [List.replicate_succ, List.flatMap_cons, ih, brackets, brackets, List.replicate_succ]
        rfl
  have hscalars : (List.replicate n beginArray).mapM CodePoint.scalar? =
      some (List.replicate n '[') :=
    scalars_eq_some_iff.mpr List.map_replicate.symm
  rw [← encodeUtf8_eq_some_iff, encodeUtf8, hscalars, Option.map_some, hbytes]

theorem nestsBeyond_brackets
    {ε α : Type} (hooks : Hooks ε α) (n : Nat) :
    NestsBeyond hooks n (List.replicate (n + 1) beginArray) := by
  induction n with
  | zero =>
      exact .array []
  | succ n ih =>
      rw [List.replicate_succ]
      have hspace : skipSpace (List.replicate (n + 1) beginArray) =
          List.replicate (n + 1) beginArray := by
        exact skipSpace_cons (by decide) _
      refine .element ?_ (.here _) (by rw [hspace]; exact ih)
      rw [hspace]
      exact expect_cons_of_ne (by decide) _

/-- The default size limit. -/
def defaultFormat : JsonEnvelopeFormat :=
  ⟨16 * 1024 * 1024, by decide, by decide⟩

/-- A thousand brackets and one, with room for a thousand containers. -/
theorem json_decode_brackets :
    (brackets 1001).length ≤ defaultFormat.maxEncodedSize ∧
      defaultFormat.decode 1000 (brackets 1001) = .error .recursionError ∧
      ¬ DecodeContract (defaultFormat.decode 1000 (brackets 1001)) := by
  have hdeep : NestsTooDeep 1000 (brackets 1001) :=
    ⟨_, decodeUtf8_brackets 1001, nestsBeyond_brackets documentHooks 1000⟩
  have hsize : ¬ defaultFormat.maxEncodedSize < (brackets 1001).length := by
    rw [brackets, List.length_replicate]
    decide
  have hdecode : defaultFormat.decode 1000 (brackets 1001) = .error .recursionError := by
    unfold JsonEnvelopeFormat.decode ensureBound raiseIf
    rw [if_neg hsize, (decodeDocument_recursion_iff 1000 _).mpr hdeep]
    rfl
  refine ⟨Nat.le_of_not_lt hsize, hdecode, ?_⟩
  rw [hdecode]
  exact fun h => h

end CacheRedis
end Bluetape
