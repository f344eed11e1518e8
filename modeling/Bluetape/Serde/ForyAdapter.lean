import Bluetape.Base.Triples
import Bluetape.Serde.ForyEnvelope

/-!
# The Fory adapter among its callers

`ForyAdapter.serialize` and `deserialize`, called by any number of threads.  The
provider's runtimes, the callers and the semaphore's clock answer questions; what a
provider call answers is arbitrary.

* `triple_withPermit`: a permit is given back however the provider call ends;
* `triple_call`: what one call reports, by its arguments and the provider's answer;
* `fory_adapter`: permits, provider calls and reports in every run.
-/

namespace Bluetape
namespace Serde

open Base

/-! ## Calls -/

/-- A call of a public method. -/
inductive ForyCall (V : Type)
  | serialize (value : V) (metadata : PayloadMetadata)
  | deserialize (payload : SerializedPayload) (expected : PayloadMetadata)

/-- What a call returns. -/
inductive ForyResult (V : Type)
  | payload (payload : SerializedPayload)
  | value (value : V)

/-- What a call raises. -/
inductive ForyRaised
  -- an error made by `_new_error`
  | serde (error : ForyError)
  -- the `RuntimeError` of a result that is `None`
  | runtimeError
  -- one of `_FATAL_EXCEPTIONS`
  | fatal
  -- the `ValueError` of a semaphore that is released too often
  | releaseError
deriving DecidableEq, Repr

/-- How `_pool.serialize` ends. -/
inductive ProviderBody
  | bytes (body : Bytes)
  | notBytes
  | registrationFailed
  | failed
  | fatal
deriving DecidableEq, Repr

/-- How `_pool.deserialize` ends, with the reader index of the buffer. -/
inductive ProviderValue (V : Type)
  | value (result : V) (readerIndex : Int)
  | registrationFailed
  | failed
  | fatal

/-- What a caller of the adapter asks. -/
inductive ForyQuestion (V : Type)
  | nextCall
  | acquire
  | release
  | serialize (value : V)
  | deserialize (body : Bytes)
  | report (result : Except ForyRaised (ForyResult V))

/-- `BoundedSemaphore.release` answers false when it raises. -/
abbrev ForyQuestion.Answer {V : Type} : ForyQuestion V → Type
  | nextCall => ForyCall V
  | acquire => Bool
  | release => Bool
  | serialize _ => ProviderBody
  | deserialize _ => ProviderValue V
  | report _ => Unit

/-- A registered adapter; `typeOf` is `type` and `isNone` is `is None`. -/
structure ForyAdapter (τ V : Type) where
  registration : ForyRegistration τ
  limits : ForyLimits
  typeOf : V → τ
  isNone : V → Bool

section Program

variable {τ V : Type} [DecidableEq τ]

/-- Programs of a calling thread. -/
abbrev ForyProc (V α : Type) :=
  ExceptT ForyRaised (Proc Unit Empty (ForyQuestion V) ForyQuestion.Answer) α

/-- Ask and go on with the answer. -/
def askFory (q : ForyQuestion V) : ForyProc V q.Answer :=
  liftM (Proc.request q : Proc Unit Empty (ForyQuestion V) ForyQuestion.Answer q.Answer)

/-- `self._semaphore.release()` -/
def releasePermit : ForyProc V Unit := do
  let released ← askFory .release
  if released then return ()
  else throw .releaseError

/-- The end of the two methods that need a permit for the provider. -/
def withPermit {α : Type} (body : ForyProc V (Except ForyError α)) :
    ForyProc V (Except ForyError α) := do
  let acquired ← askFory .acquire
  if acquired then tryFinally body releasePermit
  else return .error .concurrency

namespace ForyAdapter

variable (adapter : ForyAdapter τ V)

/-- The provider call of `_try_serialize`. -/
def provideBody (value : V) (metadata : PayloadMetadata) :
    ForyProc V (Except ForyError SerializedPayload) := do
  match ← askFory (.serialize value) with
  | .fatal => throw .fatal
  | .registrationFailed => return .error .registration
  | .failed => return .error .encode
  | .notBytes => return .error .encode
  | .bytes body => return adapter.registration.sealPayload adapter.limits metadata body

/-- The provider call of `_try_deserialize`. -/
def provideValue (body : Bytes) : ForyProc V (Except ForyError V) := do
  match ← askFory (.deserialize body) with
  | .fatal => throw .fatal
  | .registrationFailed => return .error .registration
  | .failed => return .error .malformedPayload
  | .value result readerIndex =>
      if readerIndex ≠ body.length then return .error .malformedPayload
      else if adapter.typeOf result ≠ adapter.registration.pythonType then
        return .error .typeMismatch
      else return .ok result

/-- `_try_serialize` -/
def trySerialize (value : V) (metadata : PayloadMetadata) :
    ForyProc V (Except ForyError SerializedPayload) :=
  match metadataError metadata with
  | some error => return .error error
  | none =>
      if adapter.typeOf value ≠ adapter.registration.pythonType then
        return .error .typeMismatch
      else withPermit (adapter.provideBody value metadata)

/-- `_try_deserialize` -/
def tryDeserialize (payload : SerializedPayload) (expected : PayloadMetadata) :
    ForyProc V (Except ForyError V) :=
  match adapter.registration.openPayload adapter.limits payload expected with
  | .error error => return .error error
  | .ok body => withPermit (adapter.provideValue body)

/-- `serialize` and `deserialize` -/
def call : ForyCall V → ForyProc V (ForyResult V)
  | .serialize value metadata => do
      match ← adapter.trySerialize value metadata with
      | .error error => throw (.serde error)
      | .ok payload => return .payload payload
  | .deserialize payload expected => do
      match ← adapter.tryDeserialize payload expected with
      | .error error => throw (.serde error)
      | .ok result =>
          if adapter.isNone result then throw .runtimeError
          else return .value result

/-- A thread that makes one call after the other. -/
def caller : Proc Unit Empty (ForyQuestion V) ForyQuestion.Answer Empty :=
  .loop (fun _ : Unit => do
    let call ← Proc.request ForyQuestion.nextCall
    let result ← (adapter.call call).run
    let _ ← Proc.request (ForyQuestion.report result)
    return .inl ()) ()

end ForyAdapter

end Program

/-! ## The world -/

section World

variable {T τ V : Type} [DecidableEq T] [DecidableEq τ]

/-- What a call has been answered: no permit, or what the provider says. -/
inductive Heard (V : Type)
  | refused
  | body (answer : ProviderBody)
  | value (answer : ProviderValue V)

/--
The counter of the semaphore and, for the record, who has acquired and not released,
the call of each thread and what it has been answered.
-/
structure ForyWorld (T V : Type) where
  free : Nat
  holders : Finset T
  call : T → Option (ForyCall V)
  heard : T → Option (Heard V)

/-- Questions change nothing until they are answered. -/
def answerFory (maxConcurrency : Nat) (t : T) :
    (q : ForyQuestion V) → q.Answer → ForyWorld T V → Option (ForyWorld T V)
  | .nextCall, call, w =>
      some { w with
        call := Function.update w.call t (some call)
        heard := Function.update w.heard t none }
  | .acquire, true, w =>
      if 0 < w.free then
        some { w with free := w.free - 1, holders := insert t w.holders }
      else none
  -- the time is over and there is still no permit
  | .acquire, false, w =>
      if w.free = 0 then
        some { w with heard := Function.update w.heard t (some .refused) }
      else none
  | .release, true, w =>
      if w.free < maxConcurrency then
        some { w with free := w.free + 1, holders := w.holders.erase t }
      else none
  | .release, false, w => if maxConcurrency ≤ w.free then some w else none
  | .serialize _, answer, w =>
      some { w with heard := Function.update w.heard t (some (.body answer)) }
  | .deserialize _, answer, w =>
      some { w with heard := Function.update w.heard t (some (.value answer)) }
  | .report _, (), w => some { w with call := Function.update w.call t none }

/-- The callers of one adapter. -/
def forySystem (T : Type) [DecidableEq T] (adapter : ForyAdapter τ V) :
    System T (ForyWorld T V) Unit Empty (ForyQuestion V) Empty ForyQuestion.Answer where
  view _ _ := ()
  put _ _ w := w
  enabled _ _ _ := true
  issue _ _ w := some w
  answer t q a w := answerFory adapter.limits.maxConcurrency t q a w
  env := Empty.elim

/-- The callers in a world. -/
abbrev ForyPool (T V : Type) :=
  System.Pool T (ForyWorld T V) Unit Empty (ForyQuestion V) ForyQuestion.Answer Empty

/-- What happens in a step of the callers. -/
abbrev ForyLabel (T V : Type) :=
  System.PoolLabel T Empty (ForyQuestion V) Empty (@ForyQuestion.Answer V)

/-- A new adapter and its callers. -/
def foryPool (T : Type) (adapter : ForyAdapter τ V) : ForyPool T V where
  world := ⟨adapter.limits.maxConcurrency, ∅, fun _ => none, fun _ => none⟩
  thread _ := .running adapter.caller

/-! ## What calls report -/

namespace ForyAdapter

variable (adapter : ForyAdapter τ V)

/-- The error of a call that is refused before anything is asked. -/
def refusal : ForyCall V → Option ForyError
  | .serialize value metadata =>
      (metadataError metadata).or
        (if adapter.typeOf value ≠ adapter.registration.pythonType then some .typeMismatch
        else none)
  | .deserialize payload expected =>
      match adapter.registration.openPayload adapter.limits payload expected with
      | .error error => some error
      | .ok _ => none

/-- The call has a payload of this registration, with this body. -/
def Opens (call : ForyCall V) (body : Bytes) : Prop :=
  ∃ payload expected, call = .deserialize payload expected ∧
    adapter.registration.openPayload adapter.limits payload expected = .ok body

/-- The errors that an answer leads to. -/
def Fails (call : ForyCall V) : Heard V → ForyError → Prop
  | .refused, e => e = .concurrency
  | .body .registrationFailed, e => e = .registration
  | .body .failed, e => e = .encode
  | .body .notBytes, e => e = .encode
  | .body (.bytes body), e =>
      e = .payloadLimit .outputLimit ∧ adapter.limits.maxOutputSize < 20 + body.length
  | .value .registrationFailed, e => e = .registration
  | .value .failed, e => e = .malformedPayload
  | .value (.value result readerIndex), e => ∃ body, adapter.Opens call body ∧
      (e = .malformedPayload ∧ readerIndex ≠ body.length ∨
        e = .typeMismatch ∧ adapter.typeOf result ≠ adapter.registration.pythonType)
  | .body .fatal, _ => False
  | .value .fatal, _ => False

/-- What a call may report, given what it has been answered. -/
def Justified (call : ForyCall V) (heard : Option (Heard V)) :
    Except ForyRaised (ForyResult V) → Prop
  | .ok (.payload payload) =>
      ∃ value body, call = .serialize value payload.metadata ∧
        metadataError payload.metadata = none ∧
        adapter.typeOf value = adapter.registration.pythonType ∧
        heard = some (.body (.bytes body)) ∧
        20 + body.length ≤ adapter.limits.maxOutputSize ∧
        adapter.registration.envelope body = some payload.data
  | .ok (.value result) =>
      ∃ body, adapter.Opens call body ∧ heard = some (.value (.value result body.length)) ∧
        adapter.typeOf result = adapter.registration.pythonType ∧ adapter.isNone result = false
  | .error .runtimeError =>
      ∃ body result, adapter.Opens call body ∧
        heard = some (.value (.value result body.length)) ∧ adapter.isNone result = true
  | .error .fatal => heard = some (.body .fatal) ∨ heard = some (.value .fatal)
  | .error .releaseError => False
  | .error (.serde error) =>
      heard = none ∧ adapter.refusal call = some error ∨
      adapter.refusal call = none ∧
        ∃ answer, heard = some answer ∧ adapter.Fails call answer error

/--
What a thread may do: call the provider with a permit and for a call that is not refused,
release a permit that it holds, and report what is justified, without a permit.
-/
def Permitted (t : T) :
    Act Empty (ForyQuestion V) ForyQuestion.Answer → ForyWorld T V → Prop
  | .asked (.serialize value), w => t ∈ w.holders ∧
      ∃ metadata, w.call t = some (.serialize value metadata) ∧
        adapter.refusal (.serialize value metadata) = none
  | .asked (.deserialize body), w => t ∈ w.holders ∧
      ∃ call, w.call t = some call ∧ adapter.Opens call body
  | .answered .release released, w => released = true ∧ t ∈ w.holders
  | .asked (.report result), w => t ∉ w.holders ∧
      ∃ call, w.call t = some call ∧ adapter.Justified call (w.heard t) result
  | _, _ => True

/-! ## Standing -/

/-- Every permit is free or held. -/
def Conserved (w : ForyWorld T V) : Prop :=
  w.free + w.holders.card = adapter.limits.maxConcurrency

/-- What a step of a thread guarantees to the others. -/
structure Guarantee (t : T) (act : Act Empty (ForyQuestion V) ForyQuestion.Answer)
    (w w' : ForyWorld T V) : Prop where
  conserved : adapter.Conserved w → adapter.Conserved w'
  others : ∀ u, u ≠ t →
    (u ∈ w'.holders ↔ u ∈ w.holders) ∧ w'.call u = w.call u ∧ w'.heard u = w.heard u
  permitted : adapter.Permitted t act w

/-- Where a thread is in its call. -/
structure Stands (t : T) (call : Option (ForyCall V)) (held : Prop) (heard : Option (Heard V))
    (w : ForyWorld T V) : Prop where
  conserved : adapter.Conserved w
  call : w.call t = call
  held : t ∈ w.holders ↔ held
  heard : w.heard t = heard

/-- Where a thread is in its call, and what has become of the answer to it. -/
def Leaves {α : Type} (t : T) (call : ForyCall V) (held : Prop) (R : Option (Heard V) → α → Prop)
    (a : α) (w : ForyWorld T V) : Prop :=
  ∃ heard, adapter.Stands t (some call) held heard w ∧ R heard a

section Rules

variable {adapter} {t : T} {c : Option (ForyCall V)} {call : ForyCall V} {held : Prop}
  {heard : Option (Heard V)} {α : Type}

theorem stable_stands :
    (forySystem T adapter).Stable adapter.Guarantee t (adapter.Stands t c held heard) := by
  refine .of_steps (fun e => e.elim) fun u act w w' hne hw hguar => ?_
  obtain ⟨hholders, hcall, hheard⟩ := hguar.others t hne.symm
  exact ⟨hguar.conserved hw.conserved, hcall.trans hw.call, hholders.trans hw.held,
    hheard.trans hw.heard⟩

theorem stable_leaves
    (R : Option (Heard V) → α → Prop) (a : α) :
    (forySystem T adapter).Stable adapter.Guarantee t (adapter.Leaves t call held R a) :=
  .exists fun _ w w' hw hothers => ⟨stable_stands w w' hw.1 hothers, hw.2⟩

omit [DecidableEq T] in
/-- A step that changes nothing, where it is permitted. -/
theorem guarantee_refl
    {act : Act Empty (ForyQuestion V) ForyQuestion.Answer} {w : ForyWorld T V}
    (hpermitted : adapter.Permitted t act w) :
    adapter.Guarantee t act w w :=
  ⟨id, fun _ _ => ⟨Iff.rfl, rfl, rfl⟩, hpermitted⟩

/-- A question that may be asked, by what its answers do. -/
theorem triple_ask
    {q : ForyQuestion V} {R : q.Answer → ForyWorld T V → Prop}
    {J : ForyRaised → ForyWorld T V → Prop}
    (hR : ∀ a, (forySystem T adapter).Stable adapter.Guarantee t (R a))
    (hasked : ∀ w, adapter.Stands t c held heard w → adapter.Permitted t (.asked q) w)
    (hanswer : ∀ a w w', adapter.Stands t c held heard w →
      answerFory adapter.limits.maxConcurrency t q a w = some w' →
      adapter.Guarantee t (.answered q a) w w' ∧ R a w') :
    (forySystem T adapter).Triple adapter.Guarantee t (adapter.Stands t c held heard)
      (askFory q) R J := by
  refine .question stable_stands (W := adapter.Stands t c held heard) stable_stands hR ?_ hanswer
  rintro w w' hw hissue
  obtain rfl := Option.some.inj hissue
  exact ⟨guarantee_refl (hasked w hw), hw⟩

/-- An answer is put on record. -/
theorem stands_heard
    {w : ForyWorld T V} {act : Act Empty (ForyQuestion V) ForyQuestion.Answer} {answer : Heard V}
    (hw : adapter.Stands t c held heard w)
    (hpermitted : adapter.Permitted t act w) :
    adapter.Guarantee t act w { w with heard := Function.update w.heard t (some answer) } ∧
      adapter.Stands t c held (some answer)
        { w with heard := Function.update w.heard t (some answer) } := by
  refine ⟨⟨id, fun u hu => ⟨Iff.rfl, rfl, Function.update_of_ne hu _ _⟩, hpermitted⟩,
    hw.conserved, hw.call, hw.held, Function.update_self _ _ _⟩

/-! ## Permits -/

theorem triple_acquire
    {J : ForyRaised → ForyWorld T V → Prop} :
    (forySystem T adapter).Triple adapter.Guarantee t (adapter.Stands t c False heard)
      (askFory .acquire)
      (fun acquired => adapter.Stands t c (acquired = true)
        (if acquired then heard else some .refused)) J := by
  refine triple_ask (fun _ => stable_stands) (fun _ _ => trivial) fun acquired w w' hw h => ?_
  cases acquired with
  | true =>
      obtain ⟨hfree, h⟩ := Option.ite_none_right_eq_some.mp h
      obtain rfl := Option.some.inj h
      have hnew : t ∉ w.holders := fun hmem => hw.held.mp hmem
      have hkept : adapter.Conserved { w with
          free := w.free - 1, holders := insert t w.holders } := by
        have hsum := hw.conserved
        unfold Conserved at hsum ⊢
        rw [Finset.card_insert_of_notMem hnew]
        show w.free - 1 + _ = _
        omega
      refine ⟨⟨fun _ => hkept, fun u hu => ?_, trivial⟩, hkept, hw.call, ?_, hw.heard⟩
      · simp [hu]
      · simp
  | false =>
      obtain ⟨-, h⟩ := Option.ite_none_right_eq_some.mp h
      obtain rfl := Option.some.inj h
      have hpermitted : adapter.Permitted t (.answered .acquire false) w := trivial
      have hstands : adapter.Stands t c False (some .refused) _ := (stands_heard hw hpermitted).2
      refine ⟨(stands_heard hw hpermitted).1, hstands.conserved, hstands.call, ?_, hstands.heard⟩
      simpa using hstands.held

/-- A holder's release does not raise: its permit is missing from the counter. -/
theorem triple_releasePermit
    {J : ForyRaised → ForyWorld T V → Prop}
    (hJ : ∀ e, (forySystem T adapter).Stable adapter.Guarantee t (J e)) :
    (forySystem T adapter).Triple adapter.Guarantee t (adapter.Stands t c True heard)
      releasePermit (fun _ => adapter.Stands t c False heard) J := by
  refine .bind (M := fun released w => released = true ∧ adapter.Stands t c False heard w) hJ
    (triple_ask ?_ (fun _ _ => trivial) fun released w w' hw h => ?_) fun released => ?_
  · exact fun released w w' hw hothers => ⟨hw.1, stable_stands w w' hw.2 hothers⟩
  · have hmem : t ∈ w.holders := hw.held.mpr trivial
    have hsum := hw.conserved
    have hcard := Finset.card_erase_add_one hmem
    unfold Conserved at hsum
    cases released with
    | true =>
        obtain ⟨-, h⟩ := Option.ite_none_right_eq_some.mp h
        obtain rfl := Option.some.inj h
        have hkept : adapter.Conserved { w with
            free := w.free + 1, holders := w.holders.erase t } := by
          show w.free + 1 + (w.holders.erase t).card = adapter.limits.maxConcurrency
          omega
        refine ⟨⟨fun _ => hkept, fun u hu => ?_, rfl, hmem⟩, rfl, hkept, hw.call, ?_, hw.heard⟩
        · simp [hu]
        · simp
    | false =>
        obtain ⟨hfull, -⟩ := Option.ite_none_right_eq_some.mp h
        omega
  · refine .of_pure fun hreleased => ?_
    rw [if_pos hreleased]
    exact .pure stable_stands fun _ => id

/-- **A permit is given back** however the provider call ends. -/
theorem triple_withPermit
    {body : ForyProc V (Except ForyError α)}
    {R : Option (Heard V) → Except ForyError α → Prop} {K : Option (Heard V) → ForyRaised → Prop}
    (hbody : (forySystem T adapter).Triple adapter.Guarantee t
      (adapter.Stands t (some call) True none) body
      (adapter.Leaves t call True R) (adapter.Leaves t call True K))
    (hrefused : R (some .refused) (.error .concurrency)) :
    (forySystem T adapter).Triple adapter.Guarantee t
      (adapter.Stands t (some call) False none) (withPermit body)
      (adapter.Leaves t call False R) (adapter.Leaves t call False K) := by
  refine .bind (stable_leaves K) triple_acquire fun acquired => ?_
  cases acquired with
  | true =>
      have hback : ∀ {β : Type} {L : Option (Heard V) → β → Prop} (b : β),
          (forySystem T adapter).Triple adapter.Guarantee t (adapter.Leaves t call True L b)
            releasePermit (fun _ => adapter.Leaves t call False L b)
            (adapter.Leaves t call False K) := by
        rintro β L b w ⟨heard, hw, hL⟩
        refine ((triple_releasePermit (stable_leaves K)).weaken (fun _ => id) ?_
          fun _ _ => id) w hw
        exact fun _ w' hw' => ⟨heard, hw', hL⟩
      rw [if_pos rfl]
      refine .tryFinally (stable_leaves R) (stable_leaves K) ?_ hback hback
      refine hbody.weaken (fun w hw => ?_) (fun _ _ => id) fun _ _ => id
      exact ⟨hw.conserved, hw.call, hw.held.trans (iff_true_intro rfl), hw.heard⟩
  | false =>
      rw [if_neg Bool.false_ne_true]
      refine .pure stable_stands fun w hw => ⟨_, ⟨hw.conserved, hw.call, ?_, hw.heard⟩, hrefused⟩
      simpa using hw.held

/-! ## Provider calls -/

omit [DecidableEq T] in
theorem refusal_serialize
    {value : V} {metadata : PayloadMetadata} :
    adapter.refusal (.serialize value metadata) = none ↔
      metadataError metadata = none ∧ adapter.typeOf value = adapter.registration.pythonType := by
  simp [refusal]

omit [DecidableEq T] in
theorem refusal_of_opens
    {body : Bytes}
    (h : adapter.Opens call body) :
    adapter.refusal call = none := by
  obtain ⟨payload, expected, rfl, hopen⟩ := h
  simp [refusal, hopen]

/-- What an attempt reports in the end. -/
def finish (adapter : ForyAdapter τ V) :
    Except ForyError (ForyResult V) → Except ForyRaised (ForyResult V)
  | .error error => .error (.serde error)
  | .ok (.payload payload) => .ok (.payload payload)
  | .ok (.value result) =>
      if adapter.isNone result then .error .runtimeError else .ok (.value result)

omit [DecidableEq T] [DecidableEq τ] in
theorem finish_value
    (result : V) :
    adapter.finish (.ok (.value result)) =
      if adapter.isNone result = true then .error .runtimeError else .ok (.value result) := by
  rfl

/-- The attempt may report what it has come to. -/
def Attempted (adapter : ForyAdapter τ V) (call : ForyCall V) (make : α → ForyResult V)
    (heard : Option (Heard V)) (r : Except ForyError α) : Prop :=
  adapter.Justified call heard (adapter.finish (r.map make))

/-- The call may raise the exception. -/
def Raises (adapter : ForyAdapter τ V) (call : ForyCall V) (heard : Option (Heard V))
    (e : ForyRaised) : Prop :=
  adapter.Justified call heard (.error e)

theorem triple_provideBody
    {value : V} {metadata : PayloadMetadata}
    (hcall : call = .serialize value metadata)
    (haccepted : adapter.refusal call = none) :
    (forySystem T adapter).Triple adapter.Guarantee t (adapter.Stands t (some call) True none)
      (adapter.provideBody value metadata)
      (adapter.Leaves t call True (adapter.Attempted call .payload))
      (adapter.Leaves t call True (adapter.Raises call)) := by
  refine .bind (M := fun answer => adapter.Stands t (some call) True (some (.body answer)))
    (stable_leaves _) (triple_ask (fun _ => stable_stands) (fun w hw => ?_)
      fun answer w w' hw h => ?_) fun answer => ?_
  · subst hcall
    exact ⟨hw.held.mpr trivial, metadata, hw.call, haccepted⟩
  · obtain rfl := Option.some.inj h
    exact stands_heard hw trivial
  · cases answer with
    | fatal =>
        exact .throw stable_stands fun w hw => ⟨_, hw, .inl rfl⟩
    | registrationFailed | failed | notBytes =>
        exact .pure stable_stands fun w hw => ⟨_, hw, .inr ⟨haccepted, _, rfl, rfl⟩⟩
    | bytes body =>
        refine .pure stable_stands fun w hw => ⟨_, hw, ?_⟩
        cases hsealed : adapter.registration.sealPayload adapter.limits metadata body with
        | error e =>
            exact .inr ⟨haccepted, _, rfl,
              ForyRegistration.sealPayload_eq_error_iff.mp hsealed⟩
        | ok payload =>
            obtain ⟨hlimit, rfl, hdata⟩ := ForyRegistration.sealPayload_eq_ok_iff.mp hsealed
            subst hcall
            obtain ⟨hmetadata, htype⟩ := refusal_serialize.mp haccepted
            exact ⟨value, body, rfl, hmetadata, htype, rfl, hlimit, hdata⟩

theorem triple_provideValue
    {body : Bytes}
    (hopens : adapter.Opens call body) :
    (forySystem T adapter).Triple adapter.Guarantee t (adapter.Stands t (some call) True none)
      (adapter.provideValue body)
      (adapter.Leaves t call True (adapter.Attempted call .value))
      (adapter.Leaves t call True (adapter.Raises call)) := by
  have haccepted := refusal_of_opens hopens
  refine .bind (M := fun answer => adapter.Stands t (some call) True (some (.value answer)))
    (stable_leaves _) (triple_ask (fun _ => stable_stands) (fun w hw => ?_)
      fun answer w w' hw h => ?_) fun answer => ?_
  · exact ⟨hw.held.mpr trivial, call, hw.call, hopens⟩
  · obtain rfl := Option.some.inj h
    exact stands_heard hw trivial
  · cases answer with
    | fatal =>
        exact .throw stable_stands fun w hw => ⟨_, hw, .inr rfl⟩
    | registrationFailed | failed =>
        exact .pure stable_stands fun w hw => ⟨_, hw, .inr ⟨haccepted, _, rfl, rfl⟩⟩
    | value result readerIndex =>
        dsimp only
        by_cases hindex : readerIndex = body.length
        · subst hindex
          by_cases htype : adapter.typeOf result = adapter.registration.pythonType
          · rw [if_neg (not_not_intro rfl), if_neg (not_not_intro htype)]
            refine .pure stable_stands fun w hw => ⟨_, hw, ?_⟩
            show adapter.Justified call _ (adapter.finish (.ok (.value result)))
            cases hnone : adapter.isNone result with
            | true =>
                rw [finish_value, hnone, if_pos rfl]
                exact ⟨body, result, hopens, rfl, hnone⟩
            | false =>
                rw [finish_value, hnone, if_neg Bool.false_ne_true]
                exact ⟨body, hopens, rfl, htype, hnone⟩
          · rw [if_neg (not_not_intro rfl), if_pos htype]
            exact .pure stable_stands fun w hw => ⟨_, hw, .inr ⟨haccepted, _, rfl, body,
              hopens, .inr ⟨rfl, htype⟩⟩⟩
        · rw [if_pos hindex]
          exact .pure stable_stands fun w hw => ⟨_, hw, .inr ⟨haccepted, _, rfl, body,
            hopens, .inl ⟨rfl, hindex⟩⟩⟩

/-! ## One call -/

theorem triple_refused
    {make : α → ForyResult V} {error : ForyError}
    (hrefusal : adapter.refusal call = some error) :
    (forySystem T adapter).Triple adapter.Guarantee t (adapter.Stands t (some call) False none)
      (pure (.error error))
      (adapter.Leaves t call False (adapter.Attempted call make))
      (adapter.Leaves t call False (adapter.Raises call)) :=
  .pure stable_stands fun _ hw => ⟨none, hw, .inl ⟨rfl, hrefusal⟩⟩

theorem triple_trySerialize
    {value : V} {metadata : PayloadMetadata}
    (hcall : call = .serialize value metadata) :
    (forySystem T adapter).Triple adapter.Guarantee t (adapter.Stands t (some call) False none)
      (adapter.trySerialize value metadata)
      (adapter.Leaves t call False (adapter.Attempted call .payload))
      (adapter.Leaves t call False (adapter.Raises call)) := by
  unfold trySerialize
  cases hmetadata : metadataError metadata with
  | some error =>
      exact triple_refused (by simp [hcall, refusal, hmetadata])
  | none =>
      by_cases htype : adapter.typeOf value = adapter.registration.pythonType
      · have haccepted : adapter.refusal call = none := by
          rw [hcall]
          exact refusal_serialize.mpr ⟨hmetadata, htype⟩
        rw [if_neg (not_not_intro htype)]
        exact triple_withPermit (triple_provideBody hcall haccepted)
          (.inr ⟨haccepted, _, rfl, rfl⟩)
      · rw [if_pos htype]
        exact triple_refused (by simp [hcall, refusal, hmetadata, htype])

theorem triple_tryDeserialize
    {payload : SerializedPayload} {expected : PayloadMetadata}
    (hcall : call = .deserialize payload expected) :
    (forySystem T adapter).Triple adapter.Guarantee t (adapter.Stands t (some call) False none)
      (adapter.tryDeserialize payload expected)
      (adapter.Leaves t call False (adapter.Attempted call .value))
      (adapter.Leaves t call False (adapter.Raises call)) := by
  unfold tryDeserialize
  cases hopen : adapter.registration.openPayload adapter.limits payload expected with
  | error error =>
      exact triple_refused (by simp [hcall, refusal, hopen])
  | ok body =>
      have hopens : adapter.Opens call body := ⟨payload, expected, hcall, hopen⟩
      exact triple_withPermit (triple_provideValue hopens)
        (.inr ⟨refusal_of_opens hopens, _, rfl, rfl⟩)

/-- **One call** ends without a permit, in what its arguments and the provider justify. -/
theorem triple_call
    (call : ForyCall V) :
    (forySystem T adapter).Triple adapter.Guarantee t (adapter.Stands t (some call) False none)
      (adapter.call call)
      (adapter.Leaves t call False fun heard result => adapter.Justified call heard (.ok result))
      (adapter.Leaves t call False (adapter.Raises call)) := by
  cases call with
  | serialize value metadata =>
      have hstable : ∀ r, (forySystem T adapter).Stable adapter.Guarantee t (adapter.Leaves t
          (.serialize value metadata) False
          (adapter.Attempted (.serialize value metadata) .payload) r) := fun r => stable_leaves _ r
      refine .bind (stable_leaves _) (triple_trySerialize rfl) fun r => ?_
      cases r with
      | error error =>
          exact .throw (hstable _) fun w hw => hw
      | ok payload =>
          exact .pure (hstable _) fun w hw => hw
  | deserialize payload expected =>
      have hstable : ∀ r, (forySystem T adapter).Stable adapter.Guarantee t (adapter.Leaves t
          (.deserialize payload expected) False
          (adapter.Attempted (.deserialize payload expected) .value) r) :=
        fun r => stable_leaves _ r
      refine .bind (stable_leaves _) (triple_tryDeserialize rfl) fun r => ?_
      cases r with
      | error error =>
          exact .throw (hstable _) fun w hw => hw
      | ok result =>
          dsimp only
          cases hnone : adapter.isNone result with
          | true =>
              rw [if_pos rfl]
              refine .throw (hstable _) fun w ⟨heard, hw, hjustified⟩ => ⟨heard, hw, ?_⟩
              show adapter.Justified _ heard (.error .runtimeError)
              rwa [Attempted, Except.map, finish_value, hnone, if_pos rfl] at hjustified
          | false =>
              rw [if_neg Bool.false_ne_true]
              refine .pure (hstable _) fun w ⟨heard, hw, hjustified⟩ => ⟨heard, hw, ?_⟩
              show adapter.Justified _ heard (.ok (.value result))
              rwa [Attempted, Except.map, finish_value, hnone, if_neg Bool.false_ne_true]
                at hjustified

/-! ## Threads -/

/-- Between two calls. -/
def Idle (adapter : ForyAdapter τ V) (t : T) (w : ForyWorld T V) : Prop :=
  ∃ call heard, adapter.Stands t call False heard w

/-- A call ends without a permit, in what it may report. -/
theorem wp_call
    (call : ForyCall V) {w : ForyWorld T V}
    (hw : adapter.Stands t (some call) False none w) :
    (forySystem T adapter).wp adapter.Guarantee t (adapter.call call).run
      (adapter.Leaves t call False (adapter.Justified call)) w := by
  refine System.wp_mono _ ?_ (triple_call call w hw)
  rintro (e | result) w' hw'
  · exact hw'
  · exact hw'

/-- A report leaves its thread without a call. -/
theorem wp_report
    {result : Except ForyRaised (ForyResult V)} {w : ForyWorld T V}
    (hw : adapter.Leaves t call False (adapter.Justified call) result w) :
    (forySystem T adapter).wp adapter.Guarantee t (Proc.request (.report result))
      (fun _ => adapter.Idle t) w := by
  obtain ⟨heard, hw, hjustified⟩ := hw
  refine System.wp_ask (R := adapter.Stands t (some call) False heard) stable_stands stable_stands
    (fun w w' hw h => ?_) (fun _ w w' hw h => ?_) hw
  · obtain rfl := Option.some.inj h
    refine ⟨guarantee_refl ⟨hw.held.mp, call, hw.call, ?_⟩, hw⟩
    rwa [hw.heard]
  · obtain rfl := Option.some.inj h
    refine ⟨⟨id, fun u hu => ⟨Iff.rfl, Function.update_of_ne hu _ _, rfl⟩, trivial⟩, ?_⟩
    refine System.wp_ret (P := adapter.Stands t none False heard) stable_stands
      (fun w hw => ⟨none, heard, hw⟩) ?_
    exact ⟨hw.conserved, Function.update_self _ _ _, hw.held, hw.heard⟩

/-- A thread that calls again and again never ends and keeps its guarantee. -/
theorem wp_caller
    {w : ForyWorld T V}
    (hw : adapter.Idle t w) :
    (forySystem T adapter).wp adapter.Guarantee t adapter.caller (fun _ _ => False) w := by
  refine System.wp_loop (fun _ => adapter.Idle t) (fun _ w ⟨call, heard, hw⟩ => ?_) hw
    fun r => r.elim
  refine System.wp_ask (R := adapter.Stands t call False heard) stable_stands stable_stands
    (fun w w' hw h => ?_) (fun call' w w' hw h => ?_) hw
  · obtain rfl := Option.some.inj h
    exact ⟨guarantee_refl trivial, hw⟩
  · obtain rfl := Option.some.inj h
    refine ⟨⟨id, fun u hu => ⟨Iff.rfl, Function.update_of_ne hu _ _,
      Function.update_of_ne hu _ _⟩, trivial⟩, ?_⟩
    refine System.wp_bind (adapter.call call').run _
      (System.wp_mono _ (fun result w'' hw'' => ?_) (wp_call call' ?_))
    · refine System.wp_bind (Proc.request (ForyQuestion.report result)) _
        (System.wp_mono _ (fun _ w₃ hw₃ => ?_) (wp_report hw''))
      obtain ⟨call₃, heard₃, hw₃⟩ := hw₃
      exact System.wp_ret stable_stands (fun w hw => ⟨call₃, heard₃, hw⟩) hw₃
    · exact ⟨hw.conserved, Function.update_self _ _ _, hw.held, Function.update_self _ _ _⟩

end Rules

/-! ## Runs -/

variable {adapter}

theorem sound_foryPool :
    (foryPool T adapter).Sound (forySystem T adapter) adapter.Guarantee (fun _ _ _ => False) := by
  intro t
  refine wp_caller ⟨none, none, ?_, rfl, ?_, rfl⟩
  · simp [Conserved, foryPool]
  · simp [foryPool]

/-- A pool in which every caller keeps its guarantee, and the permits are conserved. -/
structure Sound (adapter : ForyAdapter τ V) (c : ForyPool T V) : Prop where
  threads : c.Sound (forySystem T adapter) adapter.Guarantee (fun _ _ _ => False)
  conserved : adapter.Conserved c.world

/-- **Step lemma**: a step is permitted, and the pool stays sound. -/
theorem Sound.step
    {c c' : ForyPool T V} {l : ForyLabel T V}
    (hc : adapter.Sound c)
    (hstep : System.PoolStep (forySystem T adapter) c l c') :
    (∀ t act, l = .thread t act → adapter.Permitted t act c.world) ∧ adapter.Sound c' := by
  obtain ⟨hguar, hthreads⟩ := System.Pool.sound_step hc.threads hstep
  cases l with
  | env e =>
      exact e.elim
  | thread t act =>
      rcases hguar with hguar | ⟨rfl, hsame⟩
      · refine ⟨?_, hthreads, hguar.conserved hc.conserved⟩
        rintro _ _ ⟨⟩
        exact hguar.permitted
      · refine ⟨?_, hthreads, hsame ▸ hc.conserved⟩
        rintro _ _ ⟨⟩
        trivial

/--
**The adapter among its callers.**  In every run of any number of threads, whatever the
provider answers: the permits are conserved, a thread calls the provider with a permit and
an accepted call only, releases its own permit without an error, and reports without a
permit what its call and the provider's answer justify.
-/
theorem fory_adapter
    (adapter : ForyAdapter τ V) {ls : List (ForyLabel T V)} {c : ForyPool T V}
    (hrun : Run (System.PoolStep (forySystem T adapter)) (foryPool T adapter) ls c) :
    Run.EachStep (System.PoolStep (forySystem T adapter))
      (fun c l _ => ∀ t act, l = .thread t act → adapter.Permitted t act c.world)
      (foryPool T adapter) ls c ∧
    adapter.Conserved c.world := by
  have hstart : adapter.Sound (foryPool T adapter) :=
    ⟨sound_foryPool, by simp [Conserved, foryPool]⟩
  refine ⟨hrun.eachStep (I := fun c => adapter.Sound c) (fun _ _ _ hc hstep => hc.step hstep)
    hstart, ?_⟩
  exact (hrun.invariant (I := fun c => adapter.Sound c)
    (fun _ _ _ hc hstep => (hc.step hstep).2) hstart).conserved

/-! ### Two callers and one permit -/

section Example

deriving instance DecidableEq for SerializedPayload, ForyResult, ForyQuestion

/-- `bool` is registered. -/
def boolAdapter : ForyAdapter Unit Bool where
  registration :=
    { pythonType := (), schemaId := 7, schemaVersion := 1, typeId := 9
      schemaId_valid := by decide, schemaVersion_valid := by decide, typeId_valid := by decide }
  limits :=
    { maxInputSize := 64, maxOutputSize := 64, maxConcurrency := 1
      maxInputSize_valid := by decide, maxOutputSize_valid := by decide
      maxConcurrency_valid := by decide }
  typeOf _ := ()
  isNone _ := false

/-- The metadata of the format. -/
def foryMetadata : PayloadMetadata :=
  ⟨foryFormat, foryVersion, some foryContentType, .trustedInternal, by decide, by decide⟩

/-- One caller serializes while the other one waits in vain for the permit. -/
def onePermitRun : List (System.Choice (Fin 2) (ForyQuestion Bool) Empty ForyQuestion.Answer) :=
  [.run 0, .run 0, .answer 0 .nextCall (.serialize true foryMetadata),
    .run 0, .answer 0 .acquire true, .run 0,
    .run 1, .run 1, .answer 1 .nextCall (.serialize false foryMetadata),
    .run 1, .answer 1 .acquire false, .run 1,
    .answer 0 (.serialize true) (.bytes [1, 2]), .run 0, .answer 0 .release true, .run 0]

theorem onePermitRun_reported :
    ((forySystem (Fin 2) boolAdapter).schedule (foryPool (Fin 2) boolAdapter) onePermitRun).map
      (fun c => (c.world.free, (c.world.heard 0).isSome, (c.world.heard 1).isSome)) =
        some (1, true, true) := by
  decide

theorem fory_adapter_onePermit :
    ∃ ls c, Run (System.PoolStep (forySystem (Fin 2) boolAdapter)) (foryPool (Fin 2) boolAdapter)
        ls c ∧ c.world.free = 1 ∧
      Run.EachStep (System.PoolStep (forySystem (Fin 2) boolAdapter))
        (fun c l _ => ∀ t act, l = .thread t act → boolAdapter.Permitted t act c.world)
        (foryPool (Fin 2) boolAdapter) ls c ∧
      boolAdapter.Conserved c.world := by
  obtain ⟨c, hschedule, hworld⟩ := Option.map_eq_some_iff.mp onePermitRun_reported
  obtain ⟨ls, hrun⟩ := System.schedule_run hschedule
  exact ⟨ls, c, hrun, congrArg Prod.fst hworld, fory_adapter boolAdapter hrun⟩

end Example

end ForyAdapter

end World

end Serde
end Bluetape
