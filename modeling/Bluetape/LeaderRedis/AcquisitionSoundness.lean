import Bluetape.LeaderRedis.AcquisitionTrace

/-!
# Uncertain acquisitions are reconciled soundly

Every call of `try_acquire` keeps the trace and ends in what the trace allows: a
handle comes with a record that the call's own ACQUIRE has created, and no handle
after contended attempts only.

* `Ensures`: triples for the code of a call among the steps of all others;
* `ensures_tryAcquire`: the specification of a call;
* `reconciliation_sound`: what every run of calls satisfies.
-/

namespace Bluetape
namespace LeaderRedis

open Base

variable {ι : Type} [DecidableEq ι]

/-- What a step of a call guarantees to the others. -/
structure AcquireGuarantee (tokens : ι → Bytes) (t : ι)
    (_ : Act HandleSection HandleQuestion HandleQuestion.Answer)
    (w w' : AcquireWorld ι) : Prop where
  traced : Traced tokens w → Traced tokens w'
  others : ∀ u, u ≠ t → w'.wire u = w.wire u
  history : w'.history = w.history

omit [DecidableEq ι] in
theorem AcquireGuarantee.refl
    {tokens : ι → Bytes} {t : ι} {act : Act HandleSection HandleQuestion HandleQuestion.Answer}
    {w : AcquireWorld ι} :
    AcquireGuarantee tokens t act w w :=
  ⟨id, fun _ _ => rfl, rfl⟩

/-- The trace is kept, and the call has sent and been told so much. -/
def At (tokens : ι → Bytes) (t : ι) (events : List WireEvent) (w : AcquireWorld ι) : Prop :=
  Traced tokens w ∧ (w.wire t).events = events

/-- What an answer to a command means. -/
def Knows (tokens : ι → Bytes) (t : ι) (w : AcquireWorld ι) : ScriptAnswer → Prop
  | .reply raw => ∃ reply : Reply, raw = reply.wire ∧ Told tokens w t reply
  | _ => True

/-! ## What the others leave alone -/

section Stability

variable {tokens : ι → Bytes} (htokens : Function.Injective tokens) {t : ι}

theorem acquireEvent_frame
    {w w' : AcquireWorld ι} {e : AcquireEvent tokens}
    (h : acquireEvent w e = some w') (t : ι) :
    (w'.wire t).events = (w.wire t).events ∧ ∀ ev ∈ w.history, ev ∈ w'.history := by
  cases e with
  | advance ms =>
      obtain rfl := Option.some.inj h
      exact ⟨rfl, fun _ => id⟩
  | foreign call hforeign =>
      obtain rfl := Option.some.inj h
      exact ⟨rfl, Traced.mem_execute w none call⟩
  | executeCurrent u =>
      obtain ⟨call, -, rfl⟩ := Option.map_eq_some_iff.mp h
      refine ⟨?_, Traced.mem_execute w (some u) call⟩
      by_cases hu : t = u
      · subst hu
        simp [AcquireWorld.setWire]
      · simp [AcquireWorld.setWire, AcquireWorld.execute, hu]
  | executeStale u k =>
      obtain ⟨call, -, rfl⟩ := Option.map_eq_some_iff.mp h
      refine ⟨?_, Traced.mem_execute w (some u) call⟩
      by_cases hu : t = u
      · subst hu
        simp [AcquireWorld.setWire]
      · simp [AcquireWorld.setWire, AcquireWorld.execute, hu]

include htokens in
theorem stable_at
    (events : List WireEvent) :
    (acquireSystem tokens).Stable (AcquireGuarantee tokens) t (At tokens t events) := by
  refine .of_steps (fun e w w' hw henv => ?_) fun u act w w' hu hw hguar => ?_
  · exact ⟨hw.1.event htokens henv, (acquireEvent_frame henv t).1.trans hw.2⟩
  · exact ⟨hguar.traced hw.1, by rw [hguar.others t (Ne.symm hu), hw.2]⟩

include htokens in
theorem stable_traced :
    (acquireSystem tokens).Stable (AcquireGuarantee tokens) t (Traced tokens) :=
  .of_steps (fun _ _ _ hw henv => hw.event htokens henv) fun _ _ _ _ _ hw hguar => hguar.traced hw

theorem stable_created
    (u : ι) (r : LeaseRecord) :
    (acquireSystem tokens).Stable (AcquireGuarantee tokens) t (fun w => Created w u r) := by
  refine .of_steps (fun e w w' hw henv => ?_) fun v act w w' _ hw hguar => ?_
  · exact hw.mono (acquireEvent_frame henv t).2
  · exact hw.mono fun ev hev => hguar.history ▸ hev

theorem stable_told
    (reply : Reply) :
    (acquireSystem tokens).Stable (AcquireGuarantee tokens) t
      (fun w => Told tokens w t reply) := by
  refine .of_steps (fun e w w' hw henv => ?_) fun v act w w' _ hw hguar => ?_
  · exact hw.mono (acquireEvent_frame henv t).2
  · exact hw.mono fun ev hev => hguar.history ▸ hev

theorem stable_knows
    (a : ScriptAnswer) :
    (acquireSystem tokens).Stable (AcquireGuarantee tokens) t
      (fun w => Knows tokens t w a) := by
  cases a with
  | reply raw =>
      exact .exists fun reply w w' hw hothers => ⟨hw.1, stable_told reply w w' hw.2 hothers⟩
  | _ => exact fun _ _ _ _ => trivial

end Stability

/-! ## Commands -/

section Commands

variable {tokens : ι → Bytes} {t : ι} {w : AcquireWorld ι}

theorem Ordered.concat
    {events : List WireEvent} {b : WireEvent}
    (h : Ordered events)
    (hb : b.sendsAcquire → ∀ a ∈ events, ¬ a.uncertain) :
    Ordered (events ++ [b]) := by
  refine List.pairwise_append.mpr ⟨h, List.pairwise_singleton .., fun a ha b' hb' hu hs => ?_⟩
  obtain rfl := List.mem_singleton.mp hb'
  exact hb hs a ha hu

/-- A call sends an own command. -/
theorem Traced.send
    {call : Call}
    (h : Traced tokens w)
    (hown : Own (tokens t) call)
    (hcalm : (WireEvent.sent call).sendsAcquire → ∀ a ∈ (w.wire t).events, ¬ a.uncertain) :
    Traced tokens (w.setWire t ((w.wire t).send call)) := by
  refine h.setWire (fun call' hcall' => ?_) (fun reply hreply => ?_) ((h.ordered t).concat hcalm)
  · rcases hcall' with hcall' | hcall'
    · obtain rfl := Option.some.inj hcall'
      exact hown
    · exact h.own t call' (.inr hcall')
  · cases hreply

/-- What a call may be told leaves the trace and says what it means. -/
theorem Traced.receive
    {call : Call} {sha : Bool} {a : ScriptAnswer} {wire : Wire}
    (h : Traced tokens w)
    (hreceive : (w.wire t).receive sha call a = some wire) :
    Traced tokens (w.setWire t wire) ∧ wire.events = (w.wire t).events ++ [.answered call a] ∧
      Knows tokens t w a := by
  have hstale : ∀ c, c ∈ (w.wire t).stale ++ (w.wire t).current.toList → Own (tokens t) c := by
    intro c hc
    rcases List.mem_append.mp hc with hc | hc
    · exact h.own t c (.inr hc)
    · exact h.own t c (.inl (Option.mem_toList.mp hc))
  have hsettle : Traced tokens (w.setWire t ((w.wire t).settle call a)) := by
    refine h.setWire (fun c hc => ?_) (fun reply hreply => ?_) ((h.ordered t).concat fun hs => ?_)
    · exact hstale c (hc.resolve_left (by simp [Wire.settle]))
    · cases hreply
    · exact hs.elim
  cases a with
  | reply raw =>
      obtain ⟨hreply, heq⟩ := Option.ite_none_right_eq_some.mp hreceive
      obtain rfl := Option.some.inj heq
      refine ⟨hsettle, rfl, ?_⟩
      obtain ⟨outcome, houtcome, hraw⟩ := Option.map_eq_some_iff.mp hreply
      cases outcome with
      | error e => cases hraw
      | ok reply =>
          exact ⟨reply, (ScriptAnswer.reply.inj hraw).symm, h.told t reply houtcome⟩
  | raised e =>
      obtain rfl := Option.some.inj hreceive
      exact ⟨hsettle, rfl, trivial⟩
  | noScript =>
      obtain ⟨-, heq⟩ := Option.ite_none_right_eq_some.mp hreceive
      obtain rfl := Option.some.inj heq
      refine ⟨?_, rfl, trivial⟩
      refine h.setWire (fun c hc => ?_) (fun reply hreply => ?_) ((h.ordered t).concat fun hs => ?_)
      · exact h.own t c (.inr (by simpa [Wire.settle] using hc))
      · cases hreply
      · exact hs.elim

theorem setWire_others
    (w : AcquireWorld ι) (wire : Wire) :
    ∀ u, u ≠ t → (w.setWire t wire).wire u = w.wire u :=
  fun _ hu => Function.update_of_ne hu _ _

/-- Sending is guaranteed and recorded. -/
theorem At.send
    {act : Act HandleSection HandleQuestion HandleQuestion.Answer}
    {events : List WireEvent} {call : Call}
    (h : At tokens t events w)
    (hown : Own (tokens t) call)
    (hcalm : (WireEvent.sent call).sendsAcquire → ∀ a ∈ events, ¬ a.uncertain) :
    AcquireGuarantee tokens t act w (w.setWire t ((w.wire t).send call)) ∧
      At tokens t (events ++ [.sent call]) (w.setWire t ((w.wire t).send call)) := by
  obtain ⟨htraced, hevents⟩ := h
  have hsend := htraced.send hown (hevents ▸ hcalm)
  refine ⟨⟨fun _ => hsend, setWire_others w _, rfl⟩, hsend, ?_⟩
  simp [AcquireWorld.setWire, Wire.send, hevents]

/-- Being answered is guaranteed and recorded. -/
theorem At.receive
    {act : Act HandleSection HandleQuestion HandleQuestion.Answer}
    {events : List WireEvent} {call : Call} {sha : Bool} {a : ScriptAnswer} {w' : AcquireWorld ι}
    (h : At tokens t events w)
    (hreceive : ((w.wire t).receive sha call a).map (w.setWire t) = some w') :
    AcquireGuarantee tokens t act w w' ∧ At tokens t (events ++ [.answered call a]) w' ∧
      Knows tokens t w' a := by
  obtain ⟨htraced, hevents⟩ := h
  obtain ⟨wire, hwire, rfl⟩ := Option.map_eq_some_iff.mp hreceive
  obtain ⟨htraced', hevents', hknows⟩ := htraced.receive hwire
  refine ⟨⟨fun _ => htraced', setWire_others w wire, rfl⟩, ⟨htraced', ?_⟩, ?_⟩
  · simp [AcquireWorld.setWire, hevents', hevents]
  · cases a with
    | reply raw =>
        obtain ⟨reply, hraw, htold⟩ := hknows
        exact ⟨reply, hraw, htold.mono fun _ hev => hev⟩
    | _ => trivial

end Commands

/-! ## Triples -/

section Triples

variable {tokens : ι → Bytes} {t : ι} {α β : Type}

/-- A postcondition of code that may raise; an exception leaves the trace. -/
def Result (tokens : ι → Bytes) (R : α → AcquireWorld ι → Prop) :
    Except Raised α → AcquireWorld ι → Prop
  | .ok a, w => R a w
  | .error _, w => Traced tokens w

/-- From the precondition the code keeps its guarantee and ends in the postcondition. -/
def Ensures (tokens : ι → Bytes) (t : ι) (P : AcquireWorld ι → Prop) (p : Prog α)
    (R : α → AcquireWorld ι → Prop) : Prop :=
  ∀ w, P w → (acquireSystem tokens).wp (AcquireGuarantee tokens) t p.run (Result tokens R) w

variable {P P' : AcquireWorld ι → Prop} {p : Prog α} {R R' : α → AcquireWorld ι → Prop}

theorem Ensures.weaken
    (h : Ensures tokens t P p R)
    (hpre : ∀ w, P' w → P w)
    (hpost : ∀ a w, R a w → R' a w) :
    Ensures tokens t P' p R' := by
  intro w hw
  refine System.wp_mono p.run ?_ (h w (hpre w hw))
  rintro (e | a) w' hw'
  · exact hw'
  · exact hpost a w' hw'

theorem Ensures.pure
    (hstable : (acquireSystem tokens).Stable (AcquireGuarantee tokens) t P)
    (a : α)
    (hpost : ∀ w, P w → R a w) :
    Ensures tokens t P (pure a) R :=
  fun _ hw => System.wp_except_pure a ((hstable.stably hw).mono hpost)

/-- An assertion on what the call has sent and been told, and a fact that lasts. -/
theorem Ensures.of_exists
    {κ : Type} {P : κ → AcquireWorld ι → Prop}
    (h : ∀ k, Ensures tokens t (P k) p R) :
    Ensures tokens t (fun w => ∃ k, P k w) p R :=
  fun w ⟨k, hw⟩ => h k w hw

variable (htokens : Function.Injective tokens)

include htokens

theorem Ensures.throw
    (e : Raised)
    (hpre : ∀ w, P w → Traced tokens w) :
    Ensures tokens t P (throw e) R :=
  fun w hw => System.wp_except_throw e ((stable_traced htokens).stably (hpre w hw))

theorem Ensures.bind
    {next : α → Prog β} {Q : β → AcquireWorld ι → Prop}
    (h : Ensures tokens t P p R)
    (hnext : ∀ a, Ensures tokens t (R a) (next a) Q) :
    Ensures tokens t P (p >>= next) Q := by
  intro w hw
  refine System.wp_except_bind p next (System.wp_mono p.run ?_ (h w hw))
  rintro (e | a) w' hw'
  · exact (stable_traced htokens).stably hw'
  · exact hnext a w' hw'

/-- Nothing follows an exception. -/
theorem Ensures.throw_bind
    {next : α → Prog β} {Q : β → AcquireWorld ι → Prop}
    (e : Raised)
    (hpre : ∀ w, P w → Traced tokens w) :
    Ensures tokens t P (MonadExcept.throw e >>= next) Q :=
  .bind (R := fun _ _ => False) htokens (.throw htokens e hpre) fun _ _ hfalse => hfalse.elim

theorem Ensures.orRaise
    (hstable : (acquireSystem tokens).Stable (AcquireGuarantee tokens) t P)
    (htraced : ∀ w, P w → Traced tokens w)
    (e : Raised) (o : Option α) :
    Ensures tokens t P (orRaise e o) (fun a w => o = some a ∧ P w) := by
  cases o with
  | none => exact .throw htokens e htraced
  | some a => exact .pure hstable a fun _ hw => ⟨rfl, hw⟩

/-- After a guarded attempt either its postcondition holds, or the trace is kept. -/
theorem Ensures.attempt
    (hstable : ∀ a, (acquireSystem tokens).Stable (AcquireGuarantee tokens) t (R a))
    (h : Ensures tokens t P p R) :
    Ensures tokens t P (attempt p) (fun outcome w =>
      match outcome with
      | .done a => R a w
      | _ => Traced tokens w) := by
  intro w hw
  refine System.wp_bind p.run _ (System.wp_mono p.run ?_ (h w hw))
  have htraced := stable_traced (t := t) htokens
  rintro (e | a) w' hw'
  · cases e with
    | control tag => exact htraced.stably hw'
    | base tag => exact htraced.stably hw'
    | _ => exact htraced.stably hw'
  · exact (hstable a).stably hw'

end Triples

/-! ## The code of a call -/

section Code

variable {tokens : ι → Bytes} {t : ι}

/-- A script that was answered, after `NOSCRIPT` or at once. -/
inductive Exchange (call : Call) (raw : RawReply) : List WireEvent → Prop
  | direct : Exchange call raw [.sent call, .answered call (.reply raw)]
  | fallback : Exchange call raw [.sent call, .answered call .noScript, .sent call,
      .answered call (.reply raw)]

/-- Every attempt was answered CONTENDED. -/
inductive Contended (call : Call) : List WireEvent → Prop
  | nil : Contended call []
  | attempt {events tail : List WireEvent} (h : Contended call events)
      (htail : Exchange call Reply.contended.wire tail) : Contended call (events ++ tail)

theorem Exchange.ne_nil
    {call : Call} {raw : RawReply} {tail : List WireEvent}
    (h : Exchange call raw tail) :
    tail ≠ [] := by
  cases h <;> simp

theorem Contended.calm
    {call : Call} {events : List WireEvent}
    (h : Contended call events) :
    ∀ a ∈ events, ¬ a.uncertain := by
  induction h with
  | nil => simp
  | attempt h htail ih =>
      intro a ha
      rcases List.mem_append.mp ha with ha | ha
      · exact ih a ha
      · -- only replies and `NOSCRIPT` end an exchange with a reply
        cases call <;> cases htail <;> simp at ha <;> rcases ha with rfl | rfl | rfl | rfl <;>
          exact id

/-- The loop of `try_acquire` goes on after contended attempts only. -/
def Retrying (tokens : ι → Bytes) (t : ι) (ttl : Bytes) (attempted : Bool)
    (w : AcquireWorld ι) : Prop :=
  ∃ events, Contended (.acquire (tokens t) ttl) events ∧
    (attempted = true → events ≠ []) ∧ At tokens t events w

omit [DecidableEq ι] in
theorem Retrying.traced
    {ttl : Bytes} {attempted : Bool} {w : AcquireWorld ι}
    (h : Retrying tokens t ttl attempted w) :
    Traced tokens w := by
  obtain ⟨events, -, -, hat⟩ := h
  exact hat.1

/-- Questions that leave the world alone. -/
theorem ensures_asking
    {P : AcquireWorld ι → Prop} {q : HandleQuestion}
    (hstable : (acquireSystem tokens).Stable (AcquireGuarantee tokens) t P)
    (hissue : ∀ w, (acquireSystem tokens).issue t q w = some w)
    (hanswer : ∀ a w, answerAcquire t w q a = some w) :
    Ensures tokens t P (asking q) (fun _ => P) := by
  intro w hw
  refine System.wp_except_lift _ (System.wp_ask hstable hstable (fun w w' hw hstep => ?_)
    (fun a w w' hw hstep => ?_) hw)
  · obtain rfl := Option.some.inj ((hissue w).symm.trans hstep)
    exact ⟨.refl, hw⟩
  · obtain rfl := Option.some.inj ((hanswer a w).symm.trans hstep)
    exact ⟨.refl, System.wp_ret hstable (fun _ hw => hstable.stably hw) hw⟩

variable (htokens : Function.Injective tokens)

include htokens

theorem stable_answered
    (events : List WireEvent) (a : ScriptAnswer) :
    (acquireSystem tokens).Stable (AcquireGuarantee tokens) t
      (fun w => At tokens t events w ∧ Knows tokens t w a) :=
  (stable_at htokens events).and (stable_knows a)

/-- A question that sends a command and is answered by what comes back. -/
theorem ensures_command
    (q : HandleQuestion) (sha : Bool) (answered : q.Answer → ScriptAnswer)
    {events : List WireEvent} {call : Call}
    (hissue : ∀ w, (acquireSystem tokens).issue t q w =
      some (w.setWire t ((w.wire t).send call)))
    (hanswer : ∀ a w, answerAcquire t w q a =
      ((w.wire t).receive sha call (answered a)).map (w.setWire t))
    (hown : Own (tokens t) call)
    (hcalm : (WireEvent.sent call).sendsAcquire → ∀ a ∈ events, ¬ a.uncertain) :
    Ensures tokens t (At tokens t events) (asking q) (fun a w =>
      At tokens t (events ++ [.sent call] ++ [.answered call (answered a)]) w ∧
        Knows tokens t w (answered a)) := by
  intro w hw
  refine System.wp_except_lift _ (System.wp_ask (stable_at htokens events)
    (stable_at htokens (events ++ [.sent call])) (fun w w' hw hsend => ?_)
    (fun a w w' hw hreceive => ?_) hw)
  · obtain rfl := Option.some.inj ((hissue w).symm.trans hsend)
    exact hw.send hown hcalm
  · obtain ⟨hguar, hanswered⟩ := hw.receive ((hanswer a w).symm.trans hreceive)
    have hstable := stable_answered (t := t) htokens
      (events ++ [.sent call] ++ [.answered call (answered a)]) (answered a)
    exact ⟨hguar, System.wp_ret hstable (fun _ hw => hstable.stably hw) hanswered⟩

/-- `evalsha` -/
theorem ensures_evalsha
    {events : List WireEvent} {call : Call}
    (hown : Own (tokens t) call)
    (hcalm : (WireEvent.sent call).sendsAcquire → ∀ a ∈ events, ¬ a.uncertain) :
    Ensures tokens t (At tokens t events) (asking (.evalsha call)) (fun a w =>
      At tokens t (events ++ [.sent call] ++ [.answered call a]) w ∧ Knows tokens t w a) :=
  ensures_command htokens (.evalsha call) true id (fun _ => rfl) (fun _ _ => rfl) hown hcalm

/-- `eval` -/
theorem ensures_eval
    {events : List WireEvent} {call : Call}
    (hown : Own (tokens t) call)
    (hcalm : (WireEvent.sent call).sendsAcquire → ∀ a ∈ events, ¬ a.uncertain) :
    Ensures tokens t (At tokens t events) (asking (.eval call)) (fun a w =>
      At tokens t (events ++ [.sent call] ++ [.answered call a]) w ∧ Knows tokens t w a) :=
  ensures_command htokens (.eval call) false id (fun _ => rfl) (fun _ _ => rfl) hown hcalm

/-- `_run_script` with the call's own ACQUIRE -/
theorem ensures_runScript
    {events : List WireEvent} {ttl : Bytes}
    (hcalm : ∀ a ∈ events, ¬ a.uncertain) :
    Ensures tokens t (At tokens t events) (runScript (.acquire (tokens t) ttl)) (fun raw w =>
      ∃ tail, Exchange (.acquire (tokens t) ttl) raw tail ∧ At tokens t (events ++ tail) w ∧
        Knows tokens t w (.reply raw)) := by
  unfold runScript
  cases hok : validateDispatch (.acquire (tokens t) ttl) with
  | false => exact .throw htokens _ fun _ hw => hw.1
  | true =>
      have hown : Own (tokens t) (.acquire (tokens t) ttl) := ⟨hok, .inl ⟨ttl, rfl⟩⟩
      refine .bind htokens (ensures_evalsha htokens hown fun _ => hcalm) fun a => ?_
      cases a with
      | reply raw =>
          refine .pure (stable_answered htokens _ _) raw fun w hw => ⟨_, .direct, ?_, hw.2⟩
          simpa using hw.1
      | raised e => exact .throw htokens e fun _ hw => hw.1.1
      | noScript =>
          have hcalm' : ∀ a ∈ events ++ [.sent (.acquire (tokens t) ttl)] ++
              [.answered (.acquire (tokens t) ttl) .noScript], ¬ a.uncertain := by
            intro a ha
            simp only [List.append_assoc, List.mem_append, List.mem_singleton] at ha
            rcases ha with ha | rfl | rfl
            · exact hcalm a ha
            · exact id
            · exact id
          refine .bind htokens ((ensures_eval htokens hown fun _ => hcalm').weaken
            (fun _ hw => hw.1) fun _ _ => id) fun a => ?_
          cases a with
          | reply raw =>
              refine .pure (stable_answered htokens _ _) raw fun w hw => ⟨_, .fallback, ?_, hw.2⟩
              simpa using hw.1
          | raised e => exact .throw htokens e fun _ hw => hw.1.1
          | noScript => exact .throw htokens _ fun _ hw => hw.1.1

/-- `_run_reconcile` sends no ACQUIRE. -/
theorem ensures_runReconcile :
    Ensures tokens t (Traced tokens) runReconcile (fun raw w =>
      Traced tokens w ∧ Knows tokens t w (.reply raw)) := by
  unfold runReconcile
  have hown : Own (tokens t) .reconcile := ⟨rfl, .inr rfl⟩
  refine Ensures.weaken (P := fun w => ∃ events, At tokens t events w) (.of_exists fun events => ?_)
    (fun w hw => ⟨_, hw, rfl⟩) fun _ _ => id
  refine .bind htokens (ensures_eval htokens hown fun hs => hs.elim) fun a => ?_
  cases a with
  | reply raw =>
      exact .pure (stable_answered htokens _ _) raw fun w hw => ⟨hw.1.1, hw.2⟩
  | raised e => exact .throw htokens e fun _ hw => hw.1.1
  | noScript => exact .throw htokens _ fun _ hw => hw.1.1

/-- A loop, whose invariant and postcondition last. -/
theorem Ensures.loop
    {α β : Type} {body : α → Prog (α ⊕ β)} {I : α → AcquireWorld ι → Prop}
    {R : β → AcquireWorld ι → Prop}
    (hI : ∀ a, (acquireSystem tokens).Stable (AcquireGuarantee tokens) t (I a))
    (hR : ∀ b, (acquireSystem tokens).Stable (AcquireGuarantee tokens) t (R b))
    (hbody : ∀ a, Ensures tokens t (I a) (body a) (fun next => Sum.elim I R next))
    (start : α) :
    Ensures tokens t (I start) (Proc.exceptLoop body start) R := by
  have htraced := stable_traced (t := t) htokens
  have hresult : ∀ r w, Result tokens R r w →
      (acquireSystem tokens).Stably (AcquireGuarantee tokens) t (Result tokens R r) w := by
    rintro (e | b) w hw
    · exact htraced.stably hw
    · exact (hR b).stably hw
  intro w hw
  refine System.wp_loop I (fun a w hw => ?_) hw hresult
  refine System.wp_bind (body a).run _ (System.wp_mono (body a).run ?_ (hbody a w hw))
  rintro (e | a' | b) w' hw'
  · exact htraced.stably hw'
  · exact (hI a').stably hw'
  · exact (hR b).stably hw'

/-- The handle shows the record that the call's own ACQUIRE has created. -/
def Holds (tokens : ι → Bytes) (t : ι) (handle : LeaseHandle) (w : AcquireWorld ι) : Prop :=
  Traced tokens w ∧ handle.record.ownerToken = tokens t ∧ Created w t handle.record

theorem stable_holds
    (handle : LeaseHandle) :
    (acquireSystem tokens).Stable (AcquireGuarantee tokens) t (Holds tokens t handle) := by
  refine (stable_traced htokens).and fun w w' hw hothers => ⟨hw.1, ?_⟩
  exact stable_created t handle.record w w' hw.2 hothers

/-- `_new_handle` for a record that the own ACQUIRE has created -/
theorem ensures_newHandle
    (r : LeaseRecord) (options : LeaderElectionOptions) (acquiredNs : Int)
    (howner : r.ownerToken = tokens t) :
    Ensures tokens t (fun w => Traced tokens w ∧ Created w t r)
      (newHandle (tokens t) r.fencingToken options acquiredNs)
      (fun handle => Holds tokens t handle) := by
  unfold newHandle
  have hstable : (acquireSystem tokens).Stable (AcquireGuarantee tokens) t
      (fun w => Traced tokens w ∧ Created w t r) :=
    (stable_traced htokens).and (stable_created t r)
  refine .bind htokens (.orRaise htokens hstable (fun _ hw => hw.1) _ _) fun record => ?_
  rw [← howner, LeaseRecord.make_self]
  refine .pure (fun w w' hw hothers => ⟨hw.1, hstable w w' hw.2 hothers⟩) _ fun w hw => ?_
  obtain ⟨heq, htraced, hcreated⟩ := hw
  obtain rfl := Option.some.inj heq
  exact ⟨htraced, howner, hcreated⟩

/-- What a parsed reconciliation shows of the call's own record. -/
def Shown (tokens : ι → Bytes) (t : ι) (parsed : Status × Option LeaseRecord)
    (w : AcquireWorld ι) : Prop :=
  Traced tokens w ∧ ∀ r, parsed.2 = some r → r.ownerToken = tokens t → Created w t r

theorem stable_shown
    (parsed : Status × Option LeaseRecord) :
    (acquireSystem tokens).Stable (AcquireGuarantee tokens) t (Shown tokens t parsed) := by
  refine (stable_traced htokens).and fun w w' hw hothers r hr howner => ?_
  exact stable_created t r w w' (hw r hr howner) hothers

/-- The backend part of `_reconcile_acquire` -/
theorem ensures_dispatchReconcile :
    Ensures tokens t (Traced tokens) dispatchReconcile
      (fun parsed => Shown tokens t parsed) := by
  unfold dispatchReconcile
  refine .bind htokens (ensures_runReconcile htokens) fun raw => ?_
  refine Ensures.weaken (.orRaise htokens ((stable_traced htokens).and (stable_knows (.reply raw)))
    (fun _ hw => hw.1) _ _) (fun _ => id) fun parsed w hw => ⟨hw.2.1, ?_⟩
  rintro r hr howner
  obtain ⟨s, record⟩ := parsed
  obtain rfl : record = some r := hr
  obtain ⟨hparse, -, reply, rfl, htold⟩ := hw
  obtain ⟨-, rfl⟩ := present_of_parseReconcileResponse hparse
  exact htold r rfl howner

/-- `_reconcile_acquire` -/
theorem ensures_reconcileAcquire
    (options : LeaderElectionOptions) (acquiredNs : Int) :
    Ensures tokens t (Traced tokens) (reconcileAcquire (tokens t) options acquiredNs)
      (fun handle => Holds tokens t handle) := by
  unfold reconcileAcquire
  refine .bind htokens (.attempt htokens (stable_shown htokens)
    (ensures_dispatchReconcile htokens)) fun outcome => ?_
  cases outcome with
  | uncertain => exact .throw htokens _ fun _ hw => hw
  | backendFailed => exact .throw htokens _ fun _ hw => hw
  | done parsed =>
      obtain ⟨s, record⟩ := parsed
      cases record with
      | none => cases s <;> exact .throw htokens _ fun _ hw => hw.1
      | some record =>
          cases s with
          | present =>
              by_cases howner : record.ownerToken = tokens t
              · simp only [howner, ne_eq, not_true_eq_false, if_false]
                exact .weaken (ensures_newHandle htokens record options acquiredNs howner)
                  (fun w hw => ⟨hw.1, hw.2 record rfl howner⟩) fun _ _ => id
              · simp only [ne_eq, howner, not_false_eq_true, if_true]
                exact .throw_bind htokens _ fun _ hw => hw.1
          | _ => exact .throw htokens _ fun _ hw => hw.1

/-- What an attempt that was answered leaves. -/
def Answered (tokens : ι → Bytes) (t : ι) (events : List WireEvent) (ttl : Bytes)
    (parsed : Status × Option Nat) (w : AcquireWorld ι) : Prop :=
  ∃ raw, parseAcquireResponse raw = some parsed ∧
    ∃ tail, Exchange (.acquire (tokens t) ttl) raw tail ∧ At tokens t (events ++ tail) w ∧
      Knows tokens t w (.reply raw)

theorem stable_exchanged
    (events : List WireEvent) (ttl : Bytes) (raw : RawReply) :
    (acquireSystem tokens).Stable (AcquireGuarantee tokens) t (fun w =>
      ∃ tail, Exchange (.acquire (tokens t) ttl) raw tail ∧ At tokens t (events ++ tail) w ∧
        Knows tokens t w (.reply raw)) :=
  .exists fun tail w w' hw hothers =>
    ⟨hw.1, stable_answered htokens (events ++ tail) (.reply raw) w w' hw.2 hothers⟩

theorem stable_answeredParsed
    (events : List WireEvent) (ttl : Bytes) (parsed : Status × Option Nat) :
    (acquireSystem tokens).Stable (AcquireGuarantee tokens) t
      (Answered tokens t events ttl parsed) :=
  .exists fun raw w w' hw hothers =>
    ⟨hw.1, stable_exchanged htokens events ttl raw w w' hw.2 hothers⟩

/-- The backend part of `try_acquire` -/
theorem ensures_dispatchAcquire
    {events : List WireEvent} (ttlMs : Nat)
    (hcalm : ∀ a ∈ events, ¬ a.uncertain) :
    Ensures tokens t (At tokens t events) (dispatchAcquire (tokens t) ttlMs)
      (fun parsed => Answered tokens t events (millisecondsText ttlMs) parsed) := by
  unfold dispatchAcquire
  refine .bind htokens (ensures_runScript htokens hcalm) fun raw => ?_
  refine Ensures.weaken (.orRaise htokens (stable_exchanged htokens events _ raw)
    (fun w hw => ?_) _ _) (fun _ => id) fun parsed w hw => ⟨raw, hw.1, hw.2⟩
  obtain ⟨tail, -, hat, -⟩ := hw
  exact hat.1

/-- What the result of `try_acquire` says. -/
def Acquired (tokens : ι → Bytes) (t : ι) : Option LeaseHandle → AcquireWorld ι → Prop
  | some handle, w => Holds tokens t handle w
  | none, w => ∃ ttl, Retrying tokens t ttl true w

theorem stable_retrying
    (ttl : Bytes) (attempted : Bool) :
    (acquireSystem tokens).Stable (AcquireGuarantee tokens) t
      (Retrying tokens t ttl attempted) :=
  .exists fun events w w' hw hothers =>
    ⟨hw.1, hw.2.1, stable_at htokens events w w' hw.2.2 hothers⟩

theorem stable_acquired
    (result : Option LeaseHandle) :
    (acquireSystem tokens).Stable (AcquireGuarantee tokens) t (Acquired tokens t result) := by
  cases result with
  | some handle => exact stable_holds htokens handle
  | none => exact .exists fun ttl => stable_retrying htokens ttl true

/-- The pause between two attempts -/
theorem ensures_pause
    (ttl : Bytes) (remaining : ℚ) :
    Ensures tokens t (Retrying tokens t ttl true) (pause remaining)
      (fun _ => Retrying tokens t ttl true) := by
  unfold pause
  have hstable := stable_retrying (t := t) htokens ttl true
  refine .bind htokens (ensures_asking hstable (fun _ => rfl) fun _ _ => rfl) fun delay => ?_
  cases delay with
  | none => exact .throw htokens _ fun _ hw => hw.traced
  | some delay =>
      simp only
      split
      · exact ensures_asking hstable (fun _ => rfl) fun _ _ => rfl
      · exact .throw htokens _ fun _ hw => hw.traced

/-- What follows a granted attempt -/
theorem ensures_afterGrant
    {events : List WireEvent} {ttl : Bytes} {options : LeaderElectionOptions}
    {deadline acquiredNs : Int}
    (fence : Nat) :
    Ensures tokens t (Answered tokens t events ttl (.acquired, some fence))
      (afterAttempt (tokens t) options deadline acquiredNs (.done (.acquired, some fence)))
      (fun next => Sum.elim (Retrying tokens t ttl) (Acquired tokens t) next) := by
  refine Ensures.weaken (P := fun w => ∃ r : LeaseRecord,
    (r.ownerToken = tokens t ∧ r.fencingToken = fence) ∧ Traced tokens w ∧ Created w t r)
    (.of_exists fun r => ?_) (fun w hw => ?_) fun _ _ => id
  · rintro w ⟨⟨howner, rfl⟩, hw⟩
    refine Ensures.bind htokens (ensures_newHandle htokens r options acquiredNs howner)
      (fun handle => ?_) w hw
    exact .pure (stable_holds htokens handle) _ fun _ => id
  · obtain ⟨raw, hparse, tail, -, hat, reply, rfl, htold⟩ := hw
    obtain ⟨text, rfl, -, hvalue⟩ := acquired_of_parseAcquireResponse hparse
    obtain ⟨r, howner, hfence, hcreated⟩ := htold
    exact ⟨r, ⟨howner, hfence.trans hvalue⟩, hat.1, hcreated⟩

/-- What follows a contended attempt -/
theorem ensures_afterContention
    {ttl : Bytes} {options : LeaderElectionOptions} {deadline acquiredNs : Int}
    (fence : Option Nat) :
    Ensures tokens t (Retrying tokens t ttl true)
      (afterAttempt (tokens t) options deadline acquiredNs (.done (.contended, fence)))
      (fun next => Sum.elim (Retrying tokens t ttl) (Acquired tokens t) next) := by
  have hstable := stable_retrying (t := t) htokens ttl true
  simp only [afterAttempt, ne_eq, not_true_eq_false, if_false]
  refine .bind htokens (ensures_asking hstable (fun _ => rfl) fun _ _ => rfl) fun now => ?_
  split
  · exact .pure hstable _ fun w hw => ⟨ttl, hw⟩
  · refine .bind htokens (ensures_pause htokens ttl _) fun _ => ?_
    exact .pure hstable _ fun _ => id

omit [DecidableEq ι] htokens in
theorem Answered.traced
    {events : List WireEvent} {ttl : Bytes} {parsed : Status × Option Nat} {w : AcquireWorld ι}
    (h : Answered tokens t events ttl parsed w) :
    Traced tokens w := by
  obtain ⟨raw, -, tail, -, hat, -⟩ := h
  exact hat.1

omit [DecidableEq ι] htokens in
/-- An attempt that was answered CONTENDED joins the others. -/
theorem Answered.retrying
    {events : List WireEvent} {ttl : Bytes} {fence : Option Nat} {w : AcquireWorld ι}
    (h : Answered tokens t events ttl (.contended, fence) w)
    (hevents : Contended (.acquire (tokens t) ttl) events) :
    Retrying tokens t ttl true w := by
  obtain ⟨raw, hparse, tail, htail, hat, -⟩ := h
  obtain rfl := contended_of_parseAcquireResponse hparse
  refine ⟨events ++ tail, hevents.attempt htail, fun _ hnil => ?_, hat⟩
  exact htail.ne_nil (List.append_eq_nil_iff.mp hnil).2

/-- One round of the loop -/
theorem ensures_acquireRound
    (options : LeaderElectionOptions) (ttlMs : Nat) (deadline : Int) (attempted : Bool) :
    Ensures tokens t (Retrying tokens t (millisecondsText ttlMs) attempted)
      (acquireRound (tokens t) ttlMs options deadline attempted)
      (fun next =>
        Sum.elim (Retrying tokens t (millisecondsText ttlMs)) (Acquired tokens t) next) := by
  unfold acquireRound
  have hstable := stable_retrying (t := t) htokens (millisecondsText ttlMs) attempted
  refine .bind htokens (ensures_asking hstable (fun _ => rfl) fun _ _ => rfl) fun acquiredNs => ?_
  split
  case isTrue hdone =>
      obtain ⟨rfl, -⟩ := hdone
      exact .pure hstable _ fun w hw => ⟨_, hw⟩
  case isFalse =>
      refine .of_exists fun events => ?_
      rintro w ⟨hevents, -, hat⟩
      refine Ensures.bind htokens (.attempt htokens (stable_answeredParsed htokens events _)
        (ensures_dispatchAcquire htokens ttlMs hevents.calm)) (fun outcome => ?_) w hat
      cases outcome with
      | uncertain =>
          exact .bind htokens (ensures_reconcileAcquire htokens options acquiredNs)
            fun handle => .pure (stable_holds htokens handle) _ fun _ => id
      | backendFailed => exact .throw htokens _ fun _ => id
      | done parsed =>
          obtain ⟨status, fence⟩ := parsed
          cases status with
          | acquired =>
              cases fence with
              | some fence => exact ensures_afterGrant htokens fence
              | none => exact .throw_bind htokens _ fun _ hw => hw.traced
          | contended =>
              exact .weaken (ensures_afterContention htokens fence)
                (fun _ hw => hw.retrying hevents) fun _ _ => id
          | _ => exact .throw_bind htokens _ fun _ hw => hw.traced

/-- `try_acquire` -/
theorem ensures_tryAcquire
    (requested : LeaderElectionOptions) (timing : Timing) :
    Ensures tokens t (At tokens t []) (tryAcquire requested timing (tokens t))
      (fun result => Acquired tokens t result) := by
  unfold tryAcquire
  have hstable := stable_at (t := t) htokens []
  refine .bind htokens (.orRaise htokens hstable (fun _ hw => hw.1) _ _) fun options => ?_
  refine .weaken (P := At tokens t []) ?_ (fun _ hw => hw.2) fun _ _ => id
  refine .bind htokens (.orRaise htokens hstable (fun _ hw => hw.1) _ _) fun ttlMs => ?_
  refine .weaken (P := At tokens t []) ?_ (fun _ hw => hw.2) fun _ _ => id
  refine .bind htokens (ensures_asking hstable (fun _ => rfl) fun _ _ => rfl) fun startedNs => ?_
  refine Ensures.weaken (.loop htokens (stable_retrying htokens _) (stable_acquired htokens)
    (ensures_acquireRound htokens options ttlMs _) false) (fun w hw => ?_) fun _ _ => id
  exact ⟨[], .nil, fun h => absurd h (by simp), hw⟩

end Code

/-! ## Runs -/

section Runs

variable {tokens : ι → Bytes}

/-- A call has returned. -/
def Returned (c : AcquirePool ι) (t : ι) (result : Option LeaseHandle) : Prop :=
  c.thread t = .running (.ret (.ok result))

/-- The invariant of the runs. -/
structure AcquireSound (tokens : ι → Bytes) (c : AcquirePool ι) : Prop where
  traced : Traced tokens c.world
  sound : System.Pool.Sound (acquireSystem tokens) (AcquireGuarantee tokens)
    (fun t => Result tokens (Acquired tokens t)) c

theorem AcquireSound.init
    (htokens : Function.Injective tokens)
    (requested : ι → LeaderElectionOptions) (timing : ι → Timing) (now : Nat) :
    AcquireSound tokens (acquirePool tokens requested timing now) where
  traced := .init now
  sound t := ensures_tryAcquire htokens (requested t) (timing t) _ ⟨.init now, rfl⟩

/-- **Step lemma**: every step keeps the trace and what the calls have to establish. -/
theorem AcquireSound.step
    {c c' : AcquirePool ι}
    {l : System.PoolLabel ι HandleSection HandleQuestion (AcquireEvent tokens)
      HandleQuestion.Answer}
    (htokens : Function.Injective tokens)
    (h : AcquireSound tokens c)
    (hstep : AcquireStep tokens c l c') :
    AcquireSound tokens c' := by
  obtain ⟨hguar, hsound⟩ := System.Pool.sound_step h.sound hstep
  refine ⟨?_, hsound⟩
  cases l with
  | env e => exact h.traced.event htokens hguar
  | thread t act =>
      rcases hguar with hguar | ⟨-, hsame⟩
      · exact hguar.traced h.traced
      · rw [hsame]
        exact h.traced

/-- A returned call has established its result. -/
theorem AcquireSound.acquired
    {c : AcquirePool ι} {t : ι} {result : Option LeaseHandle}
    (h : AcquireSound tokens c)
    (hreturned : Returned c t result) :
    Acquired tokens t result c.world :=
  h.sound.post hreturned

omit [DecidableEq ι] in
/-- Two records that the ACQUIREs of two calls have created have two fences. -/
theorem Traced.fences_ne
    {w : AcquireWorld ι} {t u : ι} {r s : LeaseRecord}
    (h : Traced tokens w)
    (hne : t ≠ u)
    (hr : Created w t r)
    (hs : Created w u s) :
    r.fencingToken ≠ s.fencingToken := by
  obtain ⟨a, ha, hat, -, hissued, -⟩ := hr
  obtain ⟨b, hb, hbu, -, hissued', -⟩ := hs
  have hab : a ≠ b := by
    rintro rfl
    exact hne (Option.some.inj (hat.symm.trans hbu))
  have hsymm : Std.Symm fun x y : Executed ι =>
      ∀ fence, x.issued = some fence → y.issued ≠ some fence :=
    ⟨fun x y hxy fence hy hx => hxy fence hx hy⟩
  have hpair := h.distinct.forall ha hb hab
  intro heq
  exact hpair _ hissued (heq ▸ hissued')

/--
**An uncertain acquisition is reconciled soundly.**  In every run of any number of
calls with owner tokens of their own, among other clients and with replies that
come, get lost or come late: a handle shows a record that its own call's ACQUIRE
has created and that was live then; no two handles share a fence; a call gives up
only after attempts that were all answered CONTENDED; and none sends an ACQUIRE
after an uncertain one.
-/
theorem reconciliation_sound
    (tokens : ι → Bytes) (requested : ι → LeaderElectionOptions) (timing : ι → Timing) (now : Nat)
    {ls : List (System.PoolLabel ι HandleSection HandleQuestion (AcquireEvent tokens)
      HandleQuestion.Answer)}
    {c : AcquirePool ι}
    (htokens : Function.Injective tokens)
    (hrun : Run (AcquireStep tokens) (acquirePool tokens requested timing now) ls c) :
    (∀ t handle, Returned c t (some handle) →
      handle.record.ownerToken = tokens t ∧ Created c.world t handle.record) ∧
    (∀ t u handle handle', t ≠ u → Returned c t (some handle) → Returned c u (some handle') →
      handle.record.fencingToken ≠ handle'.record.fencingToken) ∧
    (∀ t, Returned c t none → ∃ ttl, Contended (.acquire (tokens t) ttl) (c.world.wire t).events ∧
      (c.world.wire t).events ≠ []) ∧
    ∀ t, Ordered (c.world.wire t).events := by
  have hsound : AcquireSound tokens c :=
    hrun.invariant (I := AcquireSound tokens) (fun _ _ _ h hstep => h.step htokens hstep)
      (.init htokens requested timing now)
  have hcreated : ∀ t handle, Returned c t (some handle) →
      handle.record.ownerToken = tokens t ∧ Created c.world t handle.record :=
    fun t handle hret => (hsound.acquired hret).2
  refine ⟨hcreated, fun t u handle handle' hne hret hret' => ?_, fun t hret => ?_,
    hsound.traced.ordered⟩
  · exact hsound.traced.fences_ne hne (hcreated t handle hret).2 (hcreated u handle' hret').2
  · obtain ⟨ttl, events, hcontended, hne, -, hevents⟩ := hsound.acquired hret
    exact ⟨ttl, by rw [hevents]; exact hcontended, by rw [hevents]; exact hne rfl⟩

/-- The owner tokens of two calls. -/
def twoTokens (second : Bool) : Bytes :=
  List.replicate 32 (if second then byte 'B' else byte 'A')

theorem twoTokens_injective :
    Function.Injective twoTokens := by
  unfold Function.Injective
  decide

/-- Thirty seconds. -/
def halfMinute : Timedelta :=
  ⟨30000000, by decide, by decide⟩

theorem halfMinute_pos :
    0 < halfMinute.total := by
  decide

theorem noTime_le_halfMinute :
    noTime.total ≤ halfMinute.total :=
  halfMinute_pos.le

theorem not_autoRenew :
    false = true → (none : Option Timedelta).isSome = true :=
  fun h => h

theorem no_interval :
    ∀ interval ∈ (none : Option Timedelta),
      0 < interval.total ∧ interval.total < halfMinute.total := by
  simp

theorem second_float :
    Binary64.ofRat? 1 = some 1 := by
  exact_mod_cast Binary64.ofRat?_intCast (k := 1) (by decide)

/-- A second for every exchange. -/
def secondTiming : Timing :=
  ⟨1, 1, one_pos, one_pos, second_float, second_float⟩

/-- One attempt, for a lease of thirty seconds. -/
def oneAttempt : LeaderElectionOptions where
  waitTime := noTime
  leaseTime := halfMinute
  minLeaseTime := noTime
  autoRenew := false
  renewInterval := none
  wait_nonneg := noTime_nonneg
  lease_pos := halfMinute_pos
  min_nonneg := noTime_nonneg
  min_le_lease := noTime_le_halfMinute
  interval_of_autoRenew := not_autoRenew
  interval_bounds := no_interval

/-- Two calls with one attempt each. -/
def twoAttempts : AcquirePool Bool :=
  acquirePool twoTokens (fun _ => oneAttempt) (fun _ => secondTiming) 0

/-- The choices of a scheduler. -/
abbrev AcquireChoice :=
  System.Choice Bool HandleQuestion (AcquireEvent twoTokens) HandleQuestion.Answer

/-- A call sends its ACQUIRE, which is executed and answered. -/
def acquiring (t : Bool) (answer : ScriptAnswer) : List AcquireChoice :=
  [.run t, .answer t .monotonicNs (0 : Int), .run t, .run t, .answer t .monotonicNs (0 : Int),
    .run t, .env (.executeCurrent t),
    .answer t (.evalsha (.acquire (twoTokens t) (ascii "30000"))) answer]

/--
The reply to the first call's ACQUIRE is lost, the reconciliation shows its
record, and the second call finds the lease held.
-/
def lostThenContended : List AcquireChoice :=
  acquiring false (.raised .uncertain) ++
    [.run false, .env (.executeCurrent false), .answer false (.eval .reconcile)
      (.reply (Reply.present (ascii "v1:AAAAAAAAAAAAAAAAAAAAAAAAAAAAAAAA:1")).wire)] ++
    acquiring true (.reply Reply.contended.wire) ++
    [.run true, .answer true .monotonicNs (1 : Int)]

/-- The fence that a call has returned. -/
def returnedFence (c : AcquirePool Bool) (t : Bool) : Option (Option Nat) :=
  match c.thread t with
  | .running (.ret (.ok result)) => some (result.map fun handle => handle.record.fencingToken)
  | _ => none

theorem returned_of_fence
    {c : AcquirePool Bool} {t : Bool} {fence : Option Nat}
    (h : returnedFence c t = some fence) :
    ∃ result, Returned c t result ∧
      result.map (fun handle => handle.record.fencingToken) = fence := by
  unfold returnedFence at h
  split at h
  case h_1 result hthread => exact ⟨result, hthread, Option.some.inj h⟩
  case h_2 => cases h

theorem lostThenContended_fences :
    ((acquireSystem twoTokens).schedule twoAttempts lostThenContended).map
      (fun c => (returnedFence c false, returnedFence c true)) =
        some (some (some 1), some none) := by
  decide

/-- The first call returns the lease of its lost ACQUIRE, and the second one none. -/
theorem reconciliation_sound_lost_reply :
    ∃ ls c handle, Run (AcquireStep twoTokens) twoAttempts ls c ∧
      Returned c false (some handle) ∧ Returned c true none ∧ handle.record.fencingToken = 1 ∧
      Created c.world false handle.record ∧ (c.world.wire true).events ≠ [] ∧
      Ordered (c.world.wire false).events := by
  obtain ⟨c, hschedule, hfences⟩ := Option.map_eq_some_iff.mp lostThenContended_fences
  obtain ⟨hfirst, hsecond⟩ := Prod.mk.inj hfences
  obtain ⟨ls, hrun⟩ := System.schedule_run hschedule
  obtain ⟨result, hreturned, hresult⟩ := returned_of_fence hfirst
  obtain ⟨handle, rfl, hfence⟩ := Option.map_eq_some_iff.mp hresult
  obtain ⟨result', hreturned', hresult'⟩ := returned_of_fence hsecond
  obtain rfl := Option.map_eq_none_iff.mp hresult'
  obtain ⟨hcreated, -, hnone, hordered⟩ :=
    reconciliation_sound twoTokens _ _ 0 twoTokens_injective hrun
  obtain ⟨ttl, -, hne⟩ := hnone true hreturned'
  exact ⟨ls, c, handle, hrun, hreturned, hreturned', hfence,
    (hcreated false handle hreturned).2, hne, hordered false⟩

end Runs

end LeaderRedis
end Bluetape
