import Bluetape.LeaderRedis.HandleSystem

/-!
# Operations on a terminal handle

An operation that starts on a lost, released or unknown handle sends nothing,
and on an unknown handle it ends with the failure that the handle has retained.

* `refuses_perform`: every operation refuses a terminal handle.
-/

namespace Bluetape
namespace LeaderRedis

open Base

/-! ## Operations that found the handle terminal -/

/-- The operation in progress found the handle terminal. -/
structure Refused (t : HandleThread) (op : Operation) (s : HandleState)
    (w : HandleWorld) : Prop where
  progress : InProgress t op s w
  found : s.state.terminal = true
  terminal : w.handle.state.terminal = true
  unknown : s.state = .unknown →
    w.handle.state = .unknown ∧ w.handle.failure = s.failure

/-- The result is the failure that an unknown handle has retained. -/
def Retained (s : HandleState) {α : Type} (r : Except Raised α) : Prop :=
  s.state = .unknown →
    ∃ failure, s.failure = some failure ∧ failure.lifecycle ∧ r = .error failure

section Refusal

variable {t : HandleThread} {op : Operation} {s : HandleState}

theorem stable_refused :
    handleSystem.Stable Guarantee t (Refused t op s) := by
  intro w w' hw hothers
  have hterminal := stable_handle (t := t) (P := fun s' => s'.state.terminal = true)
    (fun _ _ _ hfollows => hfollows.terminal) w w' hw.terminal hothers
  refine ⟨stable_inProgress t op s w w' hw.progress hothers, hw.found, hterminal, ?_⟩
  intro hs
  refine stable_handle (P := fun s' => s'.state = .unknown ∧ s'.failure = s.failure)
    ?_ w w' (hw.unknown hs) hothers
  rintro label s₁ s₂ hfollows ⟨hstate, hfailure⟩
  obtain ⟨hstate', hfailure'⟩ := hfollows.unknown hstate
  exact ⟨hstate', hfailure'.trans hfailure⟩

theorem Refused.later
    {w w' : HandleWorld} {label : HandleSection}
    (hw : Refused t op s w)
    (hstarted : w'.started t = w.started t)
    (h : Follows label w.handle w'.handle) :
    Refused t op s w' := by
  refine ⟨⟨hstarted.trans hw.progress.1, h.retains hw.progress.2⟩, hw.found,
    h.terminal hw.terminal, ?_⟩
  intro hs
  obtain ⟨hstate, hfailure⟩ := hw.unknown hs
  obtain ⟨hstate', hfailure'⟩ := h.unknown hstate
  exact ⟨hstate', hfailure'.trans hfailure⟩

/-- The failure of a handle that was unknown at the start. -/
theorem Refused.failure
    {w : HandleWorld}
    (hw : Refused t op s w)
    (hs : s.state = .unknown) :
    ∃ failure, s.failure = some failure ∧ failure.lifecycle ∧
      w.handle.failure = some failure := by
  obtain ⟨hstate, hfailure⟩ := hw.unknown hs
  obtain ⟨failure, hsome, hlifecycle⟩ := hw.progress.2 hstate
  exact ⟨failure, hfailure ▸ hsome, hlifecycle, hsome⟩

/-- Found on a terminal handle, the program sends no command and its result is in `Φ`. -/
def Refuses {α : Type} (t : HandleThread) (op : Operation) (s : HandleState)
    (p : Prog α) (Φ : Except Raised α → Prop) : Prop :=
  ∀ w, Refused t op s w →
    handleSystem.wp Guarantee t p.run (fun r w => Φ r ∧ Refused t op s w) w

theorem refuses_ret
    {α : Type} {Φ : Except Raised α → Prop} (r : Except Raised α)
    (hr : Φ r) :
    Refuses t op s (ExceptT.mk (Proc.ret r)) Φ :=
  fun _ hw => System.wp_ret stable_refused (fun _ hg => ⟨hr, hg⟩) hw

theorem Refuses.bind
    {α β : Type} {p : Prog α} {next : α → Prog β}
    {Φ : Except Raised α → Prop} {Ψ : Except Raised β → Prop}
    (hp : Refuses t op s p Φ)
    (hnext : ∀ a, Φ (.ok a) → Refuses t op s (next a) Ψ)
    (herror : ∀ e, Φ (.error e) → Ψ (.error e)) :
    Refuses t op s (p >>= next) Ψ := by
  intro w hw
  refine System.wp_except_bind p next (System.wp_mono p.run ?_ (hp w hw))
  rintro (e | a) w' ⟨hr, hw'⟩
  · intro w'' hothers
    exact ⟨herror e hr, stable_refused w' w'' hw' hothers⟩
  · exact hnext a hr w' hw'

theorem Refuses.mono
    {α : Type} {p : Prog α} {Φ Ψ : Except Raised α → Prop}
    (hp : Refuses t op s p Φ)
    (himp : ∀ r, Φ r → Ψ r) :
    Refuses t op s p Ψ :=
  fun w hw => System.wp_mono p.run (fun r _ h => ⟨himp r h.1, h.2⟩) (hp w hw)

theorem refuses_locked
    {α : Type} {body : Locked α} {label : HandleSection} {Φ : Except Raised α → Prop}
    (hfollows : ∀ s', Follows label s' (body.exec s').2)
    (hΦ : ∀ w, Refused t op s w → Φ (body.exec w.handle).1) :
    Refuses t op s (locked body label) Φ := by
  intro w hw
  refine System.wp_atomically stable_refused ?_ hw
  intro w hw _
  have hw' : Refused t op s (w.withHandle (body.exec w.handle).2) :=
    hw.later rfl (hfollows w.handle)
  refine ⟨.atomic (hfollows w.handle), fun w' hothers => ?_⟩
  exact ⟨hΦ w hw, stable_refused _ _ hw' hothers⟩

/-- A question that is no command. -/
theorem refuses_asking
    (q : HandleQuestion)
    (hq : q.inner)
    (hcommand : ∀ call, q ≠ .evalsha call ∧ q ≠ .eval call) :
    Refuses t op s (asking q) (fun r => ∃ a, r = .ok a) := by
  intro w hw
  refine System.wp_except_lift _
    (System.wp_ask stable_refused (R := Refused t op s) stable_refused ?_ ?_ hw)
  · intro w w' hw hissue
    obtain rfl := issue_inner hq hissue
    refine ⟨.asked hq ?_, hw⟩
    rintro ⟨call, h | h⟩ <;> injection h with h
    · exact absurd h (hcommand call).1
    · exact absurd h (hcommand call).2
  · intro a w w' hw hanswer
    obtain ⟨hadvance, -, hsame⟩ := answerHandle_frame hanswer
    have hfollows : Follows .ordinary w.handle w'.handle := Or.inl hadvance
    have hw' : Refused t op s w' := hw.later (congrFun (hsame hq) t) hfollows
    refine ⟨.answered hanswer, System.wp_ret stable_refused ?_ hw'⟩
    intro w hw w' hothers
    exact ⟨⟨a, rfl⟩, stable_refused w w' hw hothers⟩

/-- The checks at the head of an operation refuse a terminal handle. -/
theorem refuses_goneOrRaise :
    Refuses t op s (locked goneOrRaise .ordinary)
      (fun r => r ≠ .ok false ∧ Retained s r) := by
  refine refuses_locked (fun s' => ?_) fun w hw => ?_
  · rcases s'.open_or with hopen | hgone | hunknown
    · rw [goneOrRaise_of_open hopen]
      exact Or.inl (Advance.refl s')
    · rw [goneOrRaise_of_gone hgone]
      exact Or.inl (Advance.refl s')
    · rw [goneOrRaise_of_unknown hunknown]
      exact Or.inl (Advance.refl s')
  · rcases HandleState.terminal_or hw.terminal with hgone | hunknown
    · rw [goneOrRaise_of_gone hgone]
      refine ⟨by simp, fun hs => ?_⟩
      rw [HandleState.Gone, (hw.unknown hs).1] at hgone
      simp at hgone
    · rw [goneOrRaise_of_unknown hunknown]
      refine ⟨by simp, fun hs => ?_⟩
      obtain ⟨failure, hsome, hlifecycle, hfailure⟩ := hw.failure hs
      exact ⟨failure, hsome, hlifecycle, by rw [hfailure]; rfl⟩

theorem refuses_finishTerminalRelease
    (inScope : Bool) :
    Refuses t op s (locked (finishTerminalRelease inScope) .ordinary)
      (fun r => r ≠ .ok false ∧ Retained s r) := by
  refine refuses_locked (fun s' => ?_) fun w hw => ?_
  · rw [finishTerminalRelease_exec]
    exact Or.inl (Advance.refl s')
  · obtain ⟨r, hexec, hr, hunknown⟩ := finishTerminalRelease_of_terminal hw.terminal inScope
    rw [hexec]
    refine ⟨hr, fun hs => ?_⟩
    obtain ⟨failure, hsome, hlifecycle, hfailure⟩ := hw.failure hs
    refine ⟨failure, hsome, hlifecycle, ?_⟩
    rw [hunknown (hw.unknown hs).1, hfailure]
    rfl

/-- A program that begins with a refusing check ends there. -/
theorem refuses_after_check
    {α : Type} {check : Prog Bool} {next : Bool → Prog α} {value : α}
    (hcheck : Refuses t op s check (fun r => r ≠ .ok false ∧ Retained s r))
    (hnext : next true = pure value) :
    Refuses t op s (check >>= next) (Retained s) := by
  refine hcheck.bind ?_ fun e he hs => ?_
  · rintro (_ | _) ⟨hne, hretained⟩
    · exact absurd rfl hne
    · rw [hnext]
      refine refuses_ret _ fun hs => ?_
      obtain ⟨failure, -, -, heq⟩ := hretained hs
      cases heq
  · obtain ⟨failure, hsome, hlifecycle, heq⟩ := he.2 hs
    obtain rfl := Except.error.inj heq
    exact ⟨e, hsome, hlifecycle, rfl⟩

variable (h : LeaseHandle)

theorem refuses_renew
    (leaseTime : Option Timedelta) :
    Refuses t op s (renew h leaseTime) (Retained s) :=
  refuses_after_check refuses_goneOrRaise rfl

theorem refuses_isHeld :
    Refuses t op s (isHeld h) (Retained s) :=
  refuses_after_check refuses_goneOrRaise rfl

theorem refuses_releaseScoped
    (inScope : Bool) :
    Refuses t op s (releaseScoped h inScope) (Retained s) :=
  refuses_after_check (refuses_finishTerminalRelease inScope) rfl

/-- A retained failure passes through the rest of a program. -/
theorem Refuses.bind_retained
    {α β : Type} {p : Prog α} {next : α → Prog β}
    (hp : Refuses t op s p (Retained s))
    (hnext : ∀ a, s.state ≠ .unknown → Refuses t op s (next a) (Retained s)) :
    Refuses t op s (p >>= next) (Retained s) := by
  refine hp.bind (fun a ha => hnext a fun hs => ?_) fun e he hs => ?_
  · obtain ⟨failure, -, -, heq⟩ := ha hs
    cases heq
  · obtain ⟨failure, hsome, hlifecycle, heq⟩ := he hs
    obtain rfl := Except.error.inj heq
    exact ⟨e, hsome, hlifecycle, rfl⟩

/-- Nothing is claimed of a handle that was not unknown. -/
theorem refuses_known
    {α : Type} {r : Except Raised α}
    (hs : s.state ≠ .unknown) :
    Refuses t op s (ExceptT.mk (Proc.ret r)) (Retained s) :=
  refuses_ret r fun hs' => absurd hs' hs

theorem refuses_assertHeld :
    Refuses t op s (assertHeld h) (Retained s) := by
  refine (refuses_isHeld h).bind_retained fun held hs => ?_
  split <;> exact refuses_known hs

/-- The failure that `_raise_if_unknown` raises is the retained one. -/
theorem Refused.raised
    {α : Type} {w : HandleWorld}
    (hw : Refused t op s w) :
    Retained s (.error (w.handle.failure.getD assertionError) : Except Raised α) := by
  intro hs
  obtain ⟨failure, hsome, hlifecycle, hfailure⟩ := hw.failure hs
  exact ⟨failure, hsome, hlifecycle, by rw [hfailure]; rfl⟩

theorem Retained.rethrow
    {α β : Type} {e : Raised}
    (h : Retained s (.error e : Except Raised α)) :
    Retained s (.error e : Except Raised β) := by
  intro hs
  obtain ⟨failure, hsome, hlifecycle, heq⟩ := h hs
  obtain rfl := Except.error.inj heq
  exact ⟨e, hsome, hlifecycle, rfl⟩

theorem refuses_markEntered :
    Refuses t op s (locked markEntered .ordinary)
      (fun r => r ≠ .ok () ∧ Retained s r) := by
  refine refuses_locked (fun s' => Or.inl (markEntered_advance s')) fun w hw => ?_
  rcases HandleState.terminal_or hw.terminal with hgone | hunknown
  · have hne : w.handle.state ≠ .unknown ∧ w.handle.state ≠ .acquired := by
      rcases hgone with hstate | hstate <;> rw [hstate] <;> decide
    simp only [markEntered, exec_bind, raiseIfUnknown_exec, if_neg hne.1, exec_get,
      if_pos hne.2, exec_throw]
    exact ⟨by simp, fun hs => absurd (hw.unknown hs).1 hne.1⟩
  · simp only [markEntered, exec_bind, raiseIfUnknown_exec, if_pos hunknown]
    exact ⟨by simp, hw.raised⟩

theorem refuses_enter :
    Refuses t op s (enter h) (Retained s) :=
  refuses_markEntered.bind (fun _ ha => absurd rfl ha.1) fun _ he => he.2.rethrow

/-- Whatever goes wrong on a handle that was unknown is its retained failure. -/
def OnlyRetained (s : HandleState) {α : Type} (r : Except Raised α) : Prop :=
  ∀ e, r = .error e → Retained s r

theorem OnlyRetained.rethrow
    {α β : Type} {e : Raised}
    (h : OnlyRetained s (.error e : Except Raised α)) :
    Retained s (.error e : Except Raised β) :=
  (h e rfl).rethrow

/-- A sequence of steps that raise only the retained failure. -/
theorem Refuses.bind_only
    {α β : Type} {p : Prog α} {next : α → Prog β}
    (hp : Refuses t op s p (OnlyRetained s))
    (hnext : ∀ a, Refuses t op s (next a) (OnlyRetained s)) :
    Refuses t op s (p >>= next) (OnlyRetained s) :=
  hp.bind (fun a _ => hnext a) fun _ he _ _ => he.rethrow

theorem refuses_done
    {α : Type} (a : α) :
    Refuses t op s (pure a) (OnlyRetained s) :=
  refuses_ret _ fun e he => by cases he

/-- A section that leaves the state and the failure alone and does not raise. -/
theorem refuses_bookkeeping
    {α : Type} {body : Locked α}
    (hbody : ∀ s', ∃ a, (body.exec s').1 = .ok a ∧
      (body.exec s').2.state = s'.state ∧ (body.exec s').2.failure = s'.failure) :
    Refuses t op s (locked body .ordinary) (OnlyRetained s) := by
  refine refuses_locked (fun s' => ?_) fun w _ e he => ?_
  · obtain ⟨a, -, hstate, hfailure⟩ := hbody s'
    exact Or.inl (Advance.of_eq hstate hfailure)
  · obtain ⟨a, hok, -⟩ := hbody w.handle
    rw [hok] at he
    cases he

theorem refuses_giveUpOnWorker
    {label : HandleSection}
    (hlabel : label ≠ .ordinary) :
    Refuses t op s (locked giveUpOnWorker label) (OnlyRetained s) := by
  refine refuses_locked (fun s' => giveUpOnWorker_follows s' hlabel) fun w hw e _ => ?_
  by_cases hunknown : w.handle.state = .unknown
  · simp only [giveUpOnWorker, exec_bind, raiseIfUnknown_exec, if_pos hunknown]
    exact hw.raised
  · exact fun hs => absurd (hw.unknown hs).1 hunknown

theorem refuses_awaitReady :
    Refuses t op s awaitReady (OnlyRetained s) := by
  refine (refuses_asking .waitReady trivial fun _ => ⟨nofun, nofun⟩).bind
    (fun ready _ => ?_) fun _ ⟨_, he⟩ => nomatch he
  split
  · exact refuses_giveUpOnWorker (by decide)
  · exact refuses_done ()

theorem refuses_awaitEnd :
    Refuses t op s awaitEnd (OnlyRetained s) := by
  refine (refuses_asking .joinWorker trivial fun _ => ⟨nofun, nofun⟩).bind
    (fun alive _ => ?_) fun _ ⟨_, he⟩ => nomatch he
  split
  · exact refuses_giveUpOnWorker (by decide)
  · exact refuses_done ()

theorem refuses_stopWorker :
    Refuses t op s stopWorker (OnlyRetained s) := by
  refine (refuses_bookkeeping fun s' => ⟨_, rfl, rfl, rfl⟩).bind_only fun worker => ?_
  split
  · exact refuses_done ()
  refine (refuses_bookkeeping fun s' => ⟨_, rfl, rfl, rfl⟩).bind_only fun _ => ?_
  refine refuses_awaitReady.bind_only fun _ => ?_
  refine (refuses_bookkeeping fun s' => ⟨_, rfl, rfl, rfl⟩).bind_only fun worker => ?_
  split
  · exact refuses_done ()
  refine refuses_awaitEnd.bind_only fun _ => ?_
  exact refuses_bookkeeping fun s' => ⟨_, rfl, rfl, rfl⟩

/-- Both parts of `release` and of `__exit__`. -/
theorem refuses_stopAndRelease
    (inScope : Bool) :
    Refuses t op s (do stopWorker; releaseScoped h inScope) (Retained s) :=
  refuses_stopWorker.bind (fun _ _ => refuses_releaseScoped h inScope)
    fun _ he => he.rethrow

/-- The lifecycle failure of a handle that was unknown is its retained failure. -/
theorem refuses_leaderErrorOf
    {p : Prog Unit}
    (hp : Refuses t op s p (Retained s)) :
    Refuses t op s (leaderErrorOf p) (fun r => s.state = .unknown →
      ∃ failure, s.failure = some failure ∧ r = .ok (some failure)) := by
  intro w hw
  refine System.wp_bind p.run _ (System.wp_mono p.run ?_ (hp w hw))
  rintro (e | a) w ⟨hr, hw⟩
  · dsimp only
    split
    · refine refuses_ret (.ok (some e)) (fun hs => ?_) w hw
      obtain ⟨failure, hsome, -, heq⟩ := hr hs
      obtain rfl := Except.error.inj heq
      exact ⟨e, hsome, rfl⟩
    next hleader =>
      refine refuses_ret (.error e) (fun hs => ?_) w hw
      obtain ⟨failure, -, hlifecycle, heq⟩ := hr hs
      obtain rfl := Except.error.inj heq
      rcases hlifecycle with rfl | rfl <;> exact absurd rfl hleader
  · refine refuses_ret (.ok none) (fun hs => ?_) w hw
    obtain ⟨failure, -, -, heq⟩ := hr hs
    cases heq

theorem refuses_exit
    (exc : Option Raised) :
    Refuses t op s (exit h exc) (fun r => Reports (.exit exc) s (r.map .exited)) := by
  refine (refuses_leaderErrorOf (refuses_stopAndRelease h true)).bind ?_ ?_
  · intro lifecycle hlifecycle
    -- every branch ends in a fixed result, which fits the lifecycle failure
    have hret : ∀ r : Except Raised (Option String),
        (∀ failure, lifecycle = some failure →
          r.map OperationValue.exited = reportOfUnknown failure (.exit exc)) →
        Refuses t op s (ExceptT.mk (Proc.ret r))
          (fun r => Reports (.exit exc) s (r.map .exited)) := by
      intro r hr
      refine refuses_ret r fun hs => ?_
      obtain ⟨failure, hsome, heq⟩ := hlifecycle hs
      exact ⟨failure, hsome, hr failure (Except.ok.inj heq)⟩
    cases lifecycle with
    | none =>
        exact hret (.ok none) nofun
    | some failure =>
        cases exc with
        | none =>
            exact hret (.error failure) (by rintro _ ⟨⟩; rfl)
        | some exc =>
            dsimp only
            split
            next hcontrol =>
              exact hret (.ok (some failure.message))
                (by rintro _ ⟨⟩; simp [reportOfUnknown, hcontrol, Except.map])
            next hcontrol =>
              split
              next hexception =>
                exact hret (.error (.execution exc failure))
                  (by rintro _ ⟨⟩; simp [reportOfUnknown, hcontrol, hexception, Except.map])
              next hexception =>
                exact hret (.error failure)
                  (by rintro _ ⟨⟩; simp [reportOfUnknown, hcontrol, hexception, Except.map])
  · intro e he hs
    obtain ⟨failure, -, heq⟩ := he hs
    cases heq

/-- A retained failure is what every operation but `__exit__` reports. -/
theorem Retained.reports
    {op : Operation} {α : Type} {r : Except Raised α} {f : α → OperationValue}
    (h : Retained s r)
    (hop : ∀ failure, reportOfUnknown failure op = .error failure) :
    Reports op s (r.map f) := by
  intro hs
  obtain ⟨failure, hsome, -, rfl⟩ := h hs
  exact ⟨failure, hsome, (hop failure).symm⟩

theorem refuses_map
    {α β : Type} {p : Prog α} {f : α → β} {Φ : Except Raised β → Prop}
    (hp : Refuses t op s p (fun r => Φ (r.map f))) :
    Refuses t op s (p >>= fun a => pure (f a)) Φ :=
  hp.bind (fun a ha => refuses_ret (.ok (f a)) ha) fun _ he => he

/-- **Refusal**: an operation that finds an unknown handle reports its failure. -/
theorem refuses_perform
    (op' : Operation) :
    Refuses t op s (perform h op') (Reports op' s) := by
  cases op' with
  | renew leaseTime =>
      exact refuses_map ((refuses_renew h leaseTime).mono fun r hr => hr.reports fun _ => rfl)
  | isHeld =>
      exact refuses_map ((refuses_isHeld h).mono fun r hr => hr.reports fun _ => rfl)
  | assertHeld =>
      exact refuses_map ((refuses_assertHeld h).mono fun r hr => hr.reports fun _ => rfl)
  | release =>
      exact refuses_map ((refuses_stopAndRelease h false).mono fun r hr => hr.reports fun _ => rfl)
  | enter =>
      exact refuses_map ((refuses_enter h).mono fun r hr => hr.reports fun _ => rfl)
  | exit exc =>
      exact refuses_map (refuses_exit h exc)

end Refusal

end LeaderRedis
end Bluetape
