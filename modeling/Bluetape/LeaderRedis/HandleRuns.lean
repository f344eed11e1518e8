import Bluetape.LeaderRedis.HandleRefusals

/-!
# Runs of a lease handle

* `handle_run_lawful`: what every step of every run keeps.
* `terminal_left_and_note`: a worker that cannot be joined turns a lost handle
  into an unknown one, and a control exception gets only a note.
-/

namespace Bluetape
namespace LeaderRedis

open Base

/-! ## The threads -/

section Threads

variable (h : LeaseHandle) {t : HandleThread}

/-- An operation keeps the guarantee, and its result fits its start. -/
theorem wp_operation
    {α : Type} {p : Prog α} {Φ : Except Raised α → Prop}
    {op : Operation} {s : HandleState} {w : HandleWorld}
    (hlawful : p.Lawful)
    (hrefuses : Refuses t op s p Φ)
    (hknown : s.state ≠ .unknown → ∀ r, Φ r)
    (hw : InProgress t op s w)
    (hs : w.handle = s) :
    handleSystem.wp Guarantee t p.run (fun r w => InProgress t op s w ∧ Φ r) w := by
  cases hterminal : s.state.terminal
  case false =>
      refine System.wp_mono _ (fun r w hw => ⟨hw, hknown (fun hunknown => ?_) r⟩)
        (wp_of_lawful hterminal hlawful hw)
      rw [hunknown] at hterminal
      cases hterminal
  case true =>
      refine System.wp_mono _ (fun r w hw => ⟨hw.2.progress, hw.1⟩)
        (hrefuses w ⟨hw, hterminal, hs.symm ▸ hterminal, fun hunknown => ?_⟩)
      exact hs.symm ▸ ⟨hunknown, rfl⟩

theorem stable_retains :
    handleSystem.Stable Guarantee t (fun w => w.handle.Retains) :=
  stable_handle fun _ _ _ hfollows => hfollows.retains

/-- A step that may start or end an operation, but leaves the handle alone. -/
theorem Guarantee.frame
    {act : Act HandleSection HandleQuestion HandleQuestion.Answer} {w w' : HandleWorld}
    (hhandle : w'.handle = w.handle)
    (hothers : ∀ u, u ≠ t → w'.started u = w.started u)
    (hcommand : ¬ SendsCommand act)
    (hreport : ∀ r, act = .asked (.report r) →
      ∃ op s, w.started t = some (op, s) ∧ Reports op s r) :
    Guarantee t act w w' where
  follows := ⟨.ordinary, Or.inr rfl, Or.inl (hhandle ▸ Advance.refl _)⟩
  others := hothers
  command h := absurd h hcommand
  report := hreport

theorem finish_others
    (w : HandleWorld) (u : HandleThread)
    (hu : u ≠ t) :
    (w.finish t).started u = w.started u :=
  Function.update_of_ne hu _ _

theorem inProgress_start
    {op : Operation} {w : HandleWorld}
    (hw : w.handle.Retains) :
    InProgress t op w.handle (w.start t op) :=
  ⟨Function.update_self _ _ _, hw⟩

theorem wp_callerThread
    {w : HandleWorld}
    (hw : w.handle.Retains) :
    handleSystem.wp Guarantee t (callerThread h) (fun _ _ => True) w := by
  refine System.wp_loop (fun _ w => w.handle.Retains) (fun _ w hw => ?_) hw
    fun _ _ _ _ _ => trivial
  refine System.wp_ask stable_retains stable_retains ?_ ?_ hw
  · rintro w _ hw ⟨⟩
    exact ⟨.frame rfl (fun _ _ => rfl) (by rintro ⟨_, h | h⟩ <;> cases h) nofun, hw⟩
  rintro op w _ hw hanswer
  refine ⟨.answered hanswer, ?_⟩
  obtain rfl := Option.some.inj hanswer
  refine System.wp_bind (perform h op).run _
    (System.wp_mono _ ?_ (wp_operation (perform_lawful h op) (refuses_perform h op)
      (fun hknown _ hunknown => absurd hunknown hknown) (inProgress_start hw) rfl))
  -- the report closes the operation
  rintro result w' ⟨hprogress, hreports⟩
  refine System.wp_ask (stable_inProgress t op w.handle) stable_retains ?_ ?_ hprogress
  · rintro w' _ hw' ⟨⟩
    refine ⟨.frame rfl (finish_others w') (by rintro ⟨_, h | h⟩ <;> cases h) ?_, hw'.2⟩
    rintro r ⟨⟩
    exact ⟨op, w.handle, hw'.1, hreports⟩
  · rintro _ w' _ hw' hanswer
    refine ⟨.answered hanswer, ?_⟩
    obtain rfl := Option.some.inj hanswer
    exact System.wp_ret stable_retains (fun _ hg => hg) hw'

/-- A section of the worker outside its renewals. -/
theorem wp_worker_locked
    {α : Type} {body : Locked α} {label : HandleSection} {w : HandleWorld}
    (hfollows : ∀ s, Follows label s (body.exec s).2)
    (hw : w.handle.Retains) :
    handleSystem.wp Guarantee t (locked body label).run (fun _ w => w.handle.Retains) w := by
  refine System.wp_atomically stable_retains (fun w hw _ => ?_) hw
  refine ⟨.atomic (hfollows w.handle), fun w' hothers => ?_⟩
  have hretains : (w.withHandle (body.exec w.handle).2).handle.Retains :=
    (hfollows w.handle).retains hw
  exact stable_retains _ _ hretains hothers

/-- The end of the last round. -/
theorem wp_stopRound
    {w : HandleWorld}
    (hw : w.handle.Retains) :
    handleSystem.wp Guarantee t
      ((locked (modify fun s => { s with stopEvent := true }) .ordinary).run.bind
        fun _ => Proc.ret (.inr () : Unit ⊕ Unit))
      (fun _ w => w.handle.Retains) w := by
  refine System.wp_bind _ _ (System.wp_mono _ ?_
    (wp_worker_locked (fun s => Or.inl (.of_eq rfl rfl)) hw))
  intro _ w' hw'
  exact System.wp_ret stable_retains (fun _ hg => hg) hw'

theorem wp_renewRound
    {w : HandleWorld}
    (hw : w.handle.Retains) :
    handleSystem.wp Guarantee t (renewRound h) (fun _ w => w.handle.Retains) w := by
  refine System.wp_ask stable_retains stable_retains ?_ ?_ hw
  · rintro w _ hw ⟨⟩
    refine ⟨.frame rfl (finish_others w) (by rintro ⟨_, h | h⟩ <;> cases h) nofun, hw⟩
  rintro stop w w' hw hanswer
  refine ⟨.answered hanswer, ?_⟩
  obtain ⟨-, hsome⟩ := Option.ite_none_right_eq_some.mp hanswer
  obtain rfl := Option.some.inj hsome
  cases stop with
  | true =>
      exact System.wp_ret stable_retains (fun _ hg => hg) hw
  | false =>
      refine System.wp_bind (renew h none).run _ (System.wp_mono _ ?_
        (wp_operation (renew_lawful h none) (refuses_renew h none)
          (fun hknown _ hunknown => absurd hunknown hknown) (inProgress_start hw) rfl))
      rintro (e | outcome) w' ⟨⟨-, hw'⟩, -⟩
      · refine System.wp_bind _ _ (System.wp_mono _ ?_
          (wp_worker_locked failLoop_follows hw'))
        intro _ w'' hw''
        exact wp_stopRound hw''
      · cases outcome with
        | renewed =>
            exact System.wp_ret stable_retains (fun _ hg => hg) hw'
        | notHeld | backendFailure =>
            exact wp_stopRound hw'

theorem wp_renewLoop
    {w : HandleWorld}
    (hw : w.handle.Retains) :
    handleSystem.wp Guarantee t (renewLoop h) (fun _ w => w.handle.Retains) w := by
  refine System.wp_loop (fun _ w => w.handle.Retains) (fun _ w hw => ?_) hw
    fun _ _ hw => stable_retains.stably hw
  refine System.wp_mono _ ?_ (wp_renewRound h hw)
  rintro (_ | _) w' hw' <;> exact hw'

theorem wp_workerThread
    {w : HandleWorld}
    (hw : w.handle.Retains) :
    handleSystem.wp Guarantee t (workerThread h) (fun _ _ => True) w := by
  refine System.wp_ask stable_retains stable_retains ?_ ?_ hw
  · rintro w _ hw ⟨⟩
    exact ⟨.frame rfl (fun _ _ => rfl) (by rintro ⟨_, h | h⟩ <;> cases h) nofun, hw⟩
  rintro a w w' hw hanswer
  have hadvance : Follows .ordinary w.handle w'.handle :=
    Or.inl (answerHandle_frame (t := t) (q := .threadStarted) (a := a) hanswer).1
  refine ⟨.answered hanswer, System.wp_bind (renewLoop h) _ ?_⟩
  refine System.wp_mono _ (fun _ w'' hw'' => ?_)
    (wp_renewLoop h (hadvance.retains hw))
  refine System.wp_bind _ _ (System.wp_mono _ ?_
    (wp_worker_locked (fun s => Or.inl (.of_eq rfl rfl)) hw''))
  exact fun _ _ _ _ _ => trivial

/-- The threads of a fresh handle keep the guarantee. -/
theorem handlePool_sound :
    System.Pool.Sound handleSystem Guarantee (fun _ _ _ => True) (handlePool h) := by
  have hretains : HandleState.init.Retains := nofun
  rintro (n | _)
  · exact wp_callerThread h hretains
  · exact wp_workerThread h hretains

end Threads

/-- A guaranteed step is lawful. -/
theorem lawful_of_guaranteed
    (c c' : HandlePool) (l : HandleLabel)
    (hstep : System.Pool.Guaranteed handleSystem Guarantee c l c') :
    LawfulStep c l c' := by
  cases l with
  | env e =>
      exact nomatch e
  | thread t act =>
      rcases hstep with hguar | ⟨rfl, hworld⟩
      · refine ⟨fun hnot => ?_, hguar.command, hguar.report⟩
        obtain ⟨label, hlabel, hadvance | ⟨hne, hgone, -⟩⟩ := hguar.follows
        · exact hadvance
        · rcases hlabel with rfl | rfl
          · exact absurd ⟨label, rfl, hne, hgone⟩ hnot
          · exact absurd rfl hne
      · refine ⟨fun _ => hworld ▸ Advance.refl _, ?_, nofun⟩
        rintro ⟨call, h | h⟩ <;> cases h

/-- **State machine of a handle**: every step of every run is lawful. -/
theorem handle_run_lawful
    (h : LeaseHandle) {c : HandlePool} {ls : List HandleLabel}
    (hrun : Run HandleStep (handlePool h) ls c) :
    Run.EachStep HandleStep LawfulStep (handlePool h) ls c :=
  (System.Pool.sound_run (handlePool_sound h) hrun).1.mono fun c l c' =>
    lawful_of_guaranteed c c' l

/-! ## Two runs outside the state machine -/

/-- A handle with a lease time of nine seconds, renewed every three. -/
def renewedHandle : LeaseHandle where
  record :=
    { ownerToken := ascii "AAAAAAAAAAAAAAAAAAAAAAAAAAAAAAAA"
      fencingToken := 1
      owner_valid := by decide +kernel
      fence_pos := by decide
      fence_le := by decide }
  options :=
    { waitTime := noTime
      leaseTime := ⟨9000000, by decide, by decide⟩
      minLeaseTime := noTime
      autoRenew := true
      renewInterval := some ⟨3000000, by decide, by decide⟩
      wait_nonneg := noTime_nonneg
      lease_pos := by decide
      min_nonneg := noTime_nonneg
      min_le_lease := by decide
      interval_of_autoRenew := fun _ => rfl
      interval_bounds := by simp }
  acquiredNs := 0

/-- The choices of a scheduler. -/
abbrev HandleChoice :=
  System.Choice HandleThread HandleQuestion Empty HandleQuestion.Answer

/-- A caller begins its next operation. -/
def beginning (t : HandleThread) (op : Operation) : List HandleChoice :=
  [.run t, .run t, .answer t .nextOperation op]

/-- The next section of a thread, and its question. -/
def thenAsking (t : HandleThread) (q : HandleQuestion) (a : q.Answer) : List HandleChoice :=
  [.run t, .run t, .answer t q a]

/-- The probe of the handle, up to its command. -/
def probing (t : HandleThread) (answer : ScriptAnswer) : List HandleChoice :=
  thenAsking t (.evalsha (.probe renewedHandle.record.toBytes)) answer

/-- The renewal of the handle, up to its command. -/
def renewing (t : HandleThread) (answer : ScriptAnswer) : List HandleChoice :=
  thenAsking t (.evalsha (.renew renewedHandle.record.toBytes (ascii "9000"))) answer

/-- The end of an operation. -/
def reporting (t : HandleThread) (r : Except Raised OperationValue) : List HandleChoice :=
  [.run t, .answer t (.report r) ()]

/-- The worker starts its first round and sends its renewal. -/
def workerRenews : List HandleChoice :=
  [.run .worker, .answer .worker .threadStarted (), .run .worker, .run .worker,
    .answer .worker .waitStop false, .run .worker, .run .worker]

/--
One caller enters and its worker is in the middle of a renewal; another caller
finds the lease lost; then the first one releases and waits for the worker in
vain.
-/
def lostThenStuck : List HandleChoice :=
  List.flatten
    [beginning (.caller 0) .enter, [.run (.caller 0)],
      renewing (.caller 0) (.reply Reply.renewed.wire), [.run (.caller 0)],
      thenAsking (.caller 0) .startThread .started, [.run (.caller 0)],
      reporting (.caller 0) (.ok .done), workerRenews,
      beginning (.caller 1) .isHeld,
      probing (.caller 1) (.reply Reply.notHeld.wire), [.run (.caller 1)],
      beginning (.caller 0) .release, [.run (.caller 0)],
      thenAsking (.caller 0) .waitReady true, thenAsking (.caller 0) .joinWorker true]

/-- A probe fails, and the body of the scope is interrupted afterwards. -/
def unknownThenInterrupted : List HandleChoice :=
  List.flatten
    [beginning (.caller 0) .isHeld,
      probing (.caller 0) (.raised .uncertain), [.run (.caller 0)],
      reporting (.caller 0) (.error .backendError),
      beginning (.caller 0) (.exit (some (.control 0))),
      [.run (.caller 0), .run (.caller 0)]]

/-- The result that a thread is about to report. -/
def aboutToReport (c : HandlePool) (t : HandleThread) :
    Option (Except Raised OperationValue) :=
  match c.thread t with
  | .running (.ask (.report r) _) => some r
  | _ => none

/-- A state before and after one more step of a schedule. -/
theorem schedule_then
    {α : Type} {c : HandlePool} {choices : List HandleChoice} {choice : HandleChoice}
    {f : HandlePool → HandlePool → α} {a : α}
    (h : ((handleSystem.schedule c choices).bind fun c₁ =>
      (handleSystem.choose c₁ choice).map fun c₂ => f c₁ c₂) = some a) :
    ∃ ls c₁ l c₂, Run HandleStep c ls c₁ ∧ HandleStep c₁ l c₂ ∧ f c₁ c₂ = a := by
  obtain ⟨c₁, hschedule, hrest⟩ := Option.bind_eq_some_iff.mp h
  obtain ⟨c₂, hchoose, hf⟩ := Option.map_eq_some_iff.mp hrest
  obtain ⟨ls, hrun⟩ := System.schedule_run hschedule
  obtain ⟨l, hstep⟩ := System.choose_step hchoose
  exact ⟨ls, c₁, l, c₂, hrun, hstep, hf⟩

theorem lostThenStuck_states :
    ((handleSystem.schedule (handlePool renewedHandle) lostThenStuck).bind fun c =>
      (handleSystem.choose c (.run (.caller 0))).map fun c' =>
        (c.world.handle.state, c'.world.handle.state)) = some (.lost, .unknown) := by
  decide

theorem unknownThenInterrupted_report :
    ((handleSystem.schedule (handlePool renewedHandle) unknownThenInterrupted).map
      fun c => ((c.world.started (.caller 0)).map fun start => (start.1, start.2.state),
        aboutToReport c (.caller 0))) =
      some (some (.exit (some (.control 0)), .unknown),
        some (.ok (.exited (some "leader backend operation failed")))) := by
  decide

/--
A lost handle becomes unknown when its worker cannot be joined, and an unknown
handle ends a scope that a control exception leaves without raising.
-/
theorem terminal_left_and_note :
    (∃ ls c l c', Run HandleStep (handlePool renewedHandle) ls c ∧ HandleStep c l c' ∧
      c.world.handle.state = .lost ∧ c'.world.handle.state = .unknown) ∧
    ∃ ls c s, Run HandleStep (handlePool renewedHandle) ls c ∧
      c.world.started (.caller 0) = some (.exit (some (.control 0)), s) ∧
      s.state = .unknown ∧
      aboutToReport c (.caller 0) =
        some (.ok (.exited (some "leader backend operation failed"))) := by
  constructor
  · obtain ⟨ls, c, l, c', hrun, hstep, hstates⟩ := schedule_then lostThenStuck_states
    obtain ⟨hlost, hunknown⟩ := Prod.mk.inj hstates
    exact ⟨ls, c, l, c', hrun, hstep, hlost, hunknown⟩
  · obtain ⟨c, hschedule, hreport⟩ :=
      Option.map_eq_some_iff.mp unknownThenInterrupted_report
    obtain ⟨ls, hrun⟩ := System.schedule_run hschedule
    obtain ⟨hstarted, habout⟩ := Prod.mk.inj hreport
    obtain ⟨⟨op, s⟩, hsome, hop⟩ := Option.map_eq_some_iff.mp hstarted
    obtain ⟨rfl, hs⟩ := Prod.mk.inj hop
    exact ⟨ls, c, s, hrun, hsome, hs, habout⟩

/-- The run up to the lost handle is lawful. -/
theorem handle_run_lawful_lost :
    ∃ ls c, c.world.handle.state = .lost ∧
      Run.EachStep HandleStep LawfulStep (handlePool renewedHandle) ls c := by
  obtain ⟨ls, c, _, _, hrun, -, hstates⟩ := schedule_then lostThenStuck_states
  exact ⟨ls, c, (Prod.mk.inj hstates).1, handle_run_lawful renewedHandle hrun⟩

end LeaderRedis
end Bluetape
