import Bluetape.Base.Triples
import Bluetape.LeaderRedis.LeaseHistory

/-!
# Reasoning about the threads of a lease

Triples for the programs of a handle among its other threads.  Assertions are facts
that only come true as the history grows and time passes.

* `Keeps`: the invariant stands throughout, with facts before and after;
* `keeps_runScript`: a command is answered with the reply to its own execution;
* `Keeps.locked`: a lock block, which may mark the handle released only after the
  server has taken the lease back.
-/

namespace Bluetape
namespace LeaderRedis

open Base

/-! ## Facts -/

/-- A condition that stays true as the history grows and time passes. -/
structure Fact where
  holds : ElectionWorld → Prop
  later : ∀ {w w' : ElectionWorld}, holds w → Later w w' → holds w'

instance : CoeFun Fact (fun _ => ElectionWorld → Prop) :=
  ⟨Fact.holds⟩

namespace Fact

/-- A condition that does not depend on the world. -/
def always (φ : Prop) : Fact :=
  ⟨fun _ => φ, fun hφ _ => hφ⟩

/-- Both facts. -/
def and (F F' : Fact) : Fact :=
  ⟨fun w => F w ∧ F' w, fun hF hlater => ⟨F.later hF.1 hlater, F'.later hF.2 hlater⟩⟩

/-- The fact, if the condition is met. -/
def given (φ : Prop) (F : Fact) : Fact :=
  ⟨fun w => φ → F w, fun hF hlater hφ => F.later (hF hφ) hlater⟩

/-- The fact for some value. -/
def some {κ : Type} (F : κ → Fact) : Fact :=
  ⟨fun w => ∃ k, F k w, fun ⟨k, hF⟩ hlater => ⟨k, (F k).later hF hlater⟩⟩

/-- `Replied` -/
def replied (t : HandleThread) (call : Call) (reply : Reply) : Fact :=
  ⟨Replied t call reply, fun hreplied hlater => hreplied.later hlater⟩

/-- `Confirmed` -/
def confirmed (h : LeaseHandle) : Fact :=
  ⟨Confirmed h, fun hconfirmed hlater => hconfirmed.later hlater⟩

/-- `HandedBack` -/
def handedBack (h : LeaseHandle) : Fact :=
  ⟨HandedBack h, fun hback hlater => hback.later hlater⟩

/-- `Due`, at the time of the world -/
def due (h : LeaseHandle) (call : Call) : Fact :=
  ⟨fun w => Due h w.server.db.now call, fun hdue hlater => hdue.mono hlater.now⟩

/-- So many milliseconds from now reach the guaranteed time. -/
def reaches (h : LeaseHandle) (ms : Nat) : Fact :=
  ⟨fun w => h.guaranteedMs ≤ w.server.db.now + ms, fun hreach hlater => by
    have hle := hlater.now
    omega⟩

/-- An exception that `except Exception` catches. -/
def exception (e : Raised) : Fact :=
  always (e.isException = true)

/-- An instance of `LeaderError`. -/
def leader (e : Raised) : Fact :=
  always (e.isLeaderError = true)

/-- Any exception. -/
def any (_ : Raised) : Fact :=
  always True

/-- What a guarded dispatch tells when it was answered. -/
def attempted {α : Type} (R : α → Fact) : Attempt α → Fact
  | .done a => R a
  | _ => always True

/-- What holds without a leader error. -/
def orLeader (F : Fact) : Option Raised → Fact
  | none => F
  | Option.some e => leader e

end Fact

/-! ## The guarantee -/

variable {h : LeaseHandle} {t : HandleThread}

/-- What a step of a thread guarantees to the others. -/
structure ElectionGuarantee (h : LeaseHandle) (t : HandleThread)
    (act : Act HandleSection HandleQuestion HandleQuestion.Answer)
    (w w' : ElectionWorld) : Prop where
  kept : LeaseInvariant h w → LeaseInvariant h w'
  later : Later w w'
  others : ∀ u, u ≠ t → w'.server.wire u = w.server.wire u
  actions : t ≠ elector → w'.actions = w.actions
  action : ∀ fence, act = .asked (.action fence) →
    fence = h.record.fencingToken ∧ w.actions = [] ∧ Confirmed h w

/-- The invariant, and how the elector's action has ended so far. -/
def Standing (h : LeaseHandle) (t : HandleThread) (actions : List (Except Raised Nat))
    (w : ElectionWorld) : Prop :=
  LeaseInvariant h w ∧ (t = elector → w.actions = actions)

theorem stable_standing
    (actions : List (Except Raised Nat)) :
    (electionSystem h).Stable (ElectionGuarantee h) t (Standing h t actions) := by
  refine .of_steps (fun e w w' hw hevent => ?_) fun u act w w' hne hw hguar => ?_
  · refine ⟨hw.1.event hevent, fun ht => ?_⟩
    rw [(electionEvent_frame hevent).2]
    exact hw.2 ht
  · refine ⟨hguar.kept hw.1, fun ht => ?_⟩
    rw [hguar.actions fun hu => hne (hu.trans ht.symm)]
    exact hw.2 ht

theorem Fact.lasts
    (F : Fact) :
    (electionSystem h).Lasts (ElectionGuarantee h) F :=
  ⟨fun _ _ _ hF hevent => F.later hF (electionEvent_frame hevent).1,
    fun _ _ _ _ hF hguar => F.later hF hguar.later⟩

/-! ## Triples over facts -/

section Keeps

variable {actions : List (Except Raised Nat)} {α β : Type}

/-- The invariant stands throughout; the facts hold before, and at either end. -/
def Keeps (h : LeaseHandle) (t : HandleThread) (actions : List (Except Raised Nat))
    (F : Fact) (p : Prog α) (R : α → Fact) (J : Raised → Fact) : Prop :=
  (electionSystem h).Triple (ElectionGuarantee h) t
    (fun w => Standing h t actions w ∧ F w) p
    (fun a w => Standing h t actions w ∧ R a w)
    (fun e w => Standing h t actions w ∧ J e w)

theorem stable_fact
    (F : Fact) :
    (electionSystem h).Stable (ElectionGuarantee h) t
      (fun w => Standing h t actions w ∧ F w) :=
  (stable_standing actions).and F.lasts.stable

namespace Keeps

variable {F F' : Fact} {p : Prog α} {R R' : α → Fact} {J J' : Raised → Fact}

theorem weaken
    (hp : Keeps h t actions F p R J)
    (hpre : ∀ w, F' w → F w)
    (hpost : ∀ a w, R a w → R' a w)
    (hexc : ∀ e w, J e w → J' e w) :
    Keeps h t actions F' p R' J' :=
  System.Triple.weaken hp (fun w hw => ⟨hw.1, hpre w hw.2⟩)
    (fun a w hw => ⟨hw.1, hpost a w hw.2⟩) fun e w hw => ⟨hw.1, hexc e w hw.2⟩

/-- A condition among the facts before can be used at once. -/
theorem given
    {φ : Prop}
    (hp : φ → Keeps h t actions F p R J)
    (hpre : ∀ w, F w → φ) :
    Keeps h t actions F p R J :=
  fun w hw => hp (hpre w hw.2) w hw

theorem pure
    {a : α}
    (hpost : ∀ w, F w → R a w) :
    Keeps h t actions F (Pure.pure a) R J :=
  System.Triple.pure (stable_fact F) fun w hw => ⟨hw.1, hpost w hw.2⟩

theorem throw
    {e : Raised}
    (hexc : ∀ w, F w → J e w) :
    Keeps h t actions F (MonadExcept.throw e) R J :=
  System.Triple.throw (stable_fact F) fun w hw => ⟨hw.1, hexc w hw.2⟩

theorem bind
    {M : α → Fact} {next : α → Prog β} {R : β → Fact}
    (hp : Keeps h t actions F p M J)
    (hnext : ∀ a, Keeps h t actions (M a) (next a) R J) :
    Keeps h t actions F (p >>= next) R J :=
  System.Triple.bind (fun e => stable_fact (J e)) hp hnext

/-- What holds before also holds after. -/
theorem frame
    (F' : Fact)
    (hp : Keeps h t actions F p R J) :
    Keeps h t actions (F.and F') p (fun a => (R a).and F') (fun e => (J e).and F') := by
  refine System.Triple.weaken (System.Triple.frame (F'.lasts) hp) (fun w hw => ?_)
    (fun a w hw => ?_) fun e w hw => ?_
  · exact ⟨⟨hw.1, hw.2.1⟩, hw.2.2⟩
  · exact ⟨hw.1.1, hw.1.2, hw.2⟩
  · exact ⟨hw.1.1, hw.1.2, hw.2⟩

theorem orRaise
    {e : Raised} {o : Option α}
    (hpost : ∀ a w, o = some a → F w → R a w)
    (hexc : ∀ w, F w → J e w) :
    Keeps h t actions F (orRaise e o) R J := by
  cases o with
  | none => exact .throw hexc
  | some a => exact .pure fun w hw => hpost a w rfl hw

/-- A guarded dispatch that raises exceptions only does not raise. -/
theorem attempt
    (hp : Keeps h t actions F p R Fact.exception) :
    Keeps h t actions F (attempt p) (Fact.attempted R) J := by
  refine System.Triple.resume hp (fun a => ?_) fun e => ?_
  · exact System.Triple.pure (stable_fact (R a)) fun w hw => hw
  · intro w hw
    cases e with
    | control tag => exact absurd hw.2 (by simp [Fact.exception, Fact.always, Raised.isException])
    | base tag => exact absurd hw.2 (by simp [Fact.exception, Fact.always, Raised.isException])
    | _ => exact (stable_fact (.always True)).stably ⟨hw.1, trivial⟩

/-- The leader errors are caught. -/
theorem leaderErrorOf
    {p : Prog Unit} {R : Unit → Fact}
    (hp : Keeps h t actions F p R Fact.leader) :
    Keeps h t actions F (leaderErrorOf p) (Fact.orLeader (R ())) J := by
  refine System.Triple.resume hp (fun a => ?_) fun e => ?_
  · exact System.Triple.pure (stable_fact (R ())) fun w hw => hw
  · intro w hw
    have hleader : e.isLeaderError = true := hw.2
    show System.wp _ _ _ (if e.isLeaderError then _ else _) _ _
    rw [if_pos hleader]
    exact (stable_fact (.leader e)).stably hw

end Keeps

end Keeps

/-! ## Lock blocks -/

section Locked

variable {actions : List (Except Raised Nat)} {α : Type} {w : ElectionWorld}

theorem later_withHandle
    (w : ElectionWorld) (s : HandleState) :
    Later w (w.withHandle s) :=
  .of_eq rfl rfl

theorem LeaseInvariant.withHandle
    {s : HandleState}
    (hw : LeaseInvariant h w)
    (hretains : s.Retains)
    (hreleased : s.state = .released → HandedBack h w) :
    LeaseInvariant h (w.withHandle s) :=
  ⟨hw.nonneg, hw.clock, hw.acquired, hw.server,
    fun u call hcall => (hw.sent u call hcall).later (later_withHandle w s), hretains,
    fun hstate => (hreleased hstate).later (later_withHandle w s)⟩

/--
A lock block follows the state machine; it marks the handle released only when the
server has taken the lease back, and its result is described by the facts.
-/
theorem Keeps.locked
    {body : Locked α} {label : HandleSection} {F : Fact} {R : α → Fact} {J : Raised → Fact}
    (hfollows : ∀ s, Follows label s (body.exec s).2)
    (hends : ∀ w, LeaseInvariant h w → F w →
      ((body.exec w.threads.handle).2.state = .released → HandedBack h w) ∧
        System.Ends (fun a => (R a).holds) (fun e => (J e).holds)
          (body.exec w.threads.handle).1 w) :
    Keeps h t actions F (locked body label) R J := by
  refine System.Triple.atomically (stable_fact F) (fun a => stable_fact (R a))
    (fun e => stable_fact (J e)) fun w hw _ => ?_
  obtain ⟨⟨hinv, hactions⟩, hF⟩ := hw
  obtain ⟨hreleased, hresult⟩ := hends w hinv hF
  have hlater := later_withHandle w (body.exec w.threads.handle).2
  have hinv' := hinv.withHandle ((hfollows w.threads.handle).retains hinv.retains) hreleased
  refine ⟨⟨fun _ => hinv', hlater, fun _ _ => rfl, fun _ => rfl, fun _ hact => by cases hact⟩, ?_⟩
  show System.Ends _ _ (body.exec w.threads.handle).1 _
  cases hexec : (body.exec w.threads.handle).1 with
  | ok a =>
      rw [hexec] at hresult
      exact ⟨⟨hinv', hactions⟩, (R a).later hresult hlater⟩
  | error e =>
      rw [hexec] at hresult
      exact ⟨⟨hinv', hactions⟩, (J e).later hresult hlater⟩

/-- A lock block that leaves the state and the failure alone, and does not raise. -/
theorem Keeps.locked_same
    {body : Locked α} {F : Fact}
    (hsame : ∀ s, (body.exec s).2.state = s.state ∧ (body.exec s).2.failure = s.failure)
    (hok : ∀ s, ∃ a, (body.exec s).1 = .ok a) {J : Raised → Fact} :
    Keeps h t actions F (LeaderRedis.locked body .ordinary) (fun _ => F) J := by
  refine .locked (fun s => .inl (.of_eq (hsame s).1 (hsame s).2)) fun w hw hF => ?_
  refine ⟨fun hstate => hw.released ((hsame _).1 ▸ hstate), ?_⟩
  obtain ⟨a, ha⟩ := hok w.threads.handle
  rw [ha]
  exact hF

end Locked

/-! ## Questions -/

section Questions

variable {actions : List (Except Raised Nat)} {α : Type} {w w' : ElectionWorld}

/-- Questions that neither send a command nor call the action. -/
def HandleQuestion.plain : HandleQuestion → Prop
  | evalsha _ | eval _ | action _ => False
  | _ => True

/-- What an issued or answered question does to the fields of the handle. -/
def SameHandle (s s' : HandleState) : Prop :=
  s'.state = s.state ∧ s'.failure = s.failure

theorem issueHandle_same
    {q : HandleQuestion} {c c' : HandleWorld}
    (hissue : handleSystem.issue t q c = some c') :
    SameHandle c.handle c'.handle := by
  cases q <;> obtain rfl := Option.some.inj hissue <;> exact ⟨rfl, rfl⟩

theorem answerHandle_same
    {q : HandleQuestion} {a : q.Answer} {c c' : HandleWorld}
    (hanswer : answerHandle t c q a = some c') :
    SameHandle c.handle c'.handle := by
  cases q
  case waitStop =>
      obtain ⟨-, hanswer⟩ := Option.ite_none_right_eq_some.mp hanswer
      obtain rfl := Option.some.inj hanswer
      cases a <;> exact ⟨rfl, rfl⟩
  case waitReady | joinWorker | threadStarted =>
      obtain ⟨-, hanswer⟩ := Option.ite_none_right_eq_some.mp hanswer
      obtain rfl := Option.some.inj hanswer
      exact ⟨rfl, rfl⟩
  case startThread =>
      cases a <;> obtain rfl := Option.some.inj hanswer <;> exact ⟨rfl, rfl⟩
  all_goals
    obtain rfl := Option.some.inj hanswer
    exact ⟨rfl, rfl⟩

/-- The fields of the handle and the connection of the thread change. -/
theorem LeaseInvariant.replace
    (hw : LeaseInvariant h w)
    (t : HandleThread) (threads : HandleWorld) (wire : Wire) (answered : List (Except Raised Nat))
    (hsame : SameHandle w.threads.handle threads.handle)
    (hsent : ∀ call, wire.current = some call ∨ call ∈ wire.stale → Sendable h w call) :
    LeaseInvariant h { w with
      threads := threads
      server := w.server.setWire t wire
      actions := answered } := by
  have hlater : Later w { w with
      threads := threads
      server := w.server.setWire t wire
      actions := answered } := .of_eq rfl rfl
  refine ⟨hw.nonneg, hw.clock, hw.acquired, hw.server, fun u call hcall => ?_, ?_, ?_⟩
  · refine Sendable.later ?_ hlater
    by_cases hu : u = t
    · subst hu
      exact hsent call (by simpa [AcquireWorld.setWire] using hcall)
    · exact hw.sent u call (by simpa [AcquireWorld.setWire, hu] using hcall)
  · intro hunknown
    rw [hsame.2]
    exact hw.retains (hsame.1 ▸ hunknown)
  · exact fun hstate => (hw.released (hsame.1 ▸ hstate)).later hlater

/-- Only the fields of the handle change. -/
theorem LeaseInvariant.withThreads
    (hw : LeaseInvariant h w)
    (threads : HandleWorld) (answered : List (Except Raised Nat))
    (hsame : SameHandle w.threads.handle threads.handle) :
    LeaseInvariant h { w with threads := threads, actions := answered } := by
  have hwire := hw.replace .worker threads (w.server.wire .worker) answered hsame
    fun call hcall => hw.sent .worker call hcall
  simpa [AcquireWorld.setWire] using hwire

theorem setWire_wire_of_ne
    {u : HandleThread} (server : AcquireWorld HandleThread) (wire : Wire)
    (hne : u ≠ t) :
    (server.setWire t wire).wire u = server.wire u :=
  Function.update_of_ne hne _ _

/-- A plain question goes out. -/
theorem plain_issued
    {q : HandleQuestion}
    (hplain : q.plain)
    (hw : Standing h t actions w)
    (hissue : issueElection t q w = some w') :
    ElectionGuarantee h t (.asked q) w w' ∧ Standing h t actions w' ∧ Later w w' := by
  obtain ⟨threads, hthreads, rfl⟩ := Option.map_eq_some_iff.mp hissue
  have hserver : w.server.ask t q = w.server := by
    cases q <;> first | rfl | exact hplain.elim
  have hinv := hw.1.withThreads threads w.actions (issueHandle_same hthreads)
  rw [hserver]
  refine ⟨⟨fun _ => hinv, .of_eq rfl rfl, fun _ _ => rfl, fun _ => rfl, ?_⟩, ⟨hinv, hw.2⟩,
    .of_eq rfl rfl⟩
  rintro fence ⟨⟩
  exact hplain.elim

/-- A plain question is answered. -/
theorem plain_answered
    {q : HandleQuestion} {a : q.Answer}
    (hplain : q.plain)
    (hw : Standing h t actions w)
    (hanswer : answerElection h t q a w = some w') :
    possibleAnswer h w q a = true ∧ ElectionGuarantee h t (.answered q a) w w' ∧
      Standing h t actions w' ∧ Later w w' := by
  obtain ⟨hpossible, hanswer⟩ := Option.ite_none_right_eq_some.mp hanswer
  obtain ⟨threads, hthreads, hanswer⟩ := Option.bind_eq_some_iff.mp hanswer
  obtain ⟨server, hserver, rfl⟩ := Option.map_eq_some_iff.mp hanswer
  have hsame : server = w.server := by
    cases q <;> first | exact (Option.some.inj hserver).symm | exact hplain.elim
  have hquiet : answeredAction q a = [] := by
    cases q <;> first | rfl | exact hplain.elim
  subst hsame
  have hinv := hw.1.withThreads threads w.actions (answerHandle_same hthreads)
  rw [hquiet, List.append_nil]
  exact ⟨hpossible, ⟨fun _ => hinv, .of_eq rfl rfl, fun _ _ => rfl, fun _ => rfl,
    fun _ hact => by cases hact⟩, ⟨hinv, hw.2⟩, .of_eq rfl rfl⟩

/-- A plain question, whose answer may be known. -/
theorem Keeps.question
    {q : HandleQuestion} {F : Fact} {R : q.Answer → Fact} {J : Raised → Fact}
    (hplain : q.plain)
    (hanswer : ∀ a w, LeaseInvariant h w → F w → possibleAnswer h w q a = true → R a w) :
    Keeps h t actions F (asking q) R J := by
  refine System.Triple.question (W := fun w => Standing h t actions w ∧ F w) (stable_fact F)
    (stable_fact F) (fun a => stable_fact (R a)) (fun w w' hw hissue => ?_)
    fun a w w' hw hstep => ?_
  · obtain ⟨hguar, hstands, hlater⟩ := plain_issued hplain hw.1 hissue
    exact ⟨hguar, hstands, F.later hw.2 hlater⟩
  · obtain ⟨hpossible, hguar, hstands, hlater⟩ := plain_answered hplain hw.1 hstep
    exact ⟨hguar, hstands, (R a).later (hanswer a w hw.1.1 hw.2 hpossible) hlater⟩

end Questions

/-! ## Commands -/

section Commands

variable {actions : List (Except Raised Nat)} {w w' : ElectionWorld} {call : Call}

/-- The thread waits for the outcome of the call. -/
def Awaits (t : HandleThread) (call : Call) (w : ElectionWorld) : Prop :=
  (∀ c, (w.server.wire t).current = some c → c = call) ∧
    ∀ outcome, (w.server.wire t).reply = some outcome →
      ∃ ev ∈ w.server.history, ev.client = some t ∧ ev.call = call ∧ ev.outcome = outcome

theorem Awaits.of_wire
    (hw : Awaits t call w)
    (hwire : w'.server.wire t = w.server.wire t)
    (hlater : Later w w') :
    Awaits t call w' := by
  unfold Awaits
  rw [hwire]
  refine ⟨hw.1, fun outcome houtcome => ?_⟩
  obtain ⟨ev, hev, hrest⟩ := hw.2 outcome houtcome
  exact ⟨ev, hlater.history ev hev, hrest⟩

theorem stable_awaits :
    (electionSystem h).Stable (ElectionGuarantee h) t (Awaits t call) := by
  refine .of_steps (fun e w w' hw hevent => ?_) fun u act w w' hne hw hguar => ?_
  · have hlater := (electionEvent_frame hevent).1
    cases e with
    | pass time =>
        obtain ⟨-, hsome⟩ := Option.ite_none_right_eq_some.mp hevent
        obtain rfl := Option.some.inj hsome
        exact hw.of_wire rfl hlater
    | foreign c =>
        obtain ⟨-, hsome⟩ := Option.ite_none_right_eq_some.mp hevent
        obtain rfl := Option.some.inj hsome
        exact hw.of_wire rfl hlater
    | executeCurrent u =>
        obtain ⟨server, hserver, rfl⟩ := Option.map_eq_some_iff.mp hevent
        obtain ⟨c, hc, rfl⟩ := Option.map_eq_some_iff.mp hserver
        by_cases hu : t = u
        · -- the awaited command itself was executed, so the reply is to it
          subst hu
          obtain rfl := hw.1 c hc
          refine ⟨fun c' hc' => ?_, fun outcome houtcome => ?_⟩
          · simp [ElectionWorld.withServer, AcquireWorld.setWire] at hc'
          · refine ⟨_, List.mem_append_right _ (List.mem_singleton_self _), rfl, rfl, ?_⟩
            have hreply : some (c.script.run w.server.db).1 = some outcome := by
              simpa [ElectionWorld.withServer, AcquireWorld.setWire] using houtcome
            exact Option.some.inj hreply
        · exact hw.of_wire (setWire_wire_of_ne _ _ hu) hlater
    | executeStale u k =>
        obtain ⟨server, hserver, rfl⟩ := Option.map_eq_some_iff.mp hevent
        obtain ⟨c, hc, rfl⟩ := Option.map_eq_some_iff.mp hserver
        by_cases hu : t = u
        · subst hu
          refine ⟨fun c' hc' => hw.1 c' ?_, fun outcome houtcome => ?_⟩
          · simpa [ElectionWorld.withServer, AcquireWorld.setWire] using hc'
          · obtain ⟨ev, hev, hrest⟩ := hw.2 outcome
              (by simpa [ElectionWorld.withServer, AcquireWorld.setWire] using houtcome)
            exact ⟨ev, hlater.history ev hev, hrest⟩
        · exact hw.of_wire (setWire_wire_of_ne _ _ hu) hlater
  · exact hw.of_wire (hguar.others t (Ne.symm hne)) hguar.later

/-- What an answer to a command tells. -/
def Fact.answered (t : HandleThread) (call : Call) : ScriptAnswer → Fact
  | .reply raw => .some fun reply => (Fact.always (raw = Reply.wire reply)).and
      (.replied t call reply)
  | .raised e => .always (e.isException = true)
  | .noScript => .always True

/-- A step that changes one connection only, and the action is not concerned. -/
theorem guarantee_setWire
    {act : Act HandleSection HandleQuestion HandleQuestion.Answer} {wire : Wire}
    (hinv : LeaseInvariant h (w.withServer (w.server.setWire t wire)))
    (hact : ∀ fence, act ≠ .asked (.action fence)) :
    ElectionGuarantee h t act w (w.withServer (w.server.setWire t wire)) where
  kept _ := hinv
  later := .of_eq rfl rfl
  others _ hu := setWire_wire_of_ne _ _ hu
  actions _ := rfl
  action fence h := absurd h (hact fence)

/-- The thread sends a command that is due. -/
theorem send_command
    (hw : Standing h t actions w)
    (hsendable : Sendable h w call) :
    Standing h t actions (w.withServer (w.server.setWire t ((w.server.wire t).send call))) ∧
      Awaits t call (w.withServer (w.server.setWire t ((w.server.wire t).send call))) := by
  have hinv := hw.1.replace t w.threads ((w.server.wire t).send call) w.actions ⟨rfl, rfl⟩ (by
    rintro c (hc | hc)
    · obtain rfl := Option.some.inj hc
      exact hsendable
    · exact hw.1.sent t c (.inr hc))
  refine ⟨⟨hinv, hw.2⟩, fun c hc => ?_, fun outcome houtcome => ?_⟩
  · have hc' : some call = some c := by
      simpa [ElectionWorld.withServer, AcquireWorld.setWire, Wire.send] using hc
    exact (Option.some.inj hc').symm
  · simp [ElectionWorld.withServer, AcquireWorld.setWire, Wire.send] at houtcome

/-- The thread is answered. -/
theorem receive_answer
    {sha : Bool} {a : ScriptAnswer} {wire : Wire}
    (hw : Standing h t actions w)
    (hawaits : Awaits t call w)
    (hpossible : ∀ e, a = .raised e → e.isException = true)
    (hreceive : (w.server.wire t).receive sha call a = some wire) :
    Standing h t actions (w.withServer (w.server.setWire t wire)) ∧
      Fact.answered t call a (w.withServer (w.server.setWire t wire)) := by
  have hlater : Later w (w.withServer (w.server.setWire t wire)) := .of_eq rfl rfl
  have hcommands : ∀ c, wire.current = some c ∨ c ∈ wire.stale →
      (w.server.wire t).current = some c ∨ c ∈ (w.server.wire t).stale := by
    have hsettle : ∀ c, c ∈ (w.server.wire t).stale ++ (w.server.wire t).current.toList →
        (w.server.wire t).current = some c ∨ c ∈ (w.server.wire t).stale := by
      intro c hc
      rcases List.mem_append.mp hc with hc | hc
      · exact .inr hc
      · exact .inl (Option.mem_toList.mp hc)
    intro c hc
    cases a with
    | reply raw =>
        obtain ⟨-, heq⟩ := Option.ite_none_right_eq_some.mp hreceive
        obtain rfl := Option.some.inj heq
        exact hsettle c (hc.resolve_left (by simp [Wire.settle]))
    | raised e =>
        obtain rfl := Option.some.inj hreceive
        exact hsettle c (hc.resolve_left (by simp [Wire.settle]))
    | noScript =>
        obtain ⟨-, heq⟩ := Option.ite_none_right_eq_some.mp hreceive
        obtain rfl := Option.some.inj heq
        exact .inr (by simpa [Wire.settle] using hc)
  have hinv := hw.1.replace t w.threads wire w.actions ⟨rfl, rfl⟩ fun c hc =>
    hw.1.sent t c (hcommands c hc)
  refine ⟨⟨hinv, hw.2⟩, ?_⟩
  cases a with
  | reply raw =>
      obtain ⟨hreply, -⟩ := Option.ite_none_right_eq_some.mp hreceive
      obtain ⟨outcome, houtcome, hraw⟩ := Option.map_eq_some_iff.mp hreply
      obtain ⟨ev, hev, hclient, hcall, hev'⟩ := hawaits.2 outcome houtcome
      cases outcome with
      | error e => cases hraw
      | ok reply =>
          exact ⟨reply, (ScriptAnswer.reply.inj hraw).symm, ev, hev, hclient, hcall, hev'⟩
  | raised e => exact hpossible e rfl
  | noScript => exact trivial

/-- A question that sends a command and is answered by what comes back. -/
theorem keeps_command
    (q : HandleQuestion) (sha : Bool) (answered : q.Answer → ScriptAnswer) {J : Raised → Fact}
    (haction : ∀ fence, q ≠ .action fence)
    (hissue : ∀ w, issueElection t q w =
      some { w with server := w.server.setWire t ((w.server.wire t).send call) })
    (hanswer : ∀ a w w', answerElection h t q a w = some w' →
      (∀ e, answered a = .raised e → e.isException = true) ∧
        ∃ wire, (w.server.wire t).receive sha call (answered a) = some wire ∧
          w' = { w with server := w.server.setWire t wire, actions := w.actions ++ [] })
    (hok : validateDispatch call = true) :
    Keeps h t actions (.due h call) (asking q) (fun a => Fact.answered t call (answered a)) J := by
  refine System.Triple.question (W := fun w => Standing h t actions w ∧ Awaits t call w)
    (stable_fact _) ((stable_standing actions).and stable_awaits) (fun a => stable_fact _)
    (fun w w' hw hsend => ?_) fun a w w' hw hstep => ?_
  · obtain rfl := Option.some.inj ((hissue w).symm.trans hsend)
    have hsent := send_command hw.1 ⟨hok, hw.2⟩
    exact ⟨guarantee_setWire hsent.1.1 (fun _ hact => (haction _ (Act.asked.inj hact)).elim),
      hsent⟩
  · obtain ⟨hpossible, wire, hwire, rfl⟩ := hanswer a w w' hstep
    have hreceived := receive_answer hw.1 hw.2 hpossible hwire
    rw [List.append_nil]
    exact ⟨guarantee_setWire hreceived.1.1 (fun _ hact => by cases hact), hreceived⟩

/-- `evalsha` -/
theorem keeps_evalsha
    {J : Raised → Fact}
    (hok : validateDispatch call = true) :
    Keeps h t actions (.due h call) (asking (.evalsha call)) (Fact.answered t call) J := by
  refine keeps_command (.evalsha call) true id (by rintro _ ⟨⟩) (fun _ => rfl)
    (fun a w w' hstep => ?_) hok
  obtain ⟨hpossible, hstep⟩ := Option.ite_none_right_eq_some.mp hstep
  obtain ⟨server, hserver, rfl⟩ := Option.map_eq_some_iff.mp hstep
  obtain ⟨wire, hwire, rfl⟩ := Option.map_eq_some_iff.mp hserver
  exact ⟨by rintro e rfl; exact hpossible, wire, hwire, rfl⟩

/-- `eval` -/
theorem keeps_eval
    {J : Raised → Fact}
    (hok : validateDispatch call = true) :
    Keeps h t actions (.due h call) (asking (.eval call)) (Fact.answered t call) J := by
  refine keeps_command (.eval call) false id (by rintro _ ⟨⟩) (fun _ => rfl)
    (fun a w w' hstep => ?_) hok
  obtain ⟨hpossible, hstep⟩ := Option.ite_none_right_eq_some.mp hstep
  obtain ⟨server, hserver, rfl⟩ := Option.map_eq_some_iff.mp hstep
  obtain ⟨wire, hwire, rfl⟩ := Option.map_eq_some_iff.mp hserver
  exact ⟨by rintro e rfl; exact hpossible, wire, hwire, rfl⟩

/-- The end of a command: the reply to its own execution, or an exception. -/
def Fact.executed (t : HandleThread) (call : Call) (raw : RawReply) : Fact :=
  .some fun reply => (Fact.always (raw = Reply.wire reply)).and (.replied t call reply)

/-- `_run_script` -/
theorem keeps_runScript
    (call : Call) :
    Keeps h t actions (.due h call) (runScript call) (Fact.executed t call) Fact.exception := by
  unfold runScript
  cases hok : validateDispatch call with
  | false => exact .throw fun _ _ => rfl
  | true =>
      -- the command stays due until it is sent once more
      refine .bind (.weaken ((keeps_evalsha (J := Fact.exception) hok).frame (.due h call))
        (fun _ hF => ⟨hF, hF⟩) (fun _ _ => id) fun _ _ hF => hF.1) fun answer => ?_
      cases answer with
      | reply raw => exact .pure fun _ hF => hF.1
      | raised e => exact .throw fun _ hF => hF.1
      | noScript =>
          refine .bind (.weaken (keeps_eval hok) (fun _ hF => hF.2) (fun _ _ => id)
            fun _ _ => id) fun answer => ?_
          cases answer with
          | reply raw => exact .pure fun _ hF => hF
          | raised e => exact .throw fun _ hF => hF
          | noScript => exact .throw fun _ _ => rfl

/-- `_run_reconcile` -/
theorem keeps_runReconcile :
    Keeps h t actions (.always True) runReconcile (Fact.executed t .reconcile)
      Fact.exception := by
  refine .weaken (F := .due h .reconcile) ?_ (fun _ _ => trivial) (fun _ _ => id) fun _ _ => id
  refine .bind (keeps_eval rfl) fun answer => ?_
  cases answer with
  | reply raw => exact .pure fun _ hF => hF
  | raised e => exact .throw fun _ hF => hF
  | noScript => exact .throw fun _ _ => rfl

end Commands

/-! ## Whole threads -/

section Stands

variable {actions : List (Except Raised Nat)} {α β : Type}

/-- The thread keeps its guarantee, and the invariant stands throughout. -/
def Stands (h : LeaseHandle) (t : HandleThread) (actions : List (Except Raised Nat))
    (p : HandleProc α) : Prop :=
  ∀ w, Standing h t actions w →
    (electionSystem h).wp (ElectionGuarantee h) t p (fun _ => Standing h t actions) w

namespace Stands

theorem of_keeps
    {p : Prog α} {R : α → Fact} {J : Raised → Fact}
    (hp : Keeps h t actions (.always True) p R J) :
    Stands h t actions p.run := by
  intro w hw
  refine System.wp_mono p.run ?_ (hp w ⟨hw, trivial⟩)
  rintro (e | a) w' hw'
  · exact hw'.1
  · exact hw'.1

theorem ret
    (a : α) :
    Stands h t actions (.ret a) :=
  fun _ hw => (stable_standing actions).stably hw

theorem bind
    {p : HandleProc α} {next : α → HandleProc β}
    (hp : Stands h t actions p)
    (hnext : ∀ a, Stands h t actions (next a)) :
    Stands h t actions (p.bind next) :=
  fun w hw => System.wp_bind p next (System.wp_mono p (fun a w hw => hnext a w hw) (hp w hw))

/-- A plain question; the rest has to stand for the answers that are possible. -/
theorem question
    {q : HandleQuestion} {next : q.Answer → HandleProc α}
    (hplain : q.plain)
    (hnext : ∀ a w, possibleAnswer h w q a = true → Stands h t actions (next a)) :
    Stands h t actions ((Proc.request q).bind next) := by
  intro w hw
  refine System.wp_ask (stable_standing actions) (stable_standing actions)
    (fun w w' hw hissue => ?_) (fun a w w' hw hstep => ?_) hw
  · obtain ⟨hguar, hstands, -⟩ := plain_issued hplain hw hissue
    exact ⟨hguar, hstands⟩
  · obtain ⟨hpossible, hguar, hstands, -⟩ := plain_answered hplain hw hstep
    exact ⟨hguar, hnext a w hpossible w' hstands⟩

theorem loop
    {body : α → HandleProc (α ⊕ β)}
    (hbody : ∀ a, Stands h t actions (body a))
    (start : α) :
    Stands h t actions (Proc.loop body start) := by
  intro w hw
  refine System.wp_loop (fun _ => Standing h t actions) (fun a w hw => ?_) hw
    fun _ _ hw => (stable_standing actions).stably hw
  refine System.wp_mono (body a) ?_ (hbody a w hw)
  rintro (a' | b) w' hw'
  · exact hw'
  · exact hw'

end Stands

end Stands

end LeaderRedis
end Bluetape
