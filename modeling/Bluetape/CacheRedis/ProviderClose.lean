import Bluetape.CacheRedis.ProviderLifecycle

/-!
# One close for every provider

What the sections of a provider keep, and from it what every run of the two
providers keeps: the count of active operations, the single close of an owned
client after the last operation, and the result that the closing calls share.
-/

namespace Bluetape
namespace CacheRedis

open Base

variable {ι X : Type}

namespace Lifecycle

/-- The result of a finished closing, by the end of the client's close. -/
def Result (owned : Bool) (s : Lifecycle ι X) (e : CloseEnd X) : Prop :=
  s.closing = .finished e ∧
    ((owned = false ∧ s.clientCloses = 0 ∧ e = .returned) ∨
      (owned = true ∧ s.clientCloses = 1 ∧ ∃ o, s.clientClosed = some o ∧ e = o.closeEnd))

section

variable [DecidableEq ι]

/-- What the fields are while the closing is in a phase. -/
def Fits (owned : Bool) (s : Lifecycle ι X) : ClosePhase X → Prop
  | .none => s.provider.state = .opened ∧ s.clientCloses = 0
  | .created => s.provider.state = .closing ∧ s.clientCloses = 0
  | .draining asleep =>
      s.provider.state = .closing ∧ s.clientCloses = 0 ∧ (asleep = true → s.provider.active ≠ 0)
  | .drained =>
      s.provider.state = .closing ∧ s.clientCloses = 0 ∧ s.admissions.outstanding = []
  | .clientClosing =>
      s.provider.state = .closing ∧ s.clientCloses = 1 ∧ owned = true ∧
        s.admissions.outstanding = []
  | .finished e =>
      s.provider.state = .closed ∧ s.admissions.outstanding = [] ∧
        s.provider.terminalCloseError = e.terminal ∧ s.Result owned e

attribute [grind =] Fits wake Lifecycle.start Lifecycle.drain Lifecycle.callClient
  Lifecycle.publish Lifecycle.endClient Lifecycle.beginClosing

/-- The invariant of the shared sections. -/
structure Good (owned : Bool) (s : Lifecycle ι X) : Prop where
  ownership : s.provider.owned = owned
  balanced : s.admissions.Balanced
  active : s.provider.active = s.admissions.outstanding.length
  fits : s.Fits owned s.closing

namespace Good

variable {owned : Bool} {s : Lifecycle ι X} {i : ι}

theorem start :
    (Lifecycle.start owned : Lifecycle ι X).Good owned :=
  ⟨rfl, Ledger.balanced_empty, rfl, rfl, rfl⟩

theorem closing_of_opened
    (h : s.Good owned)
    (hstate : s.provider.state = .opened) :
    s.closing = .none := by
  have hfits := h.fits
  cases hc : s.closing with
  | none => rfl
  | _ => simp [hc, Fits, hstate] at hfits

theorem finished_of_closed
    (h : s.Good owned)
    (hstate : s.provider.state = .closed) :
    ∃ e, s.closing = .finished e := by
  have hfits := h.fits
  cases hc : s.closing with
  | finished e => exact ⟨e, rfl⟩
  | _ => simp [hc, Fits, hstate] at hfits

theorem result_of_closed
    (h : s.Good owned)
    (hstate : s.provider.state = .closed) :
    ∃ e, s.Result owned e := by
  obtain ⟨e, he⟩ := h.finished_of_closed hstate
  have hfits := h.fits
  simp only [he, Fits] at hfits
  exact ⟨e, hfits.2.2.2⟩

theorem terminal_of_result
    {e : CloseEnd X}
    (h : s.Good owned)
    (he : s.Result owned e) :
    s.provider.state = .closed ∧ s.provider.terminalCloseError = e.terminal := by
  have hfits := h.fits
  simp only [he.1, Fits] at hfits
  exact ⟨hfits.1, hfits.2.2.1⟩

theorem not_result
    {e : CloseEnd X}
    (h : s.Good owned)
    (hstate : s.provider.state = .closing) :
    ¬ s.Result owned e := by
  intro he
  have hfits := h.fits
  simp [he.1, Fits, hstate] at hfits

theorem outstanding_eq_nil
    (h : s.Good owned)
    (hactive : s.provider.active = 0) :
    s.admissions.outstanding = [] := by
  have hlength := h.active
  rw [hactive] at hlength
  exact List.length_eq_zero_iff.mp (by omega)

theorem closes_le
    (h : s.Good owned) :
    s.clientCloses ≤ 1 := by
  have hfits := h.fits
  cases hc : s.closing with
  | finished e =>
      simp only [hc, Fits, Result] at hfits
      rcases hfits.2.2.2.2 with ⟨-, hcloses, -⟩ | ⟨-, hcloses, -⟩ <;> omega
  | clientClosing =>
      simp only [hc, Fits] at hfits
      omega
  | _ =>
      simp only [hc, Fits] at hfits
      omega

/-- The client's close is called for an owned client only, after the last operation. -/
theorem called
    (h : s.Good owned)
    (hcloses : s.clientCloses ≠ 0) :
    owned = true ∧ s.admissions.outstanding = [] := by
  have hfits := h.fits
  cases hc : s.closing with
  | finished e =>
      simp only [hc, Fits, Result] at hfits
      rcases hfits.2.2.2.2 with ⟨-, hzero, -⟩ | ⟨howned, -, -⟩
      · exact absurd hzero hcloses
      · exact ⟨howned, hfits.2.1⟩
  | clientClosing =>
      simp only [hc, Fits] at hfits
      exact ⟨hfits.2.2.1, hfits.2.2.2⟩
  | _ =>
      simp only [hc, Fits] at hfits
      omega

/-! ## The sections -/

theorem admitOperation
    {s' : Lifecycle ι X}
    {operation : RedisOperation}
    (h : s.Good owned)
    (hnew : i ∉ s.admissions.names)
    (hadmitted : s.admitOperation operation i = .ok s') :
    s'.Good owned := by
  unfold Lifecycle.admitOperation at hadmitted
  split at hadmitted
  case isFalse => cases hadmitted
  case isTrue hstate =>
      obtain rfl := Except.ok.inj hadmitted
      have hnone := h.closing_of_opened hstate
      have hfits := h.fits
      refine ⟨h.ownership, h.balanced.grant hnew (), ?_, ?_⟩
      · have hactive := h.active
        show s.provider.active + 1 = ((s.admissions.grant i ()).outstanding.length : Int)
        rw [Ledger.outstanding_grant h.balanced hnew, List.length_cons]
        push_cast
        omega
      · simp only [hnone, Fits] at hfits ⊢
        exact hfits

theorem release
    (h : s.Good owned)
    (hmem : (i, ()) ∈ s.admissions.outstanding) :
    (s.release i).2.Good owned := by
  have hlength := Ledger.length_outstanding_settle h.balanced hmem
  have hactive := h.active
  have hbalanced := h.balanced.settle hmem
  have hfits := h.fits
  have hcount : s.provider.active - 1 = ((s.admissions.settle i).outstanding.length : Int) := by
    omega
  have hsome : s.admissions.outstanding ≠ [] := List.ne_nil_of_mem hmem
  unfold Lifecycle.release
  dsimp only
  cases hc : s.closing with
  | none =>
      simp only [hc, Fits] at hfits
      split <;> exact ⟨h.ownership, hbalanced, hcount, by simp [wake, Fits, hfits]⟩
  | created =>
      simp only [hc, Fits] at hfits
      split <;> exact ⟨h.ownership, hbalanced, hcount, by simp [wake, Fits, hfits]⟩
  | draining asleep =>
      simp only [hc, Fits] at hfits
      split
      case isTrue hzero =>
          exact ⟨h.ownership, hbalanced, hcount, by simp [wake, Fits, hfits]⟩
      case isFalse hzero =>
          exact ⟨h.ownership, hbalanced, hcount, by simp [Fits, hfits, hzero]⟩
  | drained =>
      simp only [hc, Fits] at hfits
      exact absurd hfits.2.2 hsome
  | clientClosing =>
      simp only [hc, Fits] at hfits
      exact absurd hfits.2.2.2 hsome
  | finished e =>
      simp only [hc, Fits] at hfits
      exact absurd hfits.2.1 hsome

theorem beginClosing
    (h : s.Good owned)
    (hstate : s.provider.state = .opened) :
    s.beginClosing.Good owned := by
  have hfits := h.fits
  simp only [h.closing_of_opened hstate, Fits] at hfits
  exact ⟨h.ownership, h.balanced, h.active, rfl, hfits.2⟩

theorem closing_of_phase
    (h : s.Good owned)
    (hphase : s.closing = .created ∨ s.closing = .draining false) :
    s.provider.state = .closing := by
  have hfits := h.fits
  rcases hphase with hc | hc <;>
    · simp only [hc, Fits] at hfits
      exact hfits.1

theorem drain
    (h : s.Good owned)
    (hphase : s.closing = .created ∨ s.closing = .draining false) :
    s.drain.Good owned := by
  have hfits : s.provider.state = .closing ∧ s.clientCloses = 0 := by
    have hfits := h.fits
    rcases hphase with hc | hc
    · simpa only [hc, Fits] using hfits
    · simp only [hc, Fits] at hfits
      exact ⟨hfits.1, hfits.2.1⟩
  refine ⟨h.ownership, h.balanced, h.active, ?_⟩
  by_cases hactive : s.provider.active = 0
  · simp [Lifecycle.drain, hactive, Fits, hfits, h.outstanding_eq_nil hactive]
  · simp [Lifecycle.drain, hactive, Fits, hfits]

theorem callClient
    (h : s.Good owned)
    (hphase : s.closing = .drained)
    (howned : s.provider.owned = true) :
    s.callClient.Good owned := by
  have hfits := h.fits
  simp only [hphase, Fits] at hfits
  refine ⟨h.ownership, h.balanced, h.active, hfits.1, ?_, h.ownership.symm.trans howned, hfits.2.2⟩
  simp [Lifecycle.callClient, hfits.2.1]

theorem publish
    (h : s.Good owned)
    (hphase : s.closing = .drained)
    (howned : s.provider.owned = false) :
    (s.publish .returned).Good owned := by
  have hfits := h.fits
  simp only [hphase, Fits] at hfits
  exact ⟨h.ownership, h.balanced, h.active, rfl, hfits.2.2, rfl, rfl,
    .inl ⟨h.ownership.symm.trans howned, hfits.2.1, rfl⟩⟩

theorem endClient
    (h : s.Good owned)
    (hphase : s.closing = .clientClosing)
    (outcome : ClientClose X) :
    (s.endClient outcome).Good owned := by
  have hfits := h.fits
  simp only [hphase, Fits] at hfits
  exact ⟨h.ownership, h.balanced, h.active, rfl, hfits.2.2.2, rfl, rfl,
    .inr ⟨hfits.2.2.1, hfits.2.1, outcome, rfl, rfl⟩⟩

theorem afterDrain
    (h : s.Good owned) :
    s.afterDrain.Good owned := by
  unfold Lifecycle.afterDrain
  split
  case h_1 hphase =>
      split
      case isTrue howned => exact h.callClient hphase howned
      case isFalse howned => exact h.publish hphase (by simpa using howned)
  case h_2 => exact h

end Good

/-! ## What the sections leave alone -/

omit [DecidableEq ι] in
theorem admit_of_not_opened
    {s : Lifecycle ι X}
    (hstate : s.provider.state ≠ .opened)
    (operation : RedisOperation)
    (i : ι) :
    s.admitOperation operation i = .error (providerClosedError operation) :=
  if_neg hstate

omit [DecidableEq ι] in
theorem admit_of_opened
    {s : Lifecycle ι X}
    (hstate : s.provider.state = .opened)
    (operation : RedisOperation)
    (i : ι) :
    s.admitOperation operation i = .ok { s with
      provider := { s.provider with active := s.provider.active + 1 }
      admissions := s.admissions.grant i () } :=
  if_pos hstate

omit [DecidableEq ι] in
theorem wake_frame
    (s : Lifecycle ι X) :
    s.wake.admissions = s.admissions ∧ s.wake.provider = s.provider ∧
      (s.wake.closing = .created → s.closing = .created) ∧
      ∀ owned e, s.Result owned e → s.wake.Result owned e := by
  unfold wake
  split
  case h_1 asleep hc =>
      refine ⟨rfl, rfl, ?_, fun owned e he => ?_⟩
      · simp
      · exact absurd (hc.symm.trans he.1) (by simp)
  case h_2 => exact ⟨rfl, rfl, id, fun _ _ => id⟩

omit [DecidableEq ι] in
theorem release_frame
    (s : Lifecycle ι X)
    (i : ι) :
    (s.release i).2.admissions = s.admissions.settle i ∧
      (s.release i).2.provider.state = s.provider.state ∧
      ((s.release i).2.closing = .created → s.closing = .created) ∧
      ∀ owned e, s.Result owned e → (s.release i).2.Result owned e := by
  unfold release
  dsimp only
  split
  case isTrue =>
      obtain ⟨hadmissions, hprovider, hcreated, hresult⟩ := wake_frame { s with
        provider := { s.provider with active := s.provider.active - 1 }
        admissions := s.admissions.settle i }
      exact ⟨hadmissions, (congrArg Provider.state hprovider :), hcreated, hresult⟩
  case isFalse => exact ⟨rfl, rfl, id, fun _ _ => id⟩

omit [DecidableEq ι] in
theorem afterDrain_frame
    (s : Lifecycle ι X) :
    s.afterDrain.admissions = s.admissions ∧
      (s.provider.state ≠ .opened → s.afterDrain.provider.state ≠ .opened) := by
  unfold afterDrain
  split
  · split
    · exact ⟨rfl, id⟩
    · exact ⟨rfl, fun _ => by simp [publish]⟩
  · exact ⟨rfl, id⟩

theorem mem_outstanding_settle
    {l : Ledger ι Unit}
    {i j : ι} :
    (j, ()) ∈ (l.settle i).outstanding ↔ j ≠ i ∧ (j, ()) ∈ l.outstanding := by
  rw [Ledger.mem_outstanding, Ledger.mem_outstanding, Ledger.settled_settle, List.mem_cons]
  constructor
  · rintro ⟨hgranted, hsettled⟩
    exact ⟨fun hne => hsettled (.inl hne), hgranted, fun hmem => hsettled (.inr hmem)⟩
  · rintro ⟨hne, hgranted, hsettled⟩
    exact ⟨hgranted, fun hmem => hmem.elim hne hsettled⟩

/-! ## The calls that are counted -/

/--
The calls of a provider, of either kind: those inside an operation are the outstanding ones,
and those that have not begun are unknown.
-/
structure Counts {C : Type} (idle running : C → Prop) (owned : Bool) (s : Lifecycle ι X)
    (calls : ι → C) : Prop where
  good : s.Good owned
  running : ∀ i, (i, ()) ∈ s.admissions.outstanding ↔ running (calls i)
  fresh : ∀ i, idle (calls i) → i ∉ s.admissions.names

namespace Counts

variable {C : Type} {idle running : C → Prop} {owned : Bool} {s s' : Lifecycle ι X}
  {calls : ι → C} {i : ι} {c : C}

theorem start
    (hc : ¬running c) :
    (Lifecycle.start owned : Lifecycle ι X).Counts idle running owned (fun _ => c) where
  good := .start
  running i := by simp [Lifecycle.start, Ledger.outstanding, Ledger.empty, hc]
  fresh i _ := by simp [Lifecycle.start, Ledger.names, Ledger.empty]

/-- A call moves on, together with the ledger. -/
theorem update
    (h : s.Counts idle running owned calls)
    (hgood : s'.Good owned)
    (hc : ¬idle c)
    (hself : (i, ()) ∈ s'.admissions.outstanding ↔ running c)
    (hothers : ∀ j, j ≠ i →
      ((j, ()) ∈ s'.admissions.outstanding ↔ (j, ()) ∈ s.admissions.outstanding))
    (hnames : ∀ j, j ≠ i → j ∈ s'.admissions.names → j ∈ s.admissions.names) :
    s'.Counts idle running owned (Function.update calls i c) where
  good := hgood
  running j := by
    by_cases hj : j = i
    · subst hj
      rw [Function.update_self]
      exact hself
    · rw [Function.update_of_ne hj, hothers j hj]
      exact h.running j
  fresh j hidle hmem := by
    by_cases hj : j = i
    · subst hj
      rw [Function.update_self] at hidle
      exact hc hidle
    · rw [Function.update_of_ne hj] at hidle
      exact h.fresh j hidle (hnames j hj hmem)

/-- A call that has not begun is admitted. -/
theorem enter
    {operation : RedisOperation}
    (h : s.Counts idle running owned calls)
    (hi : idle (calls i))
    (hadmitted : s.admitOperation operation i = .ok s')
    (hc : ¬idle c)
    (hrunning : running c) :
    s'.Counts idle running owned (Function.update calls i c) := by
  have hnew := h.fresh i hi
  have hgood := h.good.admitOperation hnew hadmitted
  have hadmissions : s'.admissions = s.admissions.grant i () := by
    unfold Lifecycle.admitOperation at hadmitted
    split at hadmitted
    case isTrue => rw [← Except.ok.inj hadmitted]
    case isFalse => cases hadmitted
  refine h.update hgood hc ?_ (fun j hj => ?_) (fun j hj hmem => ?_)
  · rw [hadmissions, Ledger.outstanding_grant h.good.balanced hnew]
    exact iff_of_true List.mem_cons_self hrunning
  · rw [hadmissions, Ledger.outstanding_grant h.good.balanced hnew, List.mem_cons]
    exact or_iff_right fun heq => hj (Prod.mk.inj heq).1
  · rw [hadmissions] at hmem
    exact (List.mem_cons.mp hmem).resolve_left hj

/-- A call inside an operation is released. -/
theorem release
    (h : s.Counts idle running owned calls)
    (hi : running (calls i))
    (hc : ¬idle c)
    (hrunning : ¬running c) :
    (s.release i).2.Counts idle running owned (Function.update calls i c) := by
  have hadmissions := (s.release_frame i).1
  refine h.update (h.good.release ((h.running i).mpr hi)) hc ?_ (fun j hj => ?_)
    (fun j _ hmem => ?_)
  · rw [hadmissions, mem_outstanding_settle]
    exact iff_of_false (fun hmem => hmem.1 rfl) hrunning
  · rw [hadmissions, mem_outstanding_settle]
    exact and_iff_right hj
  · rw [hadmissions] at hmem
    exact hmem

/-- A call outside the operations moves on to such a place. -/
theorem advance
    (h : s.Counts idle running owned calls)
    (hgood : s'.Good owned)
    (hadmissions : s'.admissions = s.admissions)
    (hi : ¬running (calls i))
    (hc : ¬idle c)
    (hrunning : ¬running c) :
    s'.Counts idle running owned (Function.update calls i c) := by
  refine h.update hgood hc ?_ (fun j _ => by rw [hadmissions]) (fun j _ hmem => ?_)
  · rw [hadmissions, h.running i]
    exact iff_of_false hi hrunning
  · rw [hadmissions] at hmem
    exact hmem

/-- Calls that stay inside and outside the operations. -/
theorem same
    {calls' : ι → C}
    (h : s.Counts idle running owned calls)
    (hgood : s'.Good owned)
    (hadmissions : s'.admissions = s.admissions)
    (hrunning : ∀ j, running (calls' j) ↔ running (calls j))
    (hidle : ∀ j, idle (calls' j) → idle (calls j)) :
    s'.Counts idle running owned calls' where
  good := hgood
  running j := by rw [hadmissions, h.running j, hrunning j]
  fresh j hj := by
    rw [hadmissions]
    exact h.fresh j (hidle j hj)

end Counts

end

end Lifecycle

/-! ## The synchronous provider -/

namespace SyncCall

/-- The call has not begun. -/
def IsIdle (c : SyncCall X) : Prop :=
  c = .idle

/-- The call is inside an operation. -/
def IsRunning (c : SyncCall X) : Prop :=
  ∃ operation, c = .running operation

/-- The call has begun the closing. -/
def Leads (c : SyncCall X) : Prop :=
  c = .leading ∨ ∃ e, c = .closed .leader e

@[simp] theorem wake_eq_idle {c : SyncCall X} : c.wake = .idle ↔ c = .idle := by
  cases c <;> simp [wake]

@[simp] theorem wake_eq_running {c : SyncCall X} {operation : RedisOperation} :
    c.wake = .running operation ↔ c = .running operation := by
  cases c <;> simp [wake]

@[simp] theorem wake_eq_leading {c : SyncCall X} : c.wake = .leading ↔ c = .leading := by
  cases c <;> simp [wake]

@[simp] theorem wake_eq_closed {c : SyncCall X} {role : CloseRole} {e : CloseEnd X} :
    c.wake = .closed role e ↔ c = .closed role e := by
  cases c <;> simp [wake]

@[simp] theorem wake_eq_joining {c : SyncCall X} {asleep : Bool} :
    c.wake = .joining asleep ↔ asleep = false ∧ ∃ b, c = .joining b := by
  cases c <;> simp [wake, eq_comm]

theorem leads_wake {c : SyncCall X} :
    c.wake.Leads ↔ c.Leads := by
  simp [Leads]

end SyncCall

/--
What a call of `close` sees of the end of the closing: the leader raises what it got, a
joiner what was published.
-/
def CloseRole.sees : CloseRole → CloseEnd X → CloseEnd X
  | .leader, e => e
  | .joiner, e => .ofTerminal e.terminal
  | .late, _ => .returned

section SyncRuns

variable [DecidableEq ι]

namespace SyncProvider

/-- What holds of the closing calls of the synchronous provider. -/
structure Closers (owned : Bool) (s : SyncProvider ι X) : Prop where
  leading : ∀ i, s.calls i = .leading → s.lifecycle.provider.state = .closing
  leader : s.lifecycle.provider.state = .closing → ∃ i, s.calls i = .leading
  unique : ∀ i j, (s.calls i).Leads → (s.calls j).Leads → i = j
  started : s.lifecycle.closing ≠ .created
  joining : ∀ i asleep, s.calls i = .joining asleep →
    s.lifecycle.provider.state ≠ .opened ∧
      (asleep = true → s.lifecycle.provider.state = .closing)
  ended : ∀ i role seen, s.calls i = .closed role seen →
    ∃ e, s.lifecycle.Result owned e ∧ seen = role.sees e

/-- What holds in every reachable state of the synchronous provider. -/
structure Inv (owned : Bool) (s : SyncProvider ι X) : Prop where
  counts : s.lifecycle.Counts SyncCall.IsIdle SyncCall.IsRunning owned s.calls
  closers : s.Closers owned

@[simp] theorem setCall_self
    (s : SyncProvider ι X) (i : ι) (c : SyncCall X) :
    (s.setCall i c).calls i = c := by
  simp [setCall]

theorem setCall_of_ne
    (s : SyncProvider ι X) {i j : ι} (c : SyncCall X)
    (hne : j ≠ i) :
    (s.setCall i c).calls j = s.calls j := by
  simp [setCall, hne]

/-- Another call stands where it stood, or the call is the one that moves. -/
theorem setCall_cases
    {s : SyncProvider ι X} {i j : ι} {c d : SyncCall X}
    (h : (s.setCall i c).calls j = d) :
    j = i ∧ d = c ∨ j ≠ i ∧ s.calls j = d := by
  by_cases hj : j = i
  · subst hj
    exact .inl ⟨rfl, h.symm.trans (setCall_self s j c)⟩
  · exact .inr ⟨hj, (setCall_of_ne s c hj).symm.trans h⟩

namespace Closers

variable {owned : Bool} {s : SyncProvider ι X} {i : ι}

omit [DecidableEq ι] in
theorem start :
    (SyncProvider.start owned : SyncProvider ι X).Closers owned where
  leading i hi := by simp [SyncProvider.start] at hi
  leader hs := by simp [SyncProvider.start, Lifecycle.start] at hs
  unique i j hi := by simp [SyncProvider.start, SyncCall.Leads] at hi
  started := by simp [SyncProvider.start, Lifecycle.start]
  joining i a hi := by simp [SyncProvider.start] at hi
  ended i role e hi := by simp [SyncProvider.start] at hi

/-- A call that does not lead moves on, together with the shared fields. -/
theorem move
    {c : SyncCall X}
    {lifecycle : Lifecycle ι X}
    (h : s.Closers owned)
    (hi : ¬(s.calls i).Leads)
    (hc : ¬c.Leads)
    (hstate : lifecycle.provider.state = s.lifecycle.provider.state)
    (hstarted : lifecycle.closing = .created → s.lifecycle.closing = .created)
    (hresult : ∀ e, s.lifecycle.Result owned e → lifecycle.Result owned e)
    (hjoining : ∀ asleep, c = .joining asleep → s.lifecycle.provider.state ≠ .opened ∧
      (asleep = true → s.lifecycle.provider.state = .closing))
    (hended : ∀ role seen, c = .closed role seen →
      ∃ e, s.lifecycle.Result owned e ∧ seen = role.sees e) :
    Closers owned { s.setCall i c with lifecycle := lifecycle } := by
  have hold : ∀ j, ((s.setCall i c).calls j).Leads → (s.calls j).Leads := by
    intro j hj
    rcases setCall_cases (s := s) (i := i) (c := c) (j := j) rfl with ⟨-, heq⟩ | ⟨-, heq⟩
    · exact absurd (heq ▸ hj) hc
    · rwa [heq]
  refine ⟨fun j hj => ?_, fun hclosing => ?_, fun j k hj hk => h.unique j k (hold j hj) (hold k hk),
    fun hcreated => h.started (hstarted hcreated), fun j asleep hj => ?_, fun j role seen hj => ?_⟩
  · rcases setCall_cases hj with ⟨-, heq⟩ | ⟨-, hj⟩
    · exact absurd (.inl heq.symm) hc
    · exact hstate.trans (h.leading j hj)
  · obtain ⟨j, hj⟩ := h.leader (hstate.symm.trans hclosing)
    have hne : j ≠ i := by
      rintro rfl
      exact hi (.inl hj)
    exact ⟨j, (setCall_of_ne s c hne).trans hj⟩
  · rw [hstate]
    rcases setCall_cases hj with ⟨-, heq⟩ | ⟨-, hj⟩
    · exact hjoining asleep heq.symm
    · exact h.joining j asleep hj
  · have hseen : ∃ e, s.lifecycle.Result owned e ∧ seen = role.sees e := by
      rcases setCall_cases hj with ⟨-, heq⟩ | ⟨-, hj⟩
      · exact hended role seen heq.symm
      · exact h.ended j role seen hj
    obtain ⟨e, he, hseen⟩ := hseen
    exact ⟨e, hresult e he, hseen⟩

/-- A call that does not lead moves on by itself. -/
theorem setCall
    {c : SyncCall X}
    (h : s.Closers owned)
    (hi : ¬(s.calls i).Leads)
    (hc : ¬c.Leads)
    (hjoining : ∀ asleep, c = .joining asleep → s.lifecycle.provider.state ≠ .opened ∧
      (asleep = true → s.lifecycle.provider.state = .closing))
    (hended : ∀ role seen, c = .closed role seen →
      ∃ e, s.lifecycle.Result owned e ∧ seen = role.sees e) :
    (s.setCall i c).Closers owned :=
  h.move hi hc rfl id (fun _ => id) hjoining hended

/-- While the closing is on, no call has closed. -/
theorem not_closed
    {role : CloseRole} {seen : CloseEnd X}
    (h : s.Closers owned)
    (hgood : s.lifecycle.Good owned)
    (hstate : s.lifecycle.provider.state = .closing) :
    s.calls i ≠ .closed role seen := by
  intro hi
  obtain ⟨e, he, -⟩ := h.ended i role seen hi
  exact hgood.not_result hstate he

/-- The closing moves on under its leader. -/
theorem advance
    {lifecycle : Lifecycle ι X}
    (h : s.Closers owned)
    (hgood : s.lifecycle.Good owned)
    (hstate : lifecycle.provider.state = s.lifecycle.provider.state)
    (hstarted : lifecycle.closing ≠ .created)
    (hclosing : s.lifecycle.provider.state = .closing) :
    Closers owned { s with lifecycle := lifecycle } where
  leading j hj := hstate.trans (h.leading j hj)
  leader _ := h.leader hclosing
  unique := h.unique
  started := hstarted
  joining j asleep hj := by
    rw [hstate]
    exact h.joining j asleep hj
  ended _ _ _ hj := absurd hj (h.not_closed hgood hclosing)

/-- The leader publishes the end of the closing when nobody sleeps. -/
theorem finish
    {e : CloseEnd X}
    {lifecycle : Lifecycle ι X}
    (h : s.Closers owned)
    (hgood : s.lifecycle.Good owned)
    (hi : s.calls i = .leading)
    (hawake : ∀ j, s.calls j ≠ .joining true)
    (hstate : lifecycle.provider.state = .closed)
    (hresult : lifecycle.Result owned e) :
    Closers owned { s.setCall i (.closed .leader e) with lifecycle := lifecycle } := by
  have hclosing := h.leading i hi
  have hleads : ∀ j, ((s.setCall i (.closed .leader e)).calls j).Leads → j = i := by
    intro j hj
    by_contra hne
    rw [setCall_of_ne s _ hne] at hj
    exact hne (h.unique j i hj (.inl hi))
  refine ⟨fun j hj => ?_, fun hc => ?_, fun j k hj hk => (hleads j hj).trans (hleads k hk).symm,
    ?_, fun j asleep hj => ?_, fun j role seen hj => ?_⟩
  · obtain rfl := hleads j (.inl hj)
    exact absurd ((setCall_self s j _).symm.trans hj) (by simp)
  · rw [hstate] at hc
    cases hc
  · rw [hresult.1]
    simp
  · rcases setCall_cases hj with ⟨-, heq⟩ | ⟨-, hj⟩
    · cases heq
    · refine ⟨by simp [hstate], ?_⟩
      rintro rfl
      exact absurd hj (hawake j)
  · rcases setCall_cases hj with ⟨-, heq⟩ | ⟨-, hj⟩
    · obtain ⟨rfl, rfl⟩ := SyncCall.closed.inj heq
      exact ⟨seen, hresult, rfl⟩
    · exact absurd hj (h.not_closed hgood hclosing)

omit [DecidableEq ι] in
theorem notifyAll
    (h : s.Closers owned) :
    s.notifyAll.Closers owned where
  leading j := by simpa [SyncProvider.notifyAll] using h.leading j
  leader hstate := by simpa [SyncProvider.notifyAll] using h.leader hstate
  unique j k hj hk := h.unique j k (SyncCall.leads_wake.mp hj) (SyncCall.leads_wake.mp hk)
  started := h.started
  joining j asleep hj := by
    obtain ⟨hasleep, b, hb⟩ := SyncCall.wake_eq_joining.mp hj
    exact ⟨(h.joining j b hb).1, fun ht => by simp [hasleep] at ht⟩
  ended j role seen := by simpa [SyncProvider.notifyAll] using h.ended j role seen

/-- A call of `close` finds the provider open and leads its closing. -/
theorem lead
    (h : s.Closers owned)
    (hgood : s.lifecycle.Good owned)
    (hstate : s.lifecycle.provider.state = .opened) :
    Closers owned { s.setCall i .leading with lifecycle := s.lifecycle.beginClosing.drain } := by
  have hnot : ∀ j role seen, s.calls j ≠ .closed role seen := by
    intro j role seen hj
    obtain ⟨e, he, -⟩ := h.ended j role seen hj
    exact absurd (he.1.symm.trans (hgood.closing_of_opened hstate)) (by simp)
  have hleads : ∀ j, ((s.setCall i .leading).calls j).Leads → j = i := by
    intro j hj
    by_contra hne
    rw [setCall_of_ne s _ hne] at hj
    rcases hj with hj | ⟨e, hj⟩
    · exact absurd (hstate.symm.trans (h.leading j hj)) (by simp)
    · exact hnot j _ e hj
  refine ⟨fun _ _ => rfl, fun _ => ⟨i, setCall_self s i _⟩,
    fun j k hj hk => (hleads j hj).trans (hleads k hk).symm, ?_, fun j asleep hj => ?_,
    fun j role seen hj => ?_⟩
  · simp only [Lifecycle.drain]
    split
    · simp
    · simp
  · rcases setCall_cases hj with ⟨-, heq⟩ | ⟨-, hj⟩
    · cases heq
    · exact absurd hstate (h.joining j asleep hj).1
  · rcases setCall_cases hj with ⟨-, heq⟩ | ⟨-, hj⟩
    · cases heq
    · exact absurd hj (hnot j role seen)

end Closers

namespace Inv

variable {owned : Bool} {s : SyncProvider ι X} {i : ι}

theorem good
    (h : s.Inv owned) :
    s.lifecycle.Good owned :=
  h.counts.good

theorem start :
    (SyncProvider.start owned : SyncProvider ι X).Inv owned where
  counts := .start (by rintro ⟨_, ⟨⟩⟩)
  closers := .start

/-- A call that neither runs nor leads moves on to such a place. -/
theorem setCall
    {c : SyncCall X}
    (h : s.Inv owned)
    (hi : ¬(s.calls i).IsRunning ∧ ¬(s.calls i).Leads)
    (hc : ¬c.IsIdle ∧ ¬c.IsRunning ∧ ¬c.Leads)
    (hjoining : ∀ asleep, c = .joining asleep → s.lifecycle.provider.state ≠ .opened ∧
      (asleep = true → s.lifecycle.provider.state = .closing))
    (hended : ∀ role seen, c = .closed role seen →
      ∃ e, s.lifecycle.Result owned e ∧ seen = role.sees e) :
    (s.setCall i c).Inv owned where
  counts := h.counts.advance h.good rfl hi.1 hc.1 hc.2.1
  closers := h.closers.setCall hi.2 hc.2.2 hjoining hended

theorem notifyAll
    (h : s.Inv owned) :
    s.notifyAll.Inv owned where
  counts := h.counts.same h.good rfl
    (fun j => by simp [SyncProvider.notifyAll, SyncCall.IsRunning])
    (fun j hj => SyncCall.wake_eq_idle.mp hj)
  closers := h.closers.notifyAll

/-! ### The steps -/

theorem execute
    (h : s.Inv owned)
    (hi : s.calls i = .idle)
    (operation : RedisOperation) :
    (s.execute i operation).Inv owned := by
  unfold SyncProvider.execute
  by_cases hstate : s.lifecycle.provider.state = .opened
  · have hadmitted := Lifecycle.admit_of_opened hstate operation i
    rw [hadmitted]
    exact ⟨h.counts.enter hi hadmitted (by rintro ⟨⟩) ⟨operation, rfl⟩,
      h.closers.move (by simp [SyncCall.Leads, hi]) (by simp [SyncCall.Leads]) rfl id
        (fun _ => id) (by simp) (by simp)⟩
  · rw [Lifecycle.admit_of_not_opened hstate]
    exact h.setCall (by simp [SyncCall.IsRunning, SyncCall.Leads, hi])
      (by simp [SyncCall.IsIdle, SyncCall.IsRunning, SyncCall.Leads]) (by simp) (by simp)

theorem endAction
    {operation : RedisOperation}
    (h : s.Inv owned)
    (hi : s.calls i = .running operation)
    (e : ActionEnd X) :
    (s.endAction i operation e).Inv owned := by
  obtain ⟨-, hstate, hcreated, hresult⟩ := s.lifecycle.release_frame i
  have hmoved : Inv owned { s.setCall i (.executed (executeEnd operation e)) with
      lifecycle := (s.lifecycle.release i).2 } :=
    ⟨h.counts.release ⟨operation, hi⟩ (by rintro ⟨⟩) (by rintro ⟨_, ⟨⟩⟩),
      h.closers.move (by simp [SyncCall.Leads, hi]) (by simp [SyncCall.Leads]) hstate hcreated
        (hresult owned) (by simp) (by simp)⟩
  unfold SyncProvider.endAction
  dsimp only
  split
  · exact hmoved.notifyAll
  · exact hmoved

theorem close
    (h : s.Inv owned)
    (hi : s.calls i = .idle) :
    (s.close i).Inv owned := by
  have hidle : ¬(s.calls i).IsRunning ∧ ¬(s.calls i).Leads := by
    simp [SyncCall.IsRunning, SyncCall.Leads, hi]
  unfold SyncProvider.close
  split
  case h_1 hstate =>
      refine h.setCall hidle (by simp [SyncCall.IsIdle, SyncCall.IsRunning, SyncCall.Leads])
        (by simp) fun role seen hseen => ?_
      obtain ⟨rfl, rfl⟩ := SyncCall.closed.inj hseen
      obtain ⟨e, he⟩ := h.good.result_of_closed hstate
      exact ⟨e, he, rfl⟩
  case h_2 hstate =>
      exact h.setCall hidle (by simp [SyncCall.IsIdle, SyncCall.IsRunning, SyncCall.Leads])
        (by simp [hstate]) (by simp)
  case h_3 hstate =>
      refine ⟨h.counts.advance ((h.good.beginClosing hstate).drain (.inl rfl)) rfl hidle.1
        (by rintro ⟨⟩) (by rintro ⟨_, ⟨⟩⟩), h.closers.lead h.good hstate⟩

theorem resumeJoin
    (h : s.Inv owned)
    (hi : s.calls i = .joining false) :
    (s.resumeJoin i).Inv owned := by
  have hopened := (h.closers.joining i false hi).1
  have hjoining : ¬(s.calls i).IsRunning ∧ ¬(s.calls i).Leads := by
    simp [SyncCall.IsRunning, SyncCall.Leads, hi]
  unfold SyncProvider.resumeJoin
  split
  case isTrue hclosed =>
      refine h.setCall hjoining (by simp [SyncCall.IsIdle, SyncCall.IsRunning, SyncCall.Leads])
        (by simp) fun role seen hseen => ?_
      obtain ⟨rfl, rfl⟩ := SyncCall.closed.inj hseen
      obtain ⟨e, he⟩ := h.good.result_of_closed hclosed
      exact ⟨e, he, by rw [(h.good.terminal_of_result he).2]; rfl⟩
  case isFalse hclosed =>
      refine h.setCall hjoining (by simp [SyncCall.IsIdle, SyncCall.IsRunning, SyncCall.Leads])
        (fun _ _ => ⟨hopened, fun _ => ?_⟩) (by simp)
      cases hs : s.lifecycle.provider.state with
      | closing => rfl
      | opened => exact absurd hs hopened
      | closed => exact absurd hs hclosed

/-- The section of `finally`: the joiners are woken with the state that they wait for. -/
theorem publish
    {e : CloseEnd X}
    {lifecycle : Lifecycle ι X}
    (h : s.Inv owned)
    (hi : s.calls i = .leading)
    (hgood : lifecycle.Good owned)
    (hadmissions : lifecycle.admissions = s.lifecycle.admissions)
    (hstate : lifecycle.provider.state = .closed)
    (hresult : lifecycle.Result owned e) :
    (s.publish i e lifecycle).Inv owned := by
  have hwoken := h.notifyAll
  have hleading : s.notifyAll.calls i = .leading := by
    simp [SyncProvider.notifyAll, hi]
  have hfinish : Inv owned
      { s.notifyAll.setCall i (.closed .leader e) with lifecycle := lifecycle } :=
    ⟨hwoken.counts.advance hgood hadmissions (by simp [SyncCall.IsRunning, hleading])
        (by rintro ⟨⟩) (by rintro ⟨_, ⟨⟩⟩),
      hwoken.closers.finish hwoken.good hleading (by simp [SyncProvider.notifyAll]) hstate
        hresult⟩
  have heq : s.publish i e lifecycle =
      { s.notifyAll.setCall i (.closed .leader e) with lifecycle := lifecycle } := by
    have hcalls : (fun j => (Function.update s.calls i (.closed .leader e) j).wake) =
        Function.update (fun j => (s.calls j).wake) i (.closed .leader e) := by
      funext j
      by_cases hj : j = i
      · subst hj
        simp [SyncCall.wake]
      · simp [hj]
    simp only [SyncProvider.publish, SyncProvider.notifyAll, SyncProvider.setCall, hcalls]
  rw [heq]
  exact hfinish

/-- The closing moves on under its leader. -/
theorem advance
    {lifecycle : Lifecycle ι X}
    (h : s.Inv owned)
    (hi : s.calls i = .leading)
    (hgood : lifecycle.Good owned)
    (hadmissions : lifecycle.admissions = s.lifecycle.admissions)
    (hstate : lifecycle.provider.state = s.lifecycle.provider.state)
    (hstarted : lifecycle.closing ≠ .created) :
    Inv owned { s with lifecycle := lifecycle } where
  counts := h.counts.same hgood hadmissions (fun _ => Iff.rfl) (fun _ => id)
  closers := h.closers.advance h.good hstate hstarted (h.closers.leading i hi)

theorem step
    {t : SyncProvider ι X}
    {l : SyncLabel ι X}
    (h : s.Inv owned)
    (hstep : SyncStep s l t) :
    t.Inv owned := by
  cases hstep with
  | execute hi => exact h.execute hi _
  | endAction hi => exact h.endAction hi _
  | close hi => exact h.close hi
  | resumeDrain hi hphase =>
      refine h.advance hi (h.good.drain (.inr hphase)) rfl rfl ?_
      simp only [Lifecycle.drain]
      split
      · simp
      · simp
  | callClient hi hphase howned =>
      exact h.advance hi (h.good.callClient hphase howned) rfl rfl (by simp [Lifecycle.callClient])
  | @endClient i outcome hi hphase =>
      have hgood := h.good.endClient hphase outcome
      exact h.publish hi hgood rfl rfl hgood.fits.2.2.2
  | publish hi hphase howned =>
      have hgood := h.good.publish hphase howned
      exact h.publish hi hgood rfl rfl hgood.fits.2.2.2
  | resumeJoin hi => exact h.resumeJoin hi

theorem run
    {ls : List (SyncLabel ι X)}
    (h : Run SyncStep (SyncProvider.start owned) ls s) :
    s.Inv owned :=
  h.invariant (fun _ _ _ hs hstep => hs.step hstep) .start

end Inv

/-- Once the closing has begun, no operation is admitted. -/
theorem frozen_step
    {s t : SyncProvider ι X}
    {l : SyncLabel ι X}
    (hstep : SyncStep s l t)
    (hstate : s.lifecycle.provider.state ≠ .opened) :
    t.lifecycle.admissions.granted = s.lifecycle.admissions.granted ∧
      t.lifecycle.provider.state ≠ .opened := by
  cases hstep with
  | execute hi =>
      unfold SyncProvider.execute
      rw [Lifecycle.admit_of_not_opened hstate]
      exact ⟨rfl, hstate⟩
  | @endAction i operation e hi =>
      obtain ⟨hadmissions, hsame, -, -⟩ := s.lifecycle.release_frame i
      have hlifecycle : (s.endAction i operation e).lifecycle = (s.lifecycle.release i).2 := by
        unfold SyncProvider.endAction
        dsimp only
        split <;> rfl
      rw [hlifecycle, hadmissions, hsame]
      exact ⟨rfl, hstate⟩
  | close hi =>
      unfold SyncProvider.close
      split
      case h_3 hopened => exact absurd hopened hstate
      all_goals exact ⟨rfl, hstate⟩
  | endClient | publish => exact ⟨rfl, by simp [SyncProvider.publish, SyncProvider.notifyAll,
      Lifecycle.endClient, Lifecycle.publish]⟩
  | resumeJoin hi =>
      unfold SyncProvider.resumeJoin
      split <;> exact ⟨rfl, hstate⟩
  | _ => exact ⟨rfl, hstate⟩

end SyncProvider

end SyncRuns

/-! ## The asyncio provider -/

namespace AsyncCall

/-- The call has not begun. -/
def IsIdle (c : AsyncCall X) : Prop :=
  c = .idle

/-- The call is inside an operation. -/
def IsRunning (c : AsyncCall X) : Prop :=
  ∃ operation, c = .running operation

end AsyncCall

section AsyncRuns

variable [DecidableEq ι]

namespace AsyncProvider

/-- What holds in every reachable state of the asyncio provider. -/
structure Inv (owned : Bool) (s : AsyncProvider ι X) : Prop where
  counts : s.lifecycle.Counts AsyncCall.IsIdle AsyncCall.IsRunning owned s.calls
  awaiting : ∀ i cancelled, s.calls i = .awaiting cancelled →
    s.lifecycle.provider.state ≠ .opened
  joined : ∀ i e, s.calls i = .closed true (.ended e) → s.lifecycle.Result owned e

namespace Inv

variable {owned : Bool} {s : AsyncProvider ι X} {i : ι}

theorem good
    (h : s.Inv owned) :
    s.lifecycle.Good owned :=
  h.counts.good

theorem start :
    (AsyncProvider.start owned : AsyncProvider ι X).Inv owned where
  counts := .start (by rintro ⟨_, ⟨⟩⟩)
  awaiting i c hi := by simp [AsyncProvider.start] at hi
  joined i e hi := by simp [AsyncProvider.start] at hi

/-- A call moves on, together with the shared fields. -/
theorem move
    {c : AsyncCall X}
    {lifecycle : Lifecycle ι X}
    (h : s.Inv owned)
    (hcounts : lifecycle.Counts AsyncCall.IsIdle AsyncCall.IsRunning owned
      (Function.update s.calls i c))
    (hstate : s.lifecycle.provider.state ≠ .opened → lifecycle.provider.state ≠ .opened)
    (hresult : ∀ e, s.lifecycle.Result owned e → lifecycle.Result owned e)
    (hawaiting : ∀ cancelled, c = .awaiting cancelled → lifecycle.provider.state ≠ .opened)
    (hjoined : ∀ e, c = .closed true (.ended e) → lifecycle.Result owned e) :
    Inv owned { s.setCall i c with lifecycle := lifecycle } := by
  refine ⟨hcounts, fun j cancelled hj => ?_, fun j e hj => ?_⟩
  · by_cases hne : j = i
    · subst hne
      exact hawaiting cancelled (by simpa [AsyncProvider.setCall] using hj)
    · exact hstate (h.awaiting j cancelled (by simpa [AsyncProvider.setCall, hne] using hj))
  · by_cases hne : j = i
    · subst hne
      exact hjoined e (by simpa [AsyncProvider.setCall] using hj)
    · exact hresult e (h.joined j e (by simpa [AsyncProvider.setCall, hne] using hj))

/-- A call that does not run moves on to such a place. -/
theorem setCall
    {c : AsyncCall X}
    {lifecycle : Lifecycle ι X}
    (h : s.Inv owned)
    (hi : ¬(s.calls i).IsRunning)
    (hc : ¬c.IsIdle ∧ ¬c.IsRunning)
    (hgood : lifecycle.Good owned)
    (hadmissions : lifecycle.admissions = s.lifecycle.admissions)
    (hstate : s.lifecycle.provider.state ≠ .opened → lifecycle.provider.state ≠ .opened)
    (hresult : ∀ e, s.lifecycle.Result owned e → lifecycle.Result owned e)
    (hawaiting : ∀ cancelled, c = .awaiting cancelled → lifecycle.provider.state ≠ .opened)
    (hjoined : ∀ e, c = .closed true (.ended e) → lifecycle.Result owned e) :
    Inv owned { s.setCall i c with lifecycle := lifecycle } :=
  h.move (h.counts.advance hgood hadmissions hi hc.1 hc.2) hstate hresult hawaiting hjoined

/-- The cleanup task moves on. -/
theorem advance
    {lifecycle : Lifecycle ι X}
    (h : s.Inv owned)
    (hgood : lifecycle.Good owned)
    (hadmissions : lifecycle.admissions = s.lifecycle.admissions)
    (hstate : lifecycle.provider.state ≠ .opened)
    (hclosing : s.lifecycle.provider.state = .closing) :
    Inv owned { s with lifecycle := lifecycle } where
  counts := h.counts.same hgood hadmissions (fun _ => Iff.rfl) (fun _ => id)
  awaiting _ _ _ := hstate
  joined j e hj := absurd (h.joined j e hj) (h.good.not_result hclosing)

/-! ### The steps -/

theorem execute
    (h : s.Inv owned)
    (hi : s.calls i = .idle)
    (operation : RedisOperation) :
    (s.execute i operation).Inv owned := by
  unfold AsyncProvider.execute
  by_cases hstate : s.lifecycle.provider.state = .opened
  · have hadmitted := Lifecycle.admit_of_opened hstate operation i
    rw [hadmitted]
    exact h.move (h.counts.enter hi hadmitted (by rintro ⟨⟩) ⟨operation, rfl⟩) id (fun _ => id)
      (by simp) (by simp)
  · rw [Lifecycle.admit_of_not_opened hstate]
    exact h.setCall (by simp [AsyncCall.IsRunning, hi])
      (by simp [AsyncCall.IsIdle, AsyncCall.IsRunning]) h.good rfl id (fun _ => id) (by simp)
      (by simp)

theorem endAction
    {operation : RedisOperation}
    (h : s.Inv owned)
    (hi : s.calls i = .running operation)
    (e : ActionEnd X) :
    (s.endAction i operation e).Inv owned := by
  obtain ⟨-, hstate, -, hresult⟩ := s.lifecycle.release_frame i
  exact h.move (h.counts.release ⟨operation, hi⟩ (by rintro ⟨⟩) (by rintro ⟨_, ⟨⟩⟩))
    (hstate ▸ id) (hresult owned) (by simp) (by simp)

theorem aclose
    (h : s.Inv owned)
    (hi : s.calls i = .idle) :
    (s.aclose i).Inv owned := by
  have hidle : ¬(s.calls i).IsRunning := by
    simp [AsyncCall.IsRunning, hi]
  unfold AsyncProvider.aclose
  split
  case h_1 hstate =>
      exact h.setCall hidle (by simp [AsyncCall.IsIdle, AsyncCall.IsRunning]) h.good rfl id
        (fun _ => id) (by simp) (by simp)
  case h_2 hstate =>
      exact h.setCall hidle (by simp [AsyncCall.IsIdle, AsyncCall.IsRunning]) h.good rfl id
        (fun _ => id) (by simp [hstate]) (by simp)
  case h_3 hstate =>
      refine h.setCall hidle (by simp [AsyncCall.IsIdle, AsyncCall.IsRunning])
        (h.good.beginClosing hstate) rfl (absurd hstate ·) (fun e he => ?_)
        (by simp [Lifecycle.beginClosing]) (by simp)
      exact absurd (he.1.symm.trans (h.good.closing_of_opened hstate)) (by simp)

theorem step
    {t : AsyncProvider ι X}
    {l : AsyncLabel ι X}
    (h : s.Inv owned)
    (hstep : AsyncStep s l t) :
    t.Inv owned := by
  cases hstep with
  | execute hi => exact h.execute hi _
  | endAction hi => exact h.endAction hi _
  | aclose hi => exact h.aclose hi
  | cancel hi =>
      exact h.setCall (by simp [AsyncCall.IsRunning, hi])
        (by simp [AsyncCall.IsIdle, AsyncCall.IsRunning]) h.good rfl id (fun _ => id)
        (fun _ _ => h.awaiting _ _ hi) (by simp)
  | cleanup hphase =>
      have hclosing := h.good.closing_of_phase hphase
      obtain ⟨hadmissions, hstate⟩ := s.lifecycle.drain.afterDrain_frame
      have hdrained : s.lifecycle.drain.provider.state ≠ .opened := by
        simp [Lifecycle.drain, hclosing]
      exact h.advance (h.good.drain hphase).afterDrain hadmissions (hstate hdrained) hclosing
  | @endClient outcome hphase =>
      have hgood := h.good.endClient hphase outcome
      have hfits := h.good.fits
      simp only [hphase, Lifecycle.Fits] at hfits
      exact h.advance hgood rfl (by simp [Lifecycle.endClient, Lifecycle.publish]) hfits.1
  | @resume i cancelled e hi hphase =>
      have hfits := h.good.fits
      simp only [hphase, Lifecycle.Fits] at hfits
      refine h.setCall (by simp [AsyncCall.IsRunning, hi])
        (by simp [AsyncCall.IsIdle, AsyncCall.IsRunning]) h.good rfl id (fun _ => id) (by simp)
        fun e' he' => ?_
      have hend := (AsyncCall.closed.inj he').2
      cases cancelled with
      | true => simp [AsyncProvider.closeEnd] at hend
      | false =>
          obtain rfl : e = e' := by simpa [AsyncProvider.closeEnd] using hend
          exact hfits.2.2.2

theorem run
    {ls : List (AsyncLabel ι X)}
    (h : Run AsyncStep (AsyncProvider.start owned) ls s) :
    s.Inv owned :=
  h.invariant (fun _ _ _ hs hstep => hs.step hstep) .start

end Inv

/-- Once the closing has begun, no operation is admitted. -/
theorem frozen_step
    {s t : AsyncProvider ι X}
    {l : AsyncLabel ι X}
    (hstep : AsyncStep s l t)
    (hstate : s.lifecycle.provider.state ≠ .opened) :
    t.lifecycle.admissions.granted = s.lifecycle.admissions.granted ∧
      t.lifecycle.provider.state ≠ .opened := by
  cases hstep with
  | execute hi =>
      unfold AsyncProvider.execute
      rw [Lifecycle.admit_of_not_opened hstate]
      exact ⟨rfl, hstate⟩
  | @endAction i operation e hi =>
      obtain ⟨hadmissions, hsame, -, -⟩ := s.lifecycle.release_frame i
      exact ⟨(congrArg Ledger.granted hadmissions :), fun hopened =>
        hstate (hsame.symm.trans hopened)⟩
  | aclose hi =>
      unfold AsyncProvider.aclose
      split
      case h_3 hopened => exact absurd hopened hstate
      all_goals exact ⟨rfl, hstate⟩
  | cleanup =>
      obtain ⟨hadmissions, hkept⟩ := s.lifecycle.drain.afterDrain_frame
      exact ⟨congrArg Ledger.granted hadmissions, hkept hstate⟩
  | endClient => exact ⟨rfl, by simp [Lifecycle.endClient, Lifecycle.publish]⟩
  | _ => exact ⟨rfl, hstate⟩

end AsyncProvider

end AsyncRuns

/-! ## The laws of the lifecycle -/

section Laws

variable [DecidableEq ι]

/-- The counter counts the operations inside, and the client is closed once at most. -/
structure Lifecycle.Lawful (owned : Bool) (s : Lifecycle ι X) : Prop where
  balanced : s.admissions.Balanced
  active : s.provider.active = s.admissions.outstanding.length
  once : s.clientCloses ≤ 1
  drained : s.clientCloses ≠ 0 → owned = true ∧ s.admissions.outstanding = []
  awake : s.closing = .draining true → s.admissions.outstanding ≠ []

theorem Lifecycle.Good.lawful
    {owned : Bool}
    {s : Lifecycle ι X}
    (h : s.Good owned) :
    s.Lawful owned where
  balanced := h.balanced
  active := h.active
  once := h.closes_le
  drained := h.called
  awake hc hnil := by
    have hfits := h.fits
    have hactive := h.active
    simp only [hc, Lifecycle.Fits] at hfits
    rw [hnil] at hactive
    exact hfits.2.2 trivial hactive

/--
The laws of a state of the synchronous provider: who is counted, that nobody is
admitted any more, what the closing calls have seen of the result, by their role, and
that a sleeper is never left alone.
-/
structure SyncProvider.Lawful (owned : Bool) (s : SyncProvider ι X) : Prop where
  lifecycle : s.lifecycle.Lawful owned
  running : ∀ i, (i, ()) ∈ s.lifecycle.admissions.outstanding ↔
    ∃ operation, s.calls i = .running operation
  frozen : s.lifecycle.provider.state ≠ .opened → ∀ ls t, Run SyncStep s ls t →
    t.lifecycle.admissions.granted = s.lifecycle.admissions.granted
  seen : ∀ i role seen, s.calls i = .closed role seen →
    ∃ e, s.lifecycle.Result owned e ∧ seen = role.sees e
  alone : ∀ i j e e', s.calls i = .closed .leader e → s.calls j = .closed .leader e' → i = j
  joining : ∀ i, s.calls i = .joining true → s.lifecycle.provider.state = .closing
  leader : s.lifecycle.provider.state = .closing → ∃ i, s.calls i = .leading

/-- The closing calls that did not find the provider closed have seen one result. -/
def SyncProvider.Shared (owned : Bool) (s : SyncProvider ι X) : Prop :=
  ∀ i role seen, s.calls i = .closed role seen → role ≠ .late → s.lifecycle.Result owned seen

/-- A step does not end the client's close by a `BaseException` while a call joins. -/
def Uninterrupted (s : SyncProvider ι X) (l : SyncLabel ι X) (_ : SyncProvider ι X) : Prop :=
  ∀ i x, l = .endClient i (.baseException x) → ∀ j asleep, s.calls j ≠ .joining asleep

/-- The laws of a state of the asyncio provider. -/
structure AsyncProvider.Lawful (owned : Bool) (s : AsyncProvider ι X) : Prop where
  lifecycle : s.lifecycle.Lawful owned
  running : ∀ i, (i, ()) ∈ s.lifecycle.admissions.outstanding ↔
    ∃ operation, s.calls i = .running operation
  frozen : s.lifecycle.provider.state ≠ .opened → ∀ ls t, Run AsyncStep s ls t →
    t.lifecycle.admissions.granted = s.lifecycle.admissions.granted
  shared : ∀ i e, s.calls i = .closed true (.ended e) → s.lifecycle.Result owned e
  awaiting : ∀ i cancelled, s.calls i = .awaiting cancelled → s.lifecycle.closing ≠ .none

theorem SyncProvider.Inv.lawful
    {owned : Bool}
    {s : SyncProvider ι X}
    (h : s.Inv owned) :
    s.Lawful owned where
  lifecycle := h.good.lawful
  running := h.counts.running
  frozen hstate ls t hrun :=
    (hrun.invariant
      (I := fun u => u.lifecycle.admissions.granted = s.lifecycle.admissions.granted ∧
        u.lifecycle.provider.state ≠ .opened)
      (fun _ _ _ hu hstep => by
        obtain ⟨hgranted, hkept⟩ := frozen_step hstep hu.2
        exact ⟨hgranted.trans hu.1, hkept⟩)
      ⟨rfl, hstate⟩).1
  seen := h.closers.ended
  alone i j e e' hi hj := h.closers.unique i j (.inr ⟨e, hi⟩) (.inr ⟨e', hj⟩)
  joining i hi := (h.closers.joining i true hi).2 rfl
  leader := h.closers.leader

theorem AsyncProvider.Inv.lawful
    {owned : Bool}
    {s : AsyncProvider ι X}
    (h : s.Inv owned) :
    s.Lawful owned where
  lifecycle := h.good.lawful
  running := h.counts.running
  frozen hstate ls t hrun :=
    (hrun.invariant
      (I := fun u => u.lifecycle.admissions.granted = s.lifecycle.admissions.granted ∧
        u.lifecycle.provider.state ≠ .opened)
      (fun _ _ _ hu hstep => by
        obtain ⟨hgranted, hkept⟩ := frozen_step hstep hu.2
        exact ⟨hgranted.trans hu.1, hkept⟩)
      ⟨rfl, hstate⟩).1
  shared := h.joined
  awaiting i cancelled hi hnone := by
    have hfits := h.good.fits
    simp only [hnone, Lifecycle.Fits] at hfits
    exact h.awaiting i cancelled hi hfits.1

/-! ## The shared result -/

/-- The call has found the provider closing. -/
def SyncCall.Joins (c : SyncCall X) : Prop :=
  (∃ asleep, c = .joining asleep) ∨ ∃ seen, c = .closed .joiner seen

theorem SyncCall.joins_wake
    {c : SyncCall X} :
    c.wake.Joins ↔ c.Joins := by
  cases c with
  | _ => simp [SyncCall.Joins, SyncCall.wake]

section Shared

variable {owned : Bool} {s t : SyncProvider ι X} {l : SyncLabel ι X}

theorem joins_setCall
    {i j : ι} {c : SyncCall X}
    (hc : c.Joins → (s.calls i).Joins)
    (h : ((s.setCall i c).calls j).Joins) :
    (s.calls j).Joins := by
  rcases SyncProvider.setCall_cases (s := s) (i := i) (c := c) (j := j) rfl with
    ⟨rfl, heq⟩ | ⟨-, heq⟩
  · exact hc (heq ▸ h)
  · rwa [heq]

/-- A call joins when its `close` finds the provider closing. -/
theorem joins_step
    {j : ι}
    (hstep : SyncStep s l t)
    (h : (t.calls j).Joins) :
    (s.calls j).Joins ∨ (∃ i, l = .close i) ∧ s.lifecycle.provider.state = .closing := by
  cases hstep with
  | @execute i operation hi =>
      unfold SyncProvider.execute at h
      split at h
      · exact .inl (joins_setCall (by simp [SyncCall.Joins]) h)
      · exact .inl (joins_setCall (by simp [SyncCall.Joins]) h)
  | @endAction i operation e hi =>
      unfold SyncProvider.endAction at h
      dsimp only at h
      split at h
      · exact .inl (joins_setCall (by simp [SyncCall.Joins]) (SyncCall.joins_wake.mp h))
      · exact .inl (joins_setCall (by simp [SyncCall.Joins]) h)
  | @close i hi =>
      unfold SyncProvider.close at h
      split at h
      case h_1 => exact .inl (joins_setCall (by simp [SyncCall.Joins]) h)
      case h_2 hstate => exact .inr ⟨⟨i, rfl⟩, hstate⟩
      case h_3 => exact .inl (joins_setCall (by simp [SyncCall.Joins]) h)
  | resumeDrain => exact .inl h
  | callClient => exact .inl h
  | endClient =>
      exact .inl (joins_setCall (by simp [SyncCall.Joins]) (SyncCall.joins_wake.mp h))
  | publish =>
      exact .inl (joins_setCall (by simp [SyncCall.Joins]) (SyncCall.joins_wake.mp h))
  | @resumeJoin i hi =>
      have hjoins : (s.calls i).Joins := .inl ⟨false, hi⟩
      unfold SyncProvider.resumeJoin at h
      split at h
      · exact .inl (joins_setCall (fun _ => hjoins) h)
      · exact .inl (joins_setCall (fun _ => hjoins) h)

omit [DecidableEq ι] in
theorem closing_release
    {s : Lifecycle ι X} {i : ι} {e : CloseEnd X}
    (h : (s.release i).2.closing = .finished e) :
    s.closing = .finished e := by
  unfold Lifecycle.release Lifecycle.wake at h
  dsimp only at h
  split at h
  · split at h
    · cases h
    · exact h
  · exact h

/-- The closing ends by a `BaseException` where the client's close does. -/
theorem interrupted_step
    {x : X}
    (hstep : SyncStep s l t)
    (h : t.lifecycle.closing = .finished (.baseException x)) :
    s.lifecycle.closing = .finished (.baseException x) ∨
      ∃ i, l = .endClient i (.baseException x) := by
  cases hstep with
  | @execute i operation hi =>
      unfold SyncProvider.execute Lifecycle.admitOperation at h
      split at h
      case h_1 lifecycle hadmitted =>
          split at hadmitted
          case isTrue =>
              obtain rfl := Except.ok.inj hadmitted
              exact .inl h
          case isFalse => cases hadmitted
      case h_2 => exact .inl h
  | @endAction i operation e hi =>
      unfold SyncProvider.endAction at h
      dsimp only at h
      split at h
      · exact .inl (closing_release h)
      · exact .inl (closing_release h)
  | @close i hi =>
      unfold SyncProvider.close at h
      split at h
      case h_1 => exact .inl h
      case h_2 => exact .inl h
      case h_3 =>
          unfold Lifecycle.drain at h
          dsimp only at h
          split at h
          · cases h
          · cases h
  | resumeDrain =>
      unfold Lifecycle.drain at h
      dsimp only at h
      split at h
      · cases h
      · cases h
  | callClient => cases h
  | @endClient i outcome hi hphase =>
      cases outcome with
      | returned => cases h
      | raised e => cases h
      | baseException y =>
          cases h
          exact .inr ⟨i, rfl⟩
  | publish => cases h
  | @resumeJoin i hi =>
      unfold SyncProvider.resumeJoin at h
      split at h
      · exact .inl h
      · exact .inl h

/-- Nobody has joined a closing that a `BaseException` has ended. -/
def Unjoined (s : SyncProvider ι X) : Prop :=
  ∀ x, s.lifecycle.closing = .finished (.baseException x) → ∀ i, ¬(s.calls i).Joins

theorem unjoined_step
    (hs : s.Inv owned)
    (h : Unjoined s)
    (hstep : SyncStep s l t)
    (hstill : Uninterrupted s l t) :
    Unjoined t := by
  intro x hx j hj
  rcases interrupted_step hstep hx with hbefore | ⟨i, rfl⟩
  · rcases joins_step hstep hj with hj | ⟨-, hstate⟩
    · exact h x hbefore j hj
    · obtain ⟨e, he⟩ : ∃ e, s.lifecycle.Result owned e := by
        have hfits := hs.good.fits
        simp only [hbefore, Lifecycle.Fits] at hfits
        exact ⟨_, hfits.2.2.2⟩
      exact hs.good.not_result hstate he
  · have hclosing : s.lifecycle.provider.state = .closing := by
      cases hstep with
      | endClient hi _ => exact hs.closers.leading _ hi
    rcases joins_step hstep hj with (⟨asleep, hj⟩ | ⟨seen, hj⟩) | ⟨⟨k, hk⟩, -⟩
    · exact hstill i x rfl j asleep hj
    · exact hs.closers.not_closed hs.good hclosing hj
    · cases hk

/-- Where nobody joins such a closing, the result is shared. -/
theorem shared_of_unjoined
    (hs : s.Inv owned)
    (h : Unjoined s) :
    s.Shared owned := by
  intro i role seen hi hrole
  obtain ⟨e, he, rfl⟩ := hs.closers.ended i role seen hi
  cases role with
  | leader => exact he
  | late => exact absurd rfl hrole
  | joiner =>
      cases e with
      | returned => exact he
      | providerError e => exact he
      | baseException x => exact absurd (.inr ⟨_, hi⟩) (h x he.1 i)

theorem shared_run
    {ls : List (SyncLabel ι X)}
    (hrun : Run.EachStep SyncStep Uninterrupted s ls t)
    (hs : s.Inv owned)
    (h : Unjoined s) :
    t.Shared owned := by
  induction hrun with
  | nil => exact shared_of_unjoined hs h
  | cons hstep hstill _ ih => exact ih (hs.step hstep) (unjoined_step hs h hstep hstill)

/-- A joiner of an interrupted closing goes on to see another result. -/
theorem not_shared_of_interrupted
    (hstep : SyncStep s l t)
    (hinterrupted : ¬Uninterrupted s l t) :
    ∃ ls u, Run SyncStep t ls u ∧ ¬u.Shared owned := by
  unfold Uninterrupted at hinterrupted
  push Not at hinterrupted
  obtain ⟨i, x, rfl, j, asleep, hj⟩ := hinterrupted
  cases hstep with
  | endClient hi hphase =>
      have hne : j ≠ i := by
        rintro rfl
        rw [hi] at hj
        cases hj
      have hwoken : (s.publish i (.baseException x)
          (s.lifecycle.endClient (.baseException x))).calls j = .joining false := by
        simp [SyncProvider.publish, SyncProvider.notifyAll, SyncProvider.setCall, hne, hj,
          SyncCall.wake]
      refine ⟨_, _, .single (.resumeJoin hwoken), fun hshared => ?_⟩
      have hresult := (hshared j .joiner .returned (by
        simp [SyncProvider.resumeJoin, SyncProvider.publish, SyncProvider.notifyAll,
          SyncProvider.setCall, Lifecycle.endClient, Lifecycle.publish, ClientClose.closeEnd,
          CloseEnd.terminal, CloseEnd.ofTerminal]) (by rintro ⟨⟩)).1
      simp [SyncProvider.resumeJoin, SyncProvider.publish, SyncProvider.notifyAll,
        SyncProvider.setCall, Lifecycle.endClient, Lifecycle.publish, ClientClose.closeEnd]
        at hresult

end Shared

end Laws

end CacheRedis
end Bluetape
