import Bluetape.Base.Ledger
import Bluetape.Base.Run

/-!
# The lifecycle of the Redis providers

Operations are admitted while a provider is open; one closing drains them, closes
an owned client and publishes its result to everybody who asked for it.  In the
synchronous provider the closing runs in the call that began it; in the asyncio
provider it is a task that every call awaits behind a shield.

The sections under the lock and the closing itself are shared; the two systems of
calls differ in who runs them and in how the others wait.
-/

namespace Bluetape
namespace CacheRedis

open Base

/-- `RedisOperation` -/
inductive RedisOperation
  | create
  | get
  | set
  | setIfAbsent
  | delete
  | deleteIfValue
  | coordinationSnapshot
  | publishIfValue
  | close
deriving DecidableEq, Repr

/-- `RedisErrorCode` -/
inductive RedisErrorCode
  | closed
  | invalidInput
  | connection
  | timeout
  | providerFailure
  | invalidResponse
deriving DecidableEq, Repr

/-- The states of a provider. -/
inductive ProviderState
  | opened
  | closing
  | closed
deriving DecidableEq, Repr

section Types

variable (ι X : Type)

/-- An exception of the client, by the classes that `_error_code` tells apart. -/
inductive ClientException
  | timeoutError (x : X)
  | connectionError (x : X)
  | exception (x : X)
deriving DecidableEq, Repr

/-- `RedisProviderError` -/
structure RedisProviderError where
  operation : RedisOperation
  code : RedisErrorCode
  cause : Option (ClientException X)
deriving DecidableEq, Repr

/-- How the client's own close ends; a `CancelledError` is no `Exception`. -/
inductive ClientClose
  | returned
  | raised (e : ClientException X)
  | baseException (x : X)
deriving DecidableEq, Repr

/-- How the closing of a provider ends. -/
inductive CloseEnd
  | returned
  | providerError (e : RedisProviderError X)
  | baseException (x : X)
deriving DecidableEq, Repr

/-- How the action of an operation ends. -/
inductive ActionEnd
  | returned
  | providerError (e : RedisProviderError X)
  | invalidInput
  | raised (e : ClientException X)
  | baseException (x : X)
deriving DecidableEq, Repr

/-- Where the closing of a provider is. -/
inductive ClosePhase
  | none
  | created
  | draining (asleep : Bool)
  | drained
  | clientClosing
  | finished (e : CloseEnd X)
deriving DecidableEq, Repr

/-- The fields of a provider that its lifecycle uses. -/
structure Provider where
  owned : Bool
  state : ProviderState
  active : Int
  terminalCloseError : Option (RedisProviderError X)

/--
A provider and its closing, with a record of the admitted operations, of how often
the client's close was called and of how that ended.
-/
structure Lifecycle where
  provider : Provider X
  closing : ClosePhase X
  admissions : Ledger ι Unit
  clientCloses : Nat
  clientClosed : Option (ClientClose X)

end Types

section Sections

variable {ι X : Type}

/-- `_error_code` -/
def errorCode : ClientException X → RedisErrorCode
  | .timeoutError _ => .timeout
  | .connectionError _ => .connection
  | .exception _ => .providerFailure

/-- `_wrapped_error` -/
def wrappedError (operation : RedisOperation) (cause : ClientException X) :
    RedisProviderError X :=
  ⟨operation, errorCode cause, some cause⟩

/-- `ProviderClosedError` -/
def providerClosedError (operation : RedisOperation) : RedisProviderError X :=
  ⟨operation, .closed, none⟩

/-- What the closing makes of the end of the client's close. -/
def ClientClose.closeEnd : ClientClose X → CloseEnd X
  | .returned => .returned
  | .raised e => .providerError (wrappedError .close e)
  | .baseException x => .baseException x

/-- The value of `terminal` when the closing publishes it. -/
def CloseEnd.terminal : CloseEnd X → Option (RedisProviderError X)
  | .providerError e => some e
  | .returned | .baseException _ => none

/-- The end of a call of `close` that has found a terminal error or none. -/
def CloseEnd.ofTerminal : Option (RedisProviderError X) → CloseEnd X
  | some e => .providerError e
  | none => .returned

/-- `_execute`, from the end of the action on: what it raises, if anything -/
def executeEnd (operation : RedisOperation) : ActionEnd X → ActionEnd X
  | .raised e => .providerError (wrappedError operation e)
  | e => e

namespace Lifecycle

/-- A new provider. -/
def start (owned : Bool) : Lifecycle ι X where
  provider := ⟨owned, .opened, 0, none⟩
  closing := .none
  admissions := .empty
  clientCloses := 0
  clientClosed := none

/-- `_admit` -/
def admitOperation (operation : RedisOperation) (i : ι) (s : Lifecycle ι X) :
    Except (RedisProviderError X) (Lifecycle ι X) :=
  if s.provider.state = .opened then
    .ok { s with
      provider := { s.provider with active := s.provider.active + 1 }
      admissions := s.admissions.grant i () }
  else .error (providerClosedError operation)

/-- The closing is woken if it waits. -/
def wake (s : Lifecycle ι X) : Lifecycle ι X :=
  match s.closing with
  | .draining _ => { s with closing := .draining false }
  | _ => s

/-- `_release`, with whether it notifies the waiters -/
def release (i : ι) (s : Lifecycle ι X) : Bool × Lifecycle ι X :=
  let s := { s with
    provider := { s.provider with active := s.provider.active - 1 }
    admissions := s.admissions.settle i }
  if s.provider.active = 0 then (true, s.wake) else (false, s)

/-- The closing begins. -/
def beginClosing (s : Lifecycle ι X) : Lifecycle ι X :=
  { s with provider := { s.provider with state := .closing }, closing := .created }

/-- `while self._active: wait()`, up to the next wait -/
def drain (s : Lifecycle ι X) : Lifecycle ι X :=
  { s with closing := if s.provider.active ≠ 0 then .draining true else .drained }

/-- The close of the client is called. -/
def callClient (s : Lifecycle ι X) : Lifecycle ι X :=
  { s with closing := .clientClosing, clientCloses := s.clientCloses + 1 }

/-- The section of `finally`. -/
def publish (e : CloseEnd X) (s : Lifecycle ι X) : Lifecycle ι X :=
  { s with
    provider := { s.provider with state := .closed, terminalCloseError := e.terminal }
    closing := .finished e }

/-- The close of the client ends, and its result is published. -/
def endClient (outcome : ClientClose X) (s : Lifecycle ι X) : Lifecycle ι X :=
  publish outcome.closeEnd { s with clientClosed := some outcome }

/-- The closing goes on after the drain: an owned client is closed. -/
def afterDrain (s : Lifecycle ι X) : Lifecycle ι X :=
  match s.closing with
  | .drained => if s.provider.owned then s.callClient else s.publish .returned
  | _ => s

end Lifecycle

end Sections

/-! ## The synchronous provider -/

section Sync

variable (ι X : Type)

/--
How a call of `close` took part: it began the closing, it found the provider closing, or it
found it closed.
-/
inductive CloseRole
  | leader
  | joiner
  | late
deriving DecidableEq, Repr

/-- A call of an operation or of `close`. -/
inductive SyncCall
  | idle
  | running (operation : RedisOperation)
  | rejected (e : RedisProviderError X)
  | executed (e : ActionEnd X)
  | leading
  | joining (asleep : Bool)
  | closed (role : CloseRole) (e : CloseEnd X)

/-- A synchronous provider and its calls. -/
structure SyncProvider where
  lifecycle : Lifecycle ι X
  calls : ι → SyncCall X

/-- The steps of the synchronous provider. -/
inductive SyncLabel
  | execute (i : ι) (operation : RedisOperation)
  | endAction (i : ι) (e : ActionEnd X)
  | close (i : ι)
  | resumeDrain (i : ι)
  | callClient (i : ι)
  | endClient (i : ι) (outcome : ClientClose X)
  | publish (i : ι)
  | resumeJoin (i : ι)

end Sync

section SyncSteps

variable {ι X : Type} [DecidableEq ι]

/-- A joiner that is notified. -/
def SyncCall.wake : SyncCall X → SyncCall X
  | .joining _ => .joining false
  | c => c

namespace SyncProvider

/-- A new provider, not called yet. -/
def start (owned : Bool) : SyncProvider ι X :=
  ⟨.start owned, fun _ => .idle⟩

/-- A call of the provider moves on. -/
def setCall (s : SyncProvider ι X) (i : ι) (c : SyncCall X) : SyncProvider ι X :=
  { s with calls := Function.update s.calls i c }

/-- `notify_all` wakes the joiners too. -/
def notifyAll (s : SyncProvider ι X) : SyncProvider ι X :=
  { s with calls := fun i => (s.calls i).wake }

/-- `_execute`, up to its action -/
def execute (s : SyncProvider ι X) (i : ι) (operation : RedisOperation) : SyncProvider ι X :=
  match s.lifecycle.admitOperation operation i with
  | .ok lifecycle => { s.setCall i (.running operation) with lifecycle := lifecycle }
  | .error e => s.setCall i (.rejected e)

/-- `_execute`, from the end of its action on -/
def endAction (s : SyncProvider ι X) (i : ι) (operation : RedisOperation) (e : ActionEnd X) :
    SyncProvider ι X :=
  let (notifies, lifecycle) := s.lifecycle.release i
  let s := { s.setCall i (.executed (executeEnd operation e)) with lifecycle := lifecycle }
  if notifies then s.notifyAll else s

/-- `close`, up to its first wait or to the end of its first section -/
def close (s : SyncProvider ι X) (i : ι) : SyncProvider ι X :=
  match s.lifecycle.provider.state with
  | .closed => s.setCall i (.closed .late .returned)
  | .closing => s.setCall i (.joining true)
  | .opened => { s.setCall i .leading with lifecycle := s.lifecycle.beginClosing.drain }

/-- A joiner that was notified looks at the state again. -/
def resumeJoin (s : SyncProvider ι X) (i : ι) : SyncProvider ι X :=
  if s.lifecycle.provider.state = .closed then
    s.setCall i (.closed .joiner (.ofTerminal s.lifecycle.provider.terminalCloseError))
  else s.setCall i (.joining true)

/-- The leader publishes the end of the closing and returns or raises. -/
def publish (s : SyncProvider ι X) (i : ι) (e : CloseEnd X) (lifecycle : Lifecycle ι X) :
    SyncProvider ι X :=
  { s.setCall i (.closed .leader e) with lifecycle := lifecycle }.notifyAll

end SyncProvider

/-- The steps of the synchronous provider. -/
inductive SyncStep : SyncProvider ι X → SyncLabel ι X → SyncProvider ι X → Prop
  | execute {s : SyncProvider ι X} {i : ι} {operation : RedisOperation} :
      s.calls i = .idle →
      SyncStep s (.execute i operation) (s.execute i operation)
  | endAction {s : SyncProvider ι X} {i : ι} {operation : RedisOperation} {e : ActionEnd X} :
      s.calls i = .running operation →
      SyncStep s (.endAction i e) (s.endAction i operation e)
  | close {s : SyncProvider ι X} {i : ι} :
      s.calls i = .idle →
      SyncStep s (.close i) (s.close i)
  | resumeDrain {s : SyncProvider ι X} {i : ι} :
      s.calls i = .leading →
      s.lifecycle.closing = .draining false →
      SyncStep s (.resumeDrain i) { s with lifecycle := s.lifecycle.drain }
  | callClient {s : SyncProvider ι X} {i : ι} :
      s.calls i = .leading →
      s.lifecycle.closing = .drained →
      s.lifecycle.provider.owned = true →
      SyncStep s (.callClient i) { s with lifecycle := s.lifecycle.callClient }
  | endClient {s : SyncProvider ι X} {i : ι} {outcome : ClientClose X} :
      s.calls i = .leading →
      s.lifecycle.closing = .clientClosing →
      SyncStep s (.endClient i outcome)
        (s.publish i outcome.closeEnd (s.lifecycle.endClient outcome))
  | publish {s : SyncProvider ι X} {i : ι} :
      s.calls i = .leading →
      s.lifecycle.closing = .drained →
      s.lifecycle.provider.owned = false →
      SyncStep s (.publish i) (s.publish i .returned (s.lifecycle.publish .returned))
  | resumeJoin {s : SyncProvider ι X} {i : ι} :
      s.calls i = .joining false →
      SyncStep s (.resumeJoin i) (s.resumeJoin i)

end SyncSteps

/-! ## The asyncio provider -/

section Async

variable (ι X : Type)

/-- How a call of `aclose` ends. -/
inductive AsyncCloseEnd
  | cancelled
  | ended (e : CloseEnd X)
deriving DecidableEq, Repr

/--
A call of an operation or of `aclose`.  A call that has closed remembers whether it
began before the provider was closed.
-/
inductive AsyncCall
  | idle
  | running (operation : RedisOperation)
  | rejected (e : RedisProviderError X)
  | executed (e : ActionEnd X)
  | awaiting (cancelled : Bool)
  | closed (joined : Bool) (e : AsyncCloseEnd X)

/-- An asyncio provider and its calls. -/
structure AsyncProvider where
  lifecycle : Lifecycle ι X
  calls : ι → AsyncCall X

/-- The steps of the asyncio provider. -/
inductive AsyncLabel
  | execute (i : ι) (operation : RedisOperation)
  | endAction (i : ι) (e : ActionEnd X)
  | aclose (i : ι)
  | cancel (i : ι)
  | cleanup
  | endClient (outcome : ClientClose X)
  | resume (i : ι)

end Async

section AsyncSteps

variable {ι X : Type} [DecidableEq ι]

namespace AsyncProvider

/-- A new provider, not called yet. -/
def start (owned : Bool) : AsyncProvider ι X :=
  ⟨.start owned, fun _ => .idle⟩

/-- A call of the provider moves on. -/
def setCall (s : AsyncProvider ι X) (i : ι) (c : AsyncCall X) : AsyncProvider ι X :=
  { s with calls := Function.update s.calls i c }

/-- `_execute`, up to its action -/
def execute (s : AsyncProvider ι X) (i : ι) (operation : RedisOperation) : AsyncProvider ι X :=
  match s.lifecycle.admitOperation operation i with
  | .ok lifecycle => { s.setCall i (.running operation) with lifecycle := lifecycle }
  | .error e => s.setCall i (.rejected e)

/-- `_execute`, from the end of its action on -/
def endAction (s : AsyncProvider ι X) (i : ι) (operation : RedisOperation) (e : ActionEnd X) :
    AsyncProvider ι X :=
  { s.setCall i (.executed (executeEnd operation e)) with lifecycle := (s.lifecycle.release i).2 }

/-- `aclose`, up to its first await, with `_get_or_create_close_task` -/
def aclose (s : AsyncProvider ι X) (i : ι) : AsyncProvider ι X :=
  match s.lifecycle.provider.state with
  | .closed => s.setCall i (.closed false (.ended .returned))
  | .closing => s.setCall i (.awaiting false)
  | .opened => { s.setCall i (.awaiting false) with lifecycle := s.lifecycle.beginClosing }

/-- What `aclose` makes of the end of the cleanup task. -/
def closeEnd (cancelled : Bool) (e : CloseEnd X) : AsyncCloseEnd X :=
  if cancelled then .cancelled else .ended e

end AsyncProvider

/--
The steps of the asyncio provider.  The lock is never held over an await, so each
section runs in the step of its caller.  A cancellation reaches the shielded await
of a closing call, which goes on waiting.
-/
inductive AsyncStep : AsyncProvider ι X → AsyncLabel ι X → AsyncProvider ι X → Prop
  | execute {s : AsyncProvider ι X} {i : ι} {operation : RedisOperation} :
      s.calls i = .idle →
      AsyncStep s (.execute i operation) (s.execute i operation)
  | endAction {s : AsyncProvider ι X} {i : ι} {operation : RedisOperation} {e : ActionEnd X} :
      s.calls i = .running operation →
      AsyncStep s (.endAction i e) (s.endAction i operation e)
  | aclose {s : AsyncProvider ι X} {i : ι} :
      s.calls i = .idle →
      AsyncStep s (.aclose i) (s.aclose i)
  | cancel {s : AsyncProvider ι X} {i : ι} {cancelled : Bool} :
      s.calls i = .awaiting cancelled →
      AsyncStep s (.cancel i) (s.setCall i (.awaiting true))
  | cleanup {s : AsyncProvider ι X} :
      s.lifecycle.closing = .created ∨ s.lifecycle.closing = .draining false →
      AsyncStep s .cleanup { s with lifecycle := s.lifecycle.drain.afterDrain }
  | endClient {s : AsyncProvider ι X} {outcome : ClientClose X} :
      s.lifecycle.closing = .clientClosing →
      AsyncStep s (.endClient outcome) { s with lifecycle := s.lifecycle.endClient outcome }
  | resume {s : AsyncProvider ι X} {i : ι} {cancelled : Bool} {e : CloseEnd X} :
      s.calls i = .awaiting cancelled →
      s.lifecycle.closing = .finished e →
      AsyncStep s (.resume i) (s.setCall i (.closed true (AsyncProvider.closeEnd cancelled e)))

end AsyncSteps

end CacheRedis
end Bluetape
