/- GID: Sre/Plugin/Lifecycle
   digest: The plugin supervisor as a transition system, and what its critical sections do. -/

import Mathlib.Logic.Function.Basic
import Sre.Foundation.System

set_option autoImplicit false

namespace Sre.Plugin

open Foundation Function

inductive ProcessSupervisorState where
  | new
  | starting
  | running
  | stopping
  | stopped
  | closed
  deriving DecidableEq

/-- Why a context is done. -/
inductive Cause where
  | canceled
  | deadlineExceeded
  deriving DecidableEq

inductive StartError where
  | closed
  | started
  | command
  | client
  | start (cause : Option Cause)
  | health (cause : Option Cause)
  | notReady
  | exited

/-- `errors.Is(err, context.Canceled)`. -/
def StartError.canceled : StartError → Bool
  | .start cause | .health cause => cause = some .canceled
  | _ => false

/-- The fields under the lock. Channels have numbers; a run and the function that cancels a
start are known by the number of the call of `Start` they belong to. -/
structure ProcessSupervisor where
  state : ProcessSupervisorState
  operationDone : Option ℕ
  startCancel : Option ℕ
  stopRequested : Bool
  run : Option ℕ

/-- The stages of `cleanupProcess`. -/
inductive Cleanup where
  | cancel
  | close
  | kill
  | wait

/-- Where a call of `Start` is. The operation that it began has the channel `op`. -/
inductive StartCall where
  | idle
  | rejected (error : StartError)
  | registered (op : ℕ)
  | launching (op : ℕ)
  | connected (op : ℕ)
  | spawned (op : ℕ)
  | refused (op : ℕ) (error : StartError)
  | probed (op : ℕ) (error : Option StartError)
  | cleaning (op : ℕ) (stage : Cleanup) (error : StartError)
  | leaving (op : ℕ) (error : StartError)
  | returned (error : Option StartError)

/-- The stages of `stopProcess`. -/
inductive Halt where
  | close
  | look
  | signal
  | wait
  | kill
  | killed
  | done

/-- Where a call of `Stop` is, or one of `Close`, which calls `Stop` first. -/
inductive StopCall where
  | idle
  | signalling (target op : Option ℕ) (closing : Bool)
  | waiting (op : Option ℕ) (bounded closing : Bool)
  | stopping (run op : ℕ) (stage : Halt) (closing : Bool)
  | closing
  | returned

/-- The part of a call of `Close` after its call of `Stop`. -/
def StopCall.after : Bool → StopCall
  | true => .closing
  | false => .returned

inductive Child where
  | none
  | running
  | killed
  | exited
  deriving DecidableEq

inductive ClientState where
  | none
  | opened
  | closed

/-- The supervisor with its callers, and for each call of `Start` its startup context, its
child process and its client; how many channels there are, and how often each was closed. -/
structure World where
  supervisor : ProcessSupervisor
  starts : ℕ → StartCall
  stops : ℕ → StopCall
  contexts : ℕ → Option Cause
  children : ℕ → Child
  clients : ℕ → ClientState
  channels : ℕ
  closes : ℕ → ℕ

inductive Act where
  | start (i : ℕ)
  | prepare (i : ℕ)
  | connect (i : ℕ)
  | abort (i : ℕ)
  | spawn (i : ℕ)
  | probe (i : ℕ)
  | succeed (i : ℕ)
  | fail (i : ℕ)
  | clean (i : ℕ)
  | leave (i : ℕ)
  | begin_ (j : ℕ) (closing : Bool)
  | signal (j : ℕ)
  | resume (j : ℕ)
  | halt (j : ℕ)
  | settle (j : ℕ)
  | shut (j : ℕ)
  | client (result : Option ℕ)
  | expire (i : ℕ)
  | exit (i : ℕ)
  | die (i : ℕ)

namespace ProcessSupervisor

/-- `Start` at its first lock section. -/
def enter (s : ProcessSupervisor) : Except StartError Unit :=
  match s.state with
  | .closed => .error .closed
  | .starting | .running | .stopping | .stopped => .error .started
  | .new => .ok ()

/-- The error that `finishStart` goes on with, none where it publishes the run. -/
def finishError (s : ProcessSupervisor) (err : Option StartError) : Option StartError :=
  let err :=
    if s.state = .starting ∧ s.stopRequested = true ∧ err.any StartError.canceled = false then
      some (.start (some .canceled))
    else err
  match err with
  | some e => some e
  | none =>
    if s.state = .starting ∧ s.stopRequested = false then none
    else if s.state = .closed then some .closed
    else some (.start (some .canceled))

/-- `finishStart` publishes the run. -/
def succeeded (s : ProcessSupervisor) (i : ℕ) : ProcessSupervisor :=
  { s with state := .running, run := some i, startCancel := none, operationDone := none }

/-- The state after an operation, which never undoes a close. -/
def settled (s : ProcessSupervisor) : ProcessSupervisorState :=
  if s.state ≠ .closed then .stopped else .closed

/-- `finishStart` at its second lock section. -/
def failed (s : ProcessSupervisor) (op : ℕ) : ProcessSupervisor where
  state := s.settled
  operationDone := if s.operationDone = some op then none else s.operationDone
  startCancel := none
  stopRequested := false
  run := none

/-- `Stop` at its second lock section. -/
def halted (s : ProcessSupervisor) (op : ℕ) : ProcessSupervisor :=
  if s.operationDone = some op then
    { s with state := s.settled, run := none, operationDone := none }
  else s

def Client (s : ProcessSupervisor) : Option ℕ := if s.state ≠ .running then none else s.run

end ProcessSupervisor

namespace World

def setStart (w : World) (i : ℕ) (call : StartCall) : World :=
  { w with starts := update w.starts i call }

def setStop (w : World) (j : ℕ) (call : StopCall) : World :=
  { w with stops := update w.stops j call }

def setChild (w : World) (i : ℕ) (child : Child) : World :=
  { w with children := update w.children i child }

def setClient (w : World) (i : ℕ) (client : ClientState) : World :=
  { w with clients := update w.clients i client }

/-- A context that is done stays as it is. -/
def cancel (w : World) (i : ℕ) : World :=
  { w with contexts := update w.contexts i ((w.contexts i).or (some .canceled)) }

/-- A channel is closed if the lock section still finds it in place. -/
def close (w : World) (op : ℕ) : World :=
  if w.supervisor.operationDone = some op then
    { w with closes := update w.closes op (w.closes op + 1) }
  else w

/-- A child that was killed runs no further. -/
def kill (w : World) (i : ℕ) : World :=
  if w.children i = .exited then w else w.setChild i .killed

end World

/-- What `startProcess` may report of a child that it started. -/
def World.reports (w : World) (i : ℕ) : Option StartError → Bool
  | none => w.children i ≠ .exited
  | some .exited => w.children i = .exited
  | some (.start cause) => cause.isSome && w.contexts i = cause
  | some (.health _) | some .notReady => true
  | some .closed | some .started | some .command | some .client => false

/-- Why `startProcess` may give up between the client and the child. -/
def World.aborts (w : World) (i : ℕ) : StartError → Bool
  | .command => true
  | .start cause => cause.isNone || w.contexts i = cause
  | _ => false

/-- One step of a caller, of a child, or of the clock. A call takes a step at each of its lock
sections and wherever it does something that others see. -/
inductive Step : World → Act → World → Prop
  | reject {w : World} {i : ℕ} {e : StartError} (idle : w.starts i = .idle)
      (error : w.supervisor.enter = .error e) : Step w (.start i) (w.setStart i (.rejected e))
  | enter {w : World} {i : ℕ} (idle : w.starts i = .idle) (ok : w.supervisor.enter = .ok ()) :
      Step w (.start i) ({ w with
        supervisor :=
          { w.supervisor with state := .starting, operationDone := some w.channels }
        channels := w.channels + 1 }.setStart i (.registered w.channels))
  | withdraw {w : World} {i op : ℕ} {cause : Option Cause} (at_ : w.starts i = .registered op)
      (gone : w.supervisor.state ≠ .starting ∨ w.supervisor.stopRequested = true)
      (done : (w.cancel i).contexts i = cause) :
      Step w (.prepare i) ((w.cancel i).setStart i (.refused op (.start cause)))
  | prepare {w : World} {i op : ℕ} (at_ : w.starts i = .registered op)
      (here : w.supervisor.state = .starting ∧ w.supervisor.stopRequested = false) :
      Step w (.prepare i) ({ w with
        supervisor := { w.supervisor with startCancel := some i } }.setStart i (.launching op))
  | late {w : World} {i op : ℕ} {cause : Cause} (at_ : w.starts i = .launching op)
      (done : w.contexts i = some cause) :
      Step w (.connect i) (w.setStart i (.refused op (.start (some cause))))
  | refuse {w : World} {i op : ℕ} (at_ : w.starts i = .launching op)
      (time : w.contexts i = none) :
      Step w (.connect i) (w.setStart i (.refused op .client))
  | connect {w : World} {i op : ℕ} (at_ : w.starts i = .launching op)
      (time : w.contexts i = none) :
      Step w (.connect i) ((w.setClient i .opened).setStart i (.connected op))
  | abort {w : World} {i op : ℕ} {e : StartError} (at_ : w.starts i = .connected op)
      (reason : w.aborts i e = true) :
      Step w (.abort i) ((w.setClient i .closed).setStart i (.refused op e))
  -- the context may end after it was looked at
  | spawn {w : World} {i op : ℕ} (at_ : w.starts i = .connected op) :
      Step w (.spawn i) ((w.setChild i .running).setStart i (.spawned op))
  | probe {w : World} {i op : ℕ} {e : Option StartError} (at_ : w.starts i = .spawned op)
      (report : w.reports i e = true) : Step w (.probe i) (w.setStart i (.probed op e))
  | succeed {w : World} {i op : ℕ} {e : Option StartError} (at_ : w.starts i = .probed op e)
      (ok : w.supervisor.finishError e = none) :
      Step w (.succeed i) ({ w with
        supervisor := w.supervisor.succeeded i
        closes := update w.closes op (w.closes op + 1) }.setStart i (.returned none))
  | fail {w : World} {i op : ℕ} {e : Option StartError} {e' : StartError}
      (at_ : w.starts i = .probed op e) (error : w.supervisor.finishError e = some e') :
      Step w (.fail i) (w.setStart i (.cleaning op .cancel e'))
  | failBare {w : World} {i op : ℕ} {e e' : StartError} (at_ : w.starts i = .refused op e)
      (error : w.supervisor.finishError (some e) = some e') :
      Step w (.fail i) (w.setStart i (.leaving op e'))
  | cleanCancel {w : World} {i op : ℕ} {e : StartError}
      (at_ : w.starts i = .cleaning op .cancel e) :
      Step w (.clean i) ((w.cancel i).setStart i (.cleaning op .close e))
  | cleanClose {w : World} {i op : ℕ} {e : StartError}
      (at_ : w.starts i = .cleaning op .close e) :
      Step w (.clean i) ((w.setClient i .closed).setStart i (.cleaning op .kill e))
  | cleanKill {w : World} {i op : ℕ} {e : StartError}
      (at_ : w.starts i = .cleaning op .kill e) :
      Step w (.clean i) ((w.kill i).setStart i (.cleaning op .wait e))
  -- a killed child exits within the time that `cleanupProcess` waits for it
  | cleanWait {w : World} {i op : ℕ} {e : StartError}
      (at_ : w.starts i = .cleaning op .wait e) (gone : w.children i = .exited) :
      Step w (.clean i) (w.setStart i (.leaving op e))
  | leave {w : World} {i op : ℕ} {e : StartError} (at_ : w.starts i = .leaving op e) :
      Step w (.leave i) ({ w.close op with
        supervisor := w.supervisor.failed op }.setStart i (.returned (some e)))
  | pass {w : World} {j : ℕ} {closing : Bool} (idle : w.stops j = .idle)
      (nothing : w.supervisor.state = .new ∨ w.supervisor.state = .stopped ∨
        w.supervisor.state = .closed) :
      Step w (.begin_ j closing) (w.setStop j (.after closing))
  | request {w : World} {j : ℕ} {closing : Bool} (idle : w.stops j = .idle)
      (starting : w.supervisor.state = .starting) :
      Step w (.begin_ j closing) ({ w with
        supervisor := { w.supervisor with stopRequested := true } }.setStop j
          (.signalling w.supervisor.startCancel w.supervisor.operationDone closing))
  | join {w : World} {j : ℕ} {closing : Bool} (idle : w.stops j = .idle)
      (stopping : w.supervisor.state = .stopping) :
      -- the context of `Close` is never done
      Step w (.begin_ j closing)
        (w.setStop j (.waiting w.supervisor.operationDone (!closing) closing))
  | stop {w : World} {j i : ℕ} {closing : Bool} (idle : w.stops j = .idle)
      (running : w.supervisor.state = .running) (run : w.supervisor.run = some i) :
      Step w (.begin_ j closing) ({ w with
        supervisor :=
          { w.supervisor with state := .stopping, operationDone := some w.channels }
        channels := w.channels + 1 }.setStop j (.stopping i w.channels .close closing))
  | stopBare {w : World} {j : ℕ} {closing : Bool} (idle : w.stops j = .idle)
      (running : w.supervisor.state = .running) (run : w.supervisor.run = none) :
      Step w (.begin_ j closing) ({ w with
        supervisor :=
          { w.supervisor with state := .stopping, operationDone := some w.channels }
        channels := w.channels + 1 }.setStop j (.stopping 0 w.channels .done closing))
  | signal {w : World} {j i : ℕ} {op : Option ℕ} {closing : Bool}
      (at_ : w.stops j = .signalling (some i) op closing) :
      Step w (.signal j) ((w.cancel i).setStop j (.waiting op true closing))
  | signalNone {w : World} {j : ℕ} {op : Option ℕ} {closing : Bool}
      (at_ : w.stops j = .signalling none op closing) :
      Step w (.signal j) (w.setStop j (.waiting op true closing))
  | resume {w : World} {j : ℕ} {op : Option ℕ} {bounded closing : Bool}
      (at_ : w.stops j = .waiting op bounded closing)
      (over_ : bounded = true ∨ op.all (fun op => decide (0 < w.closes op)) = true) :
      Step w (.resume j) (w.setStop j (.after closing))
  | haltClose {w : World} {j i op : ℕ} {closing : Bool}
      (at_ : w.stops j = .stopping i op .close closing) :
      Step w (.halt j) ((w.setClient i .closed).setStop j (.stopping i op .look closing))
  | haltLook {w : World} {j i op : ℕ} {closing : Bool}
      (at_ : w.stops j = .stopping i op .look closing) :
      Step w (.halt j) (w.setStop j
        (.stopping i op (if w.children i = .exited then .done else .signal) closing))
  | haltSignal {w : World} {j i op : ℕ} {closing : Bool}
      (at_ : w.stops j = .stopping i op .signal closing) :
      Step w (.halt j) (w.setStop j (.stopping i op .wait closing))
  -- a child that cannot be interrupted is killed
  | haltFailed {w : World} {j i op : ℕ} {closing : Bool}
      (at_ : w.stops j = .stopping i op .signal closing) :
      Step w (.halt j) ((w.kill i).setStop j (.stopping i op .wait closing))
  | haltGone {w : World} {j i op : ℕ} {closing : Bool}
      (at_ : w.stops j = .stopping i op .wait closing) (gone : w.children i = .exited) :
      Step w (.halt j) (w.setStop j (.stopping i op .done closing))
  | haltLate {w : World} {j i op : ℕ} {closing : Bool}
      (at_ : w.stops j = .stopping i op .wait closing) :
      Step w (.halt j) (w.setStop j (.stopping i op .kill closing))
  | haltKill {w : World} {j i op : ℕ} {closing : Bool}
      (at_ : w.stops j = .stopping i op .kill closing) :
      Step w (.halt j) ((w.kill i).setStop j (.stopping i op .killed closing))
  -- as in `cleanWait`
  | haltKilled {w : World} {j i op : ℕ} {closing : Bool}
      (at_ : w.stops j = .stopping i op .killed closing) (gone : w.children i = .exited) :
      Step w (.halt j) (w.setStop j (.stopping i op .done closing))
  | settle {w : World} {j i op : ℕ} {closing : Bool}
      (at_ : w.stops j = .stopping i op .done closing) :
      Step w (.settle j) ({ w.close op with
        supervisor := w.supervisor.halted op }.setStop j (.after closing))
  | shut {w : World} {j : ℕ} (at_ : w.stops j = .closing) :
      Step w (.shut j) ({ w with
        supervisor := { w.supervisor with state := .closed } }.setStop j .returned)
  | client {w : World} : Step w (.client w.supervisor.Client) w
  | expire {w : World} {i : ℕ} {cause : Cause} (time : w.contexts i = none) :
      Step w (.expire i) { w with contexts := update w.contexts i (some cause) }
  | exit {w : World} {i : ℕ} (alive : w.children i = .running) :
      Step w (.exit i) (w.setChild i .exited)
  | die {w : World} {i : ℕ} (killed : w.children i = .killed) :
      Step w (.die i) (w.setChild i .exited)

def supervisorSystem : System World Act where
  init w := w = ⟨⟨.new, none, none, false, none⟩, fun _ => .idle, fun _ => .idle, fun _ => none,
    fun _ => .none, fun _ => .none, 0, fun _ => 0⟩
  step := Step

open ProcessSupervisor

section Operations

/-- The channel of the operation that a call is in. -/
def StartCall.operation : StartCall → Option ℕ
  | .registered op | .launching op | .connected op | .spawned op | .refused op _ | .probed op _
  | .cleaning op _ _ | .leaving op _ => some op
  | .idle | .rejected _ | .returned _ => none

def StopCall.operation : StopCall → Option ℕ
  | .stopping _ op _ _ => some op
  | .idle | .signalling _ _ _ | .waiting _ _ _ | .closing | .returned => none

/-- The call was not turned away at the first lock section. -/
def StartCall.entered : StartCall → Bool
  | .idle | .rejected _ => false
  | _ => true

inductive Owner where
  | start (i : ℕ)
  | stop (j : ℕ)
  deriving DecidableEq

/-- What the operations of a supervisor depend on. -/
@[ext] structure View where
  state : ProcessSupervisorState
  operationDone : Option ℕ
  operation : Owner → Option ℕ
  entered : ℕ → Bool
  channels : ℕ
  closes : ℕ → ℕ

def World.operation (w : World) : Owner → Option ℕ
  | .start i => (w.starts i).operation
  | .stop j => (w.stops j).operation

def World.view (w : World) : View where
  state := w.supervisor.state
  operationDone := w.supervisor.operationDone
  operation := w.operation
  entered i := (w.starts i).entered
  channels := w.channels
  closes := w.closes

/-- Operations in the abstract: one begins where none is, takes a new channel, and closes it
when it ends. -/
inductive ViewStep : View → View → Prop
  | silent (v : View) : ViewStep v v
  | enter {v : View} (i : ℕ) (new : v.state = .new) :
      ViewStep v { v with
        state := .starting
        operationDone := some v.channels
        operation := update v.operation (.start i) (some v.channels)
        entered := update v.entered i true
        channels := v.channels + 1 }
  | stop {v : View} (j : ℕ) (running : v.state = .running) :
      ViewStep v { v with
        state := .stopping
        operationDone := some v.channels
        operation := update v.operation (.stop j) (some v.channels)
        channels := v.channels + 1 }
  | succeed {v : View} {i op : ℕ} (at_ : v.operation (.start i) = some op)
      (starting : v.state = .starting) :
      ViewStep v { v with
        state := .running
        operationDone := none
        operation := update v.operation (.start i) none
        closes := update v.closes op (v.closes op + 1) }
  | finish {v : View} {c : Owner} {op : ℕ} (at_ : v.operation c = some op) :
      ViewStep v { v with
        state := if v.state ≠ .closed then .stopped else .closed
        operationDone := none
        operation := update v.operation c none
        closes := update v.closes op (v.closes op + 1) }
  | shut (v : View) : ViewStep v { v with state := .closed }

/-- Operations do not overlap, and every channel is closed once, when its operation ends. -/
structure View.Exclusive (v : View) : Prop where
  holder : ∀ c op, v.operation c = some op → v.operationDone = some op
  held : ∀ op, v.operationDone = some op → ∃ c, v.operation c = some op
  single : ∀ c c' op op', v.operation c = some op → v.operation c' = some op' → c = c'
  pending : ∀ op, v.operationDone = some op → op < v.channels ∧ v.closes op = 0
  ended : ∀ op, op < v.channels → v.operationDone ≠ some op → v.closes op = 1
  unused : ∀ op, v.channels ≤ op → v.closes op = 0

/-- The state says which kind of operation there is, and one call enters. -/
structure View.Orderly (v : View) : Prop extends v.Exclusive where
  starts : ∀ i op, v.operation (.start i) = some op → v.state = .starting ∨ v.state = .closed
  stops : ∀ j op, v.operation (.stop j) = some op → v.state = .stopping ∨ v.state = .closed
  starting : v.state = .starting → ∃ i op, v.operation (.start i) = some op
  stopping : v.state = .stopping → ∃ j op, v.operation (.stop j) = some op
  alone : ∀ i i', v.entered i = true → v.entered i' = true → i = i'
  new : v.state = .new → ∀ i, v.entered i = false

variable {v v' : View}

theorem View.Orderly.idle (orderly : v.Orderly)
    (still : v.state = .new ∨ v.state = .running ∨ v.state = .stopped) (c : Owner) :
    v.operation c = none := by
  cases at_ : v.operation c with
  | none => rfl
  | some op =>
    cases c with
    | start i => rcases orderly.starts i op at_ with state | state <;> simp [state] at still
    | stop j => rcases orderly.stops j op at_ with state | state <;> simp [state] at still

section

variable (exclusive : v.Exclusive)
include exclusive

theorem View.Exclusive.free (idle : ∀ c, v.operation c = none) : v.operationDone = none := by
  cases done : v.operationDone with
  | none => rfl
  | some op =>
    obtain ⟨c, at_⟩ := exclusive.held op done
    rw [idle c] at at_
    cases at_

theorem View.Exclusive.begin_ (idle : ∀ c, v.operation c = none)
    (c : Owner) (state : ProcessSupervisorState) (entered : ℕ → Bool) :
    View.Exclusive { v with
      state := state
      operationDone := some v.channels
      operation := update v.operation c (some v.channels)
      entered := entered
      channels := v.channels + 1 } := by
  have free := exclusive.free idle
  have only : ∀ c' op, update v.operation c (some v.channels) c' = some op →
      c' = c ∧ op = v.channels := by
    intro c' op at_
    by_cases here : c' = c
    · subst here
      rw [update_self] at at_
      exact ⟨rfl, (Option.some.inj at_).symm⟩
    · rw [update_of_ne here, idle c'] at at_
      cases at_
  constructor
  · intro c' op at_
    rw [(only c' op at_).2]
  · intro op done
    exact ⟨c, (update_self ..).trans done⟩
  · intro c₁ c₂ op₁ op₂ first second
    rw [(only c₁ op₁ first).1, (only c₂ op₂ second).1]
  · intro op done
    obtain rfl := Option.some.inj done
    exact ⟨Nat.lt_succ_self _, exclusive.unused _ le_rfl⟩
  · intro op bound other
    have earlier : op < v.channels := by
      have apart : op ≠ v.channels := fun same => other (by rw [same])
      have : op < v.channels + 1 := bound
      omega
    exact exclusive.ended op earlier (by simp [free])
  · intro op bound
    exact exclusive.unused op (Nat.le_of_succ_le bound)

theorem View.Exclusive.nothing {c : Owner} {op : ℕ} (at_ : v.operation c = some op) (c' : Owner) :
    update v.operation c none c' = none := by
  by_cases here : c' = c
  · rw [here, update_self]
  · rw [update_of_ne here]
    cases other : v.operation c' with
    | none => rfl
    | some op' => exact (here (exclusive.single c' c op' op other at_)).elim

theorem View.Exclusive.finish {c : Owner} {op : ℕ}
    (at_ : v.operation c = some op) (state : ProcessSupervisorState) :
    View.Exclusive { v with
      state := state
      operationDone := none
      operation := update v.operation c none
      closes := update v.closes op (v.closes op + 1) } := by
  have place := exclusive.holder c op at_
  obtain ⟨bound, zero⟩ := exclusive.pending op place
  have nothing := exclusive.nothing at_
  constructor
  · intro c' op' other
    cases (nothing c').symm.trans other
  · intro op' done
    cases done
  · intro c₁ c₂ op₁ op₂ first
    cases (nothing c₁).symm.trans first
  · intro op' done
    cases done
  · intro op' bound' _
    by_cases here : op' = op
    · subst here
      dsimp only
      rw [update_self, zero]
    · dsimp only
      rw [update_of_ne here]
      refine exclusive.ended op' bound' ?_
      rw [place]
      exact fun same => here (Option.some.inj same).symm
  · intro op' beyond
    have apart : op' ≠ op := by
      have : v.channels ≤ op' := beyond
      omega
    dsimp only
    rw [update_of_ne apart]
    exact exclusive.unused op' beyond

end

theorem ViewStep.orderly (step : ViewStep v v') (orderly : v.Orderly) : v'.Orderly := by
  cases step with
  | silent => exact orderly
  | enter i new =>
    have idle := orderly.idle (Or.inl new)
    refine ⟨orderly.begin_ idle (.start i) _ _, fun _ _ _ => Or.inl rfl, ?_, ?_, ?_, ?_, ?_⟩
    · grind
    · intro _
      exact ⟨i, v.channels, update_self ..⟩
    · intro stopping
      cases stopping
    · intro i₁ i₂ first second
      have only : ∀ i', update v.entered i true i' = true → i' = i := by
        intro i' here
        by_contra apart
        rw [update_of_ne apart, orderly.new new i'] at here
        cases here
      rw [only i₁ first, only i₂ second]
    · intro new
      cases new
  | stop j running =>
    have idle := orderly.idle (Or.inr (Or.inl running))
    refine ⟨orderly.begin_ idle (.stop j) _ _, ?_, fun _ _ _ => Or.inl rfl, ?_, ?_,
      orderly.alone, ?_⟩
    · grind
    · intro starting
      cases starting
    · intro _
      exact ⟨j, v.channels, update_self ..⟩
    · intro new
      cases new
  | succeed at_ starting =>
    have nothing := orderly.nothing at_
    refine ⟨orderly.finish at_ .running, ?_, ?_, ?_, ?_, orderly.alone, ?_⟩
    · intro i op other
      cases (nothing (.start i)).symm.trans other
    · intro j op other
      cases (nothing (.stop j)).symm.trans other
    · intro starting
      cases starting
    · intro stopping
      cases stopping
    · intro new
      cases new
  | finish at_ =>
    have nothing := orderly.nothing at_
    have settled : ∀ s, (if v.state ≠ .closed then ProcessSupervisorState.stopped
        else .closed) = s → s = .stopped ∨ s = .closed := by
      grind
    refine ⟨orderly.finish at_ _, ?_, ?_, ?_, ?_, orderly.alone, ?_⟩
    · intro i op other
      cases (nothing (.start i)).symm.trans other
    · intro j op other
      cases (nothing (.stop j)).symm.trans other
    · grind
    · grind
    · intro new
      rcases settled _ new with state | state <;> cases state
  | shut =>
    refine ⟨⟨orderly.holder, orderly.held, orderly.single, orderly.pending, orderly.ended,
      orderly.unused⟩, fun _ _ _ => Or.inr rfl, fun _ _ _ => Or.inr rfl, ?_, ?_,
      orderly.alone, ?_⟩
    · intro starting
      cases starting
    · intro stopping
      cases stopping
    · intro new
      cases new

theorem ViewStep.ends {c : Owner} {op : ℕ} (step : ViewStep v v') (orderly : v.Orderly)
    (at_ : v.operation c = some op) :
    v'.operation c = some op ∨ v'.operation c = none ∧ v'.closes op = 1 := by
  have zero := (orderly.pending op (orderly.holder c op at_)).2
  have last {c' : Owner} {op' : ℕ} (other : v.operation c' = some op') :
      update v.operation c' none c = none ∧ update v.closes op' (v.closes op' + 1) op = 1 := by
    obtain rfl := orderly.single c' c op' op other at_
    grind
  cases step with
  | silent | shut => exact Or.inl at_
  | enter _ new => simp [orderly.idle (Or.inl new) c] at at_
  | stop _ running => simp [orderly.idle (Or.inr (Or.inl running)) c] at at_
  | succeed other | finish other => exact Or.inr (last other)

end Operations

section Simulation

variable {w w' : World} {a : Act} {i j : ℕ}

private theorem setStart_view (w : World) (i : ℕ) (call : StartCall) :
    (w.setStart i call).view = { w.view with
      operation := update w.operation (.start i) call.operation
      entered := update w.view.entered i call.entered } := by
  have operation : (w.setStart i call).operation =
      update w.operation (.start i) call.operation := by
    funext c
    cases c with
    | start i' =>
      by_cases here : i' = i
      · subst here
        rw [update_self]
        exact congrArg StartCall.operation (update_self ..)
      · rw [update_of_ne (by simpa using here)]
        exact congrArg StartCall.operation (update_of_ne here ..)
    | stop j' =>
      rw [update_of_ne (by simp)]
      rfl
  have entered : (fun i' => ((w.setStart i call).starts i').entered) =
      update w.view.entered i call.entered := by
    funext i'
    by_cases here : i' = i
    · subst here
      rw [update_self]
      exact congrArg StartCall.entered (update_self ..)
    · rw [update_of_ne here]
      exact congrArg StartCall.entered (update_of_ne here ..)
  unfold World.view at entered ⊢
  rw [operation, entered]
  rfl

private theorem setStop_view (w : World) (j : ℕ) (call : StopCall) :
    (w.setStop j call).view = { w.view with
      operation := update w.operation (.stop j) call.operation } := by
  have operation : (w.setStop j call).operation = update w.operation (.stop j) call.operation := by
    funext c
    cases c with
    | start i' =>
      rw [update_of_ne (by simp)]
      rfl
    | stop j' =>
      by_cases here : j' = j
      · subst here
        rw [update_self]
        exact congrArg StopCall.operation (update_self ..)
      · rw [update_of_ne (by simpa using here)]
        exact congrArg StopCall.operation (update_of_ne here ..)
  unfold World.view
  rw [operation]
  rfl

private theorem setStart_silent {call : StartCall}
    (operation : call.operation = (w.starts i).operation)
    (entered : call.entered = (w.starts i).entered) : (w.setStart i call).view = w.view := by
  have first : update w.operation (.start i) call.operation = w.operation := by
    rw [operation]
    exact update_eq_self ..
  have second : update w.view.entered i call.entered = w.view.entered := by
    rw [entered]
    exact update_eq_self ..
  rw [setStart_view, first, second]
  rfl

private theorem setStop_silent {call : StopCall}
    (operation : call.operation = (w.stops j).operation) : (w.setStop j call).view = w.view := by
  have same : update w.operation (.stop j) call.operation = w.operation := by
    rw [operation]
    exact update_eq_self ..
  rw [setStop_view, same]
  rfl

private theorem kill_view : (w.kill i).view = w.view ∧ (w.kill i).starts = w.starts ∧
    (w.kill i).stops = w.stops := by
  unfold World.kill
  split
  · exact ⟨rfl, rfl, rfl⟩
  · exact ⟨rfl, rfl, rfl⟩

@[simp] theorem after_operation (closing : Bool) : (StopCall.after closing).operation = none := by
  cases closing
  · rfl
  · rfl

private theorem ViewStep.startMoves {u : World} {before call : StartCall} (same : u.view = w.view)
    (at_ : u.starts i = before) (operation : call.operation = before.operation)
    (entered : call.entered = before.entered) : ViewStep w.view (u.setStart i call).view := by
  rw [setStart_silent (by rw [at_, operation]) (by rw [at_, entered]), same]
  exact .silent _

private theorem ViewStep.stopMoves {u : World} {before call : StopCall} (same : u.view = w.view)
    (at_ : u.stops j = before) (operation : call.operation = before.operation) :
    ViewStep w.view (u.setStop j call).view := by
  rw [setStop_silent (by rw [at_, operation]), same]
  exact .silent _

theorem ProcessSupervisor.enter_ok {s : ProcessSupervisor} (ok : s.enter = .ok ()) :
    s.state = .new := by
  grind [enter]

theorem ProcessSupervisor.finishError_none {s : ProcessSupervisor} {e : Option StartError}
    (ok : s.finishError e = none) : s.state = .starting ∧ s.stopRequested = false := by
  grind [finishError]

private theorem ViewStep.target {v u u' : View} (step : ViewStep v u) (state : u'.state = u.state)
    (done : u'.operationDone = u.operationDone) (operation : u'.operation = u.operation)
    (entered : u'.entered = u.entered) (channels : u'.channels = u.channels)
    (closes : u'.closes = u.closes) : ViewStep v u' := by
  rw [View.ext state done operation entered channels closes]
  exact step

private theorem update_entered (here : (w.starts i).entered = true) :
    update w.view.entered i true = w.view.entered := by
  rw [← show w.view.entered i = true from here]
  exact update_eq_self ..

theorem Step.view (step : Step w a w') (orderly : w.view.Orderly) : ViewStep w.view w'.view := by
  cases step with
  | reject idle => exact .startMoves rfl idle rfl rfl
  | enter idle ok =>
    rw [setStart_view]
    exact .enter _ (enter_ok ok)
  | withdraw at_ | prepare at_ | late at_ | refuse at_ | connect at_ | abort at_ | spawn at_
  | probe at_ | fail at_ | failBare at_ | cleanCancel at_ | cleanClose at_ | cleanWait at_ =>
    exact .startMoves rfl at_ rfl rfl
  | cleanKill at_ =>
    obtain ⟨same, starts, -⟩ := kill_view
    exact .startMoves same ((congrFun starts _).trans at_) rfl rfl
  | @succeed i op e at_ ok =>
    have operation : w.view.operation (.start i) = some op := congrArg StartCall.operation at_
    have entered := update_entered (w := w) (congrArg StartCall.entered at_)
    rw [setStart_view]
    have step := ViewStep.succeed operation (finishError_none ok).1
    rw [← entered] at step
    exact step
  | @leave i op e at_ =>
    have operation : w.view.operation (.start i) = some op := congrArg StartCall.operation at_
    have entered := update_entered (w := w) (congrArg StartCall.entered at_)
    have place : w.supervisor.operationDone = some op := orderly.holder _ _ operation
    have closed : w.close op = { w with
      closes := update w.closes op (w.closes op + 1) } := if_pos place
    have done : (w.supervisor.failed op).operationDone = none := if_pos place
    have step := ViewStep.finish operation
    rw [closed, setStart_view]
    exact step.target rfl done rfl entered rfl rfl
  | pass idle => exact .stopMoves rfl idle (after_operation _)
  | request idle | join idle => exact .stopMoves rfl idle rfl
  | stop idle running | stopBare idle running =>
    rw [setStop_view]
    exact .stop _ running
  | signal at_ | signalNone at_ | haltClose at_ | haltLook at_ | haltSignal at_ | haltGone at_
  | haltLate at_ | haltKilled at_ => exact .stopMoves rfl at_ rfl
  | resume at_ => exact .stopMoves rfl at_ (after_operation _)
  | haltFailed at_ | haltKill at_ =>
    obtain ⟨same, -, stops⟩ := kill_view
    exact .stopMoves same ((congrFun stops _).trans at_) rfl
  | @settle j i op closing at_ =>
    have operation : w.view.operation (.stop j) = some op := congrArg StopCall.operation at_
    have place : w.supervisor.operationDone = some op := orderly.holder _ _ operation
    have closed : w.close op = { w with
      closes := update w.closes op (w.closes op + 1) } := if_pos place
    have halted : w.supervisor.halted op = { w.supervisor with
      state := w.supervisor.settled, run := none, operationDone := none } := if_pos place
    have step := ViewStep.finish operation
    rw [closed, halted, setStop_view, after_operation]
    exact step
  | @shut j at_ =>
    have same : update w.operation (.stop j) none = w.operation := by
      rw [← show w.operation (.stop j) = none from congrArg StopCall.operation at_]
      exact update_eq_self ..
    rw [setStop_view]
    exact (ViewStep.shut w.view).target rfl rfl same rfl rfl rfl
  | client | expire | exit | die => exact .silent _

end Simulation

section Sections

/-- The call begins to stop the supervisor, or closes it. -/
def Act.begins : Act → Bool
  | .begin_ _ _ | .shut _ => true
  | _ => false

def Act.succeeds : Act → Bool
  | .succeed _ => true
  | _ => false

/-- What a lock section can do to the supervisor. -/
inductive Section : ProcessSupervisor → Act → ProcessSupervisor → Prop
  | none {s : ProcessSupervisor} {a : Act} (other : a.begins = false)
      (quiet : a.succeeds = false) : Section s a s
  | pass {s : ProcessSupervisor} {a : Act} (still : s.state ≠ .running)
      (alone : s.state ≠ .starting) (quiet : a.succeeds = false) : Section s a s
  | enter {s : ProcessSupervisor} {i op : ℕ} (new : s.state = .new) :
      Section s (.start i) { s with state := .starting, operationDone := some op }
  | prepare {s : ProcessSupervisor} {i : ℕ} :
      Section s (.prepare i) { s with startCancel := some i }
  | succeed {s : ProcessSupervisor} {i : ℕ}
      (ok : s.state = .starting ∧ s.stopRequested = false) :
      Section s (.succeed i) (s.succeeded i)
  | leave {s : ProcessSupervisor} {i op : ℕ} : Section s (.leave i) (s.failed op)
  | request {s : ProcessSupervisor} {j : ℕ} {closing : Bool} (starting : s.state = .starting) :
      Section s (.begin_ j closing) { s with stopRequested := true }
  | stop {s : ProcessSupervisor} {j op : ℕ} {closing : Bool} (running : s.state = .running) :
      Section s (.begin_ j closing) { s with state := .stopping, operationDone := some op }
  | settle {s : ProcessSupervisor} {j op : ℕ} : Section s (.settle j) (s.halted op)
  | shut {s : ProcessSupervisor} {j : ℕ} : Section s (.shut j) { s with state := .closed }

variable {w w' : World} {a : Act} {s s' : ProcessSupervisor} {i : ℕ}

private theorem kill_supervisor : (w.kill i).supervisor = w.supervisor := by
  unfold World.kill
  split
  · rfl
  · rfl

theorem Step.supervisor (step : Step w a w') : Section w.supervisor a w'.supervisor := by
  cases step with
  | enter idle ok => exact .enter (enter_ok ok)
  | prepare => exact .prepare
  | succeed at_ ok => exact .succeed (finishError_none ok)
  | leave => exact .leave
  | pass idle nothing =>
    refine .pass ?_ ?_ rfl
    · rcases nothing with state | state | state <;> simp [state]
    · rcases nothing with state | state | state <;> simp [state]
  | request idle starting => exact .request starting
  | join idle stopping => exact .pass (by simp [stopping]) (by simp [stopping]) rfl
  | stop idle running | stopBare idle running => exact .stop running
  | settle => exact .settle
  | shut => exact .shut
  | cleanKill | haltFailed | haltKill =>
    show Section w.supervisor _ (w.kill _).supervisor
    rw [kill_supervisor]
    exact .none rfl rfl
  | _ => exact .none rfl rfl

theorem Section.closed (step : Section s a s') (closed : s.state = .closed) :
    s'.state = .closed ∧ a.succeeds = false := by
  cases step with
  | none _ quiet | pass _ _ quiet => exact ⟨closed, quiet⟩
  | enter new => simp [closed] at new
  | prepare => exact ⟨closed, rfl⟩
  | succeed ok => simp [closed] at ok
  | leave => exact ⟨by simp [failed, settled, closed], rfl⟩
  | request starting => simp [closed] at starting
  | stop running => simp [closed] at running
  | settle =>
    refine ⟨?_, rfl⟩
    unfold halted
    split
    · simp [settled, closed]
    · exact closed
  | shut => exact ⟨rfl, rfl⟩

private theorem settled_client {run operationDone startCancel : Option ℕ} {requested : Bool} :
    Client ⟨s.settled, operationDone, startCancel, requested, run⟩ = none := by
  unfold Client settled
  split
  · rfl
  · rfl

section

variable (step : Section s a s')
include step

theorem Section.client (client : s'.Client = some i) :
    a = .succeed i ∨ s.Client = some i ∧ a.begins = false := by
  cases step with
  | none other => exact Or.inr ⟨client, other⟩
  | pass still => simp [Client, still] at client
  | enter | stop | shut => cases client
  | prepare => exact Or.inr ⟨client, rfl⟩
  | succeed =>
    cases client
    exact Or.inl rfl
  | leave => cases settled_client.symm.trans client
  | request starting => simp [Client, starting] at client
  | settle =>
    unfold halted at client
    split at client
    · cases settled_client.symm.trans client
    · exact Or.inr ⟨client, rfl⟩

theorem Section.requested (requested : s.stopRequested = true ∨ s.state = .closed) :
    (s'.stopRequested = true ∨ s'.state = .closed) ∨ ∃ i, a = .leave i := by
  rcases requested with requested | closed
  · cases step with
    | succeed ok => simp [requested] at ok
    | leave => exact Or.inr ⟨_, rfl⟩
    | request => exact Or.inl (Or.inl rfl)
    | settle =>
      grind [halted]
    | _ => exact Or.inl (Or.inl requested)
  · exact Or.inl (Or.inr (step.closed closed).1)

theorem Section.begins (begins : a.begins = true)
    (start : s.state = .starting ∨ s.state = .closed) :
    s'.stopRequested = true ∨ s'.state = .closed := by
  cases step with
  | none other => simp [begins] at other
  | pass _ alone => exact Or.inr (start.resolve_left alone)
  | request => exact Or.inl rfl
  | stop running => simp [running] at start
  | shut => exact Or.inr rfl
  | _ => cases begins

theorem Section.run (run : s'.run = some i) : s.run = some i ∨ a = .succeed i := by
  cases step with
  | succeed =>
    cases run
    exact Or.inr rfl
  | leave => cases run
  | settle =>
    unfold halted at run
    split at run
    · cases run
    · exact Or.inl run
  | _ => exact Or.inl run

end

end Sections

end Sre.Plugin
