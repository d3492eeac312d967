/- GID: Sre/Scheduler/Trigger
   digest: The trigger queue under concurrent enqueuers and one consumer. -/

import Sre.Foundation.Assoc
import Sre.Foundation.Sql
import Sre.Foundation.Strings
import Sre.Foundation.System
import Sre.Platform

set_option autoImplicit false

namespace Sre.Scheduler

open Foundation Foundation.Assoc Foundation.Strings List Function Option

/-- The object whose change asks for a scan. -/
structure Trigger where
  resource : Text
  namespace_ : Text
  name : Text
  eventType : Text
  targetResource : Text
  targetNamespace : Text
  targetName : Text
  deriving DecidableEq

namespace Trigger

def normalized (t : Trigger) : Trigger where
  resource := TrimSpace t.resource
  namespace_ := TrimSpace t.namespace_
  name := TrimSpace t.name
  eventType := TrimSpace t.eventType
  targetResource := TrimSpace t.targetResource
  targetNamespace := TrimSpace t.targetNamespace
  targetName := TrimSpace t.targetName

/-- The type of the event is not part of the key, so that an update replaces an older state. -/
def Key (t : Trigger) : Text :=
  let t := t.normalized
  if t.resource.isEmpty then []
  else ToLower (t.resource ++ ['\x00'] ++ t.namespace_ ++ ['\x00'] ++ t.name)

end Trigger

structure TriggerQueueOptions where
  capacity : ℤ
  debounce : Duration

inductive TriggerError where
  | triggerQueueConfiguration

/-- The queue; its channel holds at most one token. -/
structure TriggerQueue where
  pending : List (Text × Trigger)
  capacity : ℕ
  debounce : Duration
  notify : Bool
  dropped : ℕ

def NewTriggerQueue (options : TriggerQueueOptions) : Except TriggerError TriggerQueue :=
  if options.capacity ≤ 0 then .error .triggerQueueConfiguration
  else if options.debounce < 0 then .error .triggerQueueConfiguration
  else .ok ⟨[], options.capacity.toNat, options.debounce, false, 0⟩

/-- Where a call of `Enqueue` is. -/
inductive Call where
  | idle
  | full
  | stored
  | returned (accepted : Bool)
  deriving DecidableEq

namespace TriggerQueue

/-- `Enqueue` up to where it releases the lock. -/
def store (q : TriggerQueue) (trigger : Trigger) : TriggerQueue × Call :=
  let trigger := trigger.normalized
  let key := trigger.Key
  if key.isEmpty then (q, .returned false)
  else if (q.pending.lookup key).isNone ∧ q.capacity ≤ q.pending.length then (q, .full)
  else ({ q with pending := put q.pending key trigger }, .stored)

/-- The counter wraps. -/
def drop (q : TriggerQueue) : TriggerQueue := { q with dropped := (q.dropped + 1) % 2 ^ 64 }

def drain (q : TriggerQueue) : TriggerQueue × List Trigger :=
  ({ q with pending := [] }, Sql.ascending Trigger.Key (q.pending.map Prod.snd))

end TriggerQueue

/-- Where `Run` is: at its select, after it took a token, in its batch between two jobs or
in a job, or past its return. -/
inductive Consumer where
  | waiting
  | debouncing
  | batch (rest : List Trigger)
  | working (rest : List Trigger)
  | returned
  deriving DecidableEq

/-- The queue, its callers by number, its consumer, and the context of the consumer. -/
structure World where
  queue : TriggerQueue
  calls : ℕ → Call
  consumer : Consumer
  cancelled : Bool

inductive Act where
  | enqueue (call : ℕ) (trigger : Trigger)
  | drop (call : ℕ)
  | notify (call : ℕ)
  | cancel
  | take
  | drain
  | hand (trigger : Trigger)
  | finish
  | again
  | quit
  deriving DecidableEq

/-- The acts of `Run`. -/
def Act.consumes : Act → Bool
  | .take | .drain | .hand _ | .finish | .again | .quit => true
  | .enqueue _ _ | .drop _ | .notify _ | .cancel => false

/-- `Run` sees that its context is done: at its select, in the debounce if there is one, and
before each job. -/
def World.stops (w : World) : Bool :=
  w.cancelled && match w.consumer with
    | .waiting => true
    | .debouncing => decide (0 < w.queue.debounce)
    | .batch (_ :: _) => true
    | .batch [] | .working _ | .returned => false

def World.next (w : World) : Act → Option World
  | .enqueue call trigger =>
    if w.calls call = .idle then
      let (queue, state) := w.queue.store trigger
      some { w with queue := queue, calls := update w.calls call state }
    else none
  | .drop call =>
    if w.calls call = .full then
      some { w with
        queue := w.queue.drop
        calls := update w.calls call (.returned false) }
    else none
  | .notify call =>
    -- a send to the full channel is given up
    if w.calls call = .stored then
      some { w with
        queue := { w.queue with notify := true }
        calls := update w.calls call (.returned true) }
    else none
  | .cancel => some { w with cancelled := true }
  | .take =>
    if w.consumer = .waiting ∧ w.queue.notify = true then
      some { w with queue := { w.queue with notify := false }, consumer := .debouncing }
    else none
  | .drain =>
    if w.consumer = .debouncing then
      let (queue, batch) := w.queue.drain
      some { w with queue := queue, consumer := .batch batch }
    else none
  | .hand trigger =>
    match w.consumer with
    | .batch (t :: rest) =>
      if t = trigger ∧ w.cancelled = false then some { w with consumer := .working rest }
      else none
    | _ => none
  | .finish =>
    match w.consumer with
    | .working rest => some { w with consumer := .batch rest }
    | _ => none
  | .again => if w.consumer = .batch [] then some { w with consumer := .waiting } else none
  | .quit => if w.stops = true then some { w with consumer := .returned } else none

/-- Any number of callers and one consumer, from a new queue on. -/
def triggerSystem : System World Act where
  init w := ∃ options queue, NewTriggerQueue options = .ok queue ∧
    w = ⟨queue, fun _ => .idle, .waiting, false⟩
  step w a w' := w.next a = some w'

section Steps

variable {w w' : World} {a : Act}

/-- What a step can do. -/
inductive Effect (w : World) : Act → World → Prop
  | accepted {call : ℕ} {trigger : Trigger} (idle : w.calls call = .idle)
      (room : (w.queue.pending.lookup trigger.normalized.Key).isSome = true ∨
        w.queue.pending.length < w.queue.capacity) :
      Effect w (.enqueue call trigger) { w with
        queue := { w.queue with
          pending := put w.queue.pending trigger.normalized.Key trigger.normalized }
        calls := update w.calls call .stored }
  | refused {call : ℕ} {trigger : Trigger} {state : Call} (idle : w.calls call = .idle)
      (other : state ≠ .stored) :
      Effect w (.enqueue call trigger)
        { w with calls := update w.calls call state }
  | dropped {call : ℕ} (full : w.calls call = .full) :
      Effect w (.drop call)
        { w with
          queue := w.queue.drop
          calls := update w.calls call (.returned false) }
  | notified {call : ℕ} (stored : w.calls call = .stored) :
      Effect w (.notify call) { w with
        queue := { w.queue with notify := true }
        calls := update w.calls call (.returned true) }
  | cancelled : Effect w .cancel { w with cancelled := true }
  | taken (waiting : w.consumer = .waiting) (token : w.queue.notify = true) :
      Effect w .take
        { w with queue := { w.queue with notify := false }, consumer := .debouncing }
  | drained (debouncing : w.consumer = .debouncing) :
      Effect w .drain { w with
        queue := { w.queue with pending := [] }
        consumer := .batch (Sql.ascending Trigger.Key (w.queue.pending.map Prod.snd)) }
  | handed {trigger : Trigger} {rest : List Trigger} (batch : w.consumer = .batch (trigger :: rest))
      (running : w.cancelled = false) :
      Effect w (.hand trigger) { w with consumer := .working rest }
  | finished {rest : List Trigger} (working : w.consumer = .working rest) :
      Effect w .finish { w with consumer := .batch rest }
  | again (done : w.consumer = .batch []) : Effect w .again { w with consumer := .waiting }
  | quit (stops : w.cancelled = true) : Effect w .quit { w with consumer := .returned }

private theorem store_effect {call : ℕ} (idle : w.calls call = .idle) (trigger : Trigger) :
    Effect w (.enqueue call trigger) { w with
      queue := (w.queue.store trigger).1
      calls := update w.calls call (w.queue.store trigger).2 } := by
  unfold TriggerQueue.store
  dsimp only
  split
  · exact .refused idle (by simp)
  · split
    · exact .refused idle (by simp)
    · rename_i room
      refine .accepted idle ?_
      rw [not_and_or, isNone_iff_eq_none, ← ne_eq, ne_none_iff_isSome, not_le] at room
      exact room

theorem next_effect (step : w.next a = some w') : Effect w a w' := by
  unfold World.next at step
  cases a with
  | enqueue call trigger =>
    obtain ⟨idle, same⟩ := ite_none_right_eq_some.mp step
    cases same
    exact store_effect idle trigger
  | drop call =>
    obtain ⟨full, same⟩ := ite_none_right_eq_some.mp step
    cases same
    exact .dropped full
  | notify call =>
    obtain ⟨stored, same⟩ := ite_none_right_eq_some.mp step
    cases same
    exact .notified stored
  | cancel =>
    cases step
    exact .cancelled
  | take =>
    obtain ⟨⟨waiting, token⟩, same⟩ := ite_none_right_eq_some.mp step
    cases same
    exact .taken waiting token
  | drain =>
    obtain ⟨debouncing, same⟩ := ite_none_right_eq_some.mp step
    cases same
    exact .drained debouncing
  | hand trigger =>
    dsimp only at step
    split at step
    · rename_i t rest batch
      obtain ⟨⟨rfl, running⟩, same⟩ := ite_none_right_eq_some.mp step
      cases same
      exact .handed batch running
    · cases step
  | finish =>
    dsimp only at step
    split at step
    · rename_i rest working
      cases step
      exact .finished working
    · cases step
  | again =>
    obtain ⟨done, same⟩ := ite_none_right_eq_some.mp step
    cases same
    exact .again done
  | quit =>
    obtain ⟨stops, same⟩ := ite_none_right_eq_some.mp step
    cases same
    exact .quit (Bool.and_eq_true_iff.mp stops).1

/-- The consumer will look at the queue again. -/
def World.Woken (w : World) : Prop :=
  w.queue.notify = true ∨ w.consumer = .debouncing ∨ ∃ call, w.calls call = .stored

structure World.Sound (w : World) : Prop where
  bounded : w.queue.pending.length ≤ w.queue.capacity
  woken : w.consumer ≠ .returned → w.queue.pending ≠ [] → w.Woken
  running : w.consumer = .returned → w.cancelled = true

private theorem stored_update {calls : ℕ → Call} {call : ℕ} {state : Call}
    (other : calls call ≠ .stored) (some : ∃ c, calls c = .stored) :
    ∃ c, update calls call state c = .stored := by
  obtain ⟨c, stored⟩ := some
  have apart : c ≠ call := fun same => other (same ▸ stored)
  exact ⟨c, by rw [update_of_ne apart, stored]⟩

theorem Effect.sound (effect : Effect w a w') (sound : w.Sound) : w'.Sound := by
  have turned {call : ℕ} {state : Call} (other : w.calls call ≠ .stored)
      (alive : w.consumer ≠ .returned) (pending : w.queue.pending ≠ []) :
      ({ w with calls := update w.calls call state } : World).Woken := by
    rcases sound.woken alive pending with token | debouncing | stored
    · exact Or.inl token
    · exact Or.inr (Or.inl debouncing)
    · exact Or.inr (Or.inr (stored_update other stored))
  cases effect with
  | accepted idle room =>
    refine ⟨?_, ?_, sound.running⟩
    · rw [length_put]
      have bounded := sound.bounded
      grind
    · intro _ _
      exact Or.inr (Or.inr ⟨_, update_self ..⟩)
  | refused here | dropped here =>
    refine ⟨sound.bounded, turned fun stored => ?_, sound.running⟩
    cases here.symm.trans stored
  | notified stored => exact ⟨sound.bounded, fun _ _ => Or.inl rfl, sound.running⟩
  | cancelled => exact ⟨sound.bounded, sound.woken, fun _ => rfl⟩
  | taken waiting token =>
    refine ⟨sound.bounded, fun _ _ => Or.inr (Or.inl rfl), ?_⟩
    intro returned
    cases returned
  | drained debouncing =>
    refine ⟨Nat.zero_le _, fun _ pending => (pending rfl).elim, ?_⟩
    intro returned
    cases returned
  | handed here running | finished here | again here =>
    refine ⟨sound.bounded, ?_, fun returned => by cases returned⟩
    intro _ pending
    have woken := sound.woken (by simp [here]) pending
    simpa [World.Woken, here] using woken
  | quit stops =>
    exact ⟨sound.bounded, fun alive => (alive rfl).elim, fun _ => stops⟩

theorem triggerSystem_sound (reached : triggerSystem.Reachable System.free w) : w.Sound := by
  refine reached.invariant ?_ fun s a t sound step _ => (next_effect step).sound sound
  rintro s ⟨options, queue, new, rfl⟩
  have empty : queue.pending = [] := by
    grind [NewTriggerQueue]
  refine ⟨by simp [empty], fun _ pending => (pending empty).elim, ?_⟩
  intro returned
  cases returned

end Steps

section Delivery

variable {run : triggerSystem.Execution} {key : Text} {n m : ℕ} {a : Act} {w w' : World}

/-- The value is that of an accepted call between the two instants. -/
def Stored (run : triggerSystem.Execution) (key : Text) (n m : ℕ) (value : Trigger) : Prop :=
  ∃ i call trigger, n ≤ i ∧ i < m ∧ run.act i = some (.enqueue call trigger) ∧
    (run.state (i + 1)).calls call = .stored ∧ trigger.normalized.Key = key ∧
    value = trigger.normalized

theorem Stored.later {value : Trigger} (stored : Stored run key n m value) :
    Stored run key n (m + 1) value := by
  obtain ⟨i, call, trigger, after, before, rest⟩ := stored
  exact ⟨i, call, trigger, after, Nat.lt_succ_of_lt before, rest⟩

def Consumer.rest : Consumer → List Trigger
  | .batch rest | .working rest => rest
  | .waiting | .debouncing | .returned => []

def Consumer.left : Consumer → ℕ
  | .batch rest => 2 * rest.length
  | .working rest => 2 * rest.length + 1
  | .waiting | .debouncing | .returned => 0

/-- The key is pending, with the value of a call since `n`. -/
private def Awaits (run : triggerSystem.Execution) (key : Text) (n m : ℕ) : Prop :=
  ∃ value, (run.state m).queue.pending.lookup key = some value ∧ Stored run key n m value

private def Batched (run : triggerSystem.Execution) (key : Text) (n : ℕ) (value : Trigger)
    (m : ℕ) : Prop :=
  value ∈ (run.state m).consumer.rest ∧ Stored run key n m value

private def Handed (run : triggerSystem.Execution) (key : Text) (n m : ℕ) : Prop :=
  ∃ i value, m = i + 1 ∧ run.act i = some (.hand value) ∧ Stored run key n i value

/-- The moves of a consumer whose context is not done. -/
private inductive Move : Consumer → Act → Consumer → Prop
  | take : Move .waiting .take .debouncing
  | drain (batch : List Trigger) : Move .debouncing .drain (.batch batch)
  | hand (trigger : Trigger) (rest : List Trigger) :
      Move (.batch (trigger :: rest)) (.hand trigger) (.working rest)
  | finish (rest : List Trigger) : Move (.working rest) .finish (.batch rest)
  | again : Move (.batch []) .again .waiting

private theorem Effect.move (effect : Effect w a w') (alive : w.cancelled = false) :
    a.consumes = false ∧ w'.consumer = w.consumer ∨ Move w.consumer a w'.consumer := by
  cases effect with
  | accepted | refused | dropped | notified | cancelled => exact Or.inl ⟨rfl, rfl⟩
  | taken waiting => exact Or.inr (waiting ▸ .take)
  | drained debouncing => exact Or.inr (debouncing ▸ .drain _)
  | handed batch => exact Or.inr (batch ▸ .hand _ _)
  | finished working => exact Or.inr (working ▸ .finish _)
  | again done => exact Or.inr (done ▸ .again)
  | quit stops =>
    rw [alive] at stops
    cases stops

private theorem effect_at (run : triggerSystem.Execution) (m : ℕ) :
    run.act m = none ∧ run.state (m + 1) = run.state m ∨
      ∃ a, run.act m = some a ∧ Effect (run.state m) a (run.state (m + 1)) := by
  cases acts : run.act m with
  | none => exact Or.inl ⟨rfl, run.rest m acts⟩
  | some a => exact Or.inr ⟨a, rfl, next_effect (run.step m a acts)⟩

private theorem Awaits.step (awaits : Awaits run key n m) (order : n ≤ m) :
    run.act m = some .drain ∧ (∃ value, Batched run key n value (m + 1)) ∨
      run.act m ≠ some .drain ∧ Awaits run key n (m + 1) := by
  obtain ⟨value, pending, stored⟩ := awaits
  have same : (run.state (m + 1)).queue.pending = (run.state m).queue.pending →
      Awaits run key n (m + 1) := fun eq => ⟨value, eq ▸ pending, stored.later⟩
  rcases effect_at run m with ⟨acts, still⟩ | ⟨a, acts, effect⟩
  · exact Or.inr ⟨by simp [acts], same (by rw [still])⟩
  · rw [acts]
    generalize after : run.state (m + 1) = w' at effect same
    cases effect with
    | @accepted call trigger idle room =>
      refine Or.inr ⟨by simp, ?_⟩
      by_cases here : key = trigger.normalized.Key
      · refine ⟨trigger.normalized, ?_, m, call, trigger, order, Nat.lt_succ_self m, acts, ?_,
          here.symm, rfl⟩
        · rw [after]
          dsimp only
          rw [lookup_put, if_pos here]
        · rw [after]
          exact update_self ..
      · refine ⟨value, ?_, stored.later⟩
        rw [after]
        dsimp only
        rw [lookup_put, if_neg here, pending]
    | drained debouncing =>
      refine Or.inl ⟨rfl, value, ?_, stored.later⟩
      rw [after]
      exact Sql.mem_ascending.mpr (mem_map.mpr ⟨_, mem_of_lookup pending, rfl⟩)
    | _ => exact Or.inr ⟨by simp, same rfl⟩

/-- The scheduler runs the consumer, whose jobs return, and the callers. -/
structure FairRun (run : triggerSystem.Execution) : Prop where
  consumer : run.Fair fun a => a.consumes = true
  callers : ∀ call, run.Fair fun a => a = .notify call

variable (running : ∀ m, (run.state m).cancelled = false)

include running

private theorem consumer_at (m : ℕ) :
    (run.state (m + 1)).consumer = (run.state m).consumer ∧
        (∀ a, run.act m = some a → a.consumes = false) ∨
      ∃ a, run.act m = some a ∧ Move (run.state m).consumer a (run.state (m + 1)).consumer := by
  rcases effect_at run m with ⟨acts, still⟩ | ⟨a, acts, effect⟩
  · refine Or.inl ⟨by rw [still], ?_⟩
    intro a some
    rw [acts] at some
    cases some
  · rcases effect.move (running m) with ⟨other, same⟩ | move
    · refine Or.inl ⟨same, ?_⟩
      intro a' some
      rw [acts] at some
      cases some
      exact other
    · exact Or.inr ⟨a, acts, move⟩

private theorem Batched.step {value : Trigger} (batched : Batched run key n value m) :
    Handed run key n (m + 1) ∨ Batched run key n value (m + 1) ∧
      (run.state (m + 1)).consumer.left ≤ (run.state m).consumer.left ∧
      ∀ a, run.act m = some a → a.consumes = true →
        (run.state (m + 1)).consumer.left < (run.state m).consumer.left := by
  obtain ⟨inside, stored⟩ := batched
  rcases consumer_at running m with ⟨same, others⟩ | ⟨a, acts, move⟩
  · refine Or.inr ⟨⟨by rwa [same], stored.later⟩, by rw [same], ?_⟩
    intro a acts consumes
    rw [others a acts] at consumes
    cases consumes
  · unfold Batched
    generalize (run.state m).consumer = before at inside move ⊢
    generalize (run.state (m + 1)).consumer = after at move ⊢
    cases move with
    | take | drain | again => cases inside
    | finish rest =>
      exact Or.inr ⟨⟨inside, stored.later⟩, Nat.le_succ _, fun _ _ _ => Nat.lt_succ_self _⟩
    | hand trigger rest =>
      rcases mem_cons.mp inside with rfl | later
      · exact Or.inl ⟨m, value, rfl, acts, stored⟩
      · have less : 2 * rest.length + 1 < 2 * (trigger :: rest).length := by
          rw [length_cons]
          omega
        exact Or.inr ⟨⟨later, stored.later⟩, less.le, fun _ _ _ => less⟩

private theorem batch_possible (m : ℕ) (at_ : ∃ rest, (run.state m).consumer = .batch rest ∨
    (run.state m).consumer = .working rest) :
    ∃ a t, a.consumes = true ∧ triggerSystem.step (run.state m) a t := by
  obtain ⟨rest, batch | working⟩ := at_
  · cases rest with
    | nil =>
      refine ⟨.again, { run.state m with consumer := .waiting }, rfl, ?_⟩
      simp [triggerSystem, World.next, batch]
    | cons t rest =>
      refine ⟨.hand t, { run.state m with consumer := .working rest }, rfl, ?_⟩
      simp [triggerSystem, World.next, batch, running m]
  · refine ⟨.finish, { run.state m with consumer := .batch rest }, rfl, ?_⟩
    simp [triggerSystem, World.next, working]

private theorem Batched.handed (fair : FairRun run) {value : Trigger}
    (batched : Batched run key n value m) : ∃ j, m < j ∧ Handed run key n j := by
  refine fair.consumer.reaches (fun j => (run.state j).consumer.left) ?_ ?_ batched
  · rintro j ⟨inside, -⟩
    apply batch_possible running
    cases at_ : (run.state j).consumer with
    | batch rest => exact ⟨rest, Or.inl rfl⟩
    | working rest => exact ⟨rest, Or.inr rfl⟩
    | _ =>
      rw [at_] at inside
      cases inside
  · intro j batched
    exact batched.step running

/-- The key is pending, and the consumer is where it is said to be. -/
private def AwaitsAt (run : triggerSystem.Execution) (key : Text) (n : ℕ) (at_ : World → Prop)
    (m : ℕ) : Prop := n ≤ m ∧ Awaits run key n m ∧ at_ (run.state m)

private theorem AwaitsAt.kept {at_ : World → Prop} (awaits : AwaitsAt run key n at_ m)
    (other : (run.state m).consumer ≠ .debouncing) :
    n ≤ m + 1 ∧ Awaits run key n (m + 1) := by
  obtain ⟨order, pending, -⟩ := awaits
  refine ⟨Nat.le_succ_of_le order, ?_⟩
  rcases pending.step order with ⟨drains, -⟩ | ⟨-, kept⟩
  · rcases consumer_at running m with ⟨-, others⟩ | ⟨a, acts, move⟩
    · cases others _ drains
    · rw [drains] at acts
      cases acts
      generalize (run.state m).consumer = before at move other
      generalize (run.state (m + 1)).consumer = after at move
      cases move with
      | drain => exact (other rfl).elim
  · exact kept

private def InBatch (w : World) : Prop :=
  ∃ rest, w.consumer = .batch rest ∨ w.consumer = .working rest

private theorem AwaitsAt.waits (fair : FairRun run) (awaits : AwaitsAt run key n InBatch m) :
    ∃ j, m < j ∧ AwaitsAt run key n (fun w => w.consumer = .waiting) j := by
  refine fair.consumer.reaches (fun j => (run.state j).consumer.left) ?_ ?_ awaits
  · intro j awaits
    exact batch_possible running j awaits.2.2
  · intro j awaits
    have busy := awaits.2.2
    obtain ⟨order, pending⟩ := awaits.kept running (by
      obtain ⟨rest, batch | working⟩ := busy
      · simp [batch]
      · simp [working])
    rcases consumer_at running j with ⟨same, others⟩ | ⟨a, acts, move⟩
    · refine Or.inr ⟨⟨order, pending, by rwa [InBatch, same]⟩, by rw [same], ?_⟩
      grind
    · unfold AwaitsAt InBatch at *
      dsimp only
      generalize (run.state j).consumer = before at busy move ⊢
      generalize (run.state (j + 1)).consumer = after at move ⊢
      cases move with
      | take | drain => simp at busy
      | again => exact Or.inl ⟨order, pending, rfl⟩
      | finish rest =>
        exact Or.inr ⟨⟨order, pending, rest, Or.inl rfl⟩, Nat.le_succ _,
          fun _ _ _ => Nat.lt_succ_self _⟩
      | hand trigger rest =>
        have less : 2 * rest.length + 1 < 2 * (trigger :: rest).length := by
          rw [length_cons]
          omega
        exact Or.inr ⟨⟨order, pending, rest, Or.inr rfl⟩, less.le, fun _ _ _ => less⟩

private def Alert (w : World) : Prop := w.consumer = .waiting ∧ w.queue.notify = true

omit running in
private theorem Effect.stored {call : ℕ} (effect : Effect w a w') (stored : w.calls call = .stored)
    (other : a ≠ .notify call) : w'.calls call = .stored := by
  have others : ∀ (c : ℕ) (state : Call), w.calls c ≠ .stored →
      update w.calls c state call = .stored := by
    grind
  cases effect with
  | accepted idle | refused idle => exact others _ _ (by simp [idle])
  | dropped full => exact others _ _ (by simp [full])
  | notified =>
    exact (update_of_ne (by rintro rfl; exact other rfl) ..).trans stored
  | _ => exact stored

omit running in
private theorem Effect.waiting (effect : Effect w a w') (waiting : w.consumer = .waiting)
    (alive : w.cancelled = false) :
    w'.consumer = .waiting ∧ (w.queue.notify = true → w'.queue.notify = true) ∨
      w'.consumer = .debouncing ∧ w.queue.notify = true := by
  cases effect with
  | taken _ token => exact Or.inr ⟨rfl, token⟩
  | notified => exact Or.inl ⟨waiting, fun _ => rfl⟩
  | accepted | refused | dropped | cancelled => exact Or.inl ⟨waiting, id⟩
  | drained debouncing => simp [waiting] at debouncing
  | handed batch => simp [waiting] at batch
  | finished working => simp [waiting] at working
  | again done => simp [waiting] at done
  | quit stops => simp [alive] at stops

omit running in
private theorem Effect.notified_alert {call : ℕ} (effect : Effect w (.notify call) w')
    (waiting : w.consumer = .waiting) : Alert w' := by
  cases effect with
  | notified => exact ⟨waiting, rfl⟩

private theorem AwaitsAt.alerted (fair : FairRun run) {call : ℕ}
    (awaits : AwaitsAt run key n (fun w => w.consumer = .waiting ∧ w.queue.notify = false ∧
      w.calls call = .stored) m) : ∃ j, m < j ∧ AwaitsAt run key n Alert j := by
  refine (fair.callers call).next ?_ ?_ awaits
  · rintro j ⟨-, -, -, -, stored⟩
    refine ⟨.notify call, { run.state j with
      queue := { (run.state j).queue with notify := true }
      calls := update (run.state j).calls call (.returned true) }, rfl, ?_⟩
    simp only [triggerSystem, World.next, if_pos stored]
  · intro j awaits
    obtain ⟨waiting, quiet, stored⟩ := awaits.2.2
    obtain ⟨order, pending⟩ := awaits.kept running (by simp [waiting])
    rcases effect_at run j with ⟨acts, still⟩ | ⟨a, acts, effect⟩
    · refine Or.inr ⟨⟨order, pending, ?_⟩, by simp [acts]⟩
      rw [still]
      exact ⟨waiting, quiet, stored⟩
    · by_cases own : a = .notify call
      · subst own
        exact Or.inl ⟨order, pending, effect.notified_alert waiting⟩
      · rcases effect.waiting waiting (running j) with ⟨waiting', -⟩ | ⟨-, token⟩
        · cases token : (run.state (j + 1)).queue.notify with
          | true => exact Or.inl ⟨order, pending, waiting', token⟩
          | false =>
            exact Or.inr ⟨⟨order, pending, waiting', token, effect.stored stored own⟩,
              by simpa [acts] using own⟩
        · rw [quiet] at token
          cases token

private theorem AwaitsAt.taken (fair : FairRun run) (awaits : AwaitsAt run key n Alert m) :
    ∃ j, m < j ∧ AwaitsAt run key n (fun w => w.consumer = .debouncing) j := by
  refine fair.consumer.next ?_ ?_ awaits
  · rintro j ⟨-, -, waiting, token⟩
    refine ⟨.take, { run.state j with
      queue := { (run.state j).queue with notify := false }, consumer := .debouncing }, rfl, ?_⟩
    simp [triggerSystem, World.next, waiting, token]
  · intro j awaits
    obtain ⟨waiting, token⟩ := awaits.2.2
    obtain ⟨order, pending⟩ := awaits.kept running (by simp [waiting])
    rcases consumer_at running j with ⟨same, others⟩ | ⟨a, acts, move⟩
    · refine Or.inr ⟨⟨order, pending, same.trans waiting, ?_⟩, by simpa using others⟩
      rcases effect_at run j with ⟨-, still⟩ | ⟨a, -, effect⟩
      · rw [still, token]
      · rcases effect.waiting waiting (running j) with ⟨-, kept⟩ | ⟨moved, -⟩
        · exact kept token
        · rw [same, waiting] at moved
          cases moved
    · rw [waiting] at move
      refine Or.inl ⟨order, pending, ?_⟩
      show (run.state (j + 1)).consumer = .debouncing
      generalize (run.state (j + 1)).consumer = after at move ⊢
      cases move with
      | take => rfl

private theorem AwaitsAt.drained (fair : FairRun run)
    (awaits : AwaitsAt run key n (fun w => w.consumer = .debouncing) m) :
    ∃ j, m < j ∧ ∃ value, Batched run key n value j := by
  refine fair.consumer.next (Q := fun j => ∃ value, Batched run key n value j) ?_ ?_ awaits
  · rintro j ⟨-, -, debouncing⟩
    refine ⟨.drain, { run.state j with
      queue := (run.state j).queue.drain.1
      consumer := .batch (run.state j).queue.drain.2 }, rfl, ?_⟩
    simp only [triggerSystem, World.next, if_pos debouncing]
  · rintro j ⟨order, pending, debouncing⟩
    rcases pending.step order with ⟨-, drained⟩ | ⟨other, kept⟩
    · exact Or.inl drained
    · rcases consumer_at running j with ⟨same, others⟩ | ⟨a, acts, move⟩
      · exact Or.inr ⟨⟨Nat.le_succ_of_le order, kept, same.trans debouncing⟩, by simpa using others⟩
      · rw [show (run.state j).consumer = .debouncing from debouncing] at move
        generalize (run.state (j + 1)).consumer = after at move
        cases move with
        | drain => exact (other acts).elim

private theorem Awaits.handed (fair : FairRun run) (awaits : Awaits run key n m) (order : n ≤ m) :
    ∃ j, m < j ∧ Handed run key n j := by
  have debounced : ∀ i, AwaitsAt run key n (fun w => w.consumer = .debouncing) i →
      ∃ j, i < j ∧ Handed run key n j := by
    intro i awaits
    obtain ⟨j, later, value, batched⟩ := awaits.drained running fair
    obtain ⟨k, after, handed⟩ := batched.handed running fair
    exact ⟨k, later.trans after, handed⟩
  have alerted : ∀ i, AwaitsAt run key n Alert i → ∃ j, i < j ∧ Handed run key n j := by
    intro i awaits
    obtain ⟨j, later, taken⟩ := awaits.taken running fair
    obtain ⟨k, after, handed⟩ := debounced j taken
    exact ⟨k, later.trans after, handed⟩
  have waited : ∀ i, AwaitsAt run key n (fun w => w.consumer = .waiting) i →
      ∃ j, i < j ∧ Handed run key n j := by
    rintro i ⟨order, awaits, waiting⟩
    cases token : (run.state i).queue.notify with
    | true => exact alerted i ⟨order, awaits, waiting, token⟩
    | false =>
      have sound := triggerSystem_sound (run.reachable i)
      have pending : (run.state i).queue.pending ≠ [] := by
        obtain ⟨value, found, -⟩ := awaits
        intro empty
        rw [empty] at found
        cases found
      have alive : (run.state i).consumer ≠ .returned := by simp [waiting]
      rcases sound.woken alive pending with ready | debouncing | ⟨call, stored⟩
      · rw [token] at ready
        cases ready
      · rw [waiting] at debouncing
        cases debouncing
      · obtain ⟨j, later, alert⟩ :=
          AwaitsAt.alerted running fair ⟨order, awaits, waiting, token, stored⟩
        obtain ⟨k, after, handed⟩ := alerted j alert
        exact ⟨k, later.trans after, handed⟩
  have batched : InBatch (run.state m) → ∃ j, m < j ∧ Handed run key n j := by
    intro busy
    obtain ⟨j, later, waiting⟩ := AwaitsAt.waits running fair ⟨order, awaits, busy⟩
    obtain ⟨k, after, handed⟩ := waited j waiting
    exact ⟨k, later.trans after, handed⟩
  cases at_ : (run.state m).consumer with
  | waiting => exact waited m ⟨order, awaits, at_⟩
  | debouncing => exact debounced m ⟨order, awaits, at_⟩
  | batch rest => exact batched ⟨rest, Or.inl at_⟩
  | working rest => exact batched ⟨rest, Or.inr at_⟩
  | returned =>
    have cancelled := (triggerSystem_sound (run.reachable m)).running at_
    rw [running m] at cancelled
    cases cancelled

end Delivery

/-- No update is lost: in every state with pending triggers the consumer will look again,
pending stays within its capacity, and in a fair run that is not cancelled the key of every
accepted call is handed to the job, with its value or that of a later call for the key. -/
theorem trigger_queue_loses_no_update :
    (∀ w, triggerSystem.Reachable System.free w → w.consumer ≠ .returned →
      w.queue.pending ≠ [] → w.Woken) ∧
    (∀ w, triggerSystem.Reachable System.free w → w.queue.pending.length ≤ w.queue.capacity) ∧
    ∀ run : triggerSystem.Execution, FairRun run → ∀ n call trigger,
      run.act n = some (.enqueue call trigger) → (run.state (n + 1)).calls call = .stored →
      (∃ m, (run.state m).cancelled = true) ∨
        ∃ m value, n < m ∧ run.act m = some (.hand value) ∧
          Stored run trigger.normalized.Key n m value := by
  refine ⟨fun w reached => (triggerSystem_sound reached).woken,
    fun w reached => (triggerSystem_sound reached).bounded, ?_⟩
  intro run fair n call trigger acts accepted
  by_cases cancelled : ∃ m, (run.state m).cancelled = true
  · exact Or.inl cancelled
  right
  have running : ∀ m, (run.state m).cancelled = false := by
    intro m
    by_contra done
    rw [Bool.not_eq_false] at done
    exact cancelled ⟨m, done⟩
  have awaits : Awaits run trigger.normalized.Key n (n + 1) := by
    refine ⟨trigger.normalized, ?_, n, call, trigger, le_rfl, Nat.lt_succ_self n, acts, accepted,
      rfl, rfl⟩
    have effect := next_effect (run.step n _ acts)
    generalize run.state (n + 1) = w' at effect accepted ⊢
    cases effect with
    | accepted =>
      dsimp only
      rw [lookup_put, if_pos rfl]
    | refused idle other =>
      dsimp only at accepted
      rw [update_self] at accepted
      exact (other accepted).elim
  obtain ⟨j, later, m, value, rfl, handed, stored⟩ :=
    awaits.handed running fair (Nat.le_succ n)
  exact ⟨m, value, by omega, handed, stored⟩

/-! One caller, whose trigger is handed on. -/

namespace Sample

def trigger : Trigger := ⟨" Deployment ", "shop", "web", "MODIFIED", [], [], []⟩

def acts : List Act :=
  [.enqueue 0 trigger, .notify 0, .take, .drain, .hand trigger.normalized, .finish, .again]

def opened : World := ⟨⟨[], 256, 2000000000, false, 0⟩, fun _ => .idle, .waiting, false⟩

def state : ℕ → World
  | 0 => opened
  | n + 1 => match acts[n]? with
    | none => state n
    | some a => ((state n).next a).getD (state n)

theorem state_step (n : ℕ) (a : Act) (here : acts[n]? = some a) :
    triggerSystem.step (state n) a (state (n + 1)) := by
  have possible : ∀ n < 7, ∀ a, acts[n]? = some a → ((state n).next a).isSome = true := by
    decide
  have bound : n < 7 := (List.getElem?_eq_some_iff.mp here).1
  obtain ⟨w, moved⟩ := isSome_iff_exists.mp (possible n bound a here)
  show (state n).next a = some (match acts[n]? with
    | none => state n
    | some a => ((state n).next a).getD (state n))
  rw [here]
  simp only [moved, getD_some]

theorem state_rest (n : ℕ) (here : acts[n]? = none) : state (n + 1) = state n := by
  show (match acts[n]? with
    | none => state n
    | some a => ((state n).next a).getD (state n)) = state n
  rw [here]

def delivered : triggerSystem.Execution where
  state := state
  act n := acts[n]?
  init := ⟨⟨256, 2000000000⟩, _, rfl, rfl⟩
  step := state_step
  rest := state_rest

theorem state_rests (n : ℕ) : state (n + 7) = state 7 := by
  induction n with
  | zero => rfl
  | succ n ih =>
    have none : acts[n + 7]? = none := getElem?_eq_none (by simp [acts])
    rw [state_rest (n + 7) none, ih]

theorem delivered_fair : FairRun delivered := by
  constructor
  · intro n possible
    obtain ⟨a, w, kind, step⟩ := possible (n + 7) (Nat.le_add_right n 7)
    have rests : (state 7).next a = some w := by
      rw [← state_rests n]
      exact step
    cases a with
    | enqueue | drop | notify | cancel => cases kind
    | _ => cases rests
  · intro call n possible
    obtain ⟨a, w, rfl, step⟩ := possible (n + 7) (Nat.le_add_right n 7)
    have rests : (state 7).next (.notify call) = some w := by
      rw [← state_rests n]
      exact step
    have idle : (state 7).calls call ≠ .stored := by
      by_cases own : call = 0
      · subst own
        decide
      · have calls : (state 7).calls = update (update (fun _ => .idle) 0 .stored)
            0 (.returned true) := rfl
        rw [calls, update_of_ne own, update_of_ne own]
        decide
    simp only [World.next, if_neg idle] at rests
    cases rests

end Sample

open Sample in
theorem trigger_queue_loses_no_update_delivered :
    ∃ m value, 0 < m ∧ delivered.act m = some (.hand value) ∧
      Stored delivered trigger.normalized.Key 0 m value := by
  rcases trigger_queue_loses_no_update.2.2 delivered delivered_fair 0 0 trigger rfl rfl with
    ⟨m, cancelled⟩ | handed
  · have never : ∀ n, (state n).cancelled = false := by
      intro n
      by_cases early : n < 7
      · revert n
        decide
      · obtain ⟨k, rfl⟩ := Nat.exists_eq_add_of_le (Nat.le_of_not_lt early)
        rw [Nat.add_comm, state_rests]
        rfl
    have here : (state m).cancelled = true := cancelled
    rw [never m] at here
    cases here
  · exact handed

end Sre.Scheduler
