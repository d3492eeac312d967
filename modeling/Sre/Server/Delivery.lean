/- GID: Sre/Server/Delivery
   digest: Workers lease, send and finish notifications; what holds over every interleaving. -/

import Sre.Server.Ingestion
import Sre.Server.Notifications

set_option autoImplicit false

namespace Sre.Server

open List Delivery

open Foundation Foundation.Outcome Foundation.Sql Identity Authorization Incident Storage Collection
open Delivery (Route)

/-- What one transaction, at the instants `now` of its replica and `instant` of the database,
can do to a notification. -/
inductive RowStep (now instant : Time) : Request → NotificationRow → NotificationRow → Prop where
  | same (q : Request) (r : NotificationRow) : RowStep now instant q r r
  | abandon (route : Route) (lease : Text) (r : NotificationRow)
      (exhausted : r.exhausted route.id instant = true) :
      RowStep now instant (.dispatch route lease) r r.abandon
  | lease (route : Route) (lease : Text) (r : NotificationRow)
      (leasable : r.leasable route.id instant = true) :
      RowStep now instant (.dispatch route lease) r (r.leased lease instant)
  | finish (n r : NotificationRow) (delivered : Bool) (id : r.id = n.id) (held : r.lease = n.lease)
      (named : n.lease ≠ []) (sending : r.state = .sending) :
      RowStep now instant (.finishNotification n delivered) r (r.finished n delivered now)
  | acknowledge (p : Principal) (id eventID : Text) (r : NotificationRow)
      (waits : r.acknowledgedBy = []) (known : p.id ≠ []) :
      RowStep now instant (.acknowledge p id eventID) r { r with acknowledgedBy := p.id }

/-- A notification as it is materialized. -/
structure Waiting (r : NotificationRow) : Prop where
  state : r.state = .pending
  attempts : r.attempts = 0
  lease : r.lease = []

/-- Notifications are added, and then every one takes its own step. -/
def RowSteps (now instant : Time) (q : Request) (rows rows' : List NotificationRow) : Prop :=
  ∃ added f, rows' = (rows ++ added).map f ∧ (∀ r ∈ added, Waiting r) ∧
    ∀ r ∈ rows ++ added, RowStep now instant q r (f r)

variable [Platform]

section Served

variable {c : Call} {t t' : Tx}

omit [Platform] in
private theorem RowSteps.refl (now instant : Time) (q : Request) (rows : List NotificationRow) :
    RowSteps now instant q rows rows :=
  ⟨[], id, by simp, by simp, fun r _ => .same q r⟩

variable {now : Time} {q : Request} {rows : List NotificationRow} {route : Route} {s : Service}

omit [Platform] in
private theorem RowSteps.update {instant : Time} {selects : NotificationRow → Bool}
    {change : NotificationRow → NotificationRow}
    (step : ∀ r ∈ rows, selects r = true → RowStep now instant q r (change r)) :
    RowSteps now instant q rows (Sql.update selects change rows) := by
  refine ⟨[], fun r => if selects r then change r else r, ?_, by simp, fun r member => ?_⟩
  · rw [append_nil]
    rfl
  · rw [append_nil] at member
    dsimp only
    split
    · exact step r member ‹_›
    · exact .same q r

/-- Only notifications that wait are added. -/
private def Grows (rows rows' : List NotificationRow) : Prop :=
  ∃ added, rows' = rows ++ added ∧ ∀ r ∈ added, Waiting r

omit [Platform] in
private theorem Grows.insert {α : Type} {source : List α} {make : α → NotificationRow}
    (waits : ∀ a, Waiting (make a)) :
    Grows rows (Tx.insertNotifications rows (source.map make)) := by
  obtain ⟨added, grown, within⟩ := Tx.insertNotifications_extends rows (source.map make)
  refine ⟨added, grown, fun r member => ?_⟩
  obtain ⟨a, -, rfl⟩ := mem_map.mp (within member)
  exact waits a

private theorem materialize_grows (ok : materialize s t route = .ok t') :
    Grows t.tables.notifications t'.tables.notifications := by
  rcases materialize_ok ok with rfl | done
  · exact ⟨[], by simp, by simp⟩
  · rw [(Tx.MaterializeNotifications_ok done).2]
    exact .insert fun o => ⟨rfl, rfl, rfl⟩

private theorem escalate_grows (ok : escalate t route now = .ok t') :
    Grows t.tables.notifications t'.tables.notifications := by
  rcases escalate_ok ok with rfl | ⟨delay, done⟩
  · exact ⟨[], by simp, by simp⟩
  · rw [(Tx.EscalateNotifications_ok done).2]
    exact .insert fun n => ⟨rfl, rfl, rfl⟩

omit [Platform] in
private theorem LeaseNotification_steps {now : Time} {route : Route} {lease : Text}
    {found : Option NotificationRow}
    (unique : (t.tables.notifications.map NotificationRow.id).Nodup)
    (ok : t.LeaseNotification route.id lease = .ok (found, t')) :
    ∃ f, t'.tables.notifications = t.tables.notifications.map f ∧
      ∀ r ∈ t.tables.notifications, RowStep now t.now (.dispatch route lease) r (f r) := by
  have given (r : NotificationRow) : RowStep now t.now (.dispatch route lease) r
      (if r.exhausted route.id t.now then r.abandon else r) := by
    split
    · exact .abandon route lease r ‹_›
    · exact .same _ r
  rcases Tx.LeaseNotification_ok ok with ⟨-, -, rfl⟩ | ⟨n, chosen, leasable, -, rfl⟩
  · exact ⟨_, rfl, fun r _ => given r⟩
  · refine ⟨_, map_map, fun r member => ?_⟩
    have sameID (r : NotificationRow) :
        (if r.exhausted route.id t.now then r.abandon else r).id = r.id := by
      split <;> rfl
    simp only [Function.comp_apply, decide_eq_true_eq, sameID]
    split
    · rename_i hit
      -- the chosen row was not given up, and no other row has its identifier
      obtain ⟨m, inside, ⟨gone, rfl⟩ | ⟨keep, rfl⟩⟩ := mem_update.mp chosen
      · simp [NotificationRow.leasable, NotificationRow.abandon, NotificationRow.lapsed] at leasable
      · obtain rfl := inj_on_of_nodup_map unique member inside hit
        rw [keep, if_neg Bool.false_ne_true]
        exact .lease route lease r leasable
    · exact given r

variable {lease : Text}

theorem dispatch_steps {found : Option NotificationRow}
    (told : Told t.tables.outbox t.tables.notifications)
    (ok : dispatch s t now route lease = .ok (found, t')) :
    RowSteps now t.now (.dispatch route lease) t.tables.notifications t'.tables.notifications := by
  obtain ⟨u, v, materialized, escalated, leased⟩ := dispatch_ok ok
  obtain ⟨first, rows, waits⟩ := materialize_grows materialized
  obtain ⟨second, rows', waits'⟩ := escalate_grows escalated
  obtain ⟨f, moved, steps⟩ := @LeaseNotification_steps v t' now route lease found
    (prepared_told materialized escalated told).ids leased
  have instant : v.now = t.now := (escalate_writes escalated).now.trans
    (materialize_writes materialized).now
  rw [rows, append_assoc] at rows'
  rw [rows', instant] at steps
  refine ⟨first ++ second, f, rows' ▸ moved, fun r member => ?_, steps⟩
  grind

theorem dispatch_answer {n : NotificationRow}
    (ok : dispatch s t now route lease = .ok (some n, t')) :
    n ∈ t'.tables.notifications ∧ n.lease = lease ∧ n.acknowledgedBy = [] := by
  obtain ⟨u, v, -, -, leased⟩ := dispatch_ok ok
  rcases Tx.LeaseNotification_ok leased with ⟨none_, -⟩ | ⟨r, chosen, leasable, same, rfl⟩
  · cases none_
  · obtain rfl := Option.some.inj same
    refine ⟨mem_update.mpr ⟨r, chosen, Or.inl ⟨by simp, rfl⟩⟩, rfl, ?_⟩
    simp only [NotificationRow.leasable, Bool.and_eq_true, decide_eq_true_eq] at leasable
    exact leasable.1.2.1

theorem rows_served {r : Response} (told : Told t.tables.outbox t.tables.notifications)
    (ok : serve c t q = .ok (r, t')) :
    RowSteps c.now t.now q t.tables.notifications t'.tables.notifications := by
  cases q
  case dispatch route lease =>
    obtain ⟨found, done, -⟩ := answer_ok ok
    exact dispatch_steps told done
  case finishNotification n delivered =>
    obtain ⟨held, holds, -, named, rfl⟩ :=
      Tx.FinishNotification_ok (finish_ok (done_ok ok).1)
    refine .update fun r _ hit => ?_
    obtain ⟨id, lease, sending⟩ := (holds r).mp hit
    exact .finish n r delivered id lease named sending
  case acknowledge p id eventID =>
    rcases Tx.AcknowledgeNotification_ok (Acknowledge_ok (done_ok ok).1) with
      rfl | ⟨u, marked, known, queued⟩
    · exact .refl _ _ _ _
    · rw [show t'.tables.notifications = u.tables.notifications from
        (Tx.Enqueue_writes queued).frame .notifications (by decide), marked]
      refine .update fun r _ hit => ?_
      exact .acknowledge p id eventID r (of_decide_eq_true hit).2 known
  all_goals
    rw [show t'.tables.notifications = t.tables.notifications from
      (serve_writes ok).frame .notifications
        (by simp [Request.tables, coreTables, reportTables, itemTables, Investigation.claimTables])]
    exact .refl _ _ _ _

end Served

/-! ## One notification -/

/-- Attempts, state and lease fit together. -/
structure Sound (r : NotificationRow) : Prop where
  bounded : r.attempts ≤ maxAttempts
  pending : r.state = .pending → r.attempts < maxAttempts
  sending : r.state = .sending → r.leaseUntil.isSome = true

namespace RowStep

variable {now instant : Time} {q : Request} {r r' : NotificationRow}

omit [Platform]

section

variable (step : RowStep now instant q r r')
include step

theorem id : r'.id = r.id := by
  cases step <;> rfl

theorem sound
    (current : ∀ n delivered, q = .finishNotification n delivered → r.id = n.id →
      r.lease = n.lease → r.state = .sending → r.attempts = n.attempts)
    (held : Sound r) : Sound r' := by
  cases step with
  | same => exact held
  | abandon route lease => exact ⟨held.bounded, by simp [NotificationRow.abandon],
      by simp [NotificationRow.abandon]⟩
  | lease route lease r leasable =>
    simp only [NotificationRow.leasable, Bool.and_eq_true, decide_eq_true_eq] at leasable
    refine ⟨?_, by simp [NotificationRow.leased], fun _ => rfl⟩
    change r.attempts + 1 ≤ maxAttempts
    lia
  | finish n r delivered same lease named sending =>
    refine ⟨held.bounded, fun pending => ?_, fun sending => ?_⟩
    · change r.attempts < maxAttempts
      simp only [NotificationRow.finished, NotificationRow.finalState] at pending
      grind
    · simp only [NotificationRow.finished, NotificationRow.finalState] at sending
      grind
  | acknowledge => exact ⟨held.bounded, held.pending, held.sending⟩

theorem settled
    (ended : r.state = .delivered ∨ r.state = .failed) : r'.state = r.state := by
  cases step with
  | same | acknowledge => rfl
  | abandon route lease r exhausted =>
    grind [NotificationRow.exhausted, NotificationRow.lapsed]
  | lease route lease r leasable =>
    grind [NotificationRow.leasable, NotificationRow.lapsed]
  | finish n r delivered same lease named sending => simp [sending] at ended

theorem acknowledged (known : r.acknowledgedBy ≠ []) :
    r'.acknowledgedBy ≠ [] := by
  cases step with
  | acknowledge p id eventID r waits => exact absurd waits known
  | _ => exact known

end

theorem delivered (step : RowStep now instant q r r') (done : r'.state = .delivered) :
    r.state = .delivered ∨ r.state = .sending ∧ ∃ n, q = .finishNotification n true ∧
      n.id = r.id ∧ n.lease = r.lease := by
  cases step with
  | same | acknowledge => exact Or.inl done
  | abandon | lease => cases done
  | finish n r delivered same lease named sending =>
    simp only [NotificationRow.finished, NotificationRow.finalState] at done
    split at done
    · rename_i yes
      exact Or.inr ⟨sending, n, by rw [yes], same.symm, lease.symm⟩
    · split at done <;> cases done

theorem lease_drawn (step : RowStep now instant q r r') :
    r'.lease = r.lease ∨ r'.lease = [] ∨ r'.lease ∈ q.generated := by
  cases step with
  | same | acknowledge => exact Or.inl rfl
  | abandon | finish => exact Or.inr (Or.inl rfl)
  | lease => exact Or.inr (Or.inr (by simp [NotificationRow.leased, Request.generated]))

theorem sending (step : RowStep now instant q r r') (busy : r'.state = .sending) :
    (r.state = .sending ∧ r'.lease = r.lease ∧ r'.attempts = r.attempts) ∨
      r'.lease ∈ q.generated := by
  cases step with
  | same | acknowledge => exact Or.inl ⟨busy, rfl, rfl⟩
  | abandon => cases busy
  | lease => exact Or.inr (by simp [NotificationRow.leased, Request.generated])
  | finish n r delivered =>
    simp only [NotificationRow.finished, NotificationRow.finalState] at busy
    split at busy
    · cases busy
    · split at busy <;> cases busy

end RowStep

/-! ## Histories -/

abbrev rowsAfter (scope : Scope) (history : List Entry) : List NotificationRow :=
  (replay scope history).notifications

section Histories

variable {scope : Scope}

theorem rows_step (e : Entry) (past : List Entry) :
    RowSteps e.call.now e.call.dbNow e.request (rowsAfter scope past)
      (rowsAfter scope (e :: past)) := by
  rcases Run.replay_cases (step scope) .empty e past with ⟨same, -⟩ | ⟨r, commits⟩
  · rw [show rowsAfter scope (e :: past) = rowsAfter scope past from
      congrArg Tables.notifications same]
    exact .refl _ _ _ _
  · obtain ⟨t', served, tables⟩ := Commits.served commits
    rw [show rowsAfter scope (e :: past) = t'.tables.notifications by rw [tables]]
    exact rows_served (told scope past) served

variable {past : List Entry} {e : Entry} {r' : NotificationRow}

private theorem row_origin (member : r' ∈ rowsAfter scope (e :: past)) :
    ∃ r, (r ∈ rowsAfter scope past ∨ Waiting r) ∧
      RowStep e.call.now e.call.dbNow e.request r r' := by
  obtain ⟨added, f, rows, waits, steps⟩ := rows_step e past
  rw [rows] at member
  obtain ⟨r, inside, rfl⟩ := mem_map.mp member
  exact ⟨r, (mem_append.mp inside).imp_right (waits r), steps r inside⟩

variable {r n : NotificationRow} {history : List Entry} {c : Call} {lease : Text} {route : Route}

private theorem row_next (member : r ∈ rowsAfter scope past) :
    ∃ r' ∈ rowsAfter scope (e :: past), RowStep e.call.now e.call.dbNow e.request r r' := by
  obtain ⟨added, f, rows, -, steps⟩ := rows_step e past
  have inside := mem_append_left added member
  exact ⟨f r, rows ▸ mem_map_of_mem inside, steps r inside⟩

private theorem row_later {P : NotificationRow → Prop}
    (keeps : ∀ {now instant q r r'}, RowStep now instant q r r' → P r → P r') (later : List Entry)
    (member : r ∈ rowsAfter scope past) (holds : P r) :
    ∃ r' ∈ rowsAfter scope (later ++ past), r'.id = r.id ∧ P r' := by
  induction later with
  | nil => exact ⟨r, member, rfl, holds⟩
  | cons e later ih =>
    obtain ⟨m, inside, same, held⟩ := ih
    obtain ⟨r', next, step⟩ := row_next inside
    exact ⟨r', next, step.id.trans same, keeps step held⟩

private theorem row_unique (member : r ∈ rowsAfter scope history)
    (member' : r' ∈ rowsAfter scope history) (same : r.id = r'.id) : r = r' :=
  inj_on_of_nodup_map (told scope history).ids member member' same

private theorem dispatched
    (commits : Commits scope past ⟨c, .dispatch route lease⟩ (.notification (some n))) :
    n ∈ rowsAfter scope (⟨c, .dispatch route lease⟩ :: past) ∧ n.lease = lease ∧
      n.acknowledgedBy = [] := by
  obtain ⟨t', served, tables⟩ := Commits.served commits
  obtain ⟨found, done, same⟩ := answer_ok served
  obtain rfl := Response.notification.inj same
  rw [rowsAfter, ← tables]
  exact dispatch_answer done

variable {c' : Call} {later middle : List Entry} {lease' : Text} {m : NotificationRow}
  {route' : Route}

section

variable (first : Commits scope past ⟨c, .dispatch route lease⟩ (.notification (some n)))
  (second : Commits scope (middle ++ ⟨c, .dispatch route lease⟩ :: past)
    ⟨c', .dispatch route' lease'⟩ (.notification (some m))) (same : m.id = n.id)
include first second same

private theorem lease_replaced
    (fresh : Fresh (later ++ ⟨c', .dispatch route' lease'⟩ ::
      (middle ++ ⟨c, .dispatch route lease⟩ :: past)))
    (member : r ∈ rowsAfter scope (later ++ ⟨c', .dispatch route' lease'⟩ ::
      (middle ++ ⟨c, .dispatch route lease⟩ :: past))) (named : r.id = n.id)
    (equal : r.lease = n.lease) : n.lease = [] := by
  have drawn : n.lease ∈ (⟨c, .dispatch route lease⟩ : Entry).request.generated := by
    simp [Request.generated, (dispatched first).2.1]
  have older : (⟨c, .dispatch route lease⟩ : Entry) ∈
      middle ++ (⟨c, .dispatch route lease⟩ : Entry) :: past := by simp
  induction later generalizing r with
  | nil =>
    obtain ⟨inside, chosen, -⟩ := dispatched second
    obtain rfl := row_unique member inside (named.trans same.symm)
    exact absurd drawn (fresh.not_drawn_before (by simp [Request.generated, ← equal, chosen]) older)
  | cons e later ih =>
    obtain ⟨q, origin, step⟩ := row_origin member
    rcases step.lease_drawn with kept | empty | new
    · rcases origin with inside | waits
      · exact ih fresh.past inside (step.id.symm.trans named) (kept.symm.trans equal)
      · rw [← equal, kept, waits.lease]
    · exact equal.symm.trans empty
    · exact absurd drawn (fresh.not_drawn_before (equal ▸ new) (by simp))

theorem stale_finish {d : Call} {delivered : Bool} (fresh : Fresh history)
    (cut : history = later ++ ⟨c', .dispatch route' lease'⟩ ::
      (middle ++ ⟨c, .dispatch route lease⟩ :: past)) :
    replay scope (⟨d, .finishNotification n delivered⟩ :: history) = replay scope history ∧
      ∀ r, ¬ Commits scope history ⟨d, .finishNotification n delivered⟩ r := by
  rcases Run.replay_cases (step scope) .empty ⟨d, .finishNotification n delivered⟩ history with
    failed | ⟨r, commits⟩
  · exact failed
  · obtain ⟨t', served, -⟩ := Commits.served commits
    obtain ⟨held, holds, ⟨row, member, hit⟩, named, -⟩ :=
      Tx.FinishNotification_ok (finish_ok (done_ok served).1)
    obtain ⟨id, equal, -⟩ := (holds row).mp hit
    subst cut
    exact absurd (lease_replaced first second same fresh member id equal) named

end

end Histories

/-! ## Workers -/

/-- A delivery that a worker has in hand, and what its send reported. -/
structure Flight where
  notification : NotificationRow
  sent : Option Bool

/-- The transactions so far and the deliveries in hand. -/
structure World where
  history : List Entry
  flights : List Flight

/-- Transactions other than a lease and the end of one. -/
def elsewhere : Request → Bool
  | .dispatch _ _ | .finishNotification _ _ => false
  | _ => true

/-- One step of any worker. A worker that loses the answer of a transaction, or that dies,
takes the step `crash`; one that finds nothing due takes `dispatch`. -/
inductive Next (scope : Scope) : World → World → Prop where
  | transact (w : World) (e : Entry) (other : elsewhere e.request = true) :
      Next scope w ⟨e :: w.history, w.flights⟩
  | dispatch (w : World) (c : Call) (route : Route) (lease : Text) :
      Next scope w ⟨⟨c, .dispatch route lease⟩ :: w.history, w.flights⟩
  | lease (w : World) (c : Call) (route : Route) (lease : Text) (n : NotificationRow)
      (commits : Commits scope w.history ⟨c, .dispatch route lease⟩ (.notification (some n))) :
      Next scope w ⟨⟨c, .dispatch route lease⟩ :: w.history, ⟨n, none⟩ :: w.flights⟩
  | send (history : List Entry) (before after : List Flight) (n : NotificationRow)
      (success : Bool) :
      Next scope ⟨history, before ++ ⟨n, none⟩ :: after⟩
        ⟨history, before ++ ⟨n, some success⟩ :: after⟩
  | finish (w : World) (c : Call) (n : NotificationRow) (success : Bool)
      (member : ⟨n, some success⟩ ∈ w.flights) :
      Next scope w ⟨⟨c, .finishNotification n success⟩ :: w.history, w.flights⟩
  | crash (history : List Entry) (before after : List Flight) (f : Flight) :
      Next scope ⟨history, before ++ f :: after⟩ ⟨history, before ++ after⟩

abbrev Later (scope : Scope) : World → World → Prop := Relation.ReflTransGen (Next scope)

abbrev Reached (scope : Scope) (w : World) : Prop := Later scope ⟨[], []⟩ w

/-- Rows are sound, and flights know the attempts of the rows that still carry their lease. -/
structure Protocol (scope : Scope) (w : World) : Prop where
  sound : ∀ r ∈ rowsAfter scope w.history, Sound r
  drawn : ∀ f ∈ w.flights, ∃ e ∈ w.history, f.notification.lease ∈ e.request.generated
  current : ∀ f ∈ w.flights, ∀ r ∈ rowsAfter scope w.history, r.id = f.notification.id →
    r.lease = f.notification.lease → r.state = .sending → r.attempts = f.notification.attempts

section Workers

variable {scope : Scope} {w w' : World}

theorem Next.history (next : Next scope w w') : ∃ added, w'.history = added ++ w.history := by
  cases next with
  | send | crash => exact ⟨[], rfl⟩
  | transact | dispatch | lease | finish => exact ⟨[_], rfl⟩

theorem Later.history (later : Later scope w w') : ∃ added, w'.history = added ++ w.history := by
  induction later with
  | refl => exact ⟨[], rfl⟩
  | tail _ next ih =>
    obtain ⟨added, same⟩ := ih
    obtain ⟨more, equal⟩ := next.history
    exact ⟨more ++ added, by rw [equal, same, append_assoc]⟩

omit [Platform] in
private theorem Fresh.older_history {added past : List Entry} (fresh : Fresh (added ++ past)) :
    Fresh past := by
  rw [Fresh, flatMap_append, nodup_append] at fresh
  exact fresh.2.1

private theorem Protocol.entry {e : Entry} (held : Protocol scope w)
    (fresh : Fresh (e :: w.history))
    (ended : ∀ n success, e.request = .finishNotification n success →
      ∃ f ∈ w.flights, f.notification = n) :
    Protocol scope ⟨e :: w.history, w.flights⟩ := by
  have current {f : Flight} {r : NotificationRow} (flying : f ∈ w.flights)
      (origin : r ∈ rowsAfter scope w.history ∨ Waiting r) (busy : r.state = .sending)
      (same : r.id = f.notification.id) (lease : r.lease = f.notification.lease) :
      r.attempts = f.notification.attempts := by
    rcases origin with member | waits
    · exact held.current f flying r member same lease busy
    · rw [waits.state] at busy
      cases busy
  refine ⟨fun r' member => ?_, fun f flying => ?_, fun f flying r' member same lease busy => ?_⟩
  · obtain ⟨r, origin, step⟩ := row_origin member
    refine step.sound (fun n success request id lease busy => ?_) ?_
    · grind
    · rcases origin with member | waits
      · exact held.sound r member
      · refine ⟨by rw [waits.attempts]; decide, fun _ => by rw [waits.attempts]; decide, ?_⟩
        rw [waits.state]
        exact fun impossible => NotificationState.noConfusion impossible
  · obtain ⟨d, older, drawn⟩ := held.drawn f flying
    exact ⟨d, mem_cons_of_mem _ older, drawn⟩
  · obtain ⟨r, origin, step⟩ := row_origin member
    rcases step.sending busy with ⟨was, kept, attempts⟩ | new
    · rw [attempts]
      exact current flying origin was (step.id.symm.trans same) (kept.symm.trans lease)
    · obtain ⟨d, older, drawn⟩ := held.drawn f flying
      exact absurd drawn (fresh.not_drawn_before (lease ▸ new) older)

theorem Protocol.next (held : Protocol scope w) (next : Next scope w w')
    (fresh : Fresh w'.history) : Protocol scope w' := by
  cases next with
  | transact _ e other =>
    refine held.entry fresh fun n success request => ?_
    rw [request] at other
    cases other
  | dispatch c route lease =>
    exact held.entry fresh fun n success request => Request.noConfusion request
  | lease _ c route lease n commits =>
    have rest := held.entry fresh fun n success request => Request.noConfusion request
    obtain ⟨inside, chosen, -⟩ := dispatched commits
    refine ⟨rest.sound, fun f flying => ?_, fun f flying r member same equal busy => ?_⟩
    · rcases mem_cons.mp flying with rfl | flying
      · exact ⟨_, mem_cons_self, by simp [Request.generated, chosen]⟩
      · exact rest.drawn f flying
    · rcases mem_cons.mp flying with rfl | flying
      · exact congrArg NotificationRow.attempts (row_unique member inside same)
      · exact rest.current f flying r member same equal busy
  | send history before after n success =>
    refine ⟨held.sound, fun f flying => ?_, fun f flying => ?_⟩ <;>
      rcases mem_append.mp flying with flying | flying
    · exact held.drawn f (by simp [flying])
    · rcases mem_cons.mp flying with rfl | flying
      · exact held.drawn ⟨n, none⟩ (by simp)
      · exact held.drawn f (by simp [flying])
    · exact held.current f (by simp [flying])
    · rcases mem_cons.mp flying with rfl | flying
      · exact held.current ⟨n, none⟩ (by simp)
      · exact held.current f (by simp [flying])
  | finish _ c n success member =>
    refine held.entry fresh fun m ok request => ?_
    grind
  | crash history before after f =>
    have fewer {g : Flight} (flying : g ∈ before ++ after) : g ∈ before ++ f :: after := by
      rcases mem_append.mp flying with flying | flying <;> simp [flying]
    exact ⟨held.sound, fun g flying => held.drawn g (fewer flying),
      fun g flying => held.current g (fewer flying)⟩

theorem protocol (reached : Reached scope w) (fresh : Fresh w.history) : Protocol scope w := by
  induction reached with
  | refl => exact ⟨by simp [rowsAfter, Run.replay, Tables.empty], by simp, by simp⟩
  | tail _ next ih =>
    obtain ⟨added, same⟩ := next.history
    exact (ih (Fresh.older_history (same ▸ fresh))).next next fresh

variable {lease : Text} {r : NotificationRow}

omit [Platform] in
private theorem LeaseNotification_gives_up {t t' : Tx} {route : Text}
    {found : Option NotificationRow}
    (unique : (t.tables.notifications.map NotificationRow.id).Nodup)
    (ok : t.LeaseNotification route lease = .ok (found, t')) (member : r ∈ t.tables.notifications)
    (exhausted : r.exhausted route t.now = true) : r.abandon ∈ t'.tables.notifications := by
  have given : r.abandon ∈ t.abandoned route := mem_update.mpr ⟨r, member, Or.inl ⟨exhausted, rfl⟩⟩
  have same : (t.abandoned route).map NotificationRow.id =
      t.tables.notifications.map NotificationRow.id := map_update fun _ _ _ => rfl
  have ids : ((t.abandoned route).map NotificationRow.id).Nodup := same ▸ unique
  rcases Tx.LeaseNotification_ok ok with ⟨-, -, rfl⟩ | ⟨n, chosen, leasable, -, rfl⟩
  · exact given
  · refine mem_update.mpr ⟨r.abandon, given, Or.inr ⟨decide_eq_false fun same => ?_, rfl⟩⟩
    rw [← inj_on_of_nodup_map ids given chosen same] at leasable
    simp [NotificationRow.leasable, NotificationRow.abandon, NotificationRow.lapsed] at leasable

variable {c : Call} {route : Route} {now : Time}

private theorem dispatch_gives_up {history : List Entry} {response : Response}
    (member : r ∈ rowsAfter scope history) (exhausted : r.exhausted route.id c.dbNow = true)
    (commits : Commits scope history ⟨c, .dispatch route lease⟩ response) :
    ∃ r' ∈ rowsAfter scope (⟨c, .dispatch route lease⟩ :: history),
      r'.id = r.id ∧ r'.state = .failed := by
  obtain ⟨t', served, tables⟩ := Commits.served commits
  obtain ⟨found, done, -⟩ := answer_ok served
  obtain ⟨u, v, materialized, escalated, leased⟩ := dispatch_ok done
  obtain ⟨first, rows, -⟩ := materialize_grows materialized
  obtain ⟨second, rows', -⟩ := escalate_grows escalated
  have instant : v.now = c.dbNow := (escalate_writes escalated).now.trans
    (materialize_writes materialized).now
  rw [show rowsAfter scope (⟨c, .dispatch route lease⟩ :: history) = t'.tables.notifications by
    rw [tables]]
  refine ⟨r.abandon, LeaseNotification_gives_up
    (prepared_told materialized escalated (told scope history)).ids leased ?_ (instant ▸ exhausted),
    rfl, rfl⟩
  rw [rows', rows]
  exact mem_append_left _ (mem_append_left _ member)

private theorem settled_later (later : Later scope w w') (member : r ∈ rowsAfter scope w.history)
    (ended : r.state = .delivered ∨ r.state = .failed) :
    ∃ r' ∈ rowsAfter scope w'.history, r'.id = r.id ∧ r'.state = r.state := by
  obtain ⟨added, same⟩ := Later.history later
  rw [same]
  refine row_later (P := fun q => q.state = r.state) (fun step state => ?_) added member rfl
  exact (step.settled (state ▸ ended)).trans state

/-- The notification was delivered before, or is in the hands of a worker that sent it. -/
private def Sent (scope : Scope) (w : World) (id : Text) : Prop :=
  ∃ r ∈ rowsAfter scope w.history, r.id = id ∧ (r.state = .delivered ∨ r.state = .sending ∧
    ∃ f ∈ w.flights, f.notification.id = r.id ∧ f.notification.lease = r.lease ∧
      f.sent = some true)

private theorem delivered_by_send (next : Next scope w w') {r' : NotificationRow}
    (member : r' ∈ rowsAfter scope w'.history) (done : r'.state = .delivered) :
    Sent scope w r'.id := by
  have entered {e : Entry} (member : r' ∈ rowsAfter scope (e :: w.history)) :
      ∃ r ∈ rowsAfter scope w.history, r.id = r'.id ∧ (r.state = .delivered ∨
        r.state = .sending ∧ ∃ n, e.request = .finishNotification n true ∧ n.id = r.id ∧
          n.lease = r.lease) := by
    obtain ⟨r, origin, step⟩ := row_origin member
    have before := step.delivered done
    rcases origin with inside | waits
    · exact ⟨r, inside, step.id.symm, before⟩
    · simp [waits.state] at before
  have unended {e : Entry} (member : r' ∈ rowsAfter scope (e :: w.history))
      (other : ∀ n, e.request ≠ .finishNotification n true) : Sent scope w r'.id := by
    obtain ⟨r, inside, same, before⟩ := entered member
    exact ⟨r, inside, same, before.imp_right fun ⟨_, n, request, _⟩ => absurd request (other n)⟩
  cases next with
  | transact _ e other =>
    refine unended member fun n request => ?_
    rw [request] at other
    cases other
  | dispatch | lease => exact unended member fun n request => Request.noConfusion request
  | send | crash => exact ⟨r', member, rfl, Or.inl done⟩
  | finish _ c n success flying =>
    obtain ⟨r, inside, same, before⟩ := entered member
    refine ⟨r, inside, same, before.imp_right fun ⟨busy, m, request, id, lease⟩ => ?_⟩
    obtain ⟨rfl, rfl⟩ := Request.finishNotification.inj request
    exact ⟨busy, _, flying, id, lease, rfl⟩

private theorem acknowledged_not_leased (later : Later scope w w')
    (member : r ∈ rowsAfter scope w.history) (known : r.acknowledgedBy ≠ []) {n : NotificationRow}
    (commits : Commits scope w'.history ⟨c, .dispatch route lease⟩ (.notification (some n))) :
    n.id ≠ r.id := by
  intro same
  obtain ⟨added, equal⟩ := Later.history later
  obtain ⟨inside, -, unknown⟩ := dispatched commits
  obtain ⟨r', last, id, marked⟩ := row_later (P := fun q => q.acknowledgedBy ≠ [])
    (fun step marked => step.acknowledged marked) (⟨c, .dispatch route lease⟩ :: added) member known
  rw [cons_append, ← equal] at last
  rw [row_unique last inside (id.trans same.symm)] at marked
  exact marked unknown

omit [Platform] in
private theorem Sound.pending_leasable (sound : Sound r) (waits : r.acknowledgedBy = [])
    (pending : r.state = .pending) (due : r.nextAttemptAt ≤ now) :
    r.leasable r.routeID now = true := by
  simp [NotificationRow.leasable, waits, pending, due, sound.pending pending]

omit [Platform] in
private theorem lapsed_cases {deadline : Time} (waits : r.acknowledgedBy = [])
    (busy : r.state = .sending) (until_ : r.leaseUntil = some deadline) (past : deadline < now) :
    if r.attempts < maxAttempts then r.leasable r.routeID now = true
    else r.exhausted r.routeID now = true := by
  have lapsed : r.lapsed now = true := by simp [NotificationRow.lapsed, busy, until_, past]
  simp_all [NotificationRow.leasable, NotificationRow.exhausted]

/-- The delivery protocol in every reached world, and from it on. -/
theorem notification_protocol (reached : Reached scope w) (fresh : Fresh w.history) :
    ((rowsAfter scope w.history).map fun r => (r.eventID, r.routeID)).Nodup ∧
    (∀ r ∈ rowsAfter scope w.history, r.attempts ≤ 8 ∧ (r.state = .pending → r.attempts < 8)) ∧
    (∀ later c' route' lease' middle c route lease past n m d delivered,
      w.history = later ++ ⟨c', .dispatch route' lease'⟩ ::
        (middle ++ ⟨c, .dispatch route lease⟩ :: past) →
      Commits scope past ⟨c, .dispatch route lease⟩ (.notification (some n)) →
      Commits scope (middle ++ ⟨c, .dispatch route lease⟩ :: past) ⟨c', .dispatch route' lease'⟩
        (.notification (some m)) → m.id = n.id →
      replay scope (⟨d, .finishNotification n delivered⟩ :: w.history) = replay scope w.history ∧
        ∀ response, ¬ Commits scope w.history ⟨d, .finishNotification n delivered⟩ response) ∧
    (∀ w', Later scope w w' → ∀ r ∈ rowsAfter scope w.history,
      r.state = .delivered ∨ r.state = .failed →
      ∃ r' ∈ rowsAfter scope w'.history, r'.id = r.id ∧ r'.state = r.state) ∧
    (∀ w', Next scope w w' → ∀ r' ∈ rowsAfter scope w'.history, r'.state = .delivered →
      ∃ r ∈ rowsAfter scope w.history, r.id = r'.id ∧ (r.state = .delivered ∨ r.state = .sending ∧
        ∃ f ∈ w.flights, f.notification.id = r.id ∧ f.notification.lease = r.lease ∧
          f.sent = some true)) ∧
    (∀ w', Later scope w w' → ∀ r ∈ rowsAfter scope w.history, r.acknowledgedBy ≠ [] →
      ∀ c route lease n,
        Commits scope w'.history ⟨c, .dispatch route lease⟩ (.notification (some n)) →
        n.id ≠ r.id) ∧
    (∀ r ∈ rowsAfter scope w.history, r.acknowledgedBy = [] →
      (r.state = .pending → ∀ now, r.nextAttemptAt ≤ now → r.leasable r.routeID now = true) ∧
      (r.state = .sending → ∃ deadline, r.leaseUntil = some deadline ∧
        ((∀ now, deadline < now → r.leasable r.routeID now = true) ∨
          ∀ (c : Call) (route : Route) (lease : Text) (response : Response),
            route.id = r.routeID → deadline < c.dbNow →
            Commits scope w.history ⟨c, .dispatch route lease⟩ response →
            ∃ r' ∈ rowsAfter scope (⟨c, .dispatch route lease⟩ :: w.history),
              r'.id = r.id ∧ r'.state = .failed))) := by
  have held := protocol reached fresh
  refine ⟨(told scope w.history).pairs, fun r member => ⟨(held.sound r member).bounded,
    (held.sound r member).pending⟩, ?_, ?_, ?_, ?_, fun r member waits => ⟨?_, ?_⟩⟩
  · intro later c' route' lease' middle c route lease past n m d delivered cut first second same
    exact stale_finish first second same fresh cut
  · exact fun w' later r member ended => settled_later later member ended
  · exact fun w' next r' member done => delivered_by_send next member done
  · exact fun w' later r member known c route lease n commits =>
      acknowledged_not_leased later member known commits
  · exact fun pending now due => (held.sound r member).pending_leasable waits pending due
  · intro busy
    obtain ⟨deadline, set⟩ := Option.isSome_iff_exists.mp ((held.sound r member).sending busy)
    refine ⟨deadline, set, ?_⟩
    by_cases few : r.attempts < maxAttempts
    · refine Or.inl fun now past => ?_
      simpa [few] using lapsed_cases waits busy set past
    · refine Or.inr fun c route lease response same past commits => ?_
      refine dispatch_gives_up member ?_ commits
      simpa [few, same] using lapsed_cases waits busy set past

end Workers

namespace Outage

open Orchestrator.Sample (scope start)

omit [Platform]

def leased : NotificationRow where
  id := notificationID
  eventID := "outbox-2"
  routeID := "pager"
  kind := .incidentCreated
  incidentID := "incident-1"
  state := .sending
  attempts := 1
  createdAt := start + 10 * second
  deliveredAt := none
  acknowledgedBy := []
  lease := "lease-1"
  leaseUntil := some (start + 40 * second)
  nextAttemptAt := start + 10 * second

def answered : Response → Option NotificationRow
  | .notification n => n
  | _ => none

def delivered : List Entry :=
  entry 12 (.finishNotification leased true) :: entry 10 (.dispatch route "lease-1") :: reported

private theorem delivered_reached : @Reached platform scope ⟨delivered, [⟨leased, some true⟩]⟩ := by
  have told : @Reached platform scope ⟨reported, []⟩ := by
    repeat
      first
        | exact Relation.ReflTransGen.refl
        | refine Relation.ReflTransGen.tail ?_ (@Next.transact platform scope ⟨_, []⟩ _ rfl)
  obtain ⟨r, commits, same⟩ : ∃ r, @Commits platform scope reported
      (entry 10 (.dispatch route "lease-1")) r ∧ answered r = some leased :=
    Run.Commits.of_eval (by decide +kernel)
  obtain rfl : r = .notification (some leased) := by
    cases r <;> simp_all [answered]
  have sending := told.tail (@Next.lease platform scope ⟨reported, []⟩ _ route "lease-1" leased commits)
  have sent := sending.tail (@Next.send platform scope _ [] [] leased true)
  exact sent.tail (@Next.finish platform scope _ _ leased true mem_cons_self)

theorem notification_protocol_sample :
    ((@rowsAfter platform scope delivered).map NotificationRow.state = [.delivered]) ∧
    ∀ r ∈ @rowsAfter platform scope delivered,
      r.attempts ≤ 8 ∧ (r.state = .pending → r.attempts < 8) :=
  ⟨by decide +kernel,
    (@notification_protocol platform scope ⟨delivered, [⟨leased, some true⟩]⟩ delivered_reached
      (by unfold Fresh; decide)).2.1⟩

end Outage

end Sre.Server
