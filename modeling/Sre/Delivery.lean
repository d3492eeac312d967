/- GID: Sre/Delivery
   digest: Notifications of outbox events to routes, and the delivery of one leased attempt. -/

import Sre.Storage.Frame

set_option autoImplicit false

namespace Sre.Storage

open Foundation.Json Foundation.Outcome Foundation.Sql Identity Incident List

/-- Collector reports and other internal events are not sent to operators. -/
def notifiable : List EventKind :=
  [.incidentCreated, .investigationRecorded, .actionUpdated, .claimCorroborated,
    .adjudicationRecorded, .knowledgePublished, .recoveryChanged, .clarificationRequested]

def maxAttempts : ℤ := 8

def NotificationLeaseDuration : Duration := 30 * second

namespace NotificationRow

/-- A lease that its sender let run out. -/
def lapsed (now : Time) (r : NotificationRow) : Bool :=
  decide (r.state = .sending) &&
    (match r.leaseUntil with | none => false | some deadline => decide (deadline < now))

/-- The last attempt was abandoned. -/
def exhausted (route : Text) (now : Time) (r : NotificationRow) : Bool :=
  r.lapsed now && decide (r.routeID = route ∧ maxAttempts ≤ r.attempts)

def abandon (r : NotificationRow) : NotificationRow :=
  { r with state := .failed, lease := [], leaseUntil := none }

def leasable (route : Text) (now : Time) (r : NotificationRow) : Bool :=
  decide (r.routeID = route ∧ r.acknowledgedBy = [] ∧ r.attempts < maxAttempts) &&
    (decide (r.state = .pending ∧ r.nextAttemptAt ≤ now) || r.lapsed now)

def leased (r : NotificationRow) (lease : Text) (now : Time) : NotificationRow :=
  { r with
    state := .sending
    lease := lease
    leaseUntil := some (now + NotificationLeaseDuration)
    attempts := r.attempts + 1 }

/-- The state after a send: failures are tried again until the attempts are used up. -/
def finalState (n : NotificationRow) (delivered : Bool) : NotificationState :=
  if delivered then .delivered else if maxAttempts ≤ n.attempts then .failed else .pending

def delay (n : NotificationRow) : Duration := 2 ^ (min n.attempts maxAttempts).toNat * second

/-- `n` is the leased notification, as its sender holds it. -/
def finished (r n : NotificationRow) (delivered : Bool) (now : Time) : NotificationRow :=
  { r with
    state := n.finalState delivered
    deliveredAt := if delivered then some (timestamptz now) else none
    lease := []
    leaseUntil := none
    nextAttemptAt := timestamptz (now + n.delay) }

end NotificationRow

namespace Tx

/-- Routes that were never registered take the whole backlog. -/
def sinceRegistered (t : Tx) (route : Text) (createdAt : Time) : Bool :=
  match t.tables.notificationRoutes.find? (fun r => r.id = route) with
  | none => true
  | some r => decide (r.registeredAt ≤ createdAt)

def notified (t : Tx) (eventID route : Text) : Bool :=
  t.tables.notifications.any fun n => decide (n.eventID = eventID ∧ n.routeID = route)

/-- `ON CONFLICT DO NOTHING`: both keys must be free. -/
def insertNotification (rows : List NotificationRow) (n : NotificationRow) : List NotificationRow :=
  if rows.any (fun r => decide (r.id = n.id ∨ r.eventID = n.eventID ∧ r.routeID = n.routeID)) then
    rows
  else rows ++ [n]

def insertNotifications (rows new : List NotificationRow) : List NotificationRow :=
  new.foldl insertNotification rows

/-- The next notification of the route under the generated lease, if any is due. -/
def LeaseNotification (t : Tx) (route lease : Text) :
    Except Error (Option NotificationRow × Tx) := do
  require (ValidID route) .invalid
  let rows := update (NotificationRow.exhausted route t.now) NotificationRow.abandon
    t.tables.notifications
  match (ascending (fun r => toLex (r.nextAttemptAt, r.id))
      (rows.filter (NotificationRow.leasable route t.now))).head? with
  | none => return (none, { t with tables := { t.tables with notifications := rows } })
  | some n =>
    return (some (n.leased lease t.now), { t with tables := { t.tables with
      notifications := update (fun r => decide (r.id = n.id)) (fun r => r.leased lease t.now)
        rows } })

def FinishNotification (t : Tx) (n : NotificationRow) (delivered : Bool) (now : Time) :
    Except Error Tx := do
  require (ValidID n.id && ValidID n.lease) .invalid
  let held (r : NotificationRow) : Bool :=
    decide (r.id = n.id ∧ r.lease = n.lease ∧ r.state = .sending)
  require (t.tables.notifications.any held) .conflict
  return { t with tables := { t.tables with
    notifications := update held (fun r => r.finished n delivered now) t.tables.notifications } }

def AcknowledgeNotification (t : Tx) (id actor eventID : Text) : Except Error Tx := do
  require (ValidID id && ValidID actor) .invalid
  let waits (r : NotificationRow) : Bool := decide (r.id = id ∧ r.acknowledgedBy = [])
  if t.tables.notifications.any waits then do
    let marked : Tx := { t with tables := { t.tables with
      notifications := update waits (fun r => { r with acknowledgedBy := actor })
        t.tables.notifications } }
    marked.Enqueue eventID ("ack_".toList ++ id) .notificationAcknowledged
      (stringMap [("notification_id", id), ("actor_id", actor)])
  else do
    require (t.tables.notifications.any fun r => r.id = id) .notFound
    return t

/-- A route keeps the instant of its first registration. -/
def RegisterNotificationRoute (t : Tx) (id : Text) : Except Error Tx := do
  require (ValidID id) .invalid
  if t.tables.notificationRoutes.any (fun r => decide (r.id = id)) then return t
  else return { t with tables := { t.tables with
    notificationRoutes := t.tables.notificationRoutes ++ [⟨id, t.now⟩] } }

section Insertion

theorem insertNotification_cases (rows : List NotificationRow) (n : NotificationRow) :
    (insertNotification rows n = rows ∧
      ∃ r ∈ rows, r.id = n.id ∨ r.eventID = n.eventID ∧ r.routeID = n.routeID) ∨
    (insertNotification rows n = rows ++ [n] ∧
      ∀ r ∈ rows, r.id ≠ n.id ∧ ¬ (r.eventID = n.eventID ∧ r.routeID = n.routeID)) := by
  unfold insertNotification
  split
  · rename_i taken
    exact Or.inl ⟨rfl, by simpa using taken⟩
  · rename_i free
    exact Or.inr ⟨rfl, by simpa using free⟩

theorem insertNotifications_extends (rows new : List NotificationRow) :
    ∃ added, insertNotifications rows new = rows ++ added ∧ added ⊆ new := by
  induction new generalizing rows with
  | nil => exact ⟨[], by simp [insertNotifications], by simp⟩
  | cons n new ih =>
    obtain ⟨added, same, within⟩ := ih (insertNotification rows n)
    rcases insertNotification_cases rows n with ⟨kept, -⟩ | ⟨grown, -⟩
    · grind [insertNotifications]
    · refine ⟨n :: added, ?_, cons_subset_cons _ within⟩
      rw [append_cons, ← grown]
      exact same

theorem insertNotifications_nodup {rows new : List NotificationRow}
    (ids : (rows.map NotificationRow.id).Nodup)
    (pairs : (rows.map fun r => (r.eventID, r.routeID)).Nodup) :
    ((insertNotifications rows new).map NotificationRow.id).Nodup ∧
      ((insertNotifications rows new).map fun r => (r.eventID, r.routeID)).Nodup := by
  induction new generalizing rows with
  | nil => exact ⟨ids, pairs⟩
  | cons n new ih =>
    rcases insertNotification_cases rows n with ⟨kept, -⟩ | ⟨grown, free⟩
    · have same : insertNotifications rows (n :: new) = insertNotifications rows new := by
        rw [insertNotifications, foldl_cons, kept]
        rfl
      rw [same]
      exact ih ids pairs
    · have same : insertNotifications rows (n :: new) = insertNotifications (rows ++ [n]) new := by
        rw [insertNotifications, foldl_cons, grown]
        rfl
      rw [same]
      refine ih ?_ ?_
      · rw [map_append, nodup_append]
        refine ⟨ids, by simp, fun a inside b last same => ?_⟩
        obtain ⟨r, member, rfl⟩ := mem_map.mp inside
        exact (free r member).1 (same.trans (by simpa using last))
      · rw [map_append, nodup_append]
        refine ⟨pairs, by simp, fun a inside b last same => ?_⟩
        obtain ⟨r, member, rfl⟩ := mem_map.mp inside
        have equal : (r.eventID, r.routeID) = (n.eventID, n.routeID) :=
          same.trans (by simpa using last)
        exact (free r member).2 (Prod.mk.inj equal)

theorem insertNotifications_covers {rows new : List NotificationRow} {n : NotificationRow}
    (member : n ∈ new) : ∃ r ∈ insertNotifications rows new,
      r.id = n.id ∨ r.eventID = n.eventID ∧ r.routeID = n.routeID := by
  induction new generalizing rows with
  | nil => simp at member
  | cons m new ih =>
    rcases mem_cons.mp member with rfl | inside
    · obtain ⟨added, same, -⟩ := insertNotifications_extends (insertNotification rows n) new
      have whole : insertNotifications rows (n :: new) = insertNotification rows n ++ added := same
      rcases insertNotification_cases rows n with ⟨kept, r, held, taken⟩ | ⟨grown, -⟩
      · exact ⟨r, by rw [whole, kept]; simp [held], taken⟩
      · exact ⟨n, by rw [whole, grown]; simp, Or.inl rfl⟩
    · exact @ih (insertNotification rows m) inside

end Insertion

section Operations

variable {t t' : Tx}

/-- The lease call first gives up what was tried too often. -/
def abandoned (t : Tx) (route : Text) : List NotificationRow :=
  update (NotificationRow.exhausted route t.now) NotificationRow.abandon t.tables.notifications

theorem LeaseNotification_ok {route lease : Text} {found : Option NotificationRow}
    (ok : t.LeaseNotification route lease = .ok (found, t')) :
    (found = none ∧ (∀ r ∈ t.abandoned route, r.leasable route t.now = false) ∧
      t' = { t with tables := { t.tables with notifications := t.abandoned route } }) ∨
    ∃ n ∈ t.abandoned route, n.leasable route t.now = true ∧ found = some (n.leased lease t.now) ∧
      t' = { t with tables := { t.tables with
        notifications := update (fun r => decide (r.id = n.id)) (fun r => r.leased lease t.now)
          (t.abandoned route) } } := by
  simp only [LeaseNotification, bind_ok, require_ok] at ok
  obtain ⟨-, -, rest⟩ := ok
  split at rest
  · rename_i none_
    obtain ⟨rfl, rfl⟩ := Prod.mk.inj (pure_ok.mp rest)
    refine Or.inl ⟨rfl, fun r member => ?_, rfl⟩
    rw [head?_eq_none_iff] at none_
    have absent : r ∉ ascending (fun r : NotificationRow => toLex (r.nextAttemptAt, r.id))
        ((t.abandoned route).filter (NotificationRow.leasable route t.now)) := by
      intro inside
      exact absurd (none_ ▸ inside) (by simp)
    rw [mem_ascending, mem_filter] at absent
    simpa [member] using absent
  · rename_i n chosen
    obtain ⟨rfl, rfl⟩ := Prod.mk.inj (pure_ok.mp rest)
    have member := mem_of_head? chosen
    rw [mem_ascending, mem_filter] at member
    exact Or.inr ⟨n, member.1, member.2, rfl, rfl⟩

theorem FinishNotification_ok {n : NotificationRow} {delivered : Bool} {now : Time}
    (ok : t.FinishNotification n delivered now = .ok t') :
    ∃ held : NotificationRow → Bool,
      (∀ r, held r = true ↔ r.id = n.id ∧ r.lease = n.lease ∧ r.state = .sending) ∧
      (∃ r ∈ t.tables.notifications, held r = true) ∧ n.lease ≠ [] ∧
      t' = { t with tables := { t.tables with
        notifications := update held (fun r => r.finished n delivered now)
          t.tables.notifications } } := by
  simp only [FinishNotification, bind_ok, require_ok, pure_ok, Bool.and_eq_true] at ok
  obtain ⟨-, ⟨-, valid⟩, -, some_, rfl⟩ := ok
  refine ⟨_, fun r => by simp, any_eq_true.mp some_, fun empty => ?_, rfl⟩
  simp [empty, ValidID, byteSize] at valid

theorem AcknowledgeNotification_ok {id actor eventID : Text}
    (ok : t.AcknowledgeNotification id actor eventID = .ok t') :
    t' = t ∨ ∃ u, u = { t with tables := { t.tables with
        notifications := update (fun r => decide (r.id = id ∧ r.acknowledgedBy = []))
          (fun r => { r with acknowledgedBy := actor }) t.tables.notifications } } ∧ actor ≠ [] ∧
      u.Enqueue eventID ("ack_".toList ++ id) .notificationAcknowledged
        (stringMap [("notification_id", id), ("actor_id", actor)]) = .ok t' := by
  simp only [AcknowledgeNotification, bind_ok, require_ok, Bool.and_eq_true] at ok
  obtain ⟨-, ⟨-, valid⟩, rest⟩ := ok
  split at rest
  · refine Or.inr ⟨_, rfl, fun empty => ?_, rest⟩
    simp [empty, ValidID, byteSize] at valid
  · simp only [bind_ok, pure_ok] at rest
    exact Or.inl rest.choose_spec.2.symm

end Operations

section Frames

variable {t t' : Tx}

private theorem notifications_written {rows : List NotificationRow}
    (same : t' = { t with tables := { t.tables with notifications := rows } }) :
    Writes [.notifications] [] t t' := by
  subst same
  exact .of_tables (by rintro ⟨⟩ <;> first | exact .inl rfl | simp)

theorem LeaseNotification_writes {route lease : Text} {found : Option NotificationRow}
    (ok : t.LeaseNotification route lease = .ok (found, t')) : Writes [.notifications] [] t t' := by
  rcases LeaseNotification_ok ok with ⟨-, -, same⟩ | ⟨n, -, -, -, same⟩
  · exact notifications_written same
  · exact notifications_written same

theorem FinishNotification_writes {n : NotificationRow} {delivered : Bool} {now : Time}
    (ok : t.FinishNotification n delivered now = .ok t') : Writes [.notifications] [] t t' := by
  obtain ⟨held, -, -, -, same⟩ := FinishNotification_ok ok
  exact notifications_written same

theorem AcknowledgeNotification_writes {id actor eventID : Text}
    (ok : t.AcknowledgeNotification id actor eventID = .ok t') :
    Writes [.notifications, .outbox] [.notificationAcknowledged] t t' := by
  rcases AcknowledgeNotification_ok ok with rfl | ⟨u, same, -, queued⟩
  · exact Writes.refl _ _ _
  · exact ((notifications_written same).mono (by decide)).trans
      ((Enqueue_writes queued).mono (by decide))

theorem RegisterNotificationRoute_writes {id : Text}
    (ok : t.RegisterNotificationRoute id = .ok t') : Writes [.notificationRoutes] [] t t' := by
  simp only [RegisterNotificationRoute, bind_ok] at ok
  obtain ⟨-, -, rest⟩ := ok
  split at rest
  · exact pure_ok.mp rest ▸ Writes.refl _ _ _
  · obtain rfl := pure_ok.mp rest
    exact .of_tables (by rintro ⟨⟩ <;> first | exact .inl rfl | simp)

end Frames

variable [Platform]

def notificationID (eventID route : Text) : Text := Platform.md5 (eventID ++ '/' :: route)

def newNotification (t : Tx) (eventID route : Text) (kind : EventKind) (incidentID : Text) :
    NotificationRow :=
  ⟨notificationID eventID route, eventID, route, kind, incidentID, .pending, 0, t.now, none, [], [],
    none, t.now⟩

def untold (t : Tx) (route : Text) : List OutboxRow :=
  (ascending (fun r => toLex (r.createdAt, r.id)) (t.tables.outbox.filter fun o =>
    decide (o.kind ∈ notifiable) && t.sinceRegistered route o.createdAt &&
      !t.notified o.id route)).take 50

def MaterializeNotifications (t : Tx) (route : Text) : Except Error Tx := do
  require (ValidID route) .invalid
  return { t with tables := { t.tables with
    notifications := insertNotifications t.tables.notifications ((t.untold route).map fun o =>
      t.newNotification o.id route o.kind o.incidentID) } }

/-- Old notifications of a route that nobody acknowledged and that `dest` has not got. -/
def escalating (t : Tx) (route dest : Text) (before : Time) : List NotificationRow :=
  (ascending NotificationRow.createdAt (t.tables.notifications.filter fun n =>
    decide (n.routeID = route ∧ n.acknowledgedBy = [] ∧ n.createdAt ≤ before ∧
      (n.state = .delivered ∨ n.state = .failed)) &&
    (t.tables.outbox.any fun o =>
      decide (o.id = n.eventID) && t.sinceRegistered dest o.createdAt) &&
    !t.notified n.eventID dest)).take 50

def EscalateNotifications (t : Tx) (route dest : Text) (delay : Duration) (now : Time) :
    Except Error Tx := do
  require (ValidID route && ValidID dest && decide (route ≠ dest ∧ minute ≤ delay)) .invalid
  return { t with tables := { t.tables with
    notifications := insertNotifications t.tables.notifications
      ((t.escalating route dest (timestamptz (now - delay))).map fun n =>
        t.newNotification n.eventID dest n.kind n.incidentID) } }

section Materialization

variable {t t' : Tx} {route : Text}

theorem MaterializeNotifications_ok (ok : t.MaterializeNotifications route = .ok t') :
    ValidID route = true ∧ t' = { t with tables := { t.tables with
      notifications := insertNotifications t.tables.notifications ((t.untold route).map fun o =>
        t.newNotification o.id route o.kind o.incidentID) } } := by
  simp only [MaterializeNotifications, bind_ok, require_ok, pure_ok] at ok
  obtain ⟨-, valid, rfl⟩ := ok
  exact ⟨valid, rfl⟩

theorem EscalateNotifications_ok {dest : Text} {delay : Duration} {now : Time}
    (ok : t.EscalateNotifications route dest delay now = .ok t') :
    ValidID dest = true ∧ t' = { t with tables := { t.tables with
      notifications := insertNotifications t.tables.notifications
        ((t.escalating route dest (timestamptz (now - delay))).map fun n =>
          t.newNotification n.eventID dest n.kind n.incidentID) } } := by
  simp only [EscalateNotifications, bind_ok, require_ok, pure_ok, Bool.and_eq_true] at ok
  obtain ⟨-, ⟨⟨-, valid⟩, -⟩, rfl⟩ := ok
  exact ⟨valid, rfl⟩

theorem MaterializeNotifications_writes (ok : t.MaterializeNotifications route = .ok t') :
    Writes [.notifications] [] t t' :=
  notifications_written (MaterializeNotifications_ok ok).2

theorem EscalateNotifications_writes {dest : Text} {delay : Duration} {now : Time}
    (ok : t.EscalateNotifications route dest delay now = .ok t') :
    Writes [.notifications] [] t t' :=
  notifications_written (EscalateNotifications_ok ok).2

end Materialization

end Tx

end Sre.Storage

namespace Sre.Delivery

open Foundation.Outcome Identity Authorization Incident Storage

/-- A registered destination of the scope. The endpoint belongs to the sender. -/
structure Route where
  id : Text
  recipientGroup : Text
  escalationRouteID : Text
  escalateAfterSeconds : ℤ

structure Service where
  policy : Policy
  routes : List Route

/-- Routes that others escalate to receive no events of their own. -/
def Service.escalationTarget (s : Service) (id : Text) : Bool :=
  s.routes.any fun r => decide (r.escalationRouteID ≠ [] ∧ r.escalationRouteID = id)

def recipient (r : Route) (now : Time) : Principal :=
  ⟨r.id, "https://sre.internal/notification-recipient", [r.recipientGroup], now, now + minute⟩

def finish (t : Tx) (n : NotificationRow) (delivered : Bool) (now : Time) : Except Error Tx :=
  transact t fun t => t.FinishNotification n delivered now

/-- `eventID` is the generated identifier of the outbox row. -/
def Acknowledge (s : Service) (t : Tx) (now : Time) (p : Principal) (id eventID : Text) :
    Except Error Tx := do
  s.policy.authorize p t.scope .approve now
  transact t fun t => t.AcknowledgeNotification id p.id eventID

def registerRoute (t : Tx) (id : Text) : Except Error Tx :=
  transact t fun t => t.RegisterNotificationRoute id

variable [Platform]

def materialize (s : Service) (t : Tx) (r : Route) : Except Error Tx :=
  if s.escalationTarget r.id then .ok t else t.MaterializeNotifications r.id

def escalate (t : Tx) (r : Route) (now : Time) : Except Error Tx :=
  if r.escalationRouteID = [] then .ok t
  else t.EscalateNotifications r.id r.escalationRouteID (r.escalateAfterSeconds * second) now

/-- The first transaction of `Dispatch`. Its work is kept when nothing is due. -/
def dispatch (s : Service) (t : Tx) (now : Time) (r : Route) (lease : Text) :
    Except Error (Option NotificationRow × Tx) := do
  s.policy.authorize (recipient r now) t.scope .read now
  transact t fun t => do
    let t ← materialize s t r
    let t ← escalate t r now
    t.LeaseNotification r.id lease

section Transactions

variable {s : Service} {t t' : Tx} {now : Time} {r : Route}

theorem materialize_ok (ok : materialize s t r = .ok t') :
    t' = t ∨ t.MaterializeNotifications r.id = .ok t' := by
  unfold materialize at ok
  split at ok
  · exact Or.inl (Except.ok.inj ok).symm
  · exact Or.inr ok

theorem escalate_ok (ok : escalate t r now = .ok t') :
    t' = t ∨ ∃ delay, t.EscalateNotifications r.id r.escalationRouteID delay now = .ok t' := by
  unfold escalate at ok
  split at ok
  · exact Or.inl (Except.ok.inj ok).symm
  · exact Or.inr ⟨_, ok⟩

theorem dispatch_ok {lease : Text} {found : Option NotificationRow}
    (ok : dispatch s t now r lease = .ok (found, t')) :
    ∃ u v, materialize s t r = .ok u ∧ escalate u r now = .ok v ∧
      v.LeaseNotification r.id lease = .ok (found, t') := by
  simp only [dispatch, bind_ok, transact_ok] at ok
  obtain ⟨-, -, -, u, told, v, raised, leased⟩ := ok
  exact ⟨u, v, told, raised, leased⟩

theorem materialize_writes (ok : materialize s t r = .ok t') :
    Tx.Writes [.notifications] [] t t' := by
  rcases materialize_ok ok with rfl | done
  · exact Tx.Writes.refl _ _ _
  · exact Tx.MaterializeNotifications_writes done

theorem escalate_writes (ok : escalate t r now = .ok t') : Tx.Writes [.notifications] [] t t' := by
  rcases escalate_ok ok with rfl | ⟨delay, done⟩
  · exact Tx.Writes.refl _ _ _
  · exact Tx.EscalateNotifications_writes done

theorem dispatch_writes {lease : Text} {found : Option NotificationRow}
    (ok : dispatch s t now r lease = .ok (found, t')) :
    Tx.Writes [.notifications] [] t t' := by
  obtain ⟨u, v, told, raised, leased⟩ := dispatch_ok ok
  exact (materialize_writes told).trans
    ((escalate_writes raised).trans (Tx.LeaseNotification_writes leased))

omit [Platform]

theorem finish_ok {n : NotificationRow} {delivered : Bool}
    (ok : finish t n delivered now = .ok t') : t.FinishNotification n delivered now = .ok t' :=
  (transact_ok.mp ok).2

theorem Acknowledge_ok {p : Principal} {id eventID : Text}
    (ok : Acknowledge s t now p id eventID = .ok t') :
    t.AcknowledgeNotification id p.id eventID = .ok t' := by
  simp only [Acknowledge, bind_ok, transact_ok] at ok
  exact ok.choose_spec.2.2

theorem registerRoute_ok {id : Text} (ok : registerRoute t id = .ok t') :
    t.RegisterNotificationRoute id = .ok t' :=
  (transact_ok.mp ok).2

end Transactions

end Sre.Delivery
