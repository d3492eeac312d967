/- GID: Sre/Server/Notifications
   digest: Every notification tells one stored event to one route. -/

import Sre.Server

set_option autoImplicit false

namespace Sre.Server

open List Delivery

open Foundation Foundation.Outcome Foundation.Sql Identity Authorization Incident Storage Collection

/-- What a notification is about, whatever happens to its delivery. -/
def subject (n : NotificationRow) : Text × Text × Text × EventKind × Text :=
  (n.id, n.eventID, n.routeID, n.kind, n.incidentID)

variable [Platform]

/-- The notification tells a stored event. -/
structure Tells (outbox : List OutboxRow) (n : NotificationRow) : Prop where
  id : n.id = Tx.notificationID n.eventID n.routeID
  route : ValidID n.routeID = true
  event : ∃ o ∈ outbox, o.kind ∈ notifiable ∧ o.id = n.eventID ∧ o.kind = n.kind ∧
    o.incidentID = n.incidentID

/-- Both keys of the notifications are unique, and each tells a stored event. -/
structure Told (outbox : List OutboxRow) (rows : List NotificationRow) : Prop where
  ids : (rows.map NotificationRow.id).Nodup
  pairs : (rows.map fun r => (r.eventID, r.routeID)).Nodup
  tells : ∀ n ∈ rows, Tells outbox n

namespace Told

variable {outbox outbox' : List OutboxRow} {rows new : List NotificationRow}

theorem logs (told : Told outbox rows) (log : Logs outbox outbox') : Told outbox' rows := by
  refine ⟨told.ids, told.pairs, fun n member => ?_⟩
  obtain ⟨id, route, o, stored, kind, same⟩ := told.tells n member
  refine ⟨id, route, o, log.stays o stored ?_, kind, same⟩
  rintro report
  simp [report, notifiable] at kind

theorem insert (told : Told outbox rows) (tells : ∀ n ∈ new, Tells outbox n) :
    Told outbox (Tx.insertNotifications rows new) := by
  obtain ⟨ids, pairs⟩ := @Tx.insertNotifications_nodup rows new told.ids told.pairs
  refine ⟨ids, pairs, fun n member => ?_⟩
  obtain ⟨added, grown, within⟩ := Tx.insertNotifications_extends rows new
  rw [grown] at member
  rcases mem_append.mp member with member | member
  · exact told.tells n member
  · exact tells n (within member)

theorem update {selects : NotificationRow → Bool} {change : NotificationRow → NotificationRow}
    (told : Told outbox rows) (same : ∀ n, subject (change n) = subject n) :
    Told outbox (Sql.update selects change rows) := by
  have id (n : NotificationRow) : (change n).id = n.id := congrArg (·.1) (same n)
  have event (n : NotificationRow) : (change n).eventID = n.eventID := congrArg (·.2.1) (same n)
  have route (n : NotificationRow) : (change n).routeID = n.routeID := congrArg (·.2.2.1) (same n)
  have kind (n : NotificationRow) : (change n).kind = n.kind := congrArg (·.2.2.2.1) (same n)
  have names (n : NotificationRow) : (change n).incidentID = n.incidentID :=
    congrArg (·.2.2.2.2) (same n)
  refine ⟨?_, ?_, fun n member => ?_⟩
  · rw [map_update fun n _ _ => id n]
    exact told.ids
  · rw [map_update fun n _ _ => by rw [event, route]]
    exact told.pairs
  · obtain ⟨q, inside, ⟨-, rfl⟩ | ⟨-, rfl⟩⟩ := mem_update.mp member
    · obtain ⟨named, valid, source⟩ := told.tells q inside
      exact ⟨by rw [id, event, route, named], by rw [route, valid], by
        simpa only [event, kind, names] using source⟩
    · exact told.tells n inside

end Told

section Transactions

variable {t t' : Tx} {route lease : Text} {now : Time} {found : Option NotificationRow}
  {s : Service}

theorem MaterializeNotifications_told (ok : t.MaterializeNotifications route = .ok t')
    (told : Told t.tables.outbox t.tables.notifications) :
    Told t'.tables.outbox t'.tables.notifications := by
  obtain ⟨valid, rfl⟩ := Tx.MaterializeNotifications_ok ok
  refine told.insert fun n member => ?_
  obtain ⟨o, waiting, rfl⟩ := mem_map.mp member
  have listed := mem_of_mem_take waiting
  rw [mem_ascending, mem_filter, Bool.and_eq_true, Bool.and_eq_true] at listed
  exact ⟨rfl, valid, o, listed.1, by simpa using listed.2.1.1, rfl, rfl, rfl⟩

theorem EscalateNotifications_told {dest : Text} {delay : Duration}
    (ok : t.EscalateNotifications route dest delay now = .ok t')
    (told : Told t.tables.outbox t.tables.notifications) :
    Told t'.tables.outbox t'.tables.notifications := by
  obtain ⟨valid, rfl⟩ := Tx.EscalateNotifications_ok ok
  refine told.insert fun n member => ?_
  obtain ⟨old, waiting, rfl⟩ := mem_map.mp member
  have listed := mem_of_mem_take waiting
  rw [mem_ascending, mem_filter] at listed
  exact ⟨rfl, valid, (told.tells old listed.1).event⟩

theorem LeaseNotification_told (ok : t.LeaseNotification route lease = .ok (found, t'))
    (told : Told t.tables.outbox t.tables.notifications) :
    Told t'.tables.outbox t'.tables.notifications := by
  have given : Told t.tables.outbox (t.abandoned route) := told.update fun _ => rfl
  rcases Tx.LeaseNotification_ok ok with ⟨-, -, rfl⟩ | ⟨n, -, -, -, rfl⟩
  · exact given
  · exact given.update fun _ => rfl

theorem prepared_told {u : Tx} {route : Route} (materialized : materialize s t route = .ok u)
    (escalated : escalate u route now = .ok t')
    (told : Told t.tables.outbox t.tables.notifications) :
    Told t'.tables.outbox t'.tables.notifications := by
  have first : Told u.tables.outbox u.tables.notifications := by
    rcases materialize_ok materialized with rfl | done
    · exact told
    · exact MaterializeNotifications_told done told
  rcases escalate_ok escalated with rfl | ⟨delay, done⟩
  · exact first
  · exact EscalateNotifications_told done first

theorem dispatch_told {route : Route} (ok : dispatch s t now route lease = .ok (found, t'))
    (told : Told t.tables.outbox t.tables.notifications) :
    Told t'.tables.outbox t'.tables.notifications := by
  obtain ⟨u, v, materialized, escalated, leased⟩ := dispatch_ok ok
  exact LeaseNotification_told leased (prepared_told materialized escalated told)

theorem told_served {c : Call} {q : Request} {r : Response} (ok : serve c t q = .ok (r, t'))
    (told : Told t.tables.outbox t.tables.notifications) :
    Told t'.tables.outbox t'.tables.notifications := by
  have later := told.logs (serve_writes ok).log
  cases q
  case dispatch route lease =>
    obtain ⟨n, done, -⟩ := answer_ok ok
    exact dispatch_told done told
  case finishNotification n delivered =>
    obtain ⟨held, -, -, -, rfl⟩ := Tx.FinishNotification_ok (finish_ok (done_ok ok).1)
    exact told.update fun _ => rfl
  case acknowledge p id eventID =>
    rcases Tx.AcknowledgeNotification_ok (Acknowledge_ok (done_ok ok).1) with
      rfl | ⟨u, marked, -, queued⟩
    · exact told
    · rw [show t'.tables.notifications = u.tables.notifications from
        (Tx.Enqueue_writes queued).frame .notifications (by decide), marked]
      exact later.update fun _ => rfl
  all_goals
    rw [show t'.tables.notifications = t.tables.notifications from
      (serve_writes ok).frame .notifications
        (by simp [Request.tables, coreTables, reportTables, itemTables, Investigation.claimTables])]
    exact later

end Transactions

theorem told (scope : Scope) (history : List Entry) :
    Told (replay scope history).outbox (replay scope history).notifications :=
  replay_invariant (P := fun s => Told s.outbox s.notifications)
    ⟨nodup_nil, nodup_nil, by simp [Tables.empty]⟩
    (fun _ _ _ _ _ _ ok held => told_served ok held) history

/-! ## What materialization covers -/

omit [Platform] in
private theorem cut_at_slash {a b x y : Text} (plain : '/' ∉ x) (plain' : '/' ∉ y)
    (same : a ++ '/' :: x = b ++ '/' :: y) : a = b ∧ x = y := by
  rcases append_eq_append_iff.mp same with ⟨rest, rfl, tail⟩ | ⟨rest, rfl, tail⟩
  · cases rest with
    | nil => simpa using tail
    | cons c rest =>
      refine absurd ?_ plain
      rw [(List.cons.inj tail).2]
      simp
  · cases rest with
    | nil => simpa [eq_comm] using tail
    | cons c rest =>
      refine absurd ?_ plain'
      rw [(List.cons.inj tail).2]
      simp

omit [Platform] in
private theorem slash_not_mem {id : Text} (valid : ValidID id = true) : '/' ∉ id := by
  rw [ValidID, Bool.and_eq_true, all_eq_true] at valid
  exact fun member => absurd (valid.2 _ member) (by decide)

variable {route : Text} {t t' : Tx}

theorem notificationID_inj (injective : Function.Injective Platform.md5)
    {event event' route' : Text} (valid : ValidID route = true) (valid' : ValidID route' = true)
    (same : Tx.notificationID event route = Tx.notificationID event' route') :
    event = event' ∧ route = route' :=
  cut_at_slash (slash_not_mem valid) (slash_not_mem valid') (injective same)

/-- Events that wait are told, and fewer than 50 of them are all that wait. -/
theorem MaterializeNotifications_covers (injective : Function.Injective Platform.md5)
    (told : Told t.tables.outbox t.tables.notifications)
    (ok : t.MaterializeNotifications route = .ok t') :
    (∀ o ∈ t.untold route, t'.notified o.id route = true) ∧
    ((t.untold route).length = 50 ∨ ∀ o ∈ t.tables.outbox, o.kind ∈ notifiable →
      t.sinceRegistered route o.createdAt = true → t'.notified o.id route = true) := by
  have after := MaterializeNotifications_told ok told
  obtain ⟨valid, same⟩ := Tx.MaterializeNotifications_ok ok
  have rows : t'.tables.notifications = Tx.insertNotifications t.tables.notifications
      ((t.untold route).map fun o => t.newNotification o.id route o.kind o.incidentID) := by rw [same]
  have waiting : ∀ o ∈ t.untold route, t'.notified o.id route = true := by
    intro o member
    obtain ⟨n, inside, taken⟩ := @Tx.insertNotifications_covers t.tables.notifications _ _
      (mem_map_of_mem member)
    rw [← rows] at inside
    refine any_eq_true.mpr ⟨n, inside, decide_eq_true ?_⟩
    rcases taken with same | same
    · obtain ⟨id, route', -⟩ := after.tells n inside
      exact notificationID_inj injective route' valid (id.symm.trans same)
    · exact same
  refine ⟨waiting, or_iff_not_imp_left.mpr fun few o stored kind since => ?_⟩
  by_cases known : t.notified o.id route = true
  · obtain ⟨n, inside, same⟩ := any_eq_true.mp known
    obtain ⟨added, grown, -⟩ := Tx.insertNotifications_extends t.tables.notifications
      ((t.untold route).map fun o => t.newNotification o.id route o.kind o.incidentID)
    refine any_eq_true.mpr ⟨n, ?_, same⟩
    rw [rows, grown]
    exact mem_append_left _ inside
  · refine waiting o ?_
    rw [Tx.untold, length_take] at few
    rw [Tx.untold, take_of_length_le (by omega), mem_ascending, mem_filter]
    simp [stored, kind, since, known]

/-- No notification is lost, whatever happens to its delivery. -/
def Retains (rows rows' : List NotificationRow) : Prop :=
  ∀ n ∈ rows, ∃ n' ∈ rows', subject n' = subject n

namespace Retains

variable {rows rows' rows'' new : List NotificationRow}

omit [Platform]

theorem trans (first : Retains rows rows') (second : Retains rows' rows'') : Retains rows rows'' := by
  intro n member
  obtain ⟨m, inside, same⟩ := first n member
  obtain ⟨k, held, equal⟩ := second m inside
  exact ⟨k, held, equal.trans same⟩

theorem insert : Retains rows (Tx.insertNotifications rows new) := by
  intro n member
  obtain ⟨added, grown, -⟩ := Tx.insertNotifications_extends rows new
  exact ⟨n, grown ▸ mem_append_left _ member, rfl⟩

theorem update {selects : NotificationRow → Bool} {change : NotificationRow → NotificationRow}
    (same : ∀ n, subject (change n) = subject n) : Retains rows (Sql.update selects change rows) := by
  intro n member
  refine ⟨if selects n then change n else n, mem_map_of_mem member, ?_⟩
  split
  · exact same n
  · rfl

theorem notified {t t' : Tx} {eventID route : Text}
    (retains : Retains t.tables.notifications t'.tables.notifications)
    (known : t.notified eventID route = true) : t'.notified eventID route = true := by
  obtain ⟨n, member, same⟩ := any_eq_true.mp known
  obtain ⟨n', inside, equal⟩ := retains n member
  refine any_eq_true.mpr ⟨n', inside, ?_⟩
  rw [decide_eq_true_eq] at same ⊢
  exact ⟨(congrArg (·.2.1) equal).trans same.1, (congrArg (·.2.2.1) equal).trans same.2⟩

end Retains

variable {found : Option NotificationRow} {lease : Text}

omit [Platform] in
theorem LeaseNotification_retains (ok : t.LeaseNotification route lease = .ok (found, t')) :
    Retains t.tables.notifications t'.tables.notifications := by
  have given : Retains t.tables.notifications (t.abandoned route) := .update fun _ => rfl
  rcases Tx.LeaseNotification_ok ok with ⟨-, -, rfl⟩ | ⟨n, -, -, -, rfl⟩
  · exact given
  · exact given.trans (.update fun _ => rfl)

/-- A dispatch tells the waiting events to its route, unless others escalate to it. -/
theorem dispatch_covers {s : Service} {now : Time} {route : Route}
    (injective : Function.Injective Platform.md5)
    (told : Told t.tables.outbox t.tables.notifications) (own : s.escalationTarget route.id = false)
    (ok : dispatch s t now route lease = .ok (found, t')) :
    (∀ o ∈ t.untold route.id, t'.notified o.id route.id = true) ∧
    ((t.untold route.id).length = 50 ∨ ∀ o ∈ t.tables.outbox, o.kind ∈ notifiable →
      t.sinceRegistered route.id o.createdAt = true → t'.notified o.id route.id = true) := by
  obtain ⟨u, v, materialized, escalated, leased⟩ := dispatch_ok ok
  have done : t.MaterializeNotifications route.id = .ok u := by
    rwa [materialize, own, if_neg Bool.false_ne_true] at materialized
  obtain ⟨waiting, all⟩ := MaterializeNotifications_covers injective told done
  have kept : Retains u.tables.notifications t'.tables.notifications := by
    refine Retains.trans ?_ (LeaseNotification_retains leased)
    rcases escalate_ok escalated with rfl | ⟨delay, raised⟩
    · exact fun n member => ⟨n, member, rfl⟩
    · rw [(Tx.EscalateNotifications_ok raised).2]
      exact .insert
  exact ⟨fun o member => kept.notified (waiting o member),
    all.imp_right fun each o stored kind since => kept.notified (each o stored kind since)⟩

end Sre.Server
