/- GID: Sre/Plugin/Registry
   digest: Shutdown of the plugin registry, and when a later one can retry what was not torn down. -/

import Sre.Foundation.Assoc
import Sre.Foundation.Text

set_option autoImplicit false

namespace Sre.Plugin.Registry

open Foundation List Assoc

/-- A plugin client. `closed` tells that its `closeOnce` is spent. -/
structure Client where
  conn : Bool
  closed : Bool
  deriving DecidableEq

inductive State where
  | inactive
  | active
  deriving DecidableEq

structure Entry where
  client : Client
  status : State
  registrar : Option ℕ
  deriving DecidableEq

inductive Unregistered where
  | done
  | notFound
  | failed (err : Text)
  deriving DecidableEq

/-- What registrars and connections answer to the calls made for the entry under a key. -/
structure Answers where
  unregister : Text → Unregistered
  close : Text → Option Text

def Client.Close (answer : Option Text) (c : Client) : Option Text × Client :=
  if c.closed then (none, c)
  else (if c.conn then answer else none, { conn := false, closed := true })

variable (answers : Answers)

/-- The first half of the loop's body: an active analyzer leaves its registrar. -/
def unregister (key : Text) (item : Entry) : Except Text Entry :=
  if item.status = .active ∧ item.registrar.isSome then
    match answers.unregister key with
    | .failed err => .error err
    | .done | .notFound => .ok { item with status := .inactive, registrar := none }
  else .ok item

/-- The variables of the loop. -/
structure Sweep where
  firstErr : Option Text
  retained : List (Text × Entry)

def visit (s : Sweep) (e : Text × Entry) : Sweep :=
  match unregister answers e.1 e.2 with
  | .error err => { firstErr := s.firstErr.or (some err), retained := put s.retained e.1 e.2 }
  | .ok item =>
    let (err, client) := item.client.Close (answers.close e.1)
    -- The entry of a client that fails to close is kept only together with its error.
    match err, s.firstErr with
    | some err, none =>
      { firstErr := some err, retained := put s.retained e.1 { item with client := client } }
    | _, _ => s

/-- `Close`, visiting the entries in the given order. -/
def Close (order : List (Text × Entry)) : Option Text × List (Text × Entry) :=
  let s := order.foldl (visit answers) { firstErr := none, retained := [] }
  (s.firstErr, s.retained)

/-- The analyzer could not be unregistered. -/
def Held (e : Text × Entry) : Prop := ∃ err, unregister answers e.1 e.2 = .error err

/-- The client could not be closed. -/
def Unclosed (e : Text × Entry) : Prop :=
  ∃ item, unregister answers e.1 e.2 = .ok item ∧
    (item.client.Close (answers.close e.1)).1.isSome = true

def Stuck (e : Text × Entry) : Prop := Held answers e ∨ Unclosed answers e

variable {answers} {s : Sweep} {e : Text × Entry} {order : List (Text × Entry)}

private theorem visit_freed (free : ¬ Stuck answers e) : visit answers s e = s := by
  unfold visit
  cases left : unregister answers e.1 e.2 with
  | error err => exact absurd (.inl ⟨err, left⟩) free
  | ok item =>
    cases failed : (item.client.Close (answers.close e.1)).1 with
    | none => simp [failed]
    | some err => exact absurd (.inr ⟨item, left, by simp [failed]⟩) free

private theorem visit_stuck (stuck : Stuck answers e) :
    (visit answers s e).firstErr.isSome = true := by
  unfold visit
  rcases stuck with ⟨err, left⟩ | ⟨item, left, failed⟩
  · simp [left]
  · obtain ⟨err, failed⟩ := Option.isSome_iff_exists.mp failed
    cases first : s.firstErr <;> simp [left, failed, first]

private theorem sweep_firstErr (order : List (Text × Entry)) (s : Sweep) :
    (order.foldl (visit answers) s).firstErr.isSome = true ↔
      s.firstErr.isSome = true ∨ ∃ e ∈ order, Stuck answers e := by
  induction order generalizing s with
  | nil => simp
  | cons e order ih =>
    rw [foldl_cons, ih]
    by_cases stuck : Stuck answers e
    · simp [visit_stuck stuck, stuck]
    · simp [visit_freed stuck, stuck]

private theorem visit_frame {key : Text} (other : key ≠ e.1) :
    (visit answers s e).retained.lookup key = s.retained.lookup key := by
  unfold visit
  cases unregister answers e.1 e.2 with
  | error err => simp [lookup_put, other]
  | ok item =>
    dsimp only
    split
    · simp [lookup_put, other]
    · rfl

private theorem sweep_frame (order : List (Text × Entry)) (s : Sweep) {key : Text}
    (other : key ∉ order.map Prod.fst) :
    (order.foldl (visit answers) s).retained.lookup key = s.retained.lookup key := by
  induction order generalizing s with
  | nil => rfl
  | cons e order ih =>
    rw [map_cons, mem_cons, not_or] at other
    rw [foldl_cons, ih _ other.2, visit_frame other.1]

private theorem Client.Close_again (c : Client) (answer : Option Text) :
    ((c.Close answer).2.Close answer).1 = none := by
  unfold Client.Close
  grind

/-- The first client that fails to close is kept, but its `closeOnce` is spent. -/
private theorem visit_unclosed (unclosed : Unclosed answers e) (early : s.firstErr = none) :
    ∃ item, (visit answers s e).retained = put s.retained e.1 item ∧
      ¬ Stuck answers (e.1, item) := by
  obtain ⟨item, left, failed⟩ := unclosed
  obtain ⟨err, failed⟩ := Option.isSome_iff_exists.mp failed
  refine ⟨{ item with client := (item.client.Close (answers.close e.1)).2 }, ?_, ?_⟩
  · simp [visit, left, failed, early]
  · have idle : ¬ (item.status = .active ∧ item.registrar.isSome) := by
      unfold unregister at left
      grind
    rintro (⟨_, held⟩ | ⟨_, same, again⟩)
    · simp [unregister, idle] at held
    · simp only [unregister, idle, if_false, Except.ok.injEq] at same
      subst same
      simp [Client.Close_again] at again

/-- Without such a client the sweep adds the entries it could not unregister, as they were. -/
private theorem sweep_held (order : List (Text × Entry)) (s : Sweep) (distinct : Distinct order)
    (closed : ∀ e ∈ order, ¬ Unclosed answers e)
    (fresh : ∀ e ∈ order, e.1 ∉ s.retained.map Prod.fst) (kept : Text × Entry) :
    kept ∈ (order.foldl (visit answers) s).retained ↔
      kept ∈ s.retained ∨ kept ∈ order ∧ Stuck answers kept := by
  induction order generalizing s with
  | nil => simp
  | cons e order ih =>
    obtain ⟨apart, distinct⟩ := nodup_cons.mp distinct
    have closed' := fun e member => closed e (mem_cons_of_mem _ member)
    have fresh' := fun e member => fresh e (mem_cons_of_mem _ member)
    by_cases stuck : Stuck answers e
    · have held : Held answers e := stuck.resolve_right (closed e mem_cons_self)
      have grown : (visit answers s e).retained = s.retained ++ [e] := by
        obtain ⟨err, held⟩ := held
        have unknown : ¬ s.retained.any (fun old => old.1 = e.1) = true := by
          simpa using fresh e mem_cons_self
        simp [visit, held, put, unknown]
      rw [foldl_cons, ih _ distinct closed', grown]
      · grind
      · grind
    · rw [foldl_cons, visit_freed stuck, ih s distinct closed' fresh']
      grind

/-- In whatever order shutdown visits the plugins, it keeps exactly those it could not tear down,
so that a later one, met by the same answers, fails on each of them again, if and only if every
client closes. -/
theorem close_keeps_stuck_iff (answers : Answers) (entries : List (Text × Entry))
    (distinct : Distinct entries) :
    (∀ order, order.Perm entries →
      (∀ key, key ∈ (Close answers order).2.map Prod.fst ↔
        ∃ e ∈ entries, e.1 = key ∧ Stuck answers e) ∧
      (∀ kept ∈ (Close answers order).2, Stuck answers kept) ∧
      ((Close answers order).1.isSome = true ↔ ∃ e ∈ entries, Stuck answers e)) ↔
    ∀ e ∈ entries, ¬ Unclosed answers e := by
  constructor
  · intro whole e member unclosed
    -- The order that starts with this client keeps it, and a later sweep passes over it.
    have perm := (perm_cons_erase member).symm
    have keys : Distinct (e :: entries.erase e) := (perm.map Prod.fst).nodup_iff.mpr distinct
    obtain ⟨item, kept, free⟩ :=
      visit_unclosed (s := { firstErr := none, retained := [] }) unclosed rfl
    have found : (Close answers (e :: entries.erase e)).2.lookup e.1 = some item := by
      rw [Close, foldl_cons, sweep_frame _ _ (nodup_cons.mp keys).1, kept, lookup_put, if_pos rfl]
    exact free ((whole _ perm).2.1 _ (mem_of_lookup found))
  · intro closed order perm
    have inside : ∀ e, e ∈ order ↔ e ∈ entries := fun e => perm.mem_iff
    have kept : ∀ e, e ∈ (Close answers order).2 ↔ e ∈ entries ∧ Stuck answers e := fun e => by
      have held := sweep_held order { firstErr := none, retained := [] }
        ((perm.map Prod.fst).nodup_iff.mpr distinct)
        (fun e member => closed e ((inside e).mp member)) (by simp) e
      rw [Close, held]
      simp [inside]
    refine ⟨fun key => ?_, fun e member => ((kept e).mp member).2, ?_⟩
    · grind
    · exact (sweep_firstErr order _).trans (by simp [inside])

private def Client.dialed : Client := { conn := true, closed := false }

private def Entry.idle : Entry := { client := .dialed, status := .inactive, registrar := none }

private def Entry.running : Entry := { client := .dialed, status := .active, registrar := some 1 }

theorem close_keeps_stuck_single :
    let answers : Answers :=
      ⟨fun key => if key = "drift" then .failed "busy" else .done, fun _ => none⟩
    let entries : List (Text × Entry) := [("drift", .running), ("quota", .running)]
    Distinct entries ∧ Stuck answers ("drift", .running) ∧ ∀ order, order.Perm entries →
      (∀ key, key ∈ (Close answers order).2.map Prod.fst ↔
        ∃ e ∈ entries, e.1 = key ∧ Stuck answers e) ∧
      (∀ kept ∈ (Close answers order).2, Stuck answers kept) ∧
      ((Close answers order).1.isSome = true ↔ ∃ e ∈ entries, Stuck answers e) := by
  intro answers entries
  have distinct : Distinct entries := by simp [Distinct, entries]
  refine ⟨distinct, .inl ⟨"busy", rfl⟩, (close_keeps_stuck_iff answers entries distinct).mpr ?_⟩
  rintro e - ⟨item, -, failed⟩
  simp [answers, Client.Close, apply_ite Prod.fst] at failed

/-- Of two clients that both fail to close, the second is forgotten, and the next shutdown drops
the first without an error. -/
theorem second_unclosed_client_lost :
    let answers : Answers := { unregister := fun _ => .done, close := fun _ => some "closing" }
    let entries : List (Text × Entry) := [("drift", .idle), ("quota", .idle)]
    (∀ e ∈ entries, Stuck answers e) ∧ (Close answers entries).2.map Prod.fst = ["drift"] ∧
      Close answers (Close answers entries).2 = (none, []) := by
  intro answers entries
  refine ⟨fun e member => .inr ⟨.idle, ?_⟩, by decide, by decide⟩
  have same : e.2 = .idle := by
    simp only [entries, mem_cons, not_mem_nil, or_false] at member
    rcases member with rfl | rfl <;> rfl
  rw [same]
  exact ⟨rfl, rfl⟩

end Sre.Plugin.Registry
