/- GID: Sre/Integration/Ownership
   digest: Which analyzers are registered, active and closed after any sequence of calls. -/

import Sre.Integration.Registry

set_option autoImplicit false

namespace Sre.Integration

open Foundation Foundation.Assoc List

section Logs

variable (key : Registrar → Text → Text)

/-- The analyzers that registrars have. A registrar knows them under keys of its own. -/
def book : Log → List (Registrar × managedAnalyzer)
  | [] => []
  | .registered r m :: log => (r, m) :: book log
  | .unregistered r name :: log =>
    (book log).filter fun e => !(e.1 = r && key r e.2.info.name = key r name)
  | .returned _ :: log | .setActive _ _ :: log | .closed _ :: log => book log

/-- Whether `Analyze` reaches the delegate. -/
def flag : Log → ℕ → Bool
  | [], _ => false
  | .setActive m active :: log, id => if m.id = id then active else flag log id
  | .returned _ :: log, id | .registered _ _ :: log, id | .unregistered _ _ :: log, id
  | .closed _ :: log, id => flag log id

def closes : Log → ℕ → ℕ
  | [], _ => 0
  | .closed m :: log, id => if m.id = id then closes log id + 1 else closes log id
  | .returned _ :: log, id | .registered _ _ :: log, id | .unregistered _ _ :: log, id
  | .setActive _ _ :: log, id => closes log id

def product : Log → ℕ → Option Product
  | [], _ => none
  | .returned p :: log, id => if id = made log then some p else product log id
  | .registered _ _ :: log, id | .unregistered _ _ :: log, id | .setActive _ _ :: log, id
  | .closed _ :: log, id => product log id

/-- A factory returned it, and it can be closed. -/
def Closable (log : Log) (id : ℕ) : Prop := (product log id).any Product.closable = true

instance (log : Log) (id : ℕ) : Decidable (Closable log id) :=
  inferInstanceAs (Decidable (_ = true))

variable {id : ℕ} {log : Log}

theorem closable_product (closable : Closable log id) : ∃ p, product log id = some p := by
  unfold Closable at closable
  cases found : product log id with
  | none => simp [found] at closable
  | some p => exact ⟨p, rfl⟩

theorem product_lt {p : Product} (found : product log id = some p) : id < made log := by
  induction log with
  | nil => cases found
  | cons e log ih =>
    cases e with
    | returned =>
      unfold product at found
      split at found
      · rename_i here
        rw [here]
        exact Nat.lt_succ_self _
      · exact Nat.lt_succ_of_lt (ih found)
    | _ => exact ih found

end Logs

section Ledgers

/-- Analyzers that are not closed, each with the registrar that has it, if one has. -/
abbrev Owned := List (Option Registrar × managedAnalyzer)

def Owned.ids (owned : Owned) : List ℕ := owned.map fun e => e.2.id

/-- The books agree with the analyzers that are owned; all others that can be closed were closed
once, and none while a registrar had it. -/
structure Ledger (key : Registrar → Text → Text) (log : Log) (owned : Owned) : Prop where
  booked : ∀ r m, (r, m) ∈ book key log ↔ (some r, m) ∈ owned
  keys : owned.Pairwise fun a b => ∀ r, a.1 = some r → b.1 = some r →
    key r a.2.info.name ≠ key r b.2.info.name
  ids : owned.ids.Nodup
  known : ∀ e ∈ owned, (product log e.2.id).map Product.closable = some e.2.closable
  counted : ∀ id, closes log id = if Closable log id ∧ id ∉ owned.ids then 1 else 0
  apart : ∀ l m, (Event.closed m :: l) <:+ log → ∀ r m', (r, m') ∈ book key l → m'.id ≠ m.id

variable {key : Registrar → Text → Text} {log : Log} {owned owned' : Owned} {r : Registrar}
  {m : managedAnalyzer}

theorem Ledger.perm (ledger : Ledger key log owned) (same : owned.Perm owned') :
    Ledger key log owned' := by
  have ids : owned.ids.Perm owned'.ids := same.map _
  refine ⟨?_, ?_, ids.nodup_iff.mp ledger.ids, ?_, ?_, ledger.apart⟩
  · intro r m
    rw [ledger.booked, same.mem_iff]
  · refine (same.pairwise_iff ?_).mp ledger.keys
    intro a b apart r here there
    exact (apart r there here).symm
  · intro e member
    exact ledger.known e (same.mem_iff.mpr member)
  · intro id
    rw [ledger.counted id]
    simp only [ids.mem_iff]

private theorem apart_of_other {e : Event} (other : ∀ m, e ≠ .closed m)
    (apart : ∀ l m, (Event.closed m :: l) <:+ log → ∀ r m', (r, m') ∈ book key l → m'.id ≠ m.id) :
    ∀ l m, (Event.closed m :: l) <:+ e :: log → ∀ r m', (r, m') ∈ book key l → m'.id ≠ m.id := by
  intro l m moment
  rcases suffix_cons_iff.mp moment with here | earlier
  · exact (other m (List.cons.inj here).1.symm).elim
  · exact apart l m earlier

theorem Ledger.setActive (ledger : Ledger key log owned) (active : Bool) :
    Ledger key (.setActive m active :: log) owned :=
  ⟨ledger.booked, ledger.keys, ledger.ids, ledger.known, ledger.counted,
    apart_of_other (by simp) ledger.apart⟩

private theorem fresh_id (ledger : Ledger key log owned) : made log ∉ owned.ids := by
  intro inside
  obtain ⟨e, member, here⟩ := mem_map.mp inside
  obtain ⟨p, found, -⟩ := Option.map_eq_some_iff.mp (ledger.known e member)
  exact absurd (product_lt found) (by omega)

private theorem known_returned (ledger : Ledger key log owned) (p : Product) :
    ∀ e ∈ owned, (product (.returned p :: log) e.2.id).map Product.closable =
      some e.2.closable := by
  intro e member
  have apart : e.2.id ≠ made log := by
    intro same
    exact fresh_id ledger (mem_map.mpr ⟨e, member, same⟩)
  unfold product
  rw [if_neg apart]
  exact ledger.known e member

private theorem closable_returned (p : Product) (id : ℕ) : Closable (.returned p :: log) id ↔
    if id = made log then p.closable = true else Closable log id := by
  unfold Closable
  rw [product]
  split
  · simp
  · rfl

private theorem closes_fresh (ledger : Ledger key log owned) : closes log (made log) = 0 := by
  rw [ledger.counted, if_neg]
  rintro ⟨closable, -⟩
  obtain ⟨p, found⟩ := closable_product closable
  exact absurd (product_lt found) (Nat.lt_irrefl _)

variable {p : Product}

theorem Ledger.returned (ledger : Ledger key log owned) (bare : p.closable = false) :
    Ledger key (.returned p :: log) owned := by
  refine ⟨ledger.booked, ledger.keys, ledger.ids, known_returned ledger p, ?_,
    apart_of_other (by simp) ledger.apart⟩
  intro id
  show closes log id = _
  by_cases here : id = made log
  · subst here
    rw [closes_fresh ledger, if_neg]
    rintro ⟨closable, -⟩
    rw [closable_returned, if_pos rfl, bare] at closable
    cases closable
  · have same : Closable (.returned p :: log) id ↔ Closable log id := by
      rw [closable_returned, if_neg here]
    rw [ledger.counted id]
    simp only [same]

theorem Ledger.managed (ledger : Ledger key log owned) (id : m.id = made log)
    (closable : m.closable = p.closable) :
    Ledger key (.returned p :: log) ((none, m) :: owned) := by
  refine ⟨?_, ?_, ?_, ?_, ?_, apart_of_other (by simp) ledger.apart⟩
  · intro r m'
    show (r, m') ∈ book key log ↔ _
    rw [ledger.booked]
    simp
  · refine pairwise_cons.mpr ⟨?_, ledger.keys⟩
    intro e _ r here
    cases here
  · refine nodup_cons.mpr ⟨?_, ledger.ids⟩
    show m.id ∉ owned.ids
    rw [id]
    exact fresh_id ledger
  · intro e member
    rcases mem_cons.mp member with rfl | member
    · show (if m.id = made log then some p else _).map Product.closable = some m.closable
      rw [if_pos id, closable]
      rfl
    · exact known_returned ledger p e member
  · intro id'
    show closes log id' = _
    by_cases here : id' = made log
    · subst here
      rw [closes_fresh ledger, if_neg]
      rintro ⟨-, absent⟩
      exact absent (mem_cons.mpr (Or.inl id.symm))
    · have other : id' ∉ Owned.ids ((none, m) :: owned) ↔ id' ∉ owned.ids := by
        grind [Owned.ids]
      have same : Closable (.returned p :: log) id' ↔ Closable log id' := by
        rw [closable_returned, if_neg here]
      rw [ledger.counted id']
      simp only [same, other]

theorem Ledger.registered (ledger : Ledger key log ((none, m) :: owned))
    (free : ∀ m', (r, m') ∈ book key log → key r m'.info.name ≠ key r m.info.name) :
    Ledger key (.registered r m :: log) ((some r, m) :: owned) := by
  refine ⟨?_, ?_, ledger.ids, ?_, ledger.counted, apart_of_other (by simp) ledger.apart⟩
  · intro r' m'
    show (r', m') ∈ (r, m) :: book key log ↔ _
    rw [mem_cons, ledger.booked]
    simp
  · refine pairwise_cons.mpr ⟨?_, (pairwise_cons.mp ledger.keys).2⟩
    intro e member r' here there
    cases here
    have inside : (r, e.2) ∈ book key log := by
      rw [ledger.booked, ← there]
      exact mem_cons_of_mem _ member
    exact (free e.2 inside).symm
  · intro e member
    rcases mem_cons.mp member with rfl | member
    · exact ledger.known (none, m) mem_cons_self
    · exact ledger.known e (mem_cons_of_mem _ member)

theorem Ledger.unregistered (ledger : Ledger key log ((some r, m) :: owned)) :
    Ledger key (.unregistered r m.info.name :: log) ((none, m) :: owned) := by
  obtain ⟨apart, keys⟩ := pairwise_cons.mp ledger.keys
  refine ⟨?_, ?_, ledger.ids, ?_, ledger.counted, apart_of_other (by simp) ledger.apart⟩
  · intro r' m'
    show (r', m') ∈ (book key log).filter _ ↔ _
    rw [mem_filter, ledger.booked, mem_cons, mem_cons]
    constructor
    · grind
    · rintro (here | inside)
      · cases here
      · refine ⟨Or.inr inside, ?_⟩
        rw [Bool.not_eq_true', Bool.and_eq_false_iff, decide_eq_false_iff_not,
          decide_eq_false_iff_not, ← not_and_or]
        rintro ⟨rfl, same⟩
        exact apart (some r', m') inside r' rfl rfl same.symm
  · refine pairwise_cons.mpr ⟨?_, keys⟩
    intro e _ r' here
    cases here
  · intro e member
    rcases mem_cons.mp member with rfl | member
    · exact ledger.known (some r, m) mem_cons_self
    · exact ledger.known e (mem_cons_of_mem _ member)

theorem Ledger.close (ledger : Ledger key log ((none, m) :: owned)) :
    Ledger key (m.close log) owned := by
  obtain ⟨fresh, ids⟩ := nodup_cons.mp ledger.ids
  have keys := (pairwise_cons.mp ledger.keys).2
  have booked : ∀ r m', (r, m') ∈ book key log ↔ (some r, m') ∈ owned := by
    intro r m'
    rw [ledger.booked]
    simp
  have known : ∀ e ∈ owned, (product log e.2.id).map Product.closable = some e.2.closable :=
    fun e member => ledger.known e (mem_cons_of_mem _ member)
  have mine := ledger.known (none, m) mem_cons_self
  have closable : Closable log m.id ↔ m.closable = true := by
    obtain ⟨p, found, same⟩ := Option.map_eq_some_iff.mp mine
    unfold Closable
    rw [found, ← same]
    rfl
  have others (id : ℕ) (other : m.id ≠ id) : closes log id =
      if Closable log id ∧ id ∉ owned.ids then 1 else 0 := by
    have same : id ∉ Owned.ids ((none, m) :: owned) ↔ id ∉ owned.ids := by
      unfold Owned.ids
      rw [map_cons, mem_cons, not_or]
      exact and_iff_right other.symm
    rw [ledger.counted id]
    simp only [same]
  have zero : closes log m.id = 0 := by
    rw [ledger.counted, if_neg]
    rintro ⟨-, absent⟩
    exact absent (mem_cons.mpr (Or.inl rfl))
  unfold managedAnalyzer.close
  split
  · rename_i can
    refine ⟨booked, keys, ids, known, ?_, ?_⟩
    · intro id
      show (if m.id = id then closes log id + 1 else closes log id) = _
      by_cases here : m.id = id
      · subst here
        rw [if_pos rfl, zero, if_pos ⟨closable.mpr can, fresh⟩]
      · rw [if_neg here, others id here]
        rfl
    · intro l m' moment
      rcases suffix_cons_iff.mp moment with here | earlier
      · grind
      · exact ledger.apart l m' earlier
  · rename_i cannot
    refine ⟨booked, keys, ids, known, ?_, ledger.apart⟩
    intro id
    by_cases here : m.id = id
    · subst here
      rw [zero, if_neg fun both => cannot (closable.mp both.1)]
    · exact others id here

end Ledgers

section Courses

/-- From one moment to another, delegates that `Analyze` reaches are among the given ones. -/
def Passage (A : ℕ → Prop) (base log : Log) : Prop :=
  base <:+ log ∧ ∀ l, base <:+ l → l <:+ log → ∀ id, flag l id = true → A id

/-- Where a call is: what is owned, and which delegates `Analyze` has reached since it began. -/
structure Course (key : Registrar → Text → Text) (A : ℕ → Prop) (base log : Log)
    (owned : Owned) : Prop extends Ledger key log owned where
  lit : ∀ id, flag log id = true → id ∈ owned.ids
  passage : Passage A base log

variable {key : Registrar → Text → Text} {A : ℕ → Prop} {base log : Log} {owned owned' : Owned}
  {r : Registrar} {m : managedAnalyzer} {e : Event}

theorem Passage.refl (lit : ∀ id, flag base id = true → A id) : Passage A base base := by
  refine ⟨suffix_rfl, ?_⟩
  intro l above below
  rw [above.eq_of_length_le below.length_le] at lit
  exact lit

theorem Passage.event (passage : Passage A base log)
    (lit : ∀ id, flag (e :: log) id = true → A id) : Passage A base (e :: log) := by
  refine ⟨passage.1.trans (suffix_cons e log), ?_⟩
  intro l above below
  rcases suffix_cons_iff.mp below with rfl | below
  · exact lit
  · exact passage.2 l above below

theorem Passage.now (passage : Passage A base log) : ∀ id, flag log id = true → A id :=
  passage.2 log passage.1 suffix_rfl

section

variable (course : Course key A base log owned)
include course

theorem Course.perm (same : owned.Perm owned') : Course key A base log owned' :=
  ⟨course.toLedger.perm same, fun id on => (same.map _).mem_iff.mp (course.lit id on),
    course.passage⟩

theorem Course.darken :
    Course key A base (.setActive m false :: log) owned ∧
      flag (.setActive m false :: log) m.id = false := by
  have fewer : ∀ id, flag (.setActive m false :: log) id = true → flag log id = true := by
    intro id on
    unfold flag at on
    split at on
    · cases on
    · exact on
  refine ⟨⟨course.toLedger.setActive false, fun id on => course.lit id (fewer id on), ?_⟩, ?_⟩
  · exact course.passage.event fun id on => course.passage.now id (fewer id on)
  · show (if m.id = m.id then false else _) = false
    rw [if_pos rfl]

theorem Course.lighten (mine : m.id ∈ owned.ids)
    (allowed : A m.id) : Course key A base (.setActive m true :: log) owned := by
  have more : ∀ id, flag (.setActive m true :: log) id = true → id = m.id ∨ flag log id = true := by
    intro id on
    unfold flag at on
    split at on
    · rename_i here
      exact Or.inl here.symm
    · exact Or.inr on
  refine ⟨course.toLedger.setActive true, ?_, course.passage.event ?_⟩
  · intro id on
    rcases more id on with rfl | before
    · exact mine
    · exact course.lit id before
  · intro id on
    rcases more id on with rfl | before
    · exact allowed
    · exact course.passage.now id before

end

theorem Course.registered (course : Course key A base log ((none, m) :: owned))
    (free : ∀ m', (r, m') ∈ book key log → key r m'.info.name ≠ key r m.info.name) :
    Course key A base (.registered r m :: log) ((some r, m) :: owned) :=
  ⟨course.toLedger.registered free, course.lit, course.passage.event course.passage.now⟩

theorem Course.unregistered (course : Course key A base log ((some r, m) :: owned)) :
    Course key A base (.unregistered r m.info.name :: log) ((none, m) :: owned) :=
  ⟨course.toLedger.unregistered, course.lit, course.passage.event course.passage.now⟩

theorem flag_close (m : managedAnalyzer) (log : Log) : flag (m.close log) = flag log := by
  unfold managedAnalyzer.close
  split
  · rfl
  · rfl

theorem Course.close (course : Course key A base log ((none, m) :: owned))
    (dark : flag log m.id = false) : Course key A base (m.close log) owned := by
  refine ⟨course.toLedger.close, ?_, ?_⟩
  · intro id on
    rw [flag_close] at on
    rcases mem_cons.mp (course.lit id on) with here | inside
    · rw [here] at on
      cases dark.symm.trans on
    · exact inside
  · have now := course.passage.now
    unfold managedAnalyzer.close
    split
    · exact course.passage.event now
    · exact course.passage

/-- Registrars accept an analyzer only under a free key, report one as missing only if they do
not have it, and undo what they have just done. -/
structure Honest (key : Registrar → Text → Text) (env : Environment) : Prop where
  free : ∀ log r m, env.register log r m = none →
    ∀ m', (r, m') ∈ book key log → key r m'.info.name ≠ key r m.info.name
  missing : ∀ back log r name, env.unregister back log r name = .notFound →
    ∀ m, (r, m) ∈ book key log → key r m.info.name ≠ key r name
  undone : ∀ log r m, (r, m) ∈ book key log → env.unregister true log r m.info.name = .ok

/-- The name that an analyzer is unregistered by. -/
def nameOf (m : managedAnalyzer) : Text := m.info.name

def by_ (r : Registrar) (ms : List managedAnalyzer) : Owned := ms.map fun m => (some r, m)

def pending (ms : List managedAnalyzer) : Owned := ms.map fun m => (none, m)

variable {env : Environment} {ms : List managedAnalyzer}

private theorem by_concat :
    ((some r, m) :: (by_ r ms ++ owned)).Perm (by_ r (ms ++ [m]) ++ owned) := by
  unfold by_
  rw [map_append, append_assoc]
  exact perm_middle.symm

private theorem mem_ids_by (member : m ∈ ms) : m.id ∈ (by_ r ms ++ owned).ids := by
  refine mem_map.mpr ⟨(some r, m), mem_append_left _ ?_, rfl⟩
  exact mem_map.mpr ⟨m, member, rfl⟩

theorem Course.registers (honest : Honest key env) (rest : List managedAnalyzer) :
    ∀ {done : List managedAnalyzer} {log : Log},
      Course key A base log (by_ r done ++ (pending rest ++ owned)) →
      ∃ done' rest' cause log', registerAnalyzers env r rest (done.map nameOf) log =
          ((done'.map nameOf, cause), log') ∧
        done' ++ rest' = done ++ rest ∧ (cause = none → rest' = []) ∧ flag log' = flag log ∧
        Course key A base log' (by_ r done' ++ (pending rest' ++ owned)) := by
  induction rest with
  | nil =>
    intro done log course
    exact ⟨done, [], none, log, rfl, rfl, fun _ => rfl, rfl, course⟩
  | cons m rest ih =>
    intro done log course
    unfold registerAnalyzers
    cases env.err log with
    | some cause =>
      exact ⟨done, m :: rest, some cause, log, rfl, rfl, by simp, rfl, course⟩
    | none =>
      cases answer : env.register log r m with
      | some cause =>
        exact ⟨done, m :: rest, some cause, log, rfl, rfl, by simp, rfl, course⟩
      | none =>
        have first : Course key A base log
            ((none, m) :: (by_ r done ++ (pending rest ++ owned))) :=
          course.perm perm_middle
        have next := (first.registered (honest.free log r m answer)).perm by_concat
        obtain ⟨done', rest', cause, log', run, parts, ended, flags, course'⟩ := ih next
        rw [map_append] at run
        rw [append_assoc] at parts
        exact ⟨done', rest', cause, log', run, parts, ended, flags, course'⟩

theorem Course.rolls_back (honest : Honest key env) (done : List managedAnalyzer) :
    ∀ {owned : Owned}, Course key A base log (by_ r done ++ owned) →
      Course key A base (rollback env r (done.map nameOf) log) (pending done ++ owned) ∧
        flag (rollback env r (done.map nameOf) log) = flag log := by
  unfold rollback
  rw [foldl_reverse]
  induction done with
  | nil =>
    intro owned course
    exact ⟨course, rfl⟩
  | cons m done ih =>
    intro owned course
    obtain ⟨inner, flags⟩ := ih (course.perm perm_middle.symm)
    have last := inner.perm perm_middle
    have inside : (r, m) ∈ book key _ := (last.booked r m).mpr mem_cons_self
    have answer := honest.undone _ r m inside
    rw [map_cons, foldr_cons]
    unfold nameOf at *
    rw [answer]
    exact ⟨last.unregistered, flags⟩

theorem Course.closes_all (ms : List managedAnalyzer) :
    ∀ {log : Log}, Course key A base log (pending ms ++ owned) →
      (∀ m ∈ ms, flag log m.id = false) →
      Course key A base (closeManagedAnalyzers ms log) owned := by
  induction ms with
  | nil =>
    intro log course _
    exact course
  | cons m ms ih =>
    intro log course dark
    refine ih (course.close (dark m mem_cons_self)) ?_
    intro m' member
    rw [flag_close]
    exact dark m' (mem_cons_of_mem _ member)

theorem Course.lights_all (ms : List managedAnalyzer) :
    ∀ {log : Log}, Course key A base log owned →
      (∀ m ∈ ms, m.id ∈ owned.ids ∧ A m.id) → Course key A base (setActive ms true log) owned := by
  induction ms with
  | nil =>
    intro log course _
    exact course
  | cons m ms ih =>
    intro log course allowed
    obtain ⟨mine, here⟩ := allowed m mem_cons_self
    exact ih (course.lighten mine here) fun m' member =>
      allowed m' (mem_cons_of_mem _ member)

private theorem release_cons (ms : List managedAnalyzer) (names : List Text) (left : Remaining) :
    release env r (nameOf m :: names) (m :: ms) left log =
      match env.unregister false (.setActive m false :: log) r (nameOf m) with
      | .failed cause =>
        release env r names ms
          ⟨left.analyzers ++ [m], left.names ++ [nameOf m], left.firstErr.or (some cause)⟩
          (.setActive m true :: .setActive m false :: log)
      | answer =>
        let log := unregisterAnalyzer r (nameOf m) (.setActive m false :: log) answer
        release env r names ms
          { left with
            firstErr := left.firstErr.or (if m.closable then env.close log m else none) }
          (m.close log) := rfl

theorem Course.releases (honest : Honest key env) (ms : List managedAnalyzer) :
    ∀ (err : Option Cause) (left : List managedAnalyzer) {log : Log},
      Course key A base log (by_ r left ++ (by_ r ms ++ owned)) → (∀ m ∈ ms, A m.id) →
      ∃ left' err' log', release env r (ms.map nameOf) ms ⟨left, left.map nameOf, err⟩ log =
          (⟨left', left'.map nameOf, err'⟩, log') ∧
        Course key A base log' (by_ r left' ++ owned) := by
  induction ms with
  | nil =>
    intro err left log course _
    exact ⟨left, err, log, rfl, course⟩
  | cons m ms ih =>
    intro err left log course allowed
    have rest : ∀ m' ∈ ms, A m'.id := fun m' member => allowed m' (mem_cons_of_mem _ member)
    have first : Course key A base log
        ((some r, m) :: (by_ r left ++ (by_ r ms ++ owned))) := course.perm perm_middle
    obtain ⟨dark, off⟩ := first.darken (m := m)
    rw [map_cons, release_cons]
    cases answer : env.unregister false (.setActive m false :: log) r (nameOf m) with
    | failed cause =>
      have again := (dark.lighten (m := m) (mem_cons.mpr (Or.inl rfl))
        (allowed m mem_cons_self)).perm by_concat
      obtain ⟨left', err', log', run, course'⟩ := ih _ _ again rest
      rw [map_append] at run
      exact ⟨left', err', log', run, course'⟩
    | notFound =>
      have inside : (r, m) ∈ book key (.setActive m false :: log) :=
        (dark.booked r m).mpr mem_cons_self
      exact (honest.missing _ _ _ _ answer m inside rfl).elim
    | ok =>
      have closed := dark.unregistered.close off
      exact ih _ _ closed rest

/-- What a factory returned can be given to nobody if nothing of it can be closed. -/
theorem Course.returns_bare (ps : List Product) :
    ∀ {log : Log}, (∀ p ∈ ps, p.closable = false) → Course key A base log owned →
      Course key A base (ps.reverse.map Event.returned ++ log) owned := by
  induction ps with
  | nil =>
    intro log _ course
    exact course
  | cons p ps ih =>
    intro log bare course
    have next : Course key A base (.returned p :: log) owned :=
      ⟨course.toLedger.returned (bare p mem_cons_self), course.lit,
        course.passage.event course.passage.now⟩
    have rest := ih (fun p' member => bare p' (mem_cons_of_mem _ member)) next
    rw [reverse_cons, map_append, append_assoc]
    exact rest

theorem Course.returns (ps : List Product) :
    ∀ {keys : List Text} {ms : List managedAnalyzer} {log : Log} {owned : Owned},
      manage keys (made log) ps = some ms → Course key A base log owned →
      Course key A base (ps.reverse.map Event.returned ++ log) (pending ms ++ owned) ∧
        flag (ps.reverse.map Event.returned ++ log) = flag log := by
  induction ps with
  | nil =>
    intro keys ms log owned managed course
    cases managed
    exact ⟨course, rfl⟩
  | cons p ps ih =>
    intro keys ms log owned managed course
    rw [reverse_cons, map_append, append_assoc]
    cases p with
    | nil => cases managed
    | analyzer info closable =>
      cases info with
      | none => cases managed
      | some info =>
        unfold manage at managed
        dsimp only at managed
        split at managed
        · cases managed
        · obtain ⟨ms', inner, rfl⟩ := Option.map_eq_some_iff.mp managed
          have next : Course key A base (.returned (.analyzer (some info) closable) :: log)
              ((none, ⟨made log, { info with name := Strings.TrimSpace info.name },
                closable⟩) :: owned) :=
            ⟨course.toLedger.managed rfl rfl,
              fun id on => mem_cons_of_mem _ (course.lit id on),
              course.passage.event course.passage.now⟩
          obtain ⟨result, flags⟩ := ih inner next
          exact ⟨result.perm perm_middle, flags⟩

end Courses

section Worlds

def registeredIntegration.owned (e : registeredIntegration) : Owned :=
  match e.active with
  | none => []
  | some active => by_ active.registrar active.analyzers

/-- What is active is unregistered by the names of its analyzers. -/
def registeredIntegration.Named (e : registeredIntegration) : Prop :=
  ∀ active, e.active = some active → active.analyzerNames = active.analyzers.map nameOf

def World.owned (w : World) : Owned := w.entries.flatMap fun e => e.2.owned

/-- The integration is active and has the analyzer with the registrar. -/
def World.Holds (w : World) (r : Registrar) (m : managedAnalyzer) : Prop :=
  ∃ e ∈ w.entries, ∃ active, e.2.active = some active ∧ active.registrar = r ∧ m ∈ active.analyzers

/-- Entries stand under their names, and the registry owns the analyzers of its active
integrations and no others. -/
structure World.Sound (key : Registrar → Text → Text) (w : World) : Prop where
  distinct : Distinct w.entries
  keyed : ∀ e ∈ w.entries, e.1 = integrationKey e.2.metadata.name
  named : ∀ e ∈ w.entries, e.2.Named
  ledger : Ledger key w.log w.owned
  lit : ∀ id, flag w.log id = true → id ∈ w.owned.ids

variable {key : Registrar → Text → Text} {A : ℕ → Prop} {w : World} {name : Text}
  {entry : registeredIntegration} {env : Environment} {log : Log} {active : Option activation}
  {r : Registrar} {m : managedAnalyzer}

theorem World.holds_iff : w.Holds r m ↔ (some r, m) ∈ w.owned := by
  unfold World.Holds World.owned
  rw [mem_flatMap]
  unfold registeredIntegration.owned by_
  grind

theorem World.Sound.course (sound : w.Sound key) (allowed : ∀ id ∈ w.owned.ids, A id) :
    Course key A w.log w.log w.owned :=
  ⟨sound.ledger, sound.lit, Passage.refl fun id on => allowed id (sound.lit id on)⟩

private theorem find_lookup (found : w.find name = some entry) :
    w.entries.lookup (integrationKey name) = some entry := by
  unfold World.find at found
  split at found
  · cases found
  · exact found

private theorem owned_setActivation (sound : w.Sound key) (found : w.find name = some entry) :
    ∃ rest : Owned, w.owned.Perm (entry.owned ++ rest) ∧ ∀ active log,
      (w.setActivation name active log).owned.Perm
        (registeredIntegration.owned { entry with active := active } ++ rest) := by
  obtain ⟨before, after, split, changed, -⟩ := split_of_lookup sound.distinct (find_lookup found)
  have moved (e : registeredIntegration) :
      ((before ++ (integrationKey name, e) :: after).flatMap fun e => e.2.owned).Perm
        (e.owned ++ (before.flatMap (fun e => e.2.owned) ++ after.flatMap fun e => e.2.owned)) := by
    rw [flatMap_append, flatMap_cons, ← append_assoc, ← append_assoc]
    exact perm_append_comm.append_right _
  refine ⟨before.flatMap (fun e => e.2.owned) ++ after.flatMap fun e => e.2.owned, ?_, ?_⟩
  · unfold World.owned
    rw [split]
    exact moved entry
  · intro active log
    unfold World.owned World.setActivation
    rw [changed fun e => { e with active := active }]
    exact moved { entry with active := active }

private theorem Sound.setActivation (entry : registeredIntegration) {owned : Owned}
    (sound : w.Sound key) (named : { entry with active := active }.Named)
    (same : owned.Perm (w.setActivation name active log).owned)
    (course : Course key A w.log log owned) :
    (w.setActivation name active log).Sound key ∧ Passage A w.log log := by
  have course := course.perm same
  refine ⟨⟨?_, ?_, ?_, course.toLedger, course.lit⟩, course.passage⟩
  · have keys : (w.setActivation name active log).entries.map Prod.fst =
        w.entries.map Prod.fst := by
      unfold World.setActivation
      rw [map_map]
      refine map_congr_left fun e _ => ?_
      simp only [Function.comp_apply]
      split
      · rfl
      · rfl
    unfold Distinct
    rw [keys]
    exact sound.distinct
  · intro e member
    obtain ⟨e', inside, rfl⟩ := mem_map.mp member
    split
    · exact sound.keyed e' inside
    · exact sound.keyed e' inside
  · intro e member a here
    obtain ⟨e', inside, rfl⟩ := mem_map.mp member
    split at here
    · exact named a here
    · exact sound.named e' inside a here

/-- Nothing that the factory returns can be closed, or all of it passes validation. -/
def Wholesome (env : Environment) (log : Log) (factory : Factory) : Prop :=
  (∀ p ∈ products env log factory, p.closable = false) ∨
    ∃ raw ms, newAnalyzers env log factory = .ok raw ∧ validateAnalyzers (made log) raw = some ms

variable {raw : List Product} {id : ℕ} {err : Option Cause} {left : List managedAnalyzer}

private theorem newAnalyzers_ok {factory : Factory} (ok : newAnalyzers env log factory = .ok raw) :
    products env log factory = raw := by
  grind [newAnalyzers, products, made]

private theorem validate_manage {ms : List managedAnalyzer}
    (valid : validateAnalyzers id raw = some ms) : manage [] id raw = some ms := by
  simp_all [validateAnalyzers]

/-- What a call leads to, and who is active in between. -/
structure World.Passes (key : Registrar → Text → Text) (w w' : World) : Prop where
  sound : w'.Sound key
  passage : Passage (fun id => id ∈ w.owned.ids ∨ id ∈ w'.owned.ids) w.log w'.log

private theorem World.Passes.same (sound : w.Sound key) : w.Passes key w :=
  ⟨sound, (sound.course fun _ member => Or.inl member).passage⟩

private theorem World.Passes.setLog (sound : w.Sound key)
    (course : Course key (fun id => id ∈ w.owned.ids ∨ id ∈ w.owned.ids) w.log log w.owned) :
    w.Passes key { w with log := log } :=
  ⟨⟨sound.distinct, sound.keyed, sound.named, course.toLedger, course.lit⟩, course.passage⟩

private theorem World.Passes.setEntries (sound : w.Sound key)
    {entries : List (Text × registeredIntegration)} (distinct : Distinct entries)
    (keyed : ∀ e ∈ entries, e.1 = integrationKey e.2.metadata.name)
    (named : ∀ e ∈ entries, e.2.Named)
    (same : World.owned { w with entries := entries } = w.owned) :
    w.Passes key { w with entries := entries } :=
  ⟨⟨distinct, keyed, named, same ▸ sound.ledger, same ▸ sound.lit⟩,
    (sound.course fun _ member => Or.inl member).passage⟩

private theorem activate_passes {registrar : Registrar} (sound : w.Sound key)
    (honest : Honest key env) (found : w.find name = some entry) (inactive : entry.active = none)
    (wholesome : Wholesome env w.log entry.factory) :
    w.Passes key (w.activate env name entry registrar).2 := by
  have failed (bare : ∀ p ∈ products env w.log entry.factory, p.closable = false) :
      w.Passes key
        { w with log := (products env w.log entry.factory).reverse.map Event.returned ++ w.log } :=
    .setLog sound (Course.returns_bare _ bare (sound.course fun _ member => Or.inl member))
  unfold World.activate
  cases new : newAnalyzers env w.log entry.factory with
  | error cause =>
    refine failed ?_
    rcases wholesome with bare | ⟨raw, ms, ok, -⟩
    · exact bare
    · cases new.symm.trans ok
  | ok raw =>
    dsimp only
    cases valid : validateAnalyzers (made w.log) raw with
    | none =>
      refine failed ?_
      rcases wholesome with bare | ⟨raw', ms, ok, valid'⟩
      · exact bare
      · cases new.symm.trans ok
        cases valid.symm.trans valid'
    | some ms =>
      dsimp only
      rw [newAnalyzers_ok new]
      obtain ⟨rest, owned, owned'⟩ := owned_setActivation sound found
      have pended {A : ℕ → Prop} (allowed : ∀ id ∈ w.owned.ids, A id) :=
        Course.returns raw (validate_manage valid) (sound.course allowed)
      have dark : ∀ m ∈ ms, flag w.log m.id = false := by
        intro m member
        rw [← Bool.not_eq_true]
        intro on
        have apart := (pended (A := fun _ => True) fun _ _ => trivial).1.ids
        unfold Owned.ids at apart
        rw [map_append] at apart
        refine (nodup_append.mp apart).2.2 m.id ?_ m.id (sound.lit m.id on) rfl
        exact mem_map.mpr ⟨(none, m), mem_map.mpr ⟨m, member, rfl⟩, rfl⟩
      have looped {A : ℕ → Prop} (allowed : ∀ id ∈ w.owned.ids, A id) :=
        Course.registers honest ms (show Course key A w.log _
          (by_ registrar [] ++ (pending ms ++ w.owned)) from (pended allowed).1)
      have flags := (pended (A := fun _ => True) fun _ _ => trivial).2
      cases run : registerAnalyzers env registrar ms []
          (raw.reverse.map Event.returned ++ w.log) with
      | mk result log =>
        obtain ⟨names, cause⟩ := result
        cases cause with
        | none =>
          let w' := w.setActivation name
            (some ⟨registrar, ms, ms.map fun m => m.info.name⟩) (setActive ms true log)
          have after : (by_ registrar ms ++ w.owned).Perm w'.owned := by
            refine ((owned.append_left _).trans ?_).trans (owned' _ _).symm
            unfold registeredIntegration.owned
            rw [inactive]
            exact Perm.refl _
          obtain ⟨done, rest', cause, log', run', parts, ended, -, course⟩ :=
            looped (A := fun id => id ∈ w.owned.ids ∨ id ∈ w'.owned.ids)
              fun _ member => Or.inl member
          cases run.symm.trans run'
          obtain rfl := ended rfl
          rw [append_nil] at parts
          obtain rfl : done = ms := parts
          have lit := Course.lights_all done course fun m member =>
            ⟨mem_ids_by member, Or.inr ((after.map _).mem_iff.mp (mem_ids_by member))⟩
          obtain ⟨sound', passage⟩ := Sound.setActivation entry sound
            (fun a here => by cases here; rfl) after lit
          exact ⟨sound', passage⟩
        | some cause =>
          obtain ⟨done, rest', cause', log', run', parts, -, same, course⟩ :=
            looped (A := fun id => id ∈ w.owned.ids ∨ id ∈ w.owned.ids)
              fun _ member => Or.inl member
          cases run.symm.trans run'
          obtain ⟨back, same'⟩ := Course.rolls_back honest done course
          have all : pending done ++ (pending rest' ++ w.owned) = pending ms ++ w.owned := by
            grind [pending]
          rw [all] at back
          refine .setLog sound (Course.closes_all ms back ?_)
          intro m member
          rw [same', same, flags]
          exact dark m member

private theorem owned_remaining : registeredIntegration.owned
      { entry with active := World.remaining r ⟨left, left.map nameOf, err⟩ } = by_ r left := by
  unfold registeredIntegration.owned World.remaining
  cases left with
  | nil | cons => rfl

private theorem named_remaining : registeredIntegration.Named
    { entry with active := World.remaining r ⟨left, left.map nameOf, err⟩ } := by
  grind [World.remaining, registeredIntegration.Named]

private theorem Deactivate_passes (sound : w.Sound key) (honest : Honest key env)
    (registrar : Option Registrar) : w.Passes key (w.Deactivate env name registrar).2 := by
  unfold World.Deactivate
  cases found : w.find name with
  | none => exact .same sound
  | some entry =>
    dsimp only
    cases here : entry.active with
    | none => exact .same sound
    | some active =>
      cases registrar with
      | none => exact .same sound
      | some registrar =>
        dsimp only
        split
        · exact .same sound
        · rename_i same
          rw [Bool.not_eq_false, World.sameRegistrar, Bool.and_eq_true, decide_eq_true_eq] at same
          obtain rfl := same.2
          obtain ⟨rest, owned, owned'⟩ := owned_setActivation sound found
          have mine : entry.owned = by_ active.registrar active.analyzers := by
            unfold registeredIntegration.owned
            rw [here]
          have names := sound.named _ (mem_of_lookup (find_lookup found)) active here
          rw [mine] at owned
          rw [names]
          have allowed {B : ℕ → Prop} : ∀ m ∈ active.analyzers, m.id ∈ w.owned.ids ∨ B m.id :=
            fun m member => Or.inl ((owned.map _).mem_iff.mpr (mem_ids_by member))
          have course {B : ℕ → Prop} :
              Course key (fun id => id ∈ w.owned.ids ∨ B id) w.log w.log
                (by_ active.registrar [] ++ (by_ active.registrar active.analyzers ++ rest)) :=
            (sound.course fun _ member => Or.inl member).perm owned
          have loop {B : ℕ → Prop} := Course.releases honest active.analyzers none []
            (course (B := B)) allowed
          cases run : release env active.registrar (active.analyzers.map nameOf)
              active.analyzers ⟨[], [], none⟩ w.log with
          | mk left log =>
            obtain ⟨left', err', log', run', course'⟩ := loop (B := fun id => id ∈
              (w.setActivation name (World.remaining active.registrar left) log).owned.ids)
            cases run.symm.trans run'
            have after := (owned' (World.remaining active.registrar
              ⟨left', left'.map nameOf, err'⟩) log).symm
            rw [owned_remaining] at after
            obtain ⟨sound', passage⟩ := Sound.setActivation entry sound
              named_remaining after course'
            exact ⟨sound', passage⟩

private theorem Register_passes (sound : w.Sound key) (factory : Option Factory) :
    w.Passes key (w.Register env factory).2 := by
  unfold World.Register
  split
  · exact .same sound
  · split
    · exact .same sound
    · split
      · exact .same sound
      · rename_i factory _ _ metadata _
        dsimp only
        split
        · exact .same sound
        · rename_i new
          have absent : ∀ e ∈ w.entries, e.1 ≠ integrationKey metadata.name := by
            intro e member here
            refine new (lookup_isSome.mpr ?_)
            exact mem_map.mpr ⟨e, member, here⟩
          have same : World.owned { w with entries := w.entries ++
              [(integrationKey metadata.name, ⟨factory, metadata, none⟩)] } = w.owned := by
            unfold World.owned
            rw [flatMap_append]
            exact append_nil _
          have distinct := sound.distinct.put (k := integrationKey metadata.name)
            (v := ⟨factory, metadata, none⟩)
          rw [put_of_absent absent] at distinct ⊢
          refine .setEntries sound distinct ?_ ?_ same
          · intro e member
            rcases mem_append.mp member with inside | here
            · exact sound.keyed e inside
            · rw [mem_singleton.mp here]
          · intro e member a active
            rcases mem_append.mp member with inside | here
            · exact sound.named e inside a active
            · rw [mem_singleton.mp here] at active
              cases active

private theorem Unregister_passes (sound : w.Sound key) : w.Passes key (w.Unregister name).2 := by
  unfold World.Unregister
  cases found : w.find name with
  | none => exact .same sound
  | some entry =>
    dsimp only
    split
    · exact .same sound
    · rename_i inactive
      obtain ⟨before, after, split, -, removed⟩ :=
        split_of_lookup sound.distinct (find_lookup found)
      have empty : entry.owned = [] := by
        unfold registeredIntegration.owned
        rw [Option.not_isSome_iff_eq_none.mp inactive]
      have same : World.owned ⟨before ++ after, w.log⟩ = w.owned := by
        unfold World.owned
        grind
      have fewer : ∀ e ∈ before ++ after, e ∈ w.entries := by
        grind
      have distinct : Distinct (before ++ after) := by
        have distinct := sound.distinct
        rw [split] at distinct
        refine distinct.sublist (Sublist.map _ ?_)
        exact (Sublist.refl before).append (sublist_cons_self _ _)
      rw [removed]
      exact .setEntries sound distinct (fun e member => sound.keyed e (fewer e member))
        (fun e member => sound.named e (fewer e member)) same

private def ownedBy (es : List registeredIntegration) : Owned := es.flatMap fun e => e.owned

private theorem closeEntries_courses {base : Log} (honest : Honest key env)
    (es : List registeredIntegration) :
    ∀ (keep : List registeredIntegration) (err : Option Cause) {owned : Owned} {log : Log},
      (∀ e ∈ es, e.Named) → Course key A base log (ownedBy es ++ owned) →
      (∀ id ∈ (ownedBy es).ids, A id) →
      ∃ left err' log', World.closeEntries env es keep err log = ((keep ++ left, err'), log') ∧
        (∀ e ∈ left, e.Named) ∧
        (left.map fun e => e.metadata.name).Sublist (es.map fun e => e.metadata.name) ∧
        Course key A base log' (ownedBy left ++ owned) := by
  induction es with
  | nil =>
    intro keep err owned log _ course _
    exact ⟨[], err, log, by rw [append_nil]; rfl, forall_mem_nil _, .slnil, course⟩
  | cons e es ih =>
    intro keep err owned log named course allowed
    obtain ⟨own, others⟩ := forall_mem_cons.mp named
    have parts : ownedBy (e :: es) = e.owned ++ ownedBy es := flatMap_cons
    rw [parts] at course allowed
    have allowed' : ∀ id ∈ (ownedBy es).ids, A id := by
      intro id member
      refine allowed id ?_
      unfold Owned.ids at member ⊢
      rw [map_append]
      exact mem_append_right _ member
    unfold World.closeEntries
    cases here : e.active with
    | none =>
      have empty : e.owned = [] := by
        unfold registeredIntegration.owned
        rw [here]
      rw [empty] at course
      obtain ⟨left, err', log', run, named', fewer, course'⟩ := ih keep err others course allowed'
      exact ⟨left, err', log', run, named', fewer.cons _, course'⟩
    | some active =>
      have mine : e.owned = by_ active.registrar active.analyzers := by
        unfold registeredIntegration.owned
        rw [here]
      rw [mine] at course allowed
      rw [append_assoc] at course
      obtain ⟨rest, err', log', run, released⟩ := Course.releases honest
        active.analyzers err [] course fun m member => allowed m.id (mem_ids_by member)
      have extra : active.analyzers.drop (active.analyzers.map nameOf).length = [] := by
        rw [length_map, drop_length]
      dsimp only
      rw [own active here]
      rw [show release env active.registrar (active.analyzers.map nameOf) active.analyzers
        ⟨[], [], err⟩ log = _ from run, extra]
      dsimp only
      rw [append_nil]
      cases rest with
      | nil =>
        obtain ⟨left, err'', log'', run', named', fewer, course'⟩ :=
          ih keep err' others released allowed'
        exact ⟨left, err'', log'', run', named', fewer.cons _, course'⟩
      | cons m rest =>
        let kept : registeredIntegration := { e with
          active := some ⟨active.registrar, m :: rest, (m :: rest).map nameOf⟩ }
        obtain ⟨left, err'', log'', run', named', fewer, course'⟩ := ih (keep ++ [kept]) err' others
          (released.perm (perm_append_comm_assoc _ _ _)) allowed'
        refine ⟨kept :: left, err'', log'', ?_, forall_mem_cons.mpr ⟨?_, named'⟩, fewer.cons_cons _,
          course'.perm ?_⟩
        · rw [append_assoc] at run'
          exact run'
        · intro a active'
          cases active'
          rfl
        · rw [show ownedBy (kept :: left) = by_ active.registrar (m :: rest) ++ ownedBy left from
            flatMap_cons, append_assoc]
          exact perm_append_comm_assoc _ _ _

private theorem Close_passes (sound : w.Sound key) (honest : Honest key env)
    (iteration : Iteration (Text × registeredIntegration)) :
    w.Passes key (w.Close env iteration).2 := by
  let es := (iteration.order w.entries).map Prod.snd
  have perm := iteration.perm w.entries
  have owned : w.owned.Perm (ownedBy es) := by
    unfold World.owned ownedBy
    rw [flatMap_map]
    exact (perm.symm).flatMap_right _
  have named : ∀ e ∈ es, e.Named := by
    intro e member
    obtain ⟨e', inside, rfl⟩ := mem_map.mp member
    exact sound.named e' (perm.mem_iff.mp inside)
  have start {B : ℕ → Prop} : Course key (fun id => id ∈ w.owned.ids ∨ B id) w.log w.log
      (ownedBy es ++ []) :=
    (append_nil (ownedBy es)).symm ▸ (sound.course fun _ member => Or.inl member).perm owned
  have loop {B : ℕ → Prop} := closeEntries_courses honest es [] none named (start (B := B))
    fun id member => Or.inl ((owned.map _).mem_iff.mpr member)
  unfold World.Close
  cases run : World.closeEntries env es [] none w.log with
  | mk result log =>
    obtain ⟨keep, err⟩ := result
    dsimp only
    have distinct : (es.map fun e => integrationKey e.metadata.name).Nodup := by
      have keys : (es.map fun e => integrationKey e.metadata.name) =
          (iteration.order w.entries).map Prod.fst := by
        rw [map_map]
        refine map_congr_left fun e member => ?_
        exact (sound.keyed e (perm.mem_iff.mp member)).symm
      rw [keys]
      exact (perm.map Prod.fst).nodup_iff.mpr sound.distinct
    have keys : (keep.map fun e => integrationKey e.metadata.name).Nodup := by
      obtain ⟨keep', err', log', run', -, fewer, -⟩ := loop (B := fun _ => True)
      cases run.symm.trans run'
      have smaller := fewer.map integrationKey
      rw [map_map, map_map] at smaller
      exact distinct.sublist smaller
    have stored : keep.foldl
        (fun entries e => put entries (integrationKey e.metadata.name) e) [] =
          keep.map fun e => (integrationKey e.metadata.name, e) :=
      foldl_put keep (m := []) keys
    rw [stored]
    let w' : World := ⟨keep.map fun e => (integrationKey e.metadata.name, e), log⟩
    have same : w'.owned = ownedBy keep := flatMap_map ..
    obtain ⟨keep', err', log', run', named', -, course⟩ := loop (B := fun id => id ∈ w'.owned.ids)
    cases run.symm.trans run'
    rw [append_nil, show ownedBy keep' = _ from same.symm] at course
    refine ⟨⟨?_, ?_, ?_, course.toLedger, course.lit⟩, course.passage⟩
    · unfold Distinct
      rw [map_map]
      exact keys
    · simp
    · intro e member
      obtain ⟨e', inside, rfl⟩ := mem_map.mp member
      exact named' e' inside

def Calls (w : World) (step : Step) (entry : registeredIntegration) : Prop :=
  ∃ name registrar, step.call = .activate true name (some registrar) ∧
    w.find name = some entry ∧ entry.active = none ∧ step.env.err w.log = none

/-- Registrars are honest, and what a factory returns need not be closed or passes validation. -/
structure Met (key : Registrar → Text → Text) (w : World) (step : Step) : Prop where
  honest : Honest key step.env
  wholesome : ∀ entry, Calls w step entry → Wholesome step.env w.log entry.factory

variable {step : Step}

theorem run_passes (sound : w.Sound key) (met : Met key w step) : w.Passes key (w.run step).2 := by
  unfold World.run
  split
  · exact Register_passes sound _
  · exact Unregister_passes sound
  · rename_i ctx name registrar call
    unfold World.Activate
    cases found : w.find name with
    | none => exact .same sound
    | some entry =>
      dsimp only
      split
      · exact .same sound
      · split
        · exact .same sound
        · exact .same sound
      · exact .same sound
      · rename_i registrar inactive
        split
        · exact .same sound
        · rename_i given
          rw [Bool.not_eq_false] at given
          subst given
          split
          · exact .same sound
          · rename_i clear
            refine activate_passes sound met.honest found inactive (met.wholesome entry ?_)
            exact ⟨name, registrar, call, found, inactive, clear⟩
  · exact Deactivate_passes sound met.honest _
  · exact Close_passes sound met.honest _

theorem sound_of_empty (key : Registrar → Text → Text) : World.Sound key ⟨[], []⟩ := by
  refine ⟨nodup_nil, by simp, by simp, ⟨?_, List.Pairwise.nil, nodup_nil, ?_, ?_, ?_⟩, ?_⟩
  · intro r m
    exact ⟨fun inside => (not_mem_nil inside).elim, fun inside => (not_mem_nil inside).elim⟩
  · intro e member
    exact (not_mem_nil member).elim
  · intro id
    rfl
  · intro l m moment
    cases eq_nil_of_suffix_nil moment
  · intro id on
    cases on

theorem reachable_sound (reached : registrySystem.Reachable (Met key) w) : w.Sound key := by
  refine reached.invariant ?_ ?_
  · rintro w rfl
    exact sound_of_empty key
  · rintro w step w' sound rfl met
    exact (run_passes sound met).sound

private theorem made_returned (ps : List Product) (log : Log) :
    made log ≤ made (ps.map Event.returned ++ log) := by
  induction ps with
  | nil => exact le_rfl
  | cons p ps ih => exact Nat.le_succ_of_le ih

private theorem product_returned (ps : List Product) (old : id < made log) :
    product (ps.map Event.returned ++ log) id = product log id := by
  induction ps with
  | nil => rfl
  | cons p ps ih =>
    have apart : id ≠ made (ps.map Event.returned ++ log) := by
      have := made_returned ps log
      omega
    show (if id = made (ps.map Event.returned ++ log) then some p else _) = _
    rw [if_neg apart]
    exact ih

private theorem closes_returned (ps : List Product) (id : ℕ) :
    closes (ps.map Event.returned ++ log) id = closes log id := by
  induction ps with
  | nil => rfl
  | cons p ps ih => exact ih

private theorem product_new {p : Product} (ps : List Product) :
    ∀ (log : Log), p ∈ ps →
      ∃ id, made log ≤ id ∧ product (ps.reverse.map Event.returned ++ log) id = some p := by
  induction ps with
  | nil =>
    intro log member
    exact (not_mem_nil member).elim
  | cons p' ps ih =>
    intro log member
    rw [reverse_cons, map_append, append_assoc]
    rcases mem_cons.mp member with rfl | member
    · refine ⟨made log, le_rfl, ?_⟩
      rw [product_returned _ (Nat.lt_succ_self _)]
      exact if_pos rfl
    · obtain ⟨id, later, found⟩ := ih (.returned p' :: log) member
      exact ⟨id, Nat.le_of_succ_le later, found⟩

private theorem holds_lt (sound : w.Sound key) (holds : w.Holds r m) : m.id < made w.log := by
  have known := sound.ledger.known (some r, m) (World.holds_iff.mp holds)
  obtain ⟨p, found, -⟩ := Option.map_eq_some_iff.mp known
  exact product_lt found

private theorem run_leaks (sound : w.Sound key) (calls : Calls w step entry)
    (refused : ¬Wholesome step.env w.log entry.factory) :
    ∃ id, Closable (w.run step).2.log id ∧ closes (w.run step).2.log id = 0 ∧
      ∀ r m, (w.run step).2.Holds r m → m.id ≠ id := by
  obtain ⟨name, registrar, call, found, inactive, clear⟩ := calls
  unfold Wholesome at refused
  rw [not_or, not_forall] at refused
  obtain ⟨⟨p, some⟩, invalid⟩ := refused
  rw [not_forall, exists_prop, Bool.not_eq_false] at some
  have dropped : (w.run step).2 = { w with
      log := (products step.env w.log entry.factory).reverse.map Event.returned ++ w.log } := by
    unfold World.run
    rw [call]
    dsimp only
    unfold World.Activate
    rw [found]
    dsimp only
    rw [inactive]
    dsimp only
    rw [clear]
    unfold World.activate
    dsimp only
    cases new : newAnalyzers step.env w.log entry.factory with
    | error cause => rfl
    | ok raw =>
      cases valid : validateAnalyzers (made w.log) raw with
      | none => simp [valid]
      | some ms => exact (invalid ⟨raw, ms, new, valid⟩).elim
  obtain ⟨id, later, here⟩ := product_new _ w.log some.1
  rw [dropped]
  refine ⟨id, ?_, ?_, ?_⟩
  · unfold Closable
    rw [here]
    exact some.2
  · rw [closes_returned, sound.ledger.counted, if_neg]
    rintro ⟨closable, -⟩
    obtain ⟨p', found⟩ := closable_product closable
    exact absurd (product_lt found) (by omega)
  · intro r m holds same
    have := holds_lt sound (show w.Holds r m from holds)
    omega

private theorem mem_ids : id ∈ w.owned.ids ↔ ∃ r m, w.Holds r m ∧ m.id = id := by
  unfold Owned.ids
  rw [mem_map]
  constructor
  · rintro ⟨⟨place, m⟩, member, here⟩
    obtain ⟨e, inside, mine⟩ := mem_flatMap.mp member
    unfold registeredIntegration.owned by_ at mine
    split at mine
    · exact (not_mem_nil mine).elim
    · rename_i active _
      obtain ⟨m', -, same⟩ := mem_map.mp mine
      cases same
      exact ⟨active.registrar, m, World.holds_iff.mpr member, here⟩
  · rintro ⟨r, m, holds, here⟩
    exact ⟨(some r, m), World.holds_iff.mp holds, here⟩

/-- After every call, registrars have the analyzers of the active integrations and no others;
every analyzer that can be closed is one of them, or was closed once, and never while it was
registered; and during a call `Analyze` reaches a delegate only if its integration is active
before or after it. A call in which a factory returns something that can be closed but does not
pass leaves it open. -/
theorem registry_owns_its_analyzers (reached : registrySystem.Reachable (Met key) w) :
    (∀ r m, (r, m) ∈ book key w.log ↔ w.Holds r m) ∧
    (∀ id, Closable w.log id →
      closes w.log id = 0 ∧ (∃ r m, w.Holds r m ∧ m.id = id) ∨
        closes w.log id = 1 ∧ ∀ r m, w.Holds r m → m.id ≠ id) ∧
    (∀ l m, (Event.closed m :: l) <:+ w.log → ∀ r m', (r, m') ∈ book key l → m'.id ≠ m.id) ∧
    ∀ step w', registrySystem.step w step w' →
      (Met key w step → ∀ l, w.log <:+ l → l <:+ w'.log → ∀ id, flag l id = true →
        (∃ r m, w.Holds r m ∧ m.id = id) ∨ ∃ r m, w'.Holds r m ∧ m.id = id) ∧
      ∀ entry, Calls w step entry → ¬Wholesome step.env w.log entry.factory →
        ∃ id, Closable w'.log id ∧ closes w'.log id = 0 ∧ ∀ r m, w'.Holds r m → m.id ≠ id := by
  have sound := reachable_sound reached
  refine ⟨?_, ?_, sound.ledger.apart, ?_⟩
  · intro r m
    rw [sound.ledger.booked, World.holds_iff]
  · intro id closable
    have count := sound.ledger.counted id
    by_cases held : id ∈ w.owned.ids
    · rw [if_neg fun both => both.2 held] at count
      exact Or.inl ⟨count, mem_ids.mp held⟩
    · rw [if_pos ⟨closable, held⟩] at count
      exact Or.inr ⟨count, fun r m holds here => held (mem_ids.mpr ⟨r, m, holds, here⟩)⟩
  · rintro step w' rfl
    constructor
    · intro met l above below id on
      rcases (run_passes sound met).passage.2 l above below id on with before | after
      · exact Or.inl (mem_ids.mp before)
      · exact Or.inr (mem_ids.mp after)
    · intro entry calls refused
      exact run_leaks sound calls refused

end Worlds

namespace Sample

def key (_ : Registrar) (name : Text) : Text := analyzerKey name

def taken (log : Log) (r : Registrar) (name : Text) : Bool :=
  (book key log).any fun e => e.1 = r && key r e.2.info.name = key r name

def env (analyzers : List Product) : Environment where
  secureURL _ := true
  err _ := none
  NewAnalyzers _ _ := some (analyzers, none)
  New _ _ := none
  register log r m := if taken log r m.info.name then some .other else none
  unregister _ log r name := if taken log r name then .ok else .notFound
  close _ _ := none

private theorem taken_iff {log : Log} {r : Registrar} {name : Text} : taken log r name = true ↔
    ∃ m, (r, m) ∈ book key log ∧ key r m.info.name = key r name := by
  simp [taken]

theorem honest (analyzers : List Product) : Honest key (env analyzers) := by
  constructor
  · intro log r m accepted m' inside same
    have free : taken log r m.info.name = true := taken_iff.mpr ⟨m', inside, same⟩
    simp [env, free] at accepted
  · intro back log r name missing m inside same
    have here : taken log r name = true := taken_iff.mpr ⟨m, inside, same⟩
    simp [env, here] at missing
  · intro log r m inside
    have here : taken log r m.info.name = true := taken_iff.mpr ⟨m, inside, rfl⟩
    simp [env, here]

def factory : Factory :=
  ⟨0, true, false, some ⟨"aws", [], [], "resources", [], [], [], true, []⟩⟩

def registrar : Registrar := ⟨0, true⟩

def analyzer (name : Text) : Product :=
  .analyzer (some ⟨name, "Bucket", "buckets", [], [], true, 0⟩) true

def registers : Step := ⟨env [], .register (some factory)⟩

def activates (analyzers : List Product) : Step :=
  ⟨env analyzers, .activate true "aws" (some registrar)⟩

def deactivates : Step := ⟨env [], .deactivate "aws" (some registrar)⟩

def registered : World := (World.run ⟨[], []⟩ registers).2

private theorem registered_calls {step : Step} {entry : registeredIntegration}
    (calls : Calls registered step entry) : entry.factory = factory := by
  obtain ⟨name, r, -, found, -, -⟩ := calls
  have member := mem_of_lookup (show registered.entries.lookup (integrationKey name) = some entry by
    unfold World.find at found
    split at found
    · cases found
    · exact found)
  have only : registered.entries = [("aws".toList, ⟨factory,
      ⟨"aws", [], [], "resources", [], [], [], true, []⟩, none⟩)] := by decide +kernel
  grind

theorem registered_reachable {ok : World → Step → Prop} (met : ok ⟨[], []⟩ registers) :
    registrySystem.Reachable ok registered :=
  (System.Reachable.init rfl).step rfl met

def refused : World := (registered.run (activates [analyzer "s3", analyzer "S3"])).2

def activated : World := (registered.run (activates [analyzer "s3"])).2

def deactivated : World := (activated.run deactivates).2

theorem deactivated_reachable : registrySystem.Reachable (Met key) deactivated := by
  have first : Met key ⟨[], []⟩ registers := by
    refine ⟨honest _, ?_⟩
    rintro entry ⟨name, r, call, -⟩
    cases call
  have second : Met key registered (activates [analyzer "s3"]) := by
    refine ⟨honest _, ?_⟩
    intro entry calls
    rw [registered_calls calls]
    refine Or.inr ⟨[analyzer "s3"],
      [⟨0, ⟨"s3", "Bucket", "buckets", [], [], true, 0⟩, true⟩], rfl, ?_⟩
    decide +kernel
  have third : Met key activated deactivates := by
    refine ⟨honest _, ?_⟩
    rintro entry ⟨name, r, call, -⟩
    cases call
  exact ((registered_reachable first).step rfl second).step rfl third

end Sample

/-- A factory returns two analyzers under one name; neither is registered, and neither closed. -/
theorem refused_analyzers_stay_open :
    registrySystem.Reachable (fun _ step => Honest Sample.key step.env) Sample.refused ∧
      Closable Sample.refused.log 0 ∧ closes Sample.refused.log 0 = 0 ∧
      Closable Sample.refused.log 1 ∧ closes Sample.refused.log 1 = 0 ∧
      ∀ r m, ¬Sample.refused.Holds r m := by
  refine ⟨(Sample.registered_reachable (Sample.honest _)).step rfl (Sample.honest _),
    by decide +kernel, by decide +kernel, by decide +kernel, by decide +kernel, ?_⟩
  intro r m holds
  have nothing : Sample.refused.owned = [] := by decide +kernel
  have inside := World.holds_iff.mp holds
  rw [nothing] at inside
  exact not_mem_nil inside

theorem registry_owns_its_analyzers_deactivated :
    registrySystem.Reachable (Met Sample.key) Sample.deactivated ∧
      Closable Sample.deactivated.log 0 ∧ closes Sample.deactivated.log 0 = 1 := by
  have closable : Closable Sample.deactivated.log 0 := by decide +kernel
  refine ⟨Sample.deactivated_reachable, closable, ?_⟩
  rcases (registry_owns_its_analyzers Sample.deactivated_reachable).2.1 0 closable with
    ⟨-, r, m, holds, -⟩ | ⟨once, -⟩
  · have nothing : Sample.deactivated.owned = [] := by decide +kernel
    have inside := World.holds_iff.mp holds
    rw [nothing] at inside
    exact (not_mem_nil inside).elim
  · exact once

end Sre.Integration
