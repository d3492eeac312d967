/- GID: Sre/Storage/Migration
   digest: The schema migration of a store, alone and among concurrent calls of it. -/

import Sre.Foundation.Outcome
import Sre.Foundation.System
import Sre.Platform

set_option autoImplicit false

namespace Sre.Storage.Migration

open Foundation List Outcome

inductive Error where
  | unavailable
  | conflict
  | notFound
  | invalid

/-- What a statement fails with: no row, an error of the server with its code, another one. -/
inductive Fault where
  | noRows
  | code (text : Text)
  | other

def safeError : Fault → Error
  | .noRows => .notFound
  | .code text =>
    if text ∈ (["23505", "40001", "40P01"] : List String).map String.toList then .conflict
    else if text ∈ (["23503", "23514", "22P02"] : List String).map String.toList then .invalid
    else .unavailable
  | .other => .unavailable

/-- A row of the table of migrations: version and checksum. -/
abbrev Row := ℤ × Text

/-- The table of migrations; its versions are a primary key. -/
structure Table where
  rows : List Row
  key : (rows.map Prod.fst).Nodup

/-- A database: the table of migrations, if it exists, and everything else. -/
structure Database (σ : Type) where
  migrations : Option Table
  rest : σ

structure File where
  name : Text
  data : Text

/-- The statements of a migration, apart from the scripts. -/
inductive Statement where
  | begin_
  | lock
  | create
  | query
  | insert (version : ℕ)
  | commit
  deriving DecidableEq

/-- How the server answers one call: the statements that fail, and what the scripts do. -/
structure Attempt (σ : Type) where
  fails : Statement → Option Fault
  script : Text → Database σ → Except Fault (Database σ)

/-- `%03d_`. -/
def expectedName (n : ℕ) : Text :=
  let digits := (toString n).toList
  List.replicate (3 - digits.length) '0' ++ digits ++ ['_']

/-- The files are numbered from one. -/
def named : ℕ → List File → Bool
  | _, [] => true
  | n, file :: files =>
    (expectedName (n + 1)).isPrefixOf file.name && ".sql".toList.isSuffixOf file.name &&
      named (n + 1) files

/-- The loop over the recorded rows: how many migrations were applied, unless one conflicts. -/
def applied (known : List Text) : ℕ → List Row → Option ℕ
  | count, [] => some count
  | count, (version, checksum) :: rows =>
    if version ≠ count + 1 ∨ known.length < version ∨ known[(version - 1).toNat]? ≠ some checksum
    then none
    else applied known (count + 1) rows

section Migrate

variable [Platform] {σ : Type}

def checksums (files : List File) : List Text := files.map fun file => Platform.sha256 file.data

/-- A statement that may fail. -/
def Attempt.run (a : Attempt σ) (s : Statement) : Except Error Unit :=
  match a.fails s with
  | none => .ok ()
  | some fault => .error (safeError fault)

/-- `CREATE TABLE IF NOT EXISTS`. -/
def Database.created (db : Database σ) : Database σ :=
  { db with migrations := some (db.migrations.getD ⟨[], nodup_nil⟩) }

def Database.rows (db : Database σ) : List Row :=
  match db.migrations with
  | none => []
  | some table => table.rows.insertionSort fun a b => a.1 ≤ b.1

/-- `INSERT` of a row, which a row of the same version makes fail. -/
def Database.insert (db : Database σ) (row : Row) : Except Fault (Database σ) :=
  match db.migrations with
  | none => .error .other
  | some table =>
    if fresh : row.1 ∉ table.rows.map Prod.fst then
      .ok { db with migrations := some ⟨row :: table.rows, by
        rw [map_cons, nodup_cons]
        exact ⟨fresh, table.key⟩⟩ }
    else .error (.code "23505")

/-- The fault of a statement, as it is returned. -/
def safe {α : Type} : Except Fault α → Except Error α
  | .ok a => .ok a
  | .error fault => .error (safeError fault)

/-- The loop that applies what is left; `n` migrations were applied. -/
def applyAll (a : Attempt σ) : ℕ → List File → Database σ → Except Error (Database σ)
  | _, [], db => .ok db
  | n, file :: files, db => do
    let db ← safe (a.script file.data db)
    a.run (.insert (n + 1))
    let db ← safe (db.insert (n + 1, Platform.sha256 file.data))
    applyAll a (n + 1) files db

/-- The statements of `migrate`, from the answer to the lock to the commit. -/
def transaction (a : Attempt σ) (files : List File) (db : Database σ) :
    Except Error (Database σ) := do
  a.run .create
  let db := db.created
  if !named 0 files then throw .conflict
  a.run .query
  match applied (checksums files) 0 db.rows with
  | none => throw .conflict
  | some k =>
    let db ← applyAll a k (files.drop k) db
    a.run .commit
    return db

/-- `migrate`, when no other call is in progress: a transaction that is not committed leaves
nothing. -/
def migrate (a : Attempt σ) (files : List File) (db : Database σ) :
    Except Error Unit × Database σ :=
  match (do a.run .begin_; a.run .lock; transaction a files db : Except Error (Database σ)) with
  | .ok after => (.ok (), after)
  | .error e => (.error e, db)

end Migrate

/-- Rows numbered from `n + 1` on. -/
def numbered : ℕ → List Text → List Row
  | _, [] => []
  | n, checksum :: checksums => ((n : ℤ) + 1, checksum) :: numbered (n + 1) checksums

section Reading

private theorem numbered_append (n : ℕ) (a b : List Text) :
    numbered n (a ++ b) = numbered n a ++ numbered (n + a.length) b := by
  induction a generalizing n with
  | nil => rfl
  | cons c a ih =>
    grind [numbered]

private theorem mem_numbered {n : ℕ} {l : List Text} {row : Row} (inside : row ∈ numbered n l) :
    (n : ℤ) < row.1 ∧ row.1 ≤ n + l.length := by
  induction l generalizing n with
  | nil => cases inside
  | cons c l ih =>
    rcases mem_cons.mp inside with rfl | later
    · push_cast [length_cons]
      omega
    · grind

private theorem numbered_pairwise (n : ℕ) (l : List Text) :
    (numbered n l).Pairwise fun a b => a.1 < b.1 := by
  induction l generalizing n with
  | nil => exact List.Pairwise.nil
  | cons c l ih =>
    refine pairwise_cons.mpr ⟨fun row inside => ?_, ih (n + 1)⟩
    have above := (mem_numbered inside).1
    exact above

private theorem applied_iff (known : List Text) (rows : List Row) :
    ∀ count k : ℕ, count ≤ known.length → (applied known count rows = some k ↔
      count ≤ k ∧ k ≤ known.length ∧
        rows = numbered count ((known.drop count).take (k - count))) := by
  induction rows with
  | nil =>
    intro count k bound
    rw [applied, Option.some_inj]
    constructor
    · rintro rfl
      exact ⟨le_refl _, bound, by rw [Nat.sub_self, take_zero, numbered]⟩
    · rintro ⟨low, high, empty⟩
      by_contra other
      have rest : ((known.drop count).take (k - count)).length ≠ 0 := by
        rw [length_take, length_drop]
        omega
      cases shape : (known.drop count).take (k - count) with
      | nil => exact rest (by rw [shape, length_nil])
      | cons c l =>
        rw [shape, numbered] at empty
        cases empty
  | cons row rows ih =>
    intro count k bound
    obtain ⟨version, checksum⟩ := row
    rw [applied]
    constructor
    · intro ok
      split at ok
      · cases ok
      · next agree =>
          obtain ⟨next, within, same⟩ : version = count + 1 ∧ version ≤ known.length ∧
              known[(version - 1).toNat]? = some checksum := by
            push Not at agree
            exact agree
          subst next
          have here : known[count]? = some checksum := by
            rw [← same]
            congr 1
            omega
          have bound' : count + 1 ≤ known.length := by omega
          obtain ⟨low, high, rest⟩ := (ih (count + 1) k bound').mp ok
          refine ⟨by omega, high, ?_⟩
          obtain ⟨len, value⟩ := List.getElem?_eq_some_iff.mp here
          rw [drop_eq_getElem_cons len, value,
            show k - count = (k - (count + 1)) + 1 by omega, take_succ_cons, numbered,
            ← rest]
    · rintro ⟨low, high, shape⟩
      cases left : (known.drop count).take (k - count) with
      | nil =>
        rw [left, numbered] at shape
        cases shape
      | cons c l =>
        rw [left, numbered] at shape
        obtain ⟨head, tail⟩ := List.cons.inj shape
        obtain ⟨rfl, rfl⟩ := Prod.mk.inj head
        have more : 0 < k - count := by
          by_contra none_
          rw [Nat.eq_zero_of_not_pos none_, take_zero] at left
          cases left
        have len : count < known.length := by omega
        rw [drop_eq_getElem_cons len, show k - count = (k - (count + 1)) + 1 by omega,
          take_succ_cons] at left
        obtain ⟨value, others⟩ := List.cons.inj left
        have agree : ¬((count : ℤ) + 1 ≠ count + 1 ∨ (known.length : ℤ) < count + 1 ∨
            known[((count : ℤ) + 1 - 1).toNat]? ≠ some checksum) := by
          rw [show ((count : ℤ) + 1 - 1).toNat = count by omega, getElem?_eq_getElem len, value]
          push Not
          exact ⟨rfl, by omega, rfl⟩
        rw [if_neg agree]
        refine (ih (count + 1) k len).mpr ⟨by omega, high, ?_⟩
        rw [others, tail]

end Reading

section Effect

variable [Platform] {σ : Type} {files : List File} {a : Attempt σ} {db db' : Database σ}

/-- The rows of the table, in no particular order. -/
def Database.recorded (db : Database σ) : List Row :=
  match db.migrations with
  | none => []
  | some table => table.rows

/-- The table is the list of the first `k` migrations with their checksums. -/
def Recorded (files : List File) (k : ℕ) (db : Database σ) : Prop :=
  k ≤ files.length ∧ db.recorded.Perm (numbered 0 ((checksums files).take k))

omit [Platform] in
private theorem recorded_created (db : Database σ) : db.created.recorded = db.recorded := by
  obtain ⟨migrations, rest⟩ := db
  cases migrations <;> rfl

omit [Platform] in
private theorem rows_eq_iff (db : Database σ) (l : List Text) :
    db.rows = numbered 0 l ↔ db.recorded.Perm (numbered 0 l) := by
  have sorted : db.rows.Pairwise (fun a b => a.1 ≤ b.1) ∧ db.rows.Perm db.recorded := by
    unfold Database.rows Database.recorded
    split
    · exact ⟨List.Pairwise.nil, Perm.refl _⟩
    · next table _ =>
        exact ⟨pairwise_insertionSort _ table.rows, perm_insertionSort _ table.rows⟩
  constructor
  · intro same
    exact same ▸ sorted.2.symm
  · intro perm
    have ordered : (numbered 0 l).Pairwise fun a b => a.1 ≤ b.1 :=
      (numbered_pairwise 0 l).imp fun below => below.le
    have keys : ((numbered 0 l).map Prod.fst).Nodup := by
      rw [Nodup, pairwise_map]
      exact (numbered_pairwise 0 l).imp fun below => below.ne
    refine (sorted.2.trans perm).eq_of_pairwise ?_ sorted.1 ordered
    intro a b left right below above
    have left' := (sorted.2.trans perm).mem_iff.mp left
    exact inj_on_of_nodup_map keys left' right (le_antisymm below above)

private theorem applied_recorded (k : ℕ) :
    applied (checksums files) 0 db.created.rows = some k ↔ Recorded files k db := by
  rw [applied_iff _ _ 0 k (Nat.zero_le _), drop_zero, Nat.sub_zero, rows_eq_iff,
    recorded_created, Recorded, checksums, length_map]
  exact ⟨fun h => h.2, fun h => ⟨Nat.zero_le _, h⟩⟩

omit [Platform] in
private theorem run_ok {s : Statement} : a.run s = .ok () ↔ a.fails s = none := by
  unfold Attempt.run
  cases a.fails s <;> simp

/-- Nothing fails but possibly a script or an insertion. -/
structure Attempt.Served (a : Attempt σ) : Prop where
  begin_ : a.fails .begin_ = none
  lock : a.fails .lock = none
  create : a.fails .create = none
  query : a.fails .query = none
  commit : a.fails .commit = none

private theorem transaction_ok_iff :
    transaction a files db = .ok db' ↔
      a.fails .create = none ∧ named 0 files = true ∧ a.fails .query = none ∧
        ∃ k, Recorded files k db ∧ applyAll a k (files.drop k) db.created = .ok db' ∧
          a.fails .commit = none := by
  unfold transaction
  constructor
  · intro ok
    obtain ⟨_, create, ok⟩ := bind_ok.mp ok
    cases numbers : named 0 files with
    | false =>
      rw [numbers] at ok
      cases ok
    | true =>
      rw [numbers] at ok
      obtain ⟨_, query, ok⟩ := bind_ok.mp ok
      refine ⟨run_ok.mp create, rfl, run_ok.mp query, ?_⟩
      split at ok
      · cases ok
      · next k read =>
          obtain ⟨after, apply, ok⟩ := bind_ok.mp ok
          obtain ⟨_, commit, ok⟩ := bind_ok.mp ok
          obtain rfl := Except.ok.inj ok
          exact ⟨k, (applied_recorded k).mp read, apply, run_ok.mp commit⟩
  · rintro ⟨create, numbers, query, k, recorded, apply, commit⟩
    simp only [run_ok.mpr create, numbers, run_ok.mpr query, (applied_recorded k).mpr recorded,
      apply, run_ok.mpr commit]
    rfl

private theorem migrate_ok_iff :
    migrate a files db = (.ok (), db') ↔
      a.Served ∧ named 0 files = true ∧
        ∃ k, Recorded files k db ∧ applyAll a k (files.drop k) db.created = .ok db' := by
  have body : migrate a files db = (.ok (), db') ↔
      (do a.run .begin_; a.run .lock; transaction a files db : Except Error (Database σ)) =
        .ok db' := by
    unfold migrate
    constructor
    · intro ok
      split at ok
      · next after done => rw [done, (Prod.mk.inj ok).2]
      · cases ok
    · intro done
      rw [done]
  rw [body]
  constructor
  · intro ok
    obtain ⟨_, start, ok⟩ := bind_ok.mp ok
    obtain ⟨_, lock, ok⟩ := bind_ok.mp ok
    obtain ⟨create, numbers, query, k, recorded, apply, commit⟩ := transaction_ok_iff.mp ok
    exact ⟨⟨run_ok.mp start, run_ok.mp lock, create, query, commit⟩, numbers, k, recorded, apply⟩
  · rintro ⟨served, numbers, k, recorded, apply⟩
    rw [run_ok.mpr served.begin_, run_ok.mpr served.lock]
    exact transaction_ok_iff.mpr
      ⟨served.create, numbers, served.query, k, recorded, apply, served.commit⟩

/-- The scripts leave the table of migrations to the code. -/
def LeavesTable (files : List File) (a : Attempt σ) : Prop :=
  ∀ file ∈ files, ∀ db db', a.script file.data db = .ok db' → db'.migrations = db.migrations

omit [Platform] in
private theorem insert_recorded {row : Row} (ok : db.insert row = .ok db') :
    db'.recorded = row :: db.recorded ∧ db'.migrations.isSome := by
  unfold Database.insert at ok
  split at ok
  · cases ok
  · next table found =>
      split at ok
      · obtain rfl := Except.ok.inj ok
        refine ⟨?_, rfl⟩
        unfold Database.recorded
        rw [found]
      · cases ok

omit [Platform] in
private theorem safe_ok {α : Type} {x : Except Fault α} {v : α} (ok : safe x = .ok v) :
    x = .ok v := by
  cases x with
  | ok w => rw [Except.ok.inj ok]
  | error e => cases ok

private theorem applyAll_recorded (left : List File) :
    ∀ (n : ℕ) (db db' : Database σ), (∀ file ∈ left, file ∈ files) → LeavesTable files a →
      db.migrations.isSome → applyAll a n left db = .ok db' →
      db'.recorded.Perm (db.recorded ++ numbered n (checksums left)) ∧ db'.migrations.isSome := by
  induction left with
  | nil =>
    intro n db db' _ _ exists_ ok
    obtain rfl := Except.ok.inj ok
    exact ⟨by rw [checksums, map_nil, numbered, append_nil], exists_⟩
  | cons file left ih =>
    intro n db db' known leaves _ ok
    obtain ⟨scripted, script, ok⟩ := bind_ok.mp ok
    obtain ⟨_, _, ok⟩ := bind_ok.mp ok
    obtain ⟨inserted, insert, ok⟩ := bind_ok.mp ok
    have kept := leaves file (known file mem_cons_self) db scripted (safe_ok script)
    have same : scripted.recorded = db.recorded := by
      unfold Database.recorded
      rw [kept]
    obtain ⟨row, exists_⟩ := insert_recorded (safe_ok insert)
    obtain ⟨perm, some_⟩ := ih (n + 1) inserted db'
      (fun f inside => known f (mem_cons_of_mem _ inside)) leaves exists_ ok
    refine ⟨perm.trans ?_, some_⟩
    rw [row, same]
    have rows : numbered n (checksums (file :: left)) =
        ((n : ℤ) + 1, Platform.sha256 file.data) :: numbered (n + 1) (checksums left) := rfl
    rw [rows]
    exact perm_middle.symm

private theorem recorded_full {k : ℕ} (recorded : Recorded files k db)
    (leaves : LeavesTable files a)
    (apply : applyAll a k (files.drop k) db.created = .ok db') :
    Recorded files files.length db' ∧ db'.migrations.isSome := by
  obtain ⟨perm, some_⟩ := applyAll_recorded (files.drop k) k db.created db'
    (fun f inside => mem_of_mem_drop inside) leaves rfl apply
  have length : (checksums files).length = files.length := length_map _
  refine ⟨⟨le_refl _, ?_⟩, some_⟩
  have rows : numbered 0 ((checksums files).take files.length) =
      numbered 0 ((checksums files).take k) ++ numbered k (checksums (files.drop k)) := by
    have split := numbered_append 0 ((checksums files).take k) ((checksums files).drop k)
    rw [take_append_drop, length_take, length, Nat.min_eq_left recorded.1, Nat.zero_add] at split
    rw [← length, take_length, split, checksums, checksums, map_drop]
  rw [rows]
  rw [recorded_created] at perm
  exact perm.trans (recorded.2.append_right _)

omit [Platform] in
private theorem numbered_length (n : ℕ) (l : List Text) : (numbered n l).length = l.length := by
  induction l generalizing n with
  | nil => rfl
  | cons c l ih => rw [numbered, length_cons, ih, length_cons]

private theorem migrate_full (full : Recorded files files.length db)
    (exists_ : db.migrations.isSome) (ok : migrate a files db = (.ok (), db')) : db' = db := by
  obtain ⟨_, _, k, recorded, apply⟩ := migrate_ok_iff.mp ok
  have length : (checksums files).length = files.length := length_map _
  have same : k = files.length := by
    have rows := recorded.2.length_eq.symm.trans full.2.length_eq
    rw [numbered_length, numbered_length, length_take, length_take, length,
      Nat.min_eq_left recorded.1, Nat.min_self] at rows
    exact rows
  rw [same, drop_length] at apply
  obtain ⟨table, found⟩ := Option.isSome_iff_exists.mp exists_
  rw [← Except.ok.inj apply, Database.created, found, Option.getD_some, ← found]

end Effect

section Concurrency

variable [Platform] {σ : Type}

/-- Where a call is; a process that has ended does not return. -/
inductive Phase where
  | waiting
  | ended
  | returned (result : Except Error Unit)

/-- The committed database, the call that holds the lock with the database its transaction
began to read, and where the calls are. -/
structure World (σ : Type) where
  db : Database σ
  holder : Option (ℕ × Database σ)
  calls : ℕ → Option Phase

inductive Label (σ : Type) where
  | call (i : ℕ)
  | acquire (i : ℕ)
  | giveUp (i : ℕ) (fault : Fault)
  | finish (i : ℕ) (a : Attempt σ)
  | die (i : ℕ)

def World.set_ (w : World σ) (i : ℕ) (phase : Phase) : ℕ → Option Phase :=
  Function.update w.calls i (some phase)

/-- Concurrent calls. The lock has one holder, until its transaction ends; a call that does not
begin or get the lock returns the error; a transaction is committed as a whole or not at all. -/
inductive Step (files : List File) (w : World σ) : Label σ → World σ → Prop
  | call (i : ℕ) : w.calls i = none → Step files w (.call i) { w with calls := w.set_ i .waiting }
  | acquire (i : ℕ) : w.calls i = some .waiting → w.holder = none →
      Step files w (.acquire i) { w with holder := some (i, w.db) }
  | giveUp (i : ℕ) (fault : Fault) : w.calls i = some .waiting →
      (∀ seen, w.holder ≠ some (i, seen)) →
      Step files w (.giveUp i fault)
        { w with calls := w.set_ i (.returned (.error (safeError fault))) }
  | commit (i : ℕ) (a : Attempt σ) (seen after : Database σ) : w.holder = some (i, seen) →
      migrate a files seen = (.ok (), after) →
      Step files w (.finish i a) ⟨after, none, w.set_ i (.returned (.ok ()))⟩
  | rollback (i : ℕ) (a : Attempt σ) (seen after : Database σ) (e : Error) :
      w.holder = some (i, seen) → migrate a files seen = (.error e, after) →
      Step files w (.finish i a) ⟨w.db, none, w.set_ i (.returned (.error e))⟩
  | die (i : ℕ) : w.calls i = some .waiting →
      Step files w (.die i) ⟨w.db, w.holder.filter (·.1 ≠ i), w.set_ i .ended⟩

/-- Runs in which no script touches the table of migrations. -/
def Leaves (files : List File) (_ : World σ) : Label σ → Prop
  | .finish _ a => LeavesTable files a
  | _ => True

/-- The database is the one that a single call makes. -/
def Migrated (files : List File) (db after : Database σ) : Prop :=
  ∃ a : Attempt σ, LeavesTable files a ∧ migrate a files db = (.ok (), after)

/-- What every run keeps: the effect of one call or none, and no other transaction between the
grant of the lock and the commit. -/
structure Kept (files : List File) (db : Database σ) (w : World σ) : Prop where
  effect : w.db = db ∨ Migrated files db w.db
  success : ∀ i, (∃ u, w.calls i = some (.returned (.ok u))) → Migrated files db w.db
  seen : ∀ i seen, w.holder = some (i, seen) → seen = w.db

variable {files : List File} {db : Database σ} {w w' : World σ}

private theorem Migrated.full {after : Database σ} (migrated : Migrated files db after) :
    Recorded files files.length after ∧ after.migrations.isSome := by
  obtain ⟨a, leaves, ok⟩ := migrated
  obtain ⟨_, _, k, recorded, apply⟩ := migrate_ok_iff.mp ok
  exact recorded_full recorded leaves apply

private theorem Migrated.again {after : Database σ} {a : Attempt σ} (leaves : LeavesTable files a)
    (effect : w.db = db ∨ Migrated files db w.db) (ok : migrate a files w.db = (.ok (), after)) :
    Migrated files db after := by
  rcases effect with same | migrated
  · exact ⟨a, leaves, same ▸ ok⟩
  · obtain ⟨full, exists_⟩ := migrated.full
    rwa [migrate_full full exists_ ok]

omit [Platform] in
private theorem calls_set {i j : ℕ} {phase : Phase} {u : Unit}
    (other : ∀ v, phase ≠ .returned (.ok v))
    (found : w.set_ i phase j = some (.returned (.ok u))) :
    w.calls j = some (.returned (.ok u)) := by
  unfold World.set_ at found
  grind

private theorem Kept.step {label : Label σ} (kept : Kept files db w)
    (step : Step files w label w') (leaves : Leaves files w label) : Kept files db w' := by
  -- a step that returns no success keeps those that were returned
  have quiet : ∀ {i : ℕ} {phase : Phase}, (∀ v, phase ≠ .returned (.ok v)) →
      ∀ j, (∃ u, w.set_ i phase j = some (.returned (.ok u))) → Migrated files db w.db :=
    fun other j ⟨u, found⟩ => kept.success j ⟨u, calls_set other found⟩
  cases step with
  | call i _ | giveUp i fault _ _ => exact ⟨kept.effect, quiet fun v => nofun, kept.seen⟩
  | acquire i _ free =>
    refine ⟨kept.effect, kept.success, fun j seen held => ?_⟩
    exact (Prod.mk.inj (Option.some.inj held)).2.symm
  | commit i a seen after held ok =>
    have fresh := kept.seen i seen held
    subst fresh
    have migrated := Migrated.again leaves kept.effect ok
    exact ⟨.inr migrated, fun _ _ => migrated, fun j seen none_ => nomatch none_⟩
  | rollback i a seen after e held failed =>
    exact ⟨kept.effect, quiet fun v => nofun, fun j seen none_ => nomatch none_⟩
  | die i _ =>
    refine ⟨kept.effect, quiet fun v => nofun, fun j seen held => ?_⟩
    exact kept.seen j seen (Option.filter_eq_some_iff.mp held).1

end Concurrency

section Correct

variable [Platform] {σ : Type}

end Correct

section Samples

private def createApp : Text := "CREATE SCHEMA app"

private def clearTable : Text := "DELETE FROM enterprise_core.migrations"

@[reducible] private def platform : Platform := .ofTables
  [(createApp, hexDigest 0x0f8277b1e650e6c51115c247604b330ca765a9647f194121b3c09696d9204344),
    (clearTable, hexDigest 0x398651193220be917ee2bb0d891b11c2385662e874c19e5920103b58438a3ca4)]
  [] [] nodup_nil

private def files : List File := [⟨"001_app.sql", createApp⟩, ⟨"002_clear.sql", clearTable⟩]

private def empty : Database ℕ := ⟨none, 0⟩

private def attempt : Attempt ℕ where
  fails _ := none
  script data db :=
    if data = clearTable then .ok { db with migrations := some ⟨[], nodup_nil⟩ }
    else .ok { db with rest := db.rest + 1 }

private def one : List File := [⟨"001_app.sql", createApp⟩]

private def done : Database ℕ := (@migrate platform ℕ attempt one empty).2

private def denied : Attempt ℕ where
  fails s := if s = .commit then some Fault.other else none
  script := attempt.script

end Samples

end Sre.Storage.Migration
