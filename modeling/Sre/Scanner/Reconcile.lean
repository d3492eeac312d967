/- GID: Sre/Scanner/Reconcile
   digest: What a report and a retention pass can do to the entry of one key. -/

import Sre.Scanner.History

set_option autoImplicit false

namespace Sre.Scanner

open Foundation Foundation.Assoc Foundation.Outcome Foundation.Replace Sanitizer List
open FileHistoryStore

variable {entries : List (Text × HistoryEntry)} {key : Text} {now : Time}

section Covered

variable {c : HistoryCoverage} {startedAt : Time}

def HistoryEntry.resolvedBy (c : HistoryCoverage) (startedAt now : Time) (e : HistoryEntry) :
    HistoryEntry :=
  match e.issue with
  | none => e
  | some issue =>
    if e.lastReportStartedAt < startedAt ∧ coveredBy c (AsIssue issue) = true then
      { markHistoryResolved e now with lastReportStartedAt := startedAt }
    else e

private theorem resolveCovered_eq :
    resolveCovered c startedAt now entries =
      entries.map fun e => (e.1, e.2.resolvedBy c startedAt now) := by
  unfold resolveCovered
  refine map_congr_left fun e _ => ?_
  unfold HistoryEntry.resolvedBy
  cases e.2.issue with
  | none => rfl
  | some issue =>
    dsimp only
    split
    · rfl
    · rfl

theorem resolveCovered_lookup :
    (resolveCovered c startedAt now entries).lookup key =
      (entries.lookup key).map (HistoryEntry.resolvedBy c startedAt now) := by
  rw [resolveCovered_eq]
  exact lookup_map fun e : Text × HistoryEntry => e.2.resolvedBy c startedAt now

theorem resolvedBy_cases (c : HistoryCoverage) (startedAt now : Time) (e : HistoryEntry) :
    e.resolvedBy c startedAt now = e ∧ (∀ issue, e.issue = some issue →
        e.lastReportStartedAt < startedAt → coveredBy c (AsIssue issue) = false) ∨
      ∃ issue, e.issue = some issue ∧ e.lastReportStartedAt < startedAt ∧
        coveredBy c (AsIssue issue) = true ∧
        e.resolvedBy c startedAt now =
          { markHistoryResolved e now with lastReportStartedAt := startedAt } := by
  unfold HistoryEntry.resolvedBy
  cases e.issue with
  | none =>
    refine Or.inl ⟨rfl, ?_⟩
    intro issue known
    cases known
  | some issue =>
    dsimp only
    split
    · rename_i covered
      exact Or.inr ⟨issue, rfl, covered.1, covered.2, rfl⟩
    · rename_i uncovered
      refine Or.inl ⟨rfl, ?_⟩
      intro issue' known later
      rw [← Option.some.inj known, ← Bool.not_eq_true]
      exact fun covered => uncovered ⟨later, covered⟩

theorem resolveCovered_distinct (distinct : Distinct entries) :
    Distinct (resolveCovered c startedAt now entries) := by
  rw [resolveCovered_eq]
  unfold Distinct at *
  rwa [map_map]

end Covered

section Absorbed

variable {raw : Issue}

/-- The entry of another fingerprint holds the finding of `raw`. -/
def HistoryEntry.holds (e : HistoryEntry) (raw : Issue) : Bool :=
  e.issue.any fun old => sameFinding old raw

def HistoryEntry.superseded (e : HistoryEntry) (startedAt now : Time) : HistoryEntry :=
  { markHistoryResolved e now with lastReportStartedAt := startedAt }

/-- The loop over the other entries changes the finding in its analyzer names only. -/
private def Alike (raw other : Issue) : Prop := ∃ names, other = { raw with analyzerNames := names }

private theorem holds_alike {e : HistoryEntry} {other : Issue} (alike : Alike raw other) :
    e.holds other = e.holds raw := by
  obtain ⟨names, rfl⟩ := alike
  rfl

private theorem absorb_cases (fingerprint : Text) (startedAt now : Time) (o : Observation)
    (e : Text × HistoryEntry) :
    absorb fingerprint startedAt now o e = o ∧ (e.1 = fingerprint ∨ e.2.holds o.raw = false) ∨
      e.1 ≠ fingerprint ∧ e.2.holds o.raw = true ∧
        Alike o.raw (absorb fingerprint startedAt now o e).raw ∧
        (absorb fingerprint startedAt now o e).entries =
          put o.entries e.1 (e.2.superseded startedAt now) := by
  unfold absorb HistoryEntry.holds
  cases e.2.issue with
  | none => exact Or.inl ⟨rfl, Or.inr rfl⟩
  | some old =>
    dsimp only
    split
    · rename_i passed
      exact Or.inl ⟨rfl, passed⟩
    · rename_i taken
      rw [not_or, Bool.not_eq_false] at taken
      exact Or.inr ⟨taken.1, taken.2, ⟨_, rfl⟩, rfl⟩

private theorem Alike.trans {a b c : Issue} (first : Alike a b) (second : Alike b c) :
    Alike a c := by
  obtain ⟨_, rfl⟩ := first
  obtain ⟨names, rfl⟩ := second
  exact ⟨names, rfl⟩

variable {o : Observation} {visited : List (Text × HistoryEntry)}

private theorem absorb_all (key fingerprint : Text) (startedAt now : Time) (raw : Issue)
    (distinct : Distinct visited) (alike : Alike raw o.raw) (inside : Distinct o.entries) :
    let after := visited.foldl (absorb fingerprint startedAt now) o
    Alike raw after.raw ∧ Distinct after.entries ∧
      after.entries.lookup key = match visited.lookup key with
        | none => o.entries.lookup key
        | some e =>
          if key ≠ fingerprint ∧ e.holds raw = true then some (e.superseded startedAt now)
          else o.entries.lookup key := by
  induction visited generalizing o with
  | nil => exact ⟨alike, inside, rfl⟩
  | cons e visited ih =>
    have fresh := (nodup_cons.mp distinct).1
    have later : Distinct visited := (nodup_cons.mp distinct).2
    have alone : visited.lookup e.1 = none := by
      rw [← Option.not_isSome_iff_eq_none, lookup_isSome]
      exact fresh
    have same : e.2.holds o.raw = e.2.holds raw := holds_alike alike
    rw [foldl_cons, lookup_cons]
    rcases absorb_cases fingerprint startedAt now o e with
      ⟨kept, passed⟩ | ⟨other, holds, named, stored⟩
    · rw [kept]
      obtain ⟨alike', inside', found⟩ := ih later alike inside
      refine ⟨alike', inside', found.trans ?_⟩
      cases here : key == e.1 with
      | false => rfl
      | true =>
        obtain rfl := eq_of_beq here
        have not : ¬(e.1 ≠ fingerprint ∧ e.2.holds raw = true) := by
          rintro ⟨other, holds⟩
          rcases passed with eq | no
          · exact other eq
          · rw [same, holds] at no
            cases no
        simp only [alone, if_neg not]
    · generalize absorb fingerprint startedAt now o e = o' at named stored
      have inside' : Distinct o'.entries := stored ▸ inside.put
      obtain ⟨alike', inside'', found⟩ := ih later (alike.trans named) inside'
      refine ⟨alike', inside'', found.trans ?_⟩
      rw [stored]
      cases here : key == e.1 with
      | false =>
        have apart := beq_eq_false_iff_ne.mp here
        simp only [lookup_put, if_neg apart]
      | true =>
        obtain rfl := eq_of_beq here
        have taken : e.1 ≠ fingerprint ∧ e.2.holds raw = true := ⟨other, same ▸ holds⟩
        simp only [alone, lookup_put, if_pos taken, if_true]

private theorem absorb_issue (fingerprint : Text) (startedAt now : Time)
    (visited : List (Text × HistoryEntry)) :
    ∀ entry, (visited.foldl (absorb fingerprint startedAt now) o).entry = some entry →
      ∀ old, entry.issue = some old → ∃ own, o.entry = some own ∧ own.issue = some old := by
  induction visited generalizing o with
  | nil => exact fun entry here old known => ⟨entry, here, known⟩
  | cons e visited ih =>
    intro entry here old known
    obtain ⟨own, after, same⟩ := ih entry here old known
    unfold absorb at after
    cases known : e.2.issue with
    | none =>
      simp only [known] at after
      exact ⟨own, after, same⟩
    | some other =>
      simp only [known] at after
      split at after
      · exact ⟨own, after, same⟩
      · cases before : o.entry with
        | none =>
          simp only [before, continued] at after
          rw [← Option.some.inj after] at same
          cases same
        | some entry₀ =>
          simp only [before, continued] at after
          rw [← Option.some.inj after] at same
          exact ⟨entry₀, rfl, same⟩

theorem mem_appendUniqueField {fields additions : List Text} {n : Text} :
    n ∈ appendUniqueField fields additions ↔ n ∈ fields ∨ n ∈ additions := by
  unfold appendUniqueField
  induction additions generalizing fields with
  | nil => simp
  | cons addition additions ih =>
    rw [foldl_cons, ih, mem_cons]
    split
    · grind
    · rw [mem_append, mem_singleton, or_assoc]

/-- The names are those of the finding, with some of the entries that meet a condition. -/
structure Gathered (p : Text × HistoryEntry → Prop) (raw : Issue) (names : List Text) :
    Prop where
  own : raw.analyzerNames ⊆ names
  others : ∀ n ∈ names, n ∈ raw.analyzerNames ∨
    ∃ e old, p e ∧ e.2.issue = some old ∧ n ∈ old.analyzerNames

variable {p : Text × HistoryEntry → Prop}

private theorem Gathered.append {names : List Text} (gathered : Gathered p raw names)
    {e : Text × HistoryEntry} {old : SanitizedIssue} (allowed : p e)
    (known : e.2.issue = some old) :
    Gathered p raw (appendUniqueField names old.analyzerNames) := by
  constructor
  · intro n member
    exact mem_appendUniqueField.mpr (Or.inl (gathered.own member))
  · intro n member
    rcases mem_appendUniqueField.mp member with before | new
    · exact gathered.others n before
    · exact Or.inr ⟨e, old, allowed, known, new⟩

private theorem absorb_gathered (fingerprint : Text) (startedAt now : Time)
    (allowed : ∀ e ∈ visited, e.2.holds raw = true → p e) (alike : Alike raw o.raw)
    (gathered : Gathered p raw o.raw.analyzerNames) : Gathered p raw
      (visited.foldl (absorb fingerprint startedAt now) o).raw.analyzerNames := by
  induction visited generalizing o with
  | nil => exact gathered
  | cons e visited ih =>
    have later : ∀ x ∈ visited, x.2.holds raw = true → p x :=
      fun x member => allowed x (mem_cons_of_mem _ member)
    have same : e.2.holds o.raw = e.2.holds raw := holds_alike alike
    rw [foldl_cons]
    rcases absorb_cases fingerprint startedAt now o e with ⟨kept, -⟩ | ⟨other, holds, named, -⟩
    · rw [kept]
      exact ih later alike gathered
    · refine ih later (alike.trans named) ?_
      have here := allowed e mem_cons_self (same ▸ holds)
      unfold HistoryEntry.holds at holds
      unfold absorb
      cases known : e.2.issue with
      | none =>
        rw [known] at holds
        cases holds
      | some old =>
        rw [known, Option.any_some] at holds
        have taken : ¬(e.1 = fingerprint ∨ sameFinding old o.raw = false) := by
          rw [not_or, Bool.not_eq_false]
          exact ⟨other, holds⟩
        simp only [if_neg taken]
        exact gathered.append here known

end Absorbed

section Observed

variable [Redactor] [Platform] {iteration : Iteration (Text × HistoryEntry)}
  {coverage : List (Text × HistoryCoverage)} {r : ScanReport} {raw : Issue}

/-- The history knows better than the report about a finding. -/
def outdated (coverage : List (Text × HistoryCoverage)) (r : ScanReport)
    (entries : List (Text × HistoryEntry)) (raw : Issue) : Bool :=
  (entries.lookup (issueFingerprint raw)).any
      (fun e => decide (r.startedAt < e.lastReportStartedAt)) ||
    stale ⟨entries, coverage⟩ r.startedAt raw

/-- An entry that was just observed. -/
structure HistoryEntry.Observed (e : HistoryEntry) (r : ScanReport) (raw : Issue)
    (names : List Text) : Prop where
  unresolved : e.resolved = false
  started : e.lastReportStartedAt = r.startedAt
  issue : e.issue = some (SanitizeIssue { raw with analyzerNames := names })

theorem observe_outdated (old : outdated coverage r entries raw = true) :
    observe iteration coverage r now entries raw = entries := by
  unfold outdated at old
  unfold observe
  grind

theorem observe_lookup (iteration : Iteration (Text × HistoryEntry)) (now : Time)
    (distinct : Distinct entries)
    (current : outdated coverage r entries raw = false) :
    let after := observe iteration coverage r now entries raw
    Distinct after ∧
      (∃ e names, after.lookup (issueFingerprint raw) = some e ∧ e.Observed r raw names ∧
        Gathered (fun e => e ∈ entries ∧ (e.1 = issueFingerprint raw ∨ e.2.holds raw = true))
          raw names) ∧
      ∀ key, key ≠ issueFingerprint raw → after.lookup key = (entries.lookup key).map fun e =>
        if e.holds raw = true then e.superseded r.startedAt now else e := by
  obtain ⟨known, fresh⟩ := Bool.or_eq_false_iff.mp current
  have visited : Distinct (iteration.order entries) :=
    ((iteration.perm entries).map Prod.fst).nodup_iff.mpr distinct
  unfold observe
  simp only [known, fresh, Bool.false_eq_true, if_false]
  have merged := fun key => absorb_all key (issueFingerprint raw) r.startedAt now raw
    (o := ⟨entries.lookup (issueFingerprint raw), raw, entries⟩) visited ⟨_, rfl⟩ distinct
  have gathered := absorb_gathered (issueFingerprint raw) r.startedAt now
    (p := fun e => e ∈ entries ∧ (e.1 = issueFingerprint raw ∨ e.2.holds raw = true))
    (o := ⟨entries.lookup (issueFingerprint raw), raw, entries⟩)
    (fun e member holds => ⟨(iteration.perm entries).mem_iff.mp member, Or.inr holds⟩) ⟨_, rfl⟩
    ⟨fun _ member => member, fun _ member => Or.inl member⟩
  have kept := absorb_issue (issueFingerprint raw) r.startedAt now
    (iteration.order entries) (o := ⟨entries.lookup (issueFingerprint raw), raw, entries⟩)
  generalize (iteration.order entries).foldl (absorb (issueFingerprint raw) r.startedAt now)
    ⟨entries.lookup (issueFingerprint raw), raw, entries⟩ = o at merged gathered kept
  obtain ⟨⟨names, alike⟩, inside, -⟩ := merged (issueFingerprint raw)
  rw [alike] at gathered
  refine ⟨inside.put, ?_, ?_⟩
  · rw [lookup_put, if_pos rfl]
    split
    · exact ⟨_, _, rfl, ⟨rfl, rfl, by rw [alike]⟩, gathered⟩
    · rename_i old known
      refine ⟨_, _, rfl, ⟨rfl, rfl, by rw [alike]⟩, ?_⟩
      cases here : o.entry with
      | none =>
        rw [here] at known
        cases known
      | some entry =>
        rw [here] at known kept
        obtain ⟨own, found, same⟩ := kept entry rfl old known
        exact gathered.append ⟨mem_of_lookup found, Or.inl rfl⟩ same
  · intro key other
    obtain ⟨-, -, found⟩ := merged key
    rw [lookup_put, if_neg other, found, lookup_perm distinct (iteration.perm entries)]
    cases entries.lookup key with
    | none => rfl
    | some e =>
      simp only [ne_eq, other, not_false_eq_true, true_and, Option.map_some]
      split
      · rfl
      · rfl

end Observed

section Retention

/-- What retention may make of the entry of a key. -/
inductive Retained : Option HistoryEntry → Option HistoryEntry → Prop
  | same (e : Option HistoryEntry) : Retained e e
  | dated {e : HistoryEntry} (resolved : e.resolved = true) (now : Time) :
      Retained (some e) (some { e with resolvedAt := now })
  | removed {e : HistoryEntry} (resolved : e.resolved = true) : Retained (some e) none

variable {e : HistoryEntry} {o : Option HistoryEntry}

theorem Retained.unresolved (retained : Retained (some e) o) (open_ : e.resolved = false) :
    o = some e := by
  cases retained with
  | same => rfl
  | dated resolved | removed resolved => simp [open_] at resolved

theorem Retained.before (retained : Retained o (some e)) :
    ∃ e₀, o = some e₀ ∧ e.resolved = e₀.resolved ∧
      e.lastReportStartedAt = e₀.lastReportStartedAt ∧ e.issue = e₀.issue := by
  cases retained with
  | same => exact ⟨e, rfl, rfl, rfl, rfl⟩
  | dated => exact ⟨_, rfl, rfl, rfl, rfl⟩

variable [HistoryEncoding]

private theorem historyMeasure_resolved {measured : Option Candidate}
    (ok : historyMeasure now key e = .ok (some measured)) :
    e.resolved = true ∧ ∀ c, measured = some c → c.key = key := by
  unfold historyMeasure at ok
  grind

private theorem historyCandidates_resolved {drop : List Text} {inactive : List Candidate}
    (ok : historyCandidates now entries = .ok (drop, inactive)) :
    ∀ k, k ∈ drop ∨ (∃ c ∈ inactive, c.key = k) → ∃ e, (k, e) ∈ entries ∧ e.resolved = true := by
  induction entries generalizing drop inactive with
  | nil =>
    cases ok
    simp
  | cons x entries ih =>
    obtain ⟨key, e⟩ := x
    obtain ⟨measured, first, rest⟩ := bind_ok.mp ok
    obtain ⟨⟨drop', inactive'⟩, later, rest⟩ := bind_ok.mp rest
    have lift : ∀ k, (k ∈ drop' ∨ ∃ c ∈ inactive', c.key = k) →
        ∃ e', (k, e') ∈ (key, e) :: entries ∧ e'.resolved = true := by
      grind
    cases measured with
    | none =>
      cases rest
      exact lift
    | some measured =>
      obtain ⟨resolved, named⟩ := historyMeasure_resolved first
      cases measured with
      | none =>
        cases rest
        grind
      | some c =>
        cases rest
        grind

omit [HistoryEncoding] in
private theorem historyOverBudget_listed {l : List Candidate} {remaining bytes : ℕ} {k : Text}
    (dropped : k ∈ historyOverBudget l remaining bytes) : ∃ c ∈ l, c.key = k := by
  induction l generalizing remaining bytes with
  | nil => cases dropped
  | cons c l ih =>
    grind [historyOverBudget]

theorem pruneHistory_lookup {removed : ℕ} {changed : Bool} {kept : List (Text × HistoryEntry)}
    (distinct : Distinct entries) (ok : pruneHistory entries now = .ok (removed, changed, kept)) :
    Distinct kept ∧ ∀ key, Retained (entries.lookup key) (kept.lookup key) := by
  obtain ⟨⟨expired, inactive⟩, measured, rest⟩ := bind_ok.mp ok
  have kept_eq := congrArg (fun r => r.2.2) (pure_ok.mp rest)
  dsimp only at kept_eq
  have listed := historyCandidates_resolved measured
  generalize found : expired ++ historyOverBudget _ _ _ = drop at kept_eq
  have gone : ∀ k ∈ drop, ∃ e, entries.lookup k = some e ∧ e.resolved = true := by
    intro k inside
    rw [← found] at inside
    have counted : k ∈ expired ∨ ∃ c ∈ inactive, c.key = k := by
      rcases mem_append.mp inside with first | beyond
      · exact Or.inl first
      · obtain ⟨c, inside, named⟩ := historyOverBudget_listed beyond
        exact Or.inr ⟨c, (Sql.mem_ascending).mp inside, named⟩
    obtain ⟨e, inside, resolved⟩ := listed k counted
    obtain ⟨⟨k', e₀⟩, member, eq⟩ := mem_map.mp inside
    obtain ⟨rfl, rfl⟩ := Prod.mk.inj eq
    refine ⟨e₀, (lookup_eq_some_iff distinct).mpr member, ?_⟩
    unfold HistoryEntry.dated at resolved
    split at resolved
    · exact resolved
    · exact resolved
  have distinct' : Distinct (entries.map fun e => (e.1, e.2.dated now)) := by
    unfold Distinct at *
    rwa [map_map]
  refine ⟨?_, ?_⟩
  · rw [← kept_eq]
    exact (filter_sublist.map Prod.fst).nodup distinct'
  · intro key
    rw [← kept_eq, lookup_filter fun k => decide (k ∉ drop),
      lookup_map fun e : Text × HistoryEntry => e.2.dated now]
    by_cases inside : key ∈ drop
    · obtain ⟨e, here, resolved⟩ := gone key inside
      simp only [inside, here]
      exact .removed resolved
    · simp only [inside, not_false_eq_true, decide_true, if_true]
      cases entries.lookup key with
      | none => exact .same none
      | some e =>
        simp only [Option.map_some, HistoryEntry.dated]
        split
        · rename_i undated
          exact .dated undated.1 now
        · exact .same _

end Retention

section Reports

variable [Redactor] [Platform] {iteration : Iteration (Text × HistoryEntry)} {s next : HistoryState}
  {r : ScanReport}

/-- The coverage that a report leaves behind. -/
def ScanReport.coverage (r : ScanReport) : HistoryCoverage :=
  detached ⟨r.scope, r.runs, r.startedAt, r.finishedAt, r.error⟩

def ScanReport.findings (r : ScanReport) : List Issue := DeduplicateIssues r.issues

/-- The report is older than what is known of its scope, or not ordered at all. -/
def Passed (s : HistoryState) (r : ScanReport) : Prop :=
  r.startedAt = 0 ∨
    ∃ previous, s.coverage.lookup (coverageKey r) = some previous ∧ r.startedAt ≤ previous.startedAt

variable {report : Option ScanReport}

theorem reconcileReport_none (nothing : reconcileReport iteration s report now = none) :
    ∀ r, report = some r → Passed s r := by
  rintro r rfl
  unfold reconcileReport at nothing
  dsimp only at nothing
  split at nothing
  · rename_i unordered
    exact Or.inl unordered
  · split at nothing
    · rename_i known
      cases found : s.coverage.lookup (coverageKey r) with
      | none => simp [found] at known
      | some previous =>
        rw [found, Option.any_some, decide_eq_true_eq] at known
        exact Or.inr ⟨previous, found, known⟩
    · cases nothing

theorem reconcileReport_some (reconciled : reconcileReport iteration s report now = some next) :
    ∃ r, report = some r ∧ ¬Passed s r ∧
      next.coverage = put s.coverage (coverageKey r) r.coverage ∧
      next.entries = r.findings.foldl (observe iteration s.coverage r now)
        (resolveCovered r.coverage r.startedAt now s.entries) := by
  unfold reconcileReport at reconciled
  split at reconciled
  · cases reconciled
  rename_i r
  dsimp only at reconciled
  split at reconciled
  · cases reconciled
  rename_i ordered
  split at reconciled
  · cases reconciled
  rename_i newer
  cases reconciled
  refine ⟨r, rfl, ?_, rfl, rfl⟩
  rintro (unordered | ⟨previous, found, older⟩)
  · exact ordered unordered
  · rw [found] at newer
    exact newer (decide_eq_true older)

theorem observe_distinct {coverage : List (Text × HistoryCoverage)} (findings : List Issue)
    (distinct : Distinct entries) :
    Distinct (findings.foldl (observe iteration coverage r now) entries) := by
  induction findings generalizing entries with
  | nil => exact distinct
  | cons raw findings ih =>
    apply ih
    cases old : outdated coverage r entries raw with
    | true => rwa [observe_outdated old]
    | false => exact (observe_lookup iteration now distinct old).1

end Reports

section Steps

/-- A call of a history store, by its outcome. -/
inductive HistoryAct where
  | recorded (report : Option ScanReport)
  | failed (report : Option ScanReport)
  | pruned

variable [Redactor] [Platform] [HistoryEncoding]

/-- The calls of the two stores that concern reports, with any loop order, clock and
failing file operations. -/
inductive HistoryStep : HistoryState → HistoryAct → HistoryState → Prop
  | memoryReport (s : HistoryState) (iteration : Iteration (Text × HistoryEntry))
      (report : Option ScanReport) (now : Time) :
      HistoryStep s (.recorded report) (MemoryHistoryStore.RecordReport s iteration report now)
  | memoryPrune (s : HistoryState) (now : Time) :
      HistoryStep s .pruned (MemoryHistoryStore.PruneRetention s now).1
  | fileReport {store store' : FileHistoryStore} {iteration : Iteration (Text × HistoryEntry)}
      {report : Option ScanReport} {fails : FileStep → Bool} {now : Time}
      (ok : store.RecordReport iteration report fails now = (store', .ok ())) :
      HistoryStep store.state (.recorded report) store'.state
  | fileFailure {store store' : FileHistoryStore} {iteration : Iteration (Text × HistoryEntry)}
      {report : Option ScanReport} {fails : FileStep → Bool} {now : Time} {e : HistoryError}
      (error : store.RecordReport iteration report fails now = (store', .error e)) :
      HistoryStep store.state (.failed report) store'.state
  | filePrune (store : FileHistoryStore) (fails : FileStep → Bool) (now : Time) :
      HistoryStep store.state .pruned (store.pruneRetentionLocked fails now).1.state

/-- What a step can do. -/
inductive Change (s : HistoryState) : HistoryAct → HistoryState → Prop
  | passed {report : Option ScanReport} : (∀ r, report = some r → Passed s r) →
      Change s (.recorded report) s
  | stored {r : ScanReport} {s' : HistoryState} (iteration : Iteration (Text × HistoryEntry))
      (now : Time) (current : ¬Passed s r)
      (coverage : s'.coverage = put s.coverage (coverageKey r) r.coverage)
      (distinct : Distinct s'.entries)
      (entries : ∀ key, Retained ((r.findings.foldl (observe iteration s.coverage r now)
        (resolveCovered r.coverage r.startedAt now s.entries)).lookup key)
        (s'.entries.lookup key)) :
      Change s (.recorded (some r)) s'
  | failed {report : Option ScanReport} : Change s (.failed report) s
  | pruned {s' : HistoryState} (coverage : s'.coverage = s.coverage)
      (distinct : Distinct s'.entries)
      (entries : ∀ key, Retained (s.entries.lookup key) (s'.entries.lookup key)) :
      Change s .pruned s'

variable {s s' : HistoryState} {store store' : FileHistoryStore} {fails : FileStep → Bool}
  {act : HistoryAct}

omit [Platform] [HistoryEncoding] in
private theorem write_state {next : HistoryState} {result : Except HistoryError Unit}
    (written : store.write next fails = (store', result)) :
    store'.state = if result.isOk then next else store.state := by
  unfold write at written
  split at written
  · rename_i cell ok
    cases written
    rw [Cell.commit_ok ok]
    rfl
  · rename_i cell step failed
    cases written
    exact Cell.commit_memory failed

private theorem pruneRetentionLocked_state {now : Time} (distinct : Distinct store.state.entries) :
    Change store.state .pruned (store.pruneRetentionLocked fails now).1.state := by
  have same : Change store.state .pruned store.state :=
    .pruned rfl distinct fun key => .same _
  unfold pruneRetentionLocked
  split
  · exact same
  · exact same
  · rename_i removed entries pruned
    obtain ⟨distinct', retained⟩ := pruneHistory_lookup distinct pruned
    split
    · rename_i store' e failed
      rw [write_state failed]
      exact same
    · rename_i store' written
      rw [write_state written]
      exact .pruned rfl distinct' retained

theorem HistoryStep.change (step : HistoryStep s act s') (distinct : Distinct s.entries) :
    Change s act s' := by
  cases step with
  | memoryReport _ iteration report now =>
    unfold MemoryHistoryStore.RecordReport
    cases reconciled : reconcileReport iteration s report now with
    | none => exact .passed (reconcileReport_none reconciled)
    | some next =>
      obtain ⟨r, rfl, current, coverage, entries⟩ := reconcileReport_some reconciled
      have distinct' : Distinct next.entries :=
        entries ▸ observe_distinct _ (resolveCovered_distinct distinct)
      refine Change.stored iteration now current coverage distinct' fun key => ?_
      rw [← entries]
      exact .same _
  | memoryPrune _ now =>
    unfold MemoryHistoryStore.PruneRetention
    split
    · exact .pruned rfl distinct fun key => .same _
    · rename_i removed changed entries pruned
      obtain ⟨distinct', retained⟩ := pruneHistory_lookup distinct pruned
      exact .pruned rfl distinct' retained
  | @fileReport store store' iteration report fails now ok =>
    unfold RecordReport at ok
    cases reconciled : reconcileReport iteration store.state report now with
    | none =>
      rw [reconciled] at ok
      cases ok
      exact .passed (reconcileReport_none reconciled)
    | some next =>
      obtain ⟨r, rfl, current, coverage, entries⟩ := reconcileReport_some reconciled
      have distinct' : Distinct next.entries :=
        entries ▸ observe_distinct _ (resolveCovered_distinct distinct)
      rw [reconciled] at ok
      simp only [advance] at ok
      split at ok
      · cases (Prod.mk.inj ok).2
      · rename_i removed changed kept pruned
        obtain ⟨distinct'', retained⟩ := pruneHistory_lookup distinct' pruned
        have state := write_state ok
        rw [show store'.state = _ from state]
        exact .stored iteration now current coverage distinct'' (entries ▸ retained)
  | @fileFailure store store' iteration report fails now e error =>
    unfold RecordReport at error
    have same : store'.state = store.state := by
      cases reconciled : reconcileReport iteration store.state report now with
      | none =>
        rw [reconciled] at error
        cases (Prod.mk.inj error).2
      | some next =>
        rw [reconciled] at error
        simp only [advance] at error
        split at error
        · rw [(Prod.mk.inj error).1]
        · exact write_state error
    rw [same]
    exact .failed
  | filePrune store fails now => exact pruneRetentionLocked_state distinct

theorem HistoryStep.distinct (step : HistoryStep s act s') (distinct : Distinct s.entries) :
    Distinct s'.entries := by
  cases step.change distinct with
  | passed | failed => exact distinct
  | stored _ _ _ _ distinct' | pruned _ distinct' => exact distinct'

end Steps

end Sre.Scanner
