/- GID: Sre/Scanner/Confluence
   digest: Reports that leave the same findings unresolved in every order. -/

import Sre.Scanner.Reports

set_option autoImplicit false

namespace Sre.Scanner

open Foundation Foundation.Assoc Foundation.Replace Sanitizer List

section Kinship

variable {a b c : Issue}

/-- What coverage looks at in a finding. -/
structure SamePlace (a b : Issue) : Prop where
  namespace_ : a.namespace_ = b.namespace_
  kind : a.kind = b.kind
  name : a.name = b.name
  analyzers : ∀ n, n ∈ a.analyzerNames ↔ n ∈ b.analyzerNames

theorem SamePlace.symm (same : SamePlace a b) : SamePlace b a :=
  ⟨same.namespace_.symm, same.kind.symm, same.name.symm, fun n => (same.analyzers n).symm⟩

theorem SamePlace.trans (first : SamePlace a b) (second : SamePlace b c) : SamePlace a c where
  namespace_ := first.namespace_.trans second.namespace_
  kind := first.kind.trans second.kind
  name := first.name.trans second.name
  analyzers n := (first.analyzers n).trans (second.analyzers n)

theorem SamePlace.coveredBy (same : SamePlace a b) (x : HistoryCoverage) :
    Scanner.coveredBy x a = Scanner.coveredBy x b := by
  have plan : issueMatchesPlan (coveragePlan x) a = issueMatchesPlan (coveragePlan x) b := by
    unfold issueMatchesPlan
    rw [same.namespace_, same.kind, same.name]
  have empty : a.analyzerNames.isEmpty = b.analyzerNames.isEmpty := by
    rw [Bool.eq_iff_iff, List.isEmpty_iff, List.isEmpty_iff, eq_nil_iff_forall_not_mem,
      eq_nil_iff_forall_not_mem]
    simp only [same.analyzers]
  have all : a.analyzerNames.countP (observed x) = a.analyzerNames.length ↔
      b.analyzerNames.countP (observed x) = b.analyzerNames.length := by
    rw [countP_eq_length, countP_eq_length]
    simp only [same.analyzers]
  unfold Scanner.coveredBy
  rw [plan, empty, decide_eq_decide.mpr all]

/-- The same finding, of an object that may have been created again in between. -/
structure Kin (a b : Issue) : Prop where
  id : a.id = b.id
  category : a.category = b.category
  place : SamePlace a b
  uid : a.targetUID.isEmpty = b.targetUID.isEmpty

theorem Kin.refl (a : Issue) : Kin a a := ⟨rfl, rfl, ⟨rfl, rfl, rfl, fun _ => Iff.rfl⟩, rfl⟩

theorem Kin.symm (kin : Kin a b) : Kin b a :=
  ⟨kin.id.symm, kin.category.symm, kin.place.symm, kin.uid.symm⟩

theorem Kin.trans (first : Kin a b) (second : Kin b c) : Kin a c :=
  ⟨first.id.trans second.id, first.category.trans second.category,
    first.place.trans second.place, first.uid.trans second.uid⟩

/-- A stored issue and a finding about two objects of one name. -/
structure Rivals (old : SanitizedIssue) (raw : Issue) : Prop where
  namespace_ : old.namespace_ = raw.namespace_
  kind : old.kind = raw.kind
  name : old.name = raw.name
  known : old.targetUID.isEmpty = false
  given : raw.targetUID.isEmpty = false
  differ : old.targetUID ≠ raw.targetUID

variable {raw : Issue}

theorem stale_iff {s : HistoryState} {startedAt : Time} : stale s startedAt raw = true ↔
      (∃ e ∈ s.entries, ∃ old, e.2.issue = some old ∧ startedAt < e.2.lastReportStartedAt ∧
        Rivals old raw) ∨
      ∃ x ∈ s.coverage, startedAt ≤ x.2.startedAt ∧ coveredBy x.2 raw = true := by
  unfold stale
  rw [Bool.or_eq_true, any_eq_true, any_eq_true]
  refine or_congr (exists_congr fun e => and_congr_right fun _ => ?_)
    (exists_congr fun x => and_congr_right fun _ => ?_)
  · cases e.2.issue with
    | none => simp
    | some old =>
      simp only [Bool.and_eq_true, decide_eq_true_eq, Bool.not_eq_true', Option.some.injEq,
        exists_eq_left']
      constructor
      · rintro ⟨⟨⟨⟨⟨⟨later, space⟩, kind⟩, name⟩, known⟩, given⟩, differ⟩
        exact ⟨later, space, kind, name, known, given, differ⟩
      · rintro ⟨later, space, kind, name, known, given, differ⟩
        exact ⟨⟨⟨⟨⟨⟨later, space⟩, kind⟩, name⟩, known⟩, given⟩, differ⟩
  · rw [Bool.and_eq_true, decide_eq_true_eq]

variable [Redactor]

theorem Rivals.names {other : Issue} {names : List Text} :
    Rivals (SanitizeIssue { raw with analyzerNames := names }) other ↔
      Rivals (SanitizeIssue raw) other :=
  ⟨fun h => ⟨h.namespace_, h.kind, h.name, h.known, h.given, h.differ⟩,
    fun h => ⟨h.namespace_, h.kind, h.name, h.known, h.given, h.differ⟩⟩

/-- Redaction leaves alone what identifies and places the finding. -/
structure Readable (raw : Issue) : Prop where
  place : SamePlace (AsIssue (SanitizeIssue raw)) raw
  id : (SanitizeIssue raw).id = raw.id
  uid : (SanitizeIssue raw).targetUID = raw.targetUID

theorem mem_SanitizeIssue_analyzerNames {n : Text} : n ∈ (SanitizeIssue raw).analyzerNames ↔
      ∃ m ∈ raw.analyzerNames, Redactor.SanitizeStructuredText m = n := by
  have collected : ∀ (names acc : List Text),
      n ∈ names.foldl (fun acc name =>
        appendUniqueField acc [Redactor.SanitizeStructuredText name]) acc ↔
        n ∈ acc ∨ ∃ m ∈ names, Redactor.SanitizeStructuredText m = n := by
    intro names
    induction names with
    | nil => simp
    | cons name names ih =>
      intro acc
      rw [foldl_cons, ih, mem_appendUniqueField, mem_singleton, or_assoc]
      simp [eq_comm]
  have here := collected raw.analyzerNames []
  rwa [or_iff_right not_mem_nil] at here

/-- The entry holds the finding, perhaps with the analyzers of others. -/
def HistoryEntry.StandsFor (e : HistoryEntry) (raw : Issue) : Prop :=
  ∃ names, e.issue = some (SanitizeIssue { raw with analyzerNames := names }) ∧
    SamePlace (AsIssue (SanitizeIssue { raw with analyzerNames := names })) raw

theorem HistoryEntry.StandsFor.covered {e : HistoryEntry} (stands : e.StandsFor raw)
    {issue : SanitizedIssue} (known : e.issue = some issue) (x : HistoryCoverage) :
    coveredBy x (AsIssue issue) = coveredBy x raw := by
  obtain ⟨names, same, place⟩ := stands
  rw [known] at same
  rw [Option.some.inj same]
  exact place.coveredBy x

variable [Platform]

omit [Redactor] in
theorem Kin.fingerprint (kin : Kin a b) (uid : a.targetUID = b.targetUID) :
    issueFingerprint a = issueFingerprint b := by
  unfold issueFingerprint
  rw [kin.id, kin.category, kin.place.namespace_, kin.place.kind, kin.place.name, uid]

theorem Kin.rivals (kin : Kin a b) (readable : Readable a)
    (differ : issueFingerprint a ≠ issueFingerprint b) : Rivals (SanitizeIssue a) b := by
  have uids : a.targetUID ≠ b.targetUID := fun same => differ (kin.fingerprint same)
  have given : b.targetUID.isEmpty = false := by
    by_contra unknown
    rw [Bool.not_eq_false] at unknown
    have other : a.targetUID.isEmpty = true := kin.uid.trans unknown
    rw [List.isEmpty_iff] at unknown other
    exact uids (other.trans unknown.symm)
  refine ⟨readable.place.namespace_.trans kin.place.namespace_,
    readable.place.kind.trans kin.place.kind, readable.place.name.trans kin.place.name,
    ?_, given, ?_⟩
  · rw [readable.uid, kin.uid, given]
  · rw [readable.uid]
    exact uids

omit [Platform] in
theorem Kin.sameFinding (kin : Kin a b) (readable : Readable a) (identified : b.id ≠ []) :
    Scanner.sameFinding (SanitizeIssue a) b = true := by
  unfold Scanner.sameFinding
  have named : b.id.isEmpty = false := by
    rw [isEmpty_eq_false_iff]
    exact identified
  rw [readable.id, kin.id, named]
  simp

/-- A finding has an ID: normalization makes one up where it is missing. -/
theorem findings_identified {r : ScanReport} : ∀ raw ∈ r.findings, raw.id ≠ [] := by
  refine DeduplicateIssues_forall (P := fun raw => raw.id ≠ []) ?_ ?_
  · intro i _
    unfold normalizeIssue
    split
    · unfold makeID
      simp
    · rename_i named
      simpa using named
  · intro target source named _
    simp [mergeIssues, orElse, named]

end Kinship

section Sightings

variable [Redactor] [Platform]

/-- What a report says of a finding: that it looked, or that it saw. -/
inductive Sighting where
  | covered (r : ScanReport)
  | seen (r : ScanReport) (raw : Issue)

namespace Sighting

omit [Redactor] [Platform]

def startedAt : Sighting → Time
  | covered r => r.startedAt
  | seen r _ => r.startedAt

def Concerns : Sighting → Issue → Prop
  | covered r, raw => coveredBy r.execution raw = true
  | seen _ other, raw => Kin other raw

theorem Concerns.kin {x : Sighting} {a b : Issue} (concerns : x.Concerns a) (kin : Kin a b) :
    x.Concerns b := by
  cases x with
  | covered r => exact (kin.place.coveredBy r.execution).symm.trans concerns
  | seen r other => exact Kin.trans concerns kin

end Sighting

/-- The sightings of the reports that can be ordered. -/
def sightings (reports : List ScanReport) : Set Sighting :=
  { x | match x with
    | .covered r => r ∈ reports ∧ r.startedAt ≠ 0
    | .seen r raw => (r ∈ reports ∧ r.startedAt ≠ 0) ∧ raw ∈ r.findings }

theorem sightings_finite (reports : List ScanReport) : (sightings reports).Finite := by
  refine (finite_toSet (reports.flatMap fun r =>
    .covered r :: r.findings.map (Sighting.seen r))).subset ?_
  rintro (r | ⟨r, raw⟩) inside
  · exact mem_flatMap.mpr ⟨r, inside.1, mem_cons_self⟩
  · refine mem_flatMap.mpr ⟨r, inside.1.1, mem_cons_of_mem _ ?_⟩
    exact mem_map.mpr ⟨raw, inside.2, rfl⟩

/-- Nothing after the instant concerns the finding. -/
def Last (E : Set Sighting) (t : Time) (raw : Issue) : Prop :=
  ∀ x ∈ E, t < x.startedAt → ¬x.Concerns raw

variable {raw : Issue} {t : Time}

omit [Redactor] [Platform] in
theorem not_last {E : Set Sighting} :
    ¬Last E t raw ↔ ∃ x, x ∈ E ∧ t < x.startedAt ∧ x.Concerns raw := by
  simp only [Last, not_forall, not_not, exists_prop]

def Found (reports : List ScanReport) (raw : Issue) : Prop := ∃ r ∈ reports, raw ∈ r.findings

/-- Reports that do not depend on the order in which they are recorded: their instants have a
JSON text; a key stands for one outcome; where a later execution has the key of an earlier one
it covers, or has again, what that one found; redaction leaves findings readable; and findings
that are taken for each other are kin, and no two of one report are. -/
structure Compatible (reports : List ScanReport) : Prop where
  plain : ∀ r ∈ reports, r.coverage = r.execution
  outcome : ∀ r ∈ reports, ∀ r' ∈ reports, coverageKey r = coverageKey r' →
    r.execution.SameOutcome r'.execution
  repeated : ∀ r ∈ reports, ∀ r' ∈ reports, coverageKey r = coverageKey r' →
    r.startedAt < r'.startedAt → ∀ raw ∈ r.findings,
      coveredBy r'.execution raw = true ∨ ∃ again ∈ r'.findings, Kin again raw
  readable : ∀ raw, Found reports raw → Readable raw
  once : ∀ r ∈ reports, ∀ raw ∈ r.findings, ∀ raw' ∈ r.findings, Kin raw raw' → raw = raw'
  kin : ∀ raw raw', Found reports raw → Found reports raw' →
    issueFingerprint raw = issueFingerprint raw' ∨
      sameFinding (SanitizeIssue raw) raw' = true ∨ Rivals (SanitizeIssue raw) raw' → Kin raw raw'

/-- What the entries know of the sightings so far: a finding is unresolved if nothing later
than its last sighting concerns it. -/
structure Kept (pool : List ScanReport) (E : Set Sighting) (entries : List (Text × HistoryEntry)) :
    Prop where
  within : E ⊆ sightings pool
  distinct : Distinct entries
  unresolved : ∀ key e, entries.lookup key = some e → e.resolved = false →
    ∃ r raw, .seen r raw ∈ E ∧ issueFingerprint raw = key ∧ e.StandsFor raw ∧
      e.lastReportStartedAt = r.startedAt ∧ Last E r.startedAt raw
  resolved : ∀ key e, entries.lookup key = some e → e.resolved = true →
    ∃ r raw, .seen r raw ∈ E ∧ issueFingerprint raw = key ∧ e.StandsFor raw ∧
      ∃ x ∈ E, e.lastReportStartedAt = x.startedAt ∧ x.Concerns raw
  present : ∀ r raw, .seen r raw ∈ E → Last E r.startedAt raw →
    ∃ e, entries.lookup (issueFingerprint raw) = some e ∧ e.resolved = false ∧
      e.lastReportStartedAt = r.startedAt

omit [Redactor] [Platform] in
theorem Last.kin {E : Set Sighting} {a b : Issue} (last : Last E t a) (kin : Kin a b) :
    Last E t b := fun x member later concerns => last x member later (concerns.kin kin.symm)

omit [Redactor] [Platform] in
theorem last_insert {E : Set Sighting} {x : Sighting} :
    Last (insert x E) t raw ↔ Last E t raw ∧ (t < x.startedAt → ¬x.Concerns raw) := by
  constructor
  · intro last
    exact ⟨fun y member => last y (Set.mem_insert_of_mem x member), last x (Set.mem_insert x E)⟩
  · rintro ⟨last, new⟩ y (rfl | member)
    · exact new
    · exact last y member

variable {pool : List ScanReport} {E : Set Sighting} {entries : List (Text × HistoryEntry)}

section

variable (kept : Kept pool E entries)
include kept

theorem Kept.found {r : ScanReport} (seen : .seen r raw ∈ E) :
    Found pool raw :=
  ⟨r, (kept.within seen).1.1, (kept.within seen).2⟩

theorem Kept.concerned {key : Text} {e : HistoryEntry}
    (found : entries.lookup key = some e) :
    ∃ r raw, .seen r raw ∈ E ∧ issueFingerprint raw = key ∧ e.StandsFor raw ∧
      ∃ x ∈ E, e.lastReportStartedAt = x.startedAt ∧ x.Concerns raw := by
  cases state : e.resolved with
  | false =>
    obtain ⟨r, raw, seen, named, stands, time, -⟩ := kept.unresolved key e found state
    exact ⟨r, raw, seen, named, stands, .seen r raw, seen, time, Kin.refl raw⟩
  | true => exact kept.resolved key e found state

theorem Kept.insert {x : Sighting} (inside : x ∈ sightings pool)
    (past : ∀ raw, x.Concerns raw → ¬Last E x.startedAt raw) :
    Kept pool (Insert.insert x E) entries where
  within := Set.insert_subset inside kept.within
  distinct := kept.distinct
  unresolved := by
    intro key e found state
    obtain ⟨r, raw, seen, named, stands, time, last⟩ := kept.unresolved key e found state
    refine ⟨r, raw, Set.mem_insert_of_mem x seen, named, stands, time, last_insert.mpr ⟨last, ?_⟩⟩
    intro later concerns
    apply past raw concerns
    exact fun y member after => last y member (later.trans after)
  resolved := by
    intro key e found state
    obtain ⟨r, raw, seen, named, stands, y, member, rest⟩ := kept.resolved key e found state
    exact ⟨r, raw, Set.mem_insert_of_mem x seen, named, stands, y,
      Set.mem_insert_of_mem x member, rest⟩
  present := by
    intro r raw seen last
    have before := (last_insert.mp last).1
    rcases seen with rfl | seen
    · exact (past raw (Kin.refl raw) before).elim
    · exact kept.present r raw seen before

theorem Kept.retained {after : List (Text × HistoryEntry)}
    (distinct : Distinct after)
    (retained : ∀ key, Retained (entries.lookup key) (after.lookup key)) : Kept pool E after where
  within := kept.within
  distinct := distinct
  unresolved := by
    intro key e found state
    obtain ⟨e₀, found₀, state₀, time₀, issue₀⟩ := (found ▸ retained key).before
    obtain ⟨r, raw, seen, named, stands, time, last⟩ :=
      kept.unresolved key e₀ found₀ (state₀ ▸ state)
    exact ⟨r, raw, seen, named, by rwa [HistoryEntry.StandsFor, issue₀], time₀ ▸ time, last⟩
  resolved := by
    intro key e found state
    obtain ⟨e₀, found₀, state₀, time₀, issue₀⟩ := (found ▸ retained key).before
    obtain ⟨r, raw, seen, named, stands, concerned⟩ :=
      kept.resolved key e₀ found₀ (state₀ ▸ state)
    exact ⟨r, raw, seen, named, by rwa [HistoryEntry.StandsFor, issue₀], time₀ ▸ concerned⟩
  present := by
    intro r raw seen last
    obtain ⟨e, found, state, time⟩ := kept.present r raw seen last
    exact ⟨e, (found ▸ retained _).unresolved state, state, time⟩

end

end Sightings

section Recording

variable [Redactor] [Platform] {pool done : List ScanReport} {E : Set Sighting}
  {entries : List (Text × HistoryEntry)} {coverage : List (Text × HistoryCoverage)} {r : ScanReport}
  {raw : Issue} {now : Time} {e : HistoryEntry}

/-- The stored executions are those of reports, and the last of each key is there. -/
structure Recorded (done : List ScanReport) (coverage : List (Text × HistoryCoverage)) : Prop where
  sound : ∀ x ∈ coverage, ∃ r ∈ done, r.startedAt ≠ 0 ∧ x.1 = coverageKey r ∧ x.2 = r.execution
  complete : ∀ r ∈ done, r.startedAt ≠ 0 →
    ∃ c, coverage.lookup (coverageKey r) = some c ∧ r.startedAt ≤ c.startedAt

/-- A report in progress: all of the earlier ones and part of it have been taken in. -/
structure Turn (pool done : List ScanReport) (r : ScanReport) (E : Set Sighting) : Prop where
  compatible : Compatible pool
  known : ∀ r' ∈ done, r' ∈ pool
  member : r ∈ pool
  ordered : r.startedAt ≠ 0
  apart : ∀ r' ∈ done, r'.startedAt ≠ r.startedAt
  before : sightings done ⊆ E
  within : E ⊆ sightings (r :: done)

private theorem Kept.later_entry (kept : Kept pool E entries) (compatible : Compatible pool)
    (found : Found pool raw) {key : Text} (here : entries.lookup key = some e)
    (later : r.startedAt < e.lastReportStartedAt)
    (taken : key = issueFingerprint raw ∨ ∃ old, e.issue = some old ∧ Rivals old raw) :
    ¬Last E r.startedAt raw := by
  intro last
  obtain ⟨r', other, seen, named, ⟨names, known, -⟩, x, member, time, concerns⟩ :=
    kept.concerned here
  have kin : Kin other raw := by
    apply compatible.kin other raw (kept.found seen) found
    rcases taken with own | ⟨old, same, rivals⟩
    · exact Or.inl (named.trans own)
    · rw [known] at same
      rw [← Option.some.inj same, Rivals.names] at rivals
      exact Or.inr (Or.inr rivals)
  exact last x member (time ▸ later) (concerns.kin kin)

section

variable (turn : Turn pool done r E)
include turn

private theorem Turn.outdated_iff (kept : Kept pool E entries)
    (recorded : Recorded done coverage) (listed : raw ∈ r.findings) :
    outdated coverage r entries raw = true ↔ ¬Last E r.startedAt raw := by
  have found : Found pool raw := ⟨r, turn.member, listed⟩
  unfold outdated
  rw [Bool.or_eq_true, Option.any_eq_true, stale_iff]
  constructor
  · rintro (⟨e, here, later⟩ | ⟨e, member, old, known, later, rivals⟩ | ⟨x, member, older, covers⟩)
    · exact kept.later_entry turn.compatible found here (of_decide_eq_true later) (Or.inl rfl)
    · have here := (lookup_eq_some_iff kept.distinct).mpr member
      exact kept.later_entry turn.compatible found here later (Or.inr ⟨old, known, rivals⟩)
    · intro last
      obtain ⟨r', inside, ordered, -, same⟩ := recorded.sound x member
      rw [same] at older covers
      have later : r.startedAt < r'.startedAt := lt_of_le_of_ne older (turn.apart r' inside).symm
      exact last (.covered r') (turn.before ⟨inside, ordered⟩) later covers
  · intro concerned
    -- the last sighting that concerns the finding is still there
    obtain ⟨x, ⟨member, later, concerns⟩, latest⟩ :=
      Set.exists_max_image { x | x ∈ E ∧ r.startedAt < x.startedAt ∧ x.Concerns raw }
        Sighting.startedAt ((sightings_finite pool).subset fun x inside => kept.within inside.1)
        (not_last.mp concerned)
    cases x with
    | covered r' =>
      have inside : r' ∈ done := by
        rcases mem_cons.mp (turn.within member).1 with rfl | inside
        · exact (lt_irrefl _ later).elim
        · exact inside
      obtain ⟨c, stored, newer⟩ := recorded.complete r' inside (turn.within member).2
      obtain ⟨r₁, inside₁, -, key, same⟩ := recorded.sound _ (mem_of_lookup stored)
      have outcome := turn.compatible.outcome r' (turn.known r' inside) r₁
        (turn.known r₁ inside₁) key
      refine Or.inr (Or.inr ⟨_, mem_of_lookup stored, (later.trans_le newer).le, ?_⟩)
      rw [show c = r₁.execution from same, ← outcome.coveredBy]
      exact concerns
    | seen r' raw' =>
      have last : Last E r'.startedAt raw' := by
        intro y inside after about
        have bound := latest y ⟨inside, later.trans after, about.kin concerns⟩
        exact (not_le.mpr after) bound
      obtain ⟨e, here, state, time⟩ := kept.present r' raw' member last
      obtain ⟨r₁, raw₁, seen₁, named₁, ⟨names, known, -⟩, -, -⟩ :=
        kept.unresolved _ e here state
      have newer : r.startedAt < e.lastReportStartedAt := time ▸ later
      by_cases own : issueFingerprint raw' = issueFingerprint raw
      · exact Or.inl ⟨e, own ▸ here, decide_eq_true newer⟩
      · have kin : Kin raw₁ raw := (turn.compatible.kin raw₁ raw' (kept.found seen₁)
          (kept.found member) (Or.inl named₁)).trans concerns
        have rivals := kin.rivals (turn.compatible.readable raw₁ (kept.found seen₁))
          (by rwa [named₁])
        exact Or.inr (Or.inl ⟨_, mem_of_lookup here, _, known, newer, Rivals.names.mpr rivals⟩)

private theorem Turn.covered (now : Time) (kept : Kept pool E entries) :
    Kept pool (insert (.covered r) E) (resolveCovered r.coverage r.startedAt now entries) where
  within := Set.insert_subset ⟨turn.member, turn.ordered⟩ kept.within
  distinct := resolveCovered_distinct kept.distinct
  unresolved := by
    intro key e found state
    rw [resolveCovered_lookup] at found
    obtain ⟨e₀, found₀, after⟩ := Option.map_eq_some_iff.mp found
    rcases resolvedBy_cases r.coverage r.startedAt now e₀ with
      ⟨same, uncovered⟩ | ⟨issue, -, -, -, changed⟩
    · obtain rfl : e₀ = e := same.symm.trans after
      obtain ⟨r', raw, seen, named, stands, time, last⟩ := kept.unresolved key e₀ found₀ state
      refine ⟨r', raw, Set.mem_insert_of_mem _ seen, named, stands, time,
        last_insert.mpr ⟨last, ?_⟩⟩
      intro later covers
      obtain ⟨names, known, place⟩ := id stands
      have not := uncovered _ known (time ▸ later)
      rw [stands.covered known, turn.compatible.plain r turn.member, covers] at not
      cases not
    · rw [← after, changed] at state
      cases state
  resolved := by
    intro key e found state
    rw [resolveCovered_lookup] at found
    obtain ⟨e₀, found₀, after⟩ := Option.map_eq_some_iff.mp found
    rcases resolvedBy_cases r.coverage r.startedAt now e₀ with
      ⟨same, -⟩ | ⟨issue, known, -, covers, changed⟩
    · obtain rfl : e₀ = e := same.symm.trans after
      obtain ⟨r', raw, seen, named, stands, x, member, rest⟩ := kept.resolved key e₀ found₀ state
      exact ⟨r', raw, Set.mem_insert_of_mem _ seen, named, stands, x,
        Set.mem_insert_of_mem _ member, rest⟩
    · obtain ⟨r', raw, seen, named, stands, -⟩ := kept.concerned found₀
      rw [stands.covered known, turn.compatible.plain r turn.member] at covers
      obtain rfl : _ = e := changed.symm.trans after
      exact ⟨r', raw, Set.mem_insert_of_mem _ seen, named, stands, .covered r,
        Set.mem_insert _ E, rfl, covers⟩
  present := by
    intro r' raw seen last
    obtain ⟨before, uncovered⟩ := last_insert.mp last
    have seen' : .seen r' raw ∈ E := by
      rcases seen with eq | seen
      · cases eq
      · exact seen
    obtain ⟨e, found, state, time⟩ := kept.present r' raw seen' before
    rcases resolvedBy_cases r.coverage r.startedAt now e with
      ⟨same, -⟩ | ⟨issue, known, later, covers, -⟩
    · refine ⟨e, ?_, state, time⟩
      rw [resolveCovered_lookup, found, Option.map_some, same]
    · obtain ⟨r₁, raw₁, seen₁, named₁, stands, -⟩ := kept.concerned found
      have kin : Kin raw₁ raw := turn.compatible.kin raw₁ raw (kept.found seen₁)
        (kept.found seen') (Or.inl named₁)
      rw [stands.covered known, turn.compatible.plain r turn.member, kin.place.coveredBy] at covers
      exact (uncovered (time ▸ later) covers).elim

private theorem Turn.stands (kept : Kept pool E entries)
    (listed : raw ∈ r.findings) {names : List Text} (observed : e.Observed r raw names)
    (gathered : Gathered (fun e => e ∈ entries ∧
      (e.1 = issueFingerprint raw ∨ e.2.holds raw = true)) raw names) : e.StandsFor raw := by
  have found : Found pool raw := ⟨r, turn.member, listed⟩
  have readable := turn.compatible.readable raw found
  have same : ∀ n, n ∈ names ↔ n ∈ raw.analyzerNames := by
    intro n
    refine ⟨fun inside => ?_, fun inside => gathered.own inside⟩
    rcases gathered.others n inside with own | ⟨x, old, ⟨member, taken⟩, known, named⟩
    · exact own
    · have here := (lookup_eq_some_iff kept.distinct).mpr member
      obtain ⟨r', other, seen, key, ⟨names', known', place⟩, -⟩ := kept.concerned here
      rw [known] at known'
      obtain rfl := Option.some.inj known'
      have kin : Kin other raw := by
        apply turn.compatible.kin other raw (kept.found seen) found
        rcases taken with own | holds
        · exact Or.inl (key.trans own)
        · rw [HistoryEntry.holds, known, Option.any_some] at holds
          exact Or.inr (Or.inl holds)
      exact (kin.place.analyzers n).mp ((place.analyzers n).mp named)
  refine ⟨names, observed.issue, readable.place.namespace_, readable.place.kind,
    readable.place.name, ?_⟩
  intro n
  refine Iff.trans ?_ (readable.place.analyzers n)
  show n ∈ (SanitizeIssue { raw with analyzerNames := names }).analyzerNames ↔
    n ∈ (SanitizeIssue raw).analyzerNames
  rw [mem_SanitizeIssue_analyzerNames, mem_SanitizeIssue_analyzerNames]
  simp only [same]

private theorem Turn.holds_iff (listed : raw ∈ r.findings)
    {other : Issue} (found : Found pool other) (stands : e.StandsFor other) :
    e.holds raw = true ↔ Kin other raw := by
  obtain ⟨names, known, -⟩ := stands
  rw [HistoryEntry.holds, known]
  constructor
  · intro same
    exact turn.compatible.kin other raw found ⟨r, turn.member, listed⟩ (Or.inr (Or.inl same))
  · intro kin
    exact kin.sameFinding (turn.compatible.readable other found) (findings_identified raw listed)

private theorem Turn.current (kept : Kept pool E entries)
    (listed : raw ∈ r.findings) (last : Last E r.startedAt raw)
    {after : List (Text × HistoryEntry)} (distinct : Distinct after)
    (own : ∃ e, after.lookup (issueFingerprint raw) = some e ∧ e.resolved = false ∧
      e.lastReportStartedAt = r.startedAt ∧ e.StandsFor raw)
    (others : ∀ key, key ≠ issueFingerprint raw → after.lookup key = (entries.lookup key).map
      fun e => if e.holds raw = true then e.superseded r.startedAt now else e) :
    Kept pool (insert (.seen r raw) E) after where
  within := Set.insert_subset ⟨⟨turn.member, turn.ordered⟩, listed⟩ kept.within
  distinct := distinct
  unresolved := by
    intro key e found state
    by_cases here : key = issueFingerprint raw
    · subst here
      obtain ⟨e', found', -, time, stands⟩ := own
      obtain rfl : e' = e := Option.some.inj (found'.symm.trans found)
      exact ⟨r, raw, Set.mem_insert _ E, rfl, stands, time,
        last_insert.mpr ⟨last, fun later => (lt_irrefl _ later).elim⟩⟩
    · rw [others key here] at found
      obtain ⟨e₀, found₀, after⟩ := Option.map_eq_some_iff.mp found
      by_cases holds : e₀.holds raw = true
      · rw [if_pos holds] at after
        rw [← after] at state
        cases state
      · rw [if_neg holds] at after
        subst after
        obtain ⟨r', raw', seen, named, stands, time, before⟩ := kept.unresolved key e₀ found₀ state
        refine ⟨r', raw', Set.mem_insert_of_mem _ seen, named, stands, time,
          last_insert.mpr ⟨before, ?_⟩⟩
        intro _ kin
        exact holds ((turn.holds_iff listed (kept.found seen) stands).mpr (Kin.symm kin))
  resolved := by
    intro key e found state
    by_cases here : key = issueFingerprint raw
    · subst here
      obtain ⟨e', found', state', -⟩ := own
      obtain rfl : e' = e := Option.some.inj (found'.symm.trans found)
      rw [state'] at state
      cases state
    · rw [others key here] at found
      obtain ⟨e₀, found₀, after⟩ := Option.map_eq_some_iff.mp found
      by_cases holds : e₀.holds raw = true
      · rw [if_pos holds] at after
        obtain ⟨r', raw', seen, named, stands, -⟩ := kept.concerned found₀
        have kin := (turn.holds_iff listed (kept.found seen) stands).mp holds
        subst after
        exact ⟨r', raw', Set.mem_insert_of_mem _ seen, named, stands, .seen r raw,
          Set.mem_insert _ E, rfl, kin.symm⟩
      · rw [if_neg holds] at after
        subst after
        obtain ⟨r', raw', seen, named, stands, x, member, rest⟩ := kept.resolved key e₀ found₀ state
        exact ⟨r', raw', Set.mem_insert_of_mem _ seen, named, stands, x,
          Set.mem_insert_of_mem _ member, rest⟩
  present := by
    intro r' raw' seen last'
    obtain ⟨e, found, state, time, -⟩ := own
    obtain ⟨before, none⟩ := last_insert.mp last'
    rcases seen with same | seen
    · cases same
      exact ⟨e, found, state, time⟩
    -- kin are of the same instant: a later one would be the last sighting
    have instant : Kin raw raw' → r'.startedAt = r.startedAt := by
      intro kin
      rcases lt_trichotomy r'.startedAt r.startedAt with earlier | same | later
      · exact (none earlier kin).elim
      · exact same
      · exact (last _ seen later kin.symm).elim
    by_cases here : issueFingerprint raw' = issueFingerprint raw
    · have kin := turn.compatible.kin raw raw' ⟨r, turn.member, listed⟩ (kept.found seen)
        (Or.inl here.symm)
      exact ⟨e, here ▸ found, state, time.trans (instant kin).symm⟩
    · obtain ⟨e₀, found₀, state₀, time₀⟩ := kept.present r' raw' seen before
      refine ⟨e₀, ?_, state₀, time₀⟩
      rw [others _ here, found₀, Option.map_some, if_neg]
      intro holds
      obtain ⟨r₁, raw₁, seen₁, named₁, stands₁, -⟩ := kept.concerned found₀
      have first : Kin raw₁ raw' := turn.compatible.kin raw₁ raw' (kept.found seen₁)
        (kept.found seen) (Or.inl named₁)
      have kin : Kin raw raw' :=
        ((turn.holds_iff listed (kept.found seen₁) stands₁).mp holds).symm.trans first
      have report : r' = r := by
        rcases mem_cons.mp (turn.within seen).1.1 with same | inside
        · exact same
        · exact (turn.apart r' inside (instant kin)).elim
      subst report
      have same := turn.compatible.once r' turn.member raw listed raw' (kept.within seen).2 kin
      exact here (by rw [same])

private theorem Turn.observe (kept : Kept pool E entries)
    (recorded : Recorded done coverage) (iteration : Iteration (Text × HistoryEntry))
    (listed : raw ∈ r.findings) :
    Kept pool (insert (.seen r raw) E) (observe iteration coverage r now entries raw) := by
  have decided := turn.outdated_iff kept recorded listed
  cases old : outdated coverage r entries raw with
  | true =>
    rw [observe_outdated old]
    refine kept.insert ⟨⟨turn.member, turn.ordered⟩, listed⟩ ?_
    intro other kin last
    exact decided.mp old (last.kin (Kin.symm kin))
  | false =>
    have last : Last E r.startedAt raw := by
      by_contra past
      rw [decided.mpr past] at old
      cases old
    obtain ⟨distinct, ⟨e, names, found, observed, gathered⟩, others⟩ :=
      observe_lookup iteration now kept.distinct old
    have stands := turn.stands kept listed observed gathered
    exact turn.current kept listed last distinct
      ⟨e, found, observed.unresolved, observed.started, stands⟩ others

private theorem Turn.insert {x : Sighting}
    (inside : x ∈ sightings (r :: done)) : Turn pool done r (Insert.insert x E) :=
  { turn with
    before := turn.before.trans (Set.subset_insert x E)
    within := Set.insert_subset inside turn.within }

end

private theorem Turn.findings {f : List (Text × HistoryEntry) → Issue → List (Text × HistoryEntry)}
    (step : ∀ E entries raw, Turn pool done r E → Kept pool E entries → raw ∈ r.findings →
      Kept pool (Insert.insert (.seen r raw) E) (f entries raw))
    (turn : Turn pool done r E) (kept : Kept pool E entries) {findings : List Issue}
    (listed : findings ⊆ r.findings) :
    Kept pool (E ∪ { x | ∃ raw ∈ findings, x = .seen r raw }) (findings.foldl f entries) := by
  induction findings generalizing E entries with
  | nil => simpa using kept
  | cons raw findings ih =>
    have here : raw ∈ r.findings := listed mem_cons_self
    have turn' : Turn pool done r (Insert.insert (.seen r raw) E) :=
      turn.insert ⟨⟨mem_cons_self, turn.ordered⟩, here⟩
    have rest := ih turn' (step E entries raw turn kept here)
      fun x member => listed (mem_cons_of_mem _ member)
    have same : (Insert.insert (.seen r raw) E ∪ { x | ∃ raw ∈ findings, x = .seen r raw } :
        Set Sighting) = E ∪ { x | ∃ raw' ∈ raw :: findings, x = .seen r raw' } := by
      ext x
      simp only [Set.mem_union, Set.mem_insert_iff, Set.mem_ofPred_eq, mem_cons, exists_eq_or_imp]
      tauto
    rw [← same]
    exact rest

private theorem sightings_cons (ordered : r.startedAt ≠ 0) :
    Insert.insert (.covered r) (sightings done) ∪ { x | ∃ raw ∈ r.findings, x = .seen r raw } =
      sightings (r :: done) := by
  ext x
  cases x with
  | covered r' =>
    simp only [sightings, Set.mem_union, Set.mem_insert_iff, Set.mem_ofPred_eq,
      Sighting.covered.injEq, reduceCtorEq, and_false, exists_false, or_false, mem_cons]
    constructor
    · rintro (rfl | ⟨inside, ordered'⟩)
      · exact ⟨Or.inl rfl, ordered⟩
      · exact ⟨Or.inr inside, ordered'⟩
    · rintro ⟨rfl | inside, ordered'⟩
      · exact Or.inl rfl
      · exact Or.inr ⟨inside, ordered'⟩
  | seen r' raw =>
    simp only [sightings, Set.mem_union, Set.mem_insert_iff, Set.mem_ofPred_eq, reduceCtorEq,
      false_or, Sighting.seen.injEq, mem_cons]
    constructor
    · rintro (⟨⟨inside, ordered'⟩, listed⟩ | ⟨raw', listed, rfl, rfl⟩)
      · exact ⟨⟨Or.inr inside, ordered'⟩, listed⟩
      · exact ⟨⟨Or.inl rfl, ordered⟩, listed⟩
    · rintro ⟨⟨rfl | inside, ordered'⟩, listed⟩
      · exact Or.inr ⟨raw, listed, rfl, rfl⟩
      · exact Or.inl ⟨⟨inside, ordered'⟩, listed⟩

private theorem sightings_unordered (unordered : r.startedAt = 0) :
    sightings (r :: done) = sightings done := by
  grind [sightings]

private theorem Turn.passed (turn : Turn pool done r (sightings done))
    (kept : Kept pool (sightings done) entries) (recorded : Recorded done coverage)
    {c : HistoryCoverage} (stored : coverage.lookup (coverageKey r) = some c)
    (older : r.startedAt ≤ c.startedAt) : Kept pool (sightings (r :: done)) entries := by
  obtain ⟨r₁, inside, ordered, key, same⟩ := recorded.sound _ (mem_of_lookup stored)
  have later : r.startedAt < r₁.startedAt := by
    rw [show c = r₁.execution from same] at older
    exact lt_of_le_of_ne older (turn.apart r₁ inside).symm
  have outcome := turn.compatible.outcome r turn.member r₁ (turn.known r₁ inside) key
  have covered : Kept pool (Insert.insert (.covered r) (sightings done)) entries := by
    refine kept.insert ⟨turn.member, turn.ordered⟩ ?_
    intro raw covers last
    exact last (.covered r₁) ⟨inside, ordered⟩ later ((outcome.coveredBy raw).symm.trans covers)
  have turn' : Turn pool done r (Insert.insert (.covered r) (sightings done)) :=
    turn.insert ⟨mem_cons_self, turn.ordered⟩
  have all := Turn.findings (f := fun entries _ => entries) ?_ turn' covered
    (fun _ member => member)
  · rwa [sightings_cons turn.ordered, foldl_fixed] at all
  · intro E entries raw turn kept listed
    refine kept.insert ⟨⟨turn.member, turn.ordered⟩, listed⟩ ?_
    intro other kin last
    rcases turn.compatible.repeated r turn.member r₁ (turn.known r₁ inside) key later raw listed
      with covers | ⟨again, listed', kin'⟩
    · exact last (.covered r₁) (turn.before ⟨inside, ordered⟩) later
        (Sighting.Concerns.kin (x := .covered r₁) covers kin)
    · exact last (.seen r₁ again) (turn.before ⟨⟨inside, ordered⟩, listed'⟩) later
        (kin'.trans kin)

private theorem recorded_kept [HistoryEncoding] {s s' : HistoryState}
    (compatible : Compatible pool) (known : ∀ r' ∈ done, r' ∈ pool) (member : r ∈ pool)
    (apart : ∀ r' ∈ done, r'.startedAt ≠ r.startedAt)
    (kept : Kept pool (sightings done) s.entries) (recorded : Recorded done s.coverage)
    (step : HistoryStep s (.recorded (some r)) s') :
    Kept pool (sightings (r :: done)) s'.entries ∧ Recorded (r :: done) s'.coverage := by
  have sound : ∀ x ∈ s.coverage, ∃ r' ∈ r :: done,
      r'.startedAt ≠ 0 ∧ x.1 = coverageKey r' ∧ x.2 = r'.execution := by
    intro x inside
    obtain ⟨r', earlier, rest⟩ := recorded.sound x inside
    exact ⟨r', mem_cons_of_mem r earlier, rest⟩
  by_cases ordered : r.startedAt = 0
  · cases step.change kept.distinct with
    | stored _ _ current => exact (current (Or.inl ordered)).elim
    | passed =>
      rw [sightings_unordered ordered]
      refine ⟨kept, sound, ?_⟩
      intro r' inside ordered'
      rcases mem_cons.mp inside with rfl | earlier
      · exact (ordered' ordered).elim
      · exact recorded.complete r' earlier ordered'
  have turn : Turn pool done r (sightings done) := by
    refine ⟨compatible, known, member, ordered, apart, Set.Subset.rfl, ?_⟩
    rintro (r' | ⟨r', raw⟩) inside
    · exact ⟨mem_cons_of_mem r inside.1, inside.2⟩
    · exact ⟨⟨mem_cons_of_mem r inside.1.1, inside.1.2⟩, inside.2⟩
  cases step.change kept.distinct with
  | passed older =>
    rcases older r rfl with unordered | ⟨c, stored, older⟩
    · exact (ordered unordered).elim
    refine ⟨turn.passed kept recorded stored older, sound, ?_⟩
    intro r' inside ordered'
    rcases mem_cons.mp inside with rfl | earlier
    · exact ⟨c, stored, older⟩
    · exact recorded.complete r' earlier ordered'
  | stored iteration now current coverage distinct retained =>
    have plain := compatible.plain r member
    have turn' : Turn pool done r (Insert.insert (.covered r) (sightings done)) :=
      turn.insert ⟨mem_cons_self, ordered⟩
    have all := Turn.findings (f := Scanner.observe iteration s.coverage r now)
      (fun E entries raw turn kept listed => turn.observe kept recorded iteration listed)
      turn' (turn.covered now kept) (fun _ member => member)
    rw [sightings_cons ordered] at all
    refine ⟨all.retained distinct retained, ?_, ?_⟩
    · intro x inside
      rw [coverage] at inside
      rcases mem_put inside with rfl | earlier
      · exact ⟨r, mem_cons_self, ordered, rfl, plain⟩
      · exact sound x earlier
    · intro r' inside ordered'
      by_cases same : coverageKey r' = coverageKey r
      · refine ⟨r.coverage, by rw [coverage, lookup_put, if_pos same], ?_⟩
        rw [plain]
        rcases mem_cons.mp inside with rfl | earlier
        · exact le_rfl
        · obtain ⟨c, stored, newer⟩ := recorded.complete r' earlier ordered'
          by_contra not
          exact current (Or.inr ⟨c, same ▸ stored, (not_le.mp not).le.trans newer⟩)
      · rcases mem_cons.mp inside with rfl | earlier
        · exact (same rfl).elim
        · obtain ⟨c, stored, newer⟩ := recorded.complete r' earlier ordered'
          exact ⟨c, by rw [coverage, lookup_put, if_neg same, stored], newer⟩

private theorem run_kept [HistoryEncoding] {s s' : HistoryState} {l : List ScanReport}
    (compatible : Compatible pool) (known : ∀ r ∈ done, r ∈ pool) (members : ∀ r ∈ l, r ∈ pool)
    (distinct : l.Pairwise fun r r' => r.startedAt ≠ r'.startedAt)
    (apart : ∀ r ∈ l, ∀ r' ∈ done, r'.startedAt ≠ r.startedAt)
    (kept : Kept pool (sightings done) s.entries) (recorded : Recorded done s.coverage)
    (run : historySystem.Path System.free s (l.map fun r => .recorded (some r)) s') :
    Kept pool (sightings (l.reverse ++ done)) s'.entries := by
  induction l generalizing s done with
  | nil =>
    cases run
    exact kept
  | cons r l ih =>
    obtain ⟨first, distinct'⟩ := pairwise_cons.mp distinct
    cases run with
    | cons step _ rest =>
      have here : r ∈ r :: l := mem_cons_self
      obtain ⟨kept', recorded'⟩ := recorded_kept compatible known (members r here)
        (apart r here) kept recorded step
      have known' : ∀ r' ∈ r :: done, r' ∈ pool := by
        grind
      have apart' : ∀ r₁ ∈ l, ∀ r' ∈ r :: done, r'.startedAt ≠ r₁.startedAt := by
        grind
      have all := ih known' (fun r' inside => members r' (mem_cons_of_mem r inside))
        distinct' apart' kept' recorded' rest
      rwa [reverse_cons, append_assoc]

end Recording

section Order

variable [Redactor] [Platform]

/-- An issue up to the analyzers that found it. -/
def SanitizedIssue.identity (i : SanitizedIssue) : SanitizedIssue := { i with analyzerNames := [] }

/-- The history has an unresolved finding, by its fingerprint and the identity of its issue. -/
def Unresolved (s : HistoryState) (key : Text) (identity : SanitizedIssue) : Prop :=
  ∃ e issue, s.entries.lookup key = some e ∧ e.resolved = false ∧ e.issue = some issue ∧
    issue.identity = identity

private theorem unresolved_iff {l pool : List ScanReport} {s : HistoryState}
    (compatible : Compatible pool)
    (distinct : ∀ r ∈ pool, ∀ r' ∈ pool, r.startedAt = r'.startedAt → r = r')
    (kept : Kept pool (sightings l) s.entries) {key : Text} {identity : SanitizedIssue} :
    Unresolved s key identity ↔ ∃ r raw, .seen r raw ∈ sightings l ∧ issueFingerprint raw = key ∧
      (SanitizeIssue raw).identity = identity ∧ Last (sightings l) r.startedAt raw := by
  constructor
  · rintro ⟨e, issue, found, state, known, rfl⟩
    obtain ⟨r, raw, seen, named, ⟨names, known', -⟩, -, last⟩ := kept.unresolved key e found state
    rw [known] at known'
    rw [Option.some.inj known']
    exact ⟨r, raw, seen, named, rfl, last⟩
  · rintro ⟨r, raw, seen, rfl, rfl, last⟩
    obtain ⟨e, found, state, time⟩ := kept.present r raw seen last
    obtain ⟨r', raw', seen', named, ⟨names, known, -⟩, time', -⟩ :=
      kept.unresolved _ e found state
    have kin := compatible.kin raw raw' (kept.found seen) (kept.found seen') (Or.inl named.symm)
    obtain rfl : r = r' := distinct r (kept.within seen).1.1 r' (kept.within seen').1.1
      (time.symm.trans time')
    obtain rfl := compatible.once r (kept.within seen).1.1 raw (kept.within seen).2 raw'
      (kept.within seen').2 kin
    exact ⟨e, _, found, state, known, rfl⟩

/-- Compatible reports leave the same findings unresolved in every order. -/
theorem unresolved_in_every_order [HistoryEncoding] {l l' : List ScanReport} {s s' : HistoryState}
    (compatible : Compatible l) (distinct : l.Pairwise fun r r' => r.startedAt ≠ r'.startedAt)
    (perm : l'.Perm l)
    (run : historySystem.Path System.free ⟨[], []⟩ (l.map fun r => .recorded (some r)) s)
    (run' : historySystem.Path System.free ⟨[], []⟩ (l'.map fun r => .recorded (some r)) s')
    (key : Text) (identity : SanitizedIssue) :
    Unresolved s key identity ↔ Unresolved s' key identity := by
  have symmetric : Std.Symm fun r r' : ScanReport => r.startedAt ≠ r'.startedAt :=
    ⟨fun _ _ differ => differ.symm⟩
  have alone : ∀ r ∈ l, ∀ r' ∈ l, r.startedAt = r'.startedAt → r = r' := by
    intro r inside r' inside' same
    by_contra differ
    exact distinct.forall inside inside' differ same
  have empty : Kept l (sightings []) [] := by
    constructor
    · rintro (r | ⟨r, raw⟩) inside
      · exact (not_mem_nil inside.1).elim
      · exact (not_mem_nil inside.1.1).elim
    · exact nodup_nil
    · intro key e found
      cases found
    · intro key e found
      cases found
    · intro r raw seen
      exact (not_mem_nil seen.1.1).elim
  have nothing : Recorded [] [] := by
    constructor
    · intro x inside
      exact (not_mem_nil inside).elim
    · intro r inside
      exact (not_mem_nil inside).elim
  have settled : ∀ {m : List ScanReport} {t : HistoryState}, m.Perm l →
      historySystem.Path System.free ⟨[], []⟩ (m.map fun r => .recorded (some r)) t →
      Kept l (sightings l) t.entries := by
    intro m t same path
    have all := run_kept compatible (fun r inside => (not_mem_nil inside).elim)
      (fun r inside => same.mem_iff.mp inside)
      (same.symm.pairwise distinct Ne.symm)
      (fun _ _ r inside => (not_mem_nil inside).elim) empty nothing path
    have members : sightings (m.reverse ++ []) = sightings l := by
      ext x
      cases x with
      | covered r | seen r raw => simp [sightings, same.mem_iff]
    rwa [members] at all
  rw [unresolved_iff compatible alone (settled (Perm.refl l) run),
    unresolved_iff compatible alone (settled perm run')]

end Order

namespace Sample

theorem two_reports (r r' : ScanReport) : letI := redactor; letI := platform; letI := encoding
    historySystem.Path System.free ⟨[], []⟩ ([r, r'].map fun r => .recorded (some r))
      (after (after empty r) r') :=
  let _ := redactor
  let _ := platform
  let _ := encoding
  .cons (after_step empty r) trivial (.single (after_step (after empty r) r') trivial)

end Sample

open Sample in
/-- Of a finding without the UID of its object and a later one with it, the one that is
recorded last is left. -/
theorem unresolved_depends_on_order : letI := redactor; letI := platform; letI := encoding
    ¬∀ (l l' : List ScanReport) (s s' : HistoryState),
      (l.Pairwise fun r r' => r.startedAt ≠ r'.startedAt) → l'.Perm l →
      historySystem.Path System.free ⟨[], []⟩ (l.map fun r => .recorded (some r)) s →
      historySystem.Path System.free ⟨[], []⟩ (l'.map fun r => .recorded (some r)) s' →
      ∀ key identity, Unresolved s key identity ↔ Unresolved s' key identity := by
  let _ := redactor
  let _ := platform
  let _ := encoding
  intro same
  have run := two_reports selective late
  have run' := two_reports late selective
  have left : ((after (after empty late) selective).entries.lookup identified).any
      (fun e => !e.resolved && e.issue.isSome) = true := by decide +kernel
  have gone : ((after (after empty selective) late).entries.lookup identified).all
      HistoryEntry.resolved = true := by decide +kernel
  rw [Option.any_eq_true] at left
  obtain ⟨e, found, state⟩ := left
  rw [Bool.and_eq_true, Bool.not_eq_true', Option.isSome_iff_exists] at state
  obtain ⟨unresolved, issue, known⟩ := state
  have both := same [selective, late] [late, selective] _ _ (by decide) (Perm.swap _ _ _)
    run run' identified issue.identity
  obtain ⟨e', -, found', unresolved', -, -⟩ :=
    both.mpr ⟨e, issue, found, unresolved, known, rfl⟩
  rw [found', Option.all_some, unresolved'] at gone
  cases gone

namespace Sample

def original : ScanReport := report [] [run "DeploymentAnalyzer" [] 10] [some (finding "u1")] 10

def again : ScanReport :=
  report [] [run "CustomAnalyzer" [] 20, run "DeploymentAnalyzer" [] 20] [some (finding "u2")] 20

theorem original_again_compatible : letI := redactor; letI := platform
    Compatible [original, again] := by
  let _ := redactor
  let _ := platform
  have keys : ∀ r ∈ [original, again], ∀ r' ∈ [original, again], coverageKey r = coverageKey r' →
      r.startedAt = r'.startedAt ∧ r.scope = r'.scope ∧ r.error = r'.error ∧
        r.runs.map (fun run => (run.info.name, run.error)) =
          r'.runs.map (fun run => (run.info.name, run.error)) := by decide +kernel
  have alike : ∀ r ∈ [original, again], ∀ raw ∈ r.findings, ∀ r' ∈ [original, again],
      ∀ raw' ∈ r'.findings, raw.id = raw'.id ∧ raw.category = raw'.category ∧
        raw.namespace_ = raw'.namespace_ ∧ raw.kind = raw'.kind ∧ raw.name = raw'.name ∧
        raw.analyzerNames = raw'.analyzerNames ∧
        raw.targetUID.isEmpty = raw'.targetUID.isEmpty := by decide +kernel
  have plainly : ∀ r ∈ [original, again], ∀ raw ∈ r.findings,
      (SanitizeIssue raw).namespace_ = raw.namespace_ ∧ (SanitizeIssue raw).kind = raw.kind ∧
        (SanitizeIssue raw).name = raw.name ∧
        (SanitizeIssue raw).analyzerNames = raw.analyzerNames ∧
        (SanitizeIssue raw).id = raw.id ∧
        (SanitizeIssue raw).targetUID = raw.targetUID := by decide +kernel
  constructor
  · decide +kernel
  · intro r inside r' inside' key
    obtain ⟨-, scope, error, runs⟩ := keys r inside r' inside' key
    exact ⟨scope, error, runs⟩
  · intro r inside r' inside' key later
    exact (later.ne (keys r inside r' inside' key).1).elim
  · rintro raw ⟨r, inside, listed⟩
    obtain ⟨space, kind, name, names, id, uid⟩ := plainly r inside raw listed
    refine ⟨⟨space, kind, name, fun n => ?_⟩, id, uid⟩
    rw [← names]
    exact Iff.rfl
  · have single : ∀ r ∈ [original, again], ∀ raw ∈ r.findings, ∀ raw' ∈ r.findings,
        raw = raw' := by decide +kernel
    exact fun r inside raw listed raw' listed' _ => single r inside raw listed raw' listed'
  · rintro raw raw' ⟨r, inside, listed⟩ ⟨r', inside', listed'⟩ -
    obtain ⟨id, category, space, kind, name, names, uid⟩ :=
      alike r inside raw listed r' inside' raw' listed'
    exact ⟨id, category, ⟨space, kind, name, fun n => by rw [names]⟩, uid⟩

end Sample

open Sample in
/-- The finding of an object that was created again is left in both orders. -/
theorem unresolved_in_every_order_recreated : letI := redactor; letI := platform; letI := encoding
    (∀ key identity, Unresolved (after (after empty original) again) key identity ↔
        Unresolved (after (after empty again) original) key identity) ∧
      ((after (after empty again) original).entries.lookup recreated).map HistoryEntry.resolved =
        some false := by
  let _ := redactor
  let _ := platform
  let _ := encoding
  refine ⟨?_, by decide +kernel⟩
  exact unresolved_in_every_order original_again_compatible (by decide) (Perm.swap _ _ _)
    (two_reports original again) (two_reports again original)

end Sre.Scanner
