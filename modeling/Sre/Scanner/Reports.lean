/- GID: Sre/Scanner/Reports
   digest: When a report may resolve a finding, and when a late one may bring it back. -/

import Sre.Foundation.System
import Sre.Scanner.Reconcile

set_option autoImplicit false

namespace Sre.Scanner

open Foundation Foundation.Assoc Foundation.Replace Sanitizer List

section Resolution

variable [Redactor] [Platform]

/-- The two stores from their empty state on. -/
def historySystem [HistoryEncoding] : System HistoryState HistoryAct where
  init s := s = ⟨[], []⟩
  step := HistoryStep

variable {s : HistoryState}

theorem historySystem_distinct [HistoryEncoding] {ok : HistoryState → HistoryAct → Prop}
    (reached : historySystem.Reachable ok s) : Distinct s.entries := by
  refine reached.invariant (P := fun s => Distinct s.entries) ?_ ?_
  · rintro s rfl
    exact nodup_nil
  · intro s act s' distinct step _
    exact HistoryStep.distinct step distinct

/-- The report covered every analyzer that contributed to the entry. -/
def ScanReport.Covers (r : ScanReport) (e : HistoryEntry) : Prop :=
  ∃ issue, e.issue = some issue ∧ coveredBy r.coverage (AsIssue issue) = true

/-- A finding of the report takes the place of an entry of another fingerprint: it is the
finding of the entry, or the finding that the report itself has under that fingerprint. -/
def ScanReport.Supersedes (r : ScanReport) (key : Text) (e : HistoryEntry) : Prop :=
  ∃ raw ∈ r.findings, issueFingerprint raw ≠ key ∧
    (e.holds raw = true ∨ ∃ again ∈ r.findings, issueFingerprint again = key ∧
      sameFinding (SanitizeIssue again) raw = true)

/-- Entries are resolved by what a later report saw, and their times do not go back. -/
structure SoundStep (s : HistoryState) (act : HistoryAct) (s' : HistoryState) : Prop where
  resolves : ∀ key e, s.entries.lookup key = some e → e.resolved = false →
    (∀ e', s'.entries.lookup key = some e' → e'.resolved = true) →
    ∃ r, act = .recorded (some r) ∧ e.lastReportStartedAt < r.startedAt ∧
      (r.Covers e ∨ r.Supersedes key e)
  advances : ∀ key e e', s.entries.lookup key = some e → s'.entries.lookup key = some e' →
    e.lastReportStartedAt ≤ e'.lastReportStartedAt

/-- No entry that was observed when the report started, or later, is superseded by it. -/
def Fresh (s : HistoryState) (act : HistoryAct) : Prop :=
  ∀ r, act = .recorded (some r) → ∀ key e, s.entries.lookup key = some e →
    r.startedAt ≤ e.lastReportStartedAt → ¬r.Supersedes key e

theorem Fresh.of_newer {r : ScanReport}
    (newer : ∀ e ∈ s.entries, e.2.lastReportStartedAt < r.startedAt) :
    Fresh s (.recorded (some r)) := by
  intro r' same key e found started
  cases same
  have later := newer (key, e) (mem_of_lookup found)
  exact (not_lt.mpr started later).elim

/-- What a report in progress has made of an entry. -/
private structure Advanced (r : ScanReport) (key : Text) (e e₁ : HistoryEntry) : Prop where
  time : e.lastReportStartedAt ≤ e₁.lastReportStartedAt
  issue : e₁.issue = e.issue ∨ ∃ again ∈ r.findings, issueFingerprint again = key ∧
    ∃ names, e₁.issue = some (SanitizeIssue { again with analyzerNames := names })
  resolved : e.resolved = false → e₁.resolved = true →
    e.lastReportStartedAt < r.startedAt ∧ (r.Covers e ∨ r.Supersedes key e)

variable {r : ScanReport} {key : Text} {e e₁ : HistoryEntry} {now : Time} {raw : Issue}
  {entries : List (Text × HistoryEntry)}

private theorem resolvedBy_advanced :
    Advanced r key e (e.resolvedBy r.coverage r.startedAt now) := by
  have same : Advanced r key e e := by
    refine ⟨le_rfl, Or.inl rfl, ?_⟩
    grind
  unfold HistoryEntry.resolvedBy
  cases known : e.issue with
  | none => exact same
  | some issue =>
    dsimp only
    split
    · rename_i covered
      refine ⟨covered.1.le, Or.inl rfl, ?_⟩
      intro _ _
      exact ⟨covered.1, Or.inl ⟨issue, known, covered.2⟩⟩
    · exact same

private theorem Advanced.supersedes (advanced : Advanced r key e e₁) (listed : raw ∈ r.findings)
    (other : key ≠ issueFingerprint raw) (holds : e₁.holds raw = true) : r.Supersedes key e := by
  refine ⟨raw, listed, fun same => other same.symm, ?_⟩
  rcases advanced.issue with kept | ⟨again, member, named, names, known⟩
  · left
    unfold HistoryEntry.holds at holds ⊢
    rwa [← kept]
  · right
    unfold HistoryEntry.holds at holds
    rw [known] at holds
    exact ⟨again, member, named, holds⟩

private theorem observe_advanced (iteration : Iteration (Text × HistoryEntry))
    (coverage : List (Text × HistoryCoverage)) (listed : raw ∈ r.findings)
    (distinct : Distinct entries)
    (fresh : r.startedAt ≤ e.lastReportStartedAt → ¬r.Supersedes key e)
    (found : entries.lookup key = some e₁) (advanced : Advanced r key e e₁) :
    ∃ e₂, (observe iteration coverage r now entries raw).lookup key = some e₂ ∧
      Advanced r key e e₂ := by
  cases old : outdated coverage r entries raw with
  | true =>
    rw [observe_outdated old]
    exact ⟨e₁, found, advanced⟩
  | false =>
    obtain ⟨-, ⟨e₂, names, stored, observed, -⟩, others⟩ :=
      observe_lookup iteration now distinct old
    by_cases here : key = issueFingerprint raw
    · subst here
      refine ⟨e₂, stored, ?_, Or.inr ⟨raw, listed, rfl, names, observed.issue⟩, ?_⟩
      · -- the entry is not newer than the report, or the finding were outdated
        have known := (Bool.or_eq_false_iff.mp old).1
        rw [found, Option.any_some, decide_eq_false_iff_not, not_lt] at known
        rw [observed.started]
        exact advanced.time.trans known
      · intro _ resolved
        rw [observed.unresolved] at resolved
        cases resolved
    · rw [others key here, found]
      by_cases holds : e₁.holds raw = true
      · have supersedes := advanced.supersedes listed here holds
        have later : e.lastReportStartedAt < r.startedAt := by
          by_contra not
          exact fresh (not_lt.mp not) supersedes
        refine ⟨e₁.superseded r.startedAt now, by rw [Option.map_some, if_pos holds], ?_⟩
        exact ⟨later.le, advanced.issue, fun _ _ => ⟨later, Or.inr supersedes⟩⟩
      · exact ⟨e₁, by rw [Option.map_some, if_neg holds], advanced⟩

variable {iteration : Iteration (Text × HistoryEntry)}

private theorem findings_advanced {coverage : List (Text × HistoryCoverage)} {findings : List Issue}
    (listed : findings ⊆ r.findings) (distinct : Distinct entries)
    (fresh : r.startedAt ≤ e.lastReportStartedAt → ¬r.Supersedes key e)
    (found : entries.lookup key = some e₁) (advanced : Advanced r key e e₁) :
    ∃ e₂, (findings.foldl (observe iteration coverage r now) entries).lookup key = some e₂ ∧
      Advanced r key e e₂ := by
  induction findings generalizing entries e₁ with
  | nil => exact ⟨e₁, found, advanced⟩
  | cons raw findings ih =>
    have here : raw ∈ r.findings := listed mem_cons_self
    have later : findings ⊆ r.findings := fun x member => listed (mem_cons_of_mem _ member)
    obtain ⟨e₂, found₂, advanced₂⟩ :=
      observe_advanced iteration coverage here distinct fresh found advanced
    have distinct₂ : Distinct (observe iteration coverage r now entries raw) :=
      observe_distinct [raw] distinct
    exact ih later distinct₂ found₂ advanced₂

private theorem unchanged_sound {act : HistoryAct} : SoundStep s act s := by
  constructor
  · grind
  · grind

private theorem stored_sound {s' : HistoryState} (distinct : Distinct s.entries)
    (fresh : Fresh s (.recorded (some r)))
    (retained : ∀ key, Retained ((r.findings.foldl (observe iteration s.coverage r now)
      (resolveCovered r.coverage r.startedAt now s.entries)).lookup key) (s'.entries.lookup key)) :
    SoundStep s (.recorded (some r)) s' := by
  have advanced : ∀ key e, s.entries.lookup key = some e →
      ∃ e₁, (r.findings.foldl (observe iteration s.coverage r now)
        (resolveCovered r.coverage r.startedAt now s.entries)).lookup key = some e₁ ∧
        Advanced r key e e₁ := by
    intro key e found
    have covered : (resolveCovered r.coverage r.startedAt now s.entries).lookup key =
        some (e.resolvedBy r.coverage r.startedAt now) := by
      rw [resolveCovered_lookup, found]
      rfl
    exact findings_advanced (fun _ member => member) (resolveCovered_distinct distinct)
      (fresh r rfl key e found) covered resolvedBy_advanced
  constructor
  · intro key e found unresolved resolved
    obtain ⟨e₁, found₁, after⟩ := advanced key e found
    have resolved₁ : e₁.resolved = true := by
      by_contra not
      rw [Bool.not_eq_true] at not
      have same := (found₁ ▸ retained key).unresolved not
      rw [resolved e₁ same] at not
      cases not
    obtain ⟨later, reason⟩ := after.resolved unresolved resolved₁
    exact ⟨r, rfl, later, reason⟩
  · intro key e e' found found'
    obtain ⟨e₁, found₁, after⟩ := advanced key e found
    have kept : Retained (some e₁) (some e') := found₁ ▸ found' ▸ retained key
    obtain ⟨e₀, same, -, time, -⟩ := kept.before
    cases same
    rw [time]
    exact after.time

/-- In every run in which no report supersedes an entry observed at its start or later, an
entry is resolved only by a report that started after the entry was last observed and that
covered or superseded it, and no entry's time goes back. -/
theorem resolution_is_sound [HistoryEncoding] {s s' : HistoryState} {act : HistoryAct}
    (reached : historySystem.Reachable Fresh s) (step : HistoryStep s act s')
    (fresh : Fresh s act) : SoundStep s act s' := by
  have distinct := historySystem_distinct reached
  cases step.change distinct with
  | passed | failed => exact unchanged_sound
  | stored iteration now current coverage distinct' retained =>
    exact stored_sound distinct fresh retained
  | pruned coverage distinct' retained =>
    constructor
    · intro key e found unresolved resolved
      have same := (found ▸ retained key).unresolved unresolved
      rw [resolved e same] at unresolved
      cases unresolved
    · intro key e e' found found'
      have kept : Retained (some e) (some e') := found ▸ found' ▸ retained key
      obtain ⟨e₀, same, -, time, -⟩ := kept.before
      cases same
      exact time.ge

end Resolution

/-! One finding, first seen with the UID of its object by a scan with a label selector, then
in the late report of a scan that started earlier and had no UID. -/

namespace Sample

@[reducible] def redactor : Redactor := ⟨fun t => t, fun t => t, fun t => t⟩

@[reducible] def encoding : HistoryEncoding := ⟨fun _ => some 0, fun _ => 0⟩

/-- So many seconds after the start of 2026. -/
def instant (seconds : ℤ) : Time := 63902822400000000000 + seconds * second

def times : List (Time × Text) :=
  [(instant 5, "2026-01-01T00:00:05Z"), (instant 10, "2026-01-01T00:00:10Z"),
    (instant 20, "2026-01-01T00:00:20Z"), (instant 30, "2026-01-01T00:00:30Z")]

theorem times_distinct : (times.map Prod.snd).Nodup := by decide

def bare : Text := "a8a4227d34a66144279aabb72a7509e37ce283afbece1a428b3f341b9c233a3b"

def identified : Text := "0127764c88677db9b50e0aed67507f50abad98e74889cf6d8c562dff007ba528"

def recreated : Text := "3351c92ca50a43093b33ce2268ada4bbba3b5be06f6922a7897acfb21444102e"

def digests : List (Text × Text) :=
  [("deployment-web\x00DeploymentMismatch", bare),
    ("deployment-web\x00DeploymentMismatch\x00u1", identified),
    ("deployment-web\x00DeploymentMismatch\x00u2", recreated)]

@[reducible] def platform : Platform := .ofTables digests [] times times_distinct

def finding (uid : Text) : Issue where
  analyzerNames := ["DeploymentAnalyzer"]
  id := "deployment-web"
  namespace_ := "shop"
  kind := "Deployment"
  name := "web"
  targetUID := uid
  targetResourceVersion := []
  severity := .high
  category := "DeploymentMismatch"
  group := .errors
  summary := "1 of 3 replicas available"
  details := []
  logsSnippet := []
  events := []
  specSnippet := []
  firstObserved := 0
  lastObserved := 0
  parent := none
  docsURL := []

def run (name error : Text) (seconds : ℤ) : AnalyzerRun :=
  ⟨⟨name, "Deployment", [], [], [], true, 0⟩, 0, "1s", error, instant seconds, instant seconds⟩

def report (selector : Text) (runs : List AnalyzerRun) (issues : List (Option Issue))
    (seconds : ℤ) : ScanReport where
  error := []
  scope := ⟨scanSchemaVersion, [], [], selector, [], [], [], 8, "5m0s"⟩
  issues := issues
  analyzers := runs
  startedAt := instant seconds
  finishedAt := instant seconds

def selective : ScanReport :=
  report "app=web" [run "DeploymentAnalyzer" [] 20] [some (finding "u1")] 20

def late : ScanReport := report [] [run "DeploymentAnalyzer" [] 10] [some (finding [])] 10

def empty : HistoryState := ⟨[], []⟩

def after (s : HistoryState) (r : ScanReport) : HistoryState :=
  letI := redactor; letI := platform
  MemoryHistoryStore.RecordReport s .listed (some r) (instant 30)

theorem after_step (s : HistoryState) (r : ScanReport) :
    letI := redactor; letI := platform; letI := encoding
    HistoryStep s (.recorded (some r)) (after s r) :=
  let _ := redactor
  let _ := platform
  let _ := encoding
  HistoryStep.memoryReport s .listed (some r) (instant 30)

def filed (store : FileHistoryStore) (r : ScanReport) :
    FileHistoryStore × Except HistoryError Unit :=
  letI := redactor; letI := platform; letI := encoding
  store.RecordReport .listed (some r) (fun _ => false) (instant 30)

theorem filed_step (store : FileHistoryStore) (r : ScanReport)
    (ok : (filed store r).2.toBool = true) :
    letI := redactor; letI := platform; letI := encoding
    HistoryStep store.state (.recorded (some r)) (filed store r).1.state := by
  let _ := redactor
  let _ := platform
  let _ := encoding
  have written : filed store r = ((filed store r).1, .ok ()) := by
    generalize filed store r = result at ok
    obtain ⟨store', outcome⟩ := result
    cases outcome with
    | error e => cases ok
    | ok => rfl
  exact HistoryStep.fileReport written

end Sample

open Sample in
/-- The late report resolves the newer entry and sets its time back. -/
theorem late_report_resolves_a_newer_finding : letI := redactor; letI := platform; letI := encoding
    ¬∀ s act s', historySystem.Reachable System.free s → HistoryStep s act s' →
      SoundStep s act s' := by
  let _ := redactor
  let _ := platform
  let _ := encoding
  intro sound
  have reached : historySystem.Reachable System.free (after empty selective) :=
    (System.Reachable.init rfl).step (after_step empty selective) trivial
  have step := after_step (after empty selective) late
  have before : ((after empty selective).entries.lookup identified).map
      HistoryEntry.lastReportStartedAt = some (instant 20) := by decide +kernel
  have behind : ((after (after empty selective) late).entries.lookup identified).map
      HistoryEntry.lastReportStartedAt = some (instant 10) := by decide +kernel
  obtain ⟨e, found, time⟩ := Option.map_eq_some_iff.mp before
  obtain ⟨e', found', time'⟩ := Option.map_eq_some_iff.mp behind
  have forward := (sound _ _ _ reached step).advances identified e e' found found'
  rw [time, time'] at forward
  exact absurd forward (by decide)

open Sample in
theorem resolution_is_sound_covered : letI := redactor; letI := platform; letI := encoding
    let clean := report [] [run "DeploymentAnalyzer" [] 20] [] 20
    SoundStep (after empty late) (.recorded (some clean)) (after (after empty late) clean) ∧
      ((after empty late).entries.lookup bare).map HistoryEntry.resolved = some false ∧
      ((after (after empty late) clean).entries.lookup bare).map HistoryEntry.resolved =
        some true := by
  let _ := redactor
  let _ := platform
  let _ := encoding
  intro clean
  have first : Fresh empty (.recorded (some late)) :=
    Fresh.of_newer fun e member => (not_mem_nil member).elim
  have reached : historySystem.Reachable Fresh (after empty late) :=
    (System.Reachable.init rfl).step (after_step empty late) first
  have newer : ∀ e ∈ (after empty late).entries,
      e.2.lastReportStartedAt < clean.startedAt := by decide +kernel
  refine ⟨?_, by decide +kernel, by decide +kernel⟩
  exact resolution_is_sound reached (after_step _ clean) (Fresh.of_newer newer)

section Late

/-- Two executions of a scope with the same outcome of every analyzer. -/
structure HistoryCoverage.SameOutcome (c d : HistoryCoverage) : Prop where
  scope : c.scope = d.scope
  error : c.error = d.error
  runs : c.analyzers.map (fun run => (run.info.name, run.error)) =
    d.analyzers.map (fun run => (run.info.name, run.error))

variable {c d : HistoryCoverage}

private theorem observed_congr (same : c.SameOutcome d) (name : Text) :
    observed c name = observed d name := by
  have plan : coveragePlan c = coveragePlan d := by
    unfold coveragePlan
    rw [same.scope]
  have read : ∀ x : HistoryCoverage, observed x name =
      (x.analyzers.map fun run => (run.info.name, run.error)).any fun run =>
        run.2.isEmpty && Strings.EqualFold run.1 name &&
          (coveragePlan x).IncludesAnalyzer name := by
    intro x
    rw [any_map]
    rfl
  rw [read c, read d, same.runs, plan]

theorem HistoryCoverage.SameOutcome.coveredBy (same : c.SameOutcome d) (raw : Issue) :
    Scanner.coveredBy c raw = Scanner.coveredBy d raw := by
  have plan : coveragePlan c = coveragePlan d := by
    unfold coveragePlan
    rw [same.scope]
  have count : observed c = observed d := funext (observed_congr same)
  unfold Scanner.coveredBy
  rw [plan, count, same.scope, same.error]

/-- The execution that a report is about. -/
def ScanReport.execution (r : ScanReport) : HistoryCoverage :=
  ⟨r.scope, r.runs, r.startedAt, r.finishedAt, r.error⟩

variable [Redactor] [Platform]

/-- The instants of a report have a JSON text, and the execution stored under its key, if any,
had the same outcome. -/
def Definite (s : HistoryState) (act : HistoryAct) : Prop :=
  ∀ r, act = .recorded (some r) → r.coverage = r.execution ∧
    ∀ c, s.coverage.lookup (coverageKey r) = some c → c.SameOutcome r.execution

/-- The stored coverage has an execution that covers what the report covered, and did not
start before it. -/
private def Known (r : ScanReport) (s : HistoryState) : Prop :=
  ∃ key c, s.coverage.lookup key = some c ∧ r.startedAt ≤ c.startedAt ∧
    ∀ raw, coveredBy r.execution raw = true → coveredBy c raw = true

variable {s s' : HistoryState} {r : ScanReport} {act : HistoryAct}

private theorem known_recorded [HistoryEncoding] (distinct : Distinct s.entries)
    (step : HistoryStep s (.recorded (some r)) s') (definite : Definite s (.recorded (some r)))
    (ordered : r.startedAt ≠ 0) : Known r s' := by
  obtain ⟨plain, same⟩ := definite r rfl
  cases step.change distinct with
  | passed older =>
    rcases older r rfl with unordered | ⟨c, found, older⟩
    · exact (ordered unordered).elim
    · refine ⟨coverageKey r, c, found, older, ?_⟩
      intro raw covered
      rw [(same c found).coveredBy]
      exact covered
  | stored _ _ _ coverage =>
    refine ⟨coverageKey r, r.coverage, ?_, ?_, ?_⟩
    · rw [coverage, lookup_put, if_pos rfl]
    · rw [plain]
      exact le_rfl
    · intro raw covered
      rw [plain]
      exact covered

private theorem known_step [HistoryEncoding] (distinct : Distinct s.entries) (known : Known r s)
    (step : HistoryStep s act s') (definite : Definite s act) : Known r s' := by
  cases step.change distinct with
  | passed | failed => exact known
  | pruned coverage =>
    obtain ⟨key, c, found, later, covers⟩ := known
    exact ⟨key, c, coverage ▸ found, later, covers⟩
  | @stored r₁ _ _ _ current coverage =>
    obtain ⟨key, c, found, later, covers⟩ := known
    by_cases here : key = coverageKey r₁
    · subst here
      obtain ⟨plain, same⟩ := definite r₁ rfl
      refine ⟨coverageKey r₁, r₁.coverage, ?_, ?_, ?_⟩
      · rw [coverage, lookup_put, if_pos rfl]
      · have newer : c.startedAt < r₁.startedAt := by
          by_contra not
          exact current (Or.inr ⟨c, found, not_lt.mp not⟩)
        rw [plain]
        exact later.trans newer.le
      · intro raw covered
        rw [plain, ← (same c found).coveredBy]
        exact covers raw covered
    · refine ⟨key, c, ?_, later, covers⟩
      rw [coverage, lookup_put, if_neg here]
      exact found

variable {key : Text} {coverage : List (Text × HistoryCoverage)}
  {entries : List (Text × HistoryEntry)} {e : HistoryEntry} {now : Time}

omit [Redactor] in
private theorem current_uncovered {raw : Issue} (current : outdated coverage r entries raw = false)
    (found : coverage.lookup key = some c) (older : r.startedAt ≤ c.startedAt) :
    coveredBy c raw = false := by
  have unseen := (Bool.or_eq_false_iff.mp (Bool.or_eq_false_iff.mp current).2).2
  have here := any_eq_false.mp unseen (key, c) (mem_of_lookup found)
  grind

private theorem findings_unresolved {iteration : Iteration (Text × HistoryEntry)}
    {findings : List Issue} (distinct : Distinct entries)
    (found : (findings.foldl (observe iteration coverage r now) entries).lookup key = some e)
    (unresolved : e.resolved = false) :
    entries.lookup key = some e ∨ ∃ raw ∈ findings, issueFingerprint raw = key ∧
      ∃ before, outdated coverage r before raw = false := by
  induction findings generalizing entries with
  | nil => exact Or.inl found
  | cons raw findings ih =>
    rw [foldl_cons] at found
    have distinct' : Distinct (observe iteration coverage r now entries raw) :=
      observe_distinct [raw] distinct
    rcases ih distinct' found with here | ⟨later, member, named, before, current⟩
    · cases old : outdated coverage r entries raw with
      | true =>
        rw [observe_outdated old] at here
        exact Or.inl here
      | false =>
        obtain ⟨-, -, others⟩ := observe_lookup iteration now distinct old
        by_cases own : key = issueFingerprint raw
        · exact Or.inr ⟨raw, mem_cons_self, own.symm, entries, old⟩
        · left
          rw [others key own] at here
          obtain ⟨e₀, known, eq⟩ := Option.map_eq_some_iff.mp here
          by_cases holds : e₀.holds raw = true
          · rw [if_pos holds] at eq
            rw [← eq] at unresolved
            cases unresolved
          · rw [if_neg holds] at eq
            rw [known, eq]
    · exact Or.inr ⟨later, mem_cons_of_mem _ member, named, before, current⟩

omit [Redactor] [Platform] in
private theorem resolvedBy_unresolved {startedAt : Time} {e' : HistoryEntry}
    (after : e'.resolvedBy c startedAt now = e) (unresolved : e.resolved = false) : e' = e := by
  unfold HistoryEntry.resolvedBy at after
  split at after
  · exact after
  · split at after
    · rw [← after] at unresolved
      cases unresolved
    · exact after

private theorem recorded_unresolved [HistoryEncoding] (distinct : Distinct s.entries)
    (step : HistoryStep s (.recorded (some r)) s') (found : s'.entries.lookup key = some e)
    (unresolved : e.resolved = false) :
    s.entries.lookup key = some e ∨ ∃ raw ∈ r.findings, issueFingerprint raw = key ∧
      ∃ before, outdated s.coverage r before raw = false := by
  cases step.change distinct with
  | passed => exact Or.inl found
  | stored iteration now current coverage distinct' retained =>
    have kept : (r.findings.foldl (observe iteration s.coverage r now)
        (resolveCovered r.coverage r.startedAt now s.entries)).lookup key = some e := by
      have here := retained key
      rw [found] at here
      generalize List.lookup key _ = before at here ⊢
      cases here with
      | same => rfl
      | dated resolved =>
        rw [show _ = false from unresolved] at resolved
        cases resolved
    rcases findings_unresolved (resolveCovered_distinct distinct) kept unresolved with
      here | observed
    · left
      rw [resolveCovered_lookup] at here
      obtain ⟨e₀, known, after⟩ := Option.map_eq_some_iff.mp here
      rw [known, resolvedBy_unresolved after unresolved]
    · exact Or.inr observed

/-- A report that did not start after `r` brings back no finding that `r` covered, and
retention removes no unresolved entry. -/
theorem no_resurrection [HistoryEncoding] {s₁ s₂ s₃ : HistoryState} {r' : ScanReport}
    {acts : List HistoryAct} (reached : historySystem.Reachable Definite s)
    (recorded : HistoryStep s (.recorded (some r)) s₁)
    (definite : Definite s (.recorded (some r))) (ordered : r.startedAt ≠ 0)
    (path : historySystem.Path Definite s₁ acts s₂)
    (late : HistoryStep s₂ (.recorded (some r')) s₃) (older : r'.startedAt ≤ r.startedAt) :
    (∀ key e, s₃.entries.lookup key = some e → e.resolved = false →
      s₂.entries.lookup key = some e ∨
        ∃ raw ∈ r'.findings, issueFingerprint raw = key ∧ coveredBy r.execution raw = false) ∧
    ∀ (entries : List (Text × HistoryEntry)) now removed changed kept, Distinct entries →
      pruneHistory entries now = .ok (removed, changed, kept) → ∀ key e,
      entries.lookup key = some e → e.resolved = false → kept.lookup key = some e := by
  have reached₁ : historySystem.Reachable Definite s₁ := reached.step recorded definite
  have known : Known r s₂ ∧ Distinct s₂.entries := by
    refine path.invariant (P := fun s => Known r s ∧ Distinct s.entries) ?_ ?_
    · rintro s act s' ⟨known, distinct⟩ step definite
      exact ⟨known_step distinct known step definite, HistoryStep.distinct step distinct⟩
    · have distinct := historySystem_distinct reached
      exact ⟨known_recorded distinct recorded definite ordered, historySystem_distinct reached₁⟩
  obtain ⟨⟨where_, c, found, later, covers⟩, distinct⟩ := known
  constructor
  · intro key e unresolved here
    rcases recorded_unresolved distinct late unresolved here with
      before | ⟨raw, listed, named, entries, current⟩
    · exact Or.inl before
    · refine Or.inr ⟨raw, listed, named, ?_⟩
      have uncovered := current_uncovered current found (older.trans later)
      by_contra covered
      rw [Bool.not_eq_false] at covered
      rw [covers raw covered] at uncovered
      cases uncovered
  · intro entries now removed changed kept distinct pruned key e here unresolved
    have retained := (pruneHistory_lookup distinct pruned).2 key
    rw [here] at retained
    exact retained.unresolved unresolved

omit [Redactor] in
theorem Definite.of_new (plain : r.coverage = r.execution)
    (new : s.coverage.lookup (coverageKey r) = none) : Definite s (.recorded (some r)) := by
  intro r' same
  grind

end Late

/-! Two analyzers succeed; in the next execution the first fails, with an error text that
spells the second one's success. -/

namespace Sample

def clean : ScanReport :=
  report [] [run "CustomAnalyzer" [] 10, run "DeploymentAnalyzer" [] 10] [] 10

def misspelt : ScanReport := report [] [run "CustomAnalyzer" "|DeploymentAnalyzer:" 20] [] 20

def returning : ScanReport := report [] [run "DeploymentAnalyzer" [] 5] [some (finding [])] 5

def opened : FileHistoryStore := ⟨⟨empty, none⟩⟩

end Sample

open Sample in
/-- The failed execution takes the place of the successful one, and a report that is older
than both brings back what the successful one covered. -/
theorem failed_execution_replaces_a_successful_one :
    letI := redactor; letI := platform; letI := encoding
    ¬∀ s s₁ s₂ s₃ r r' acts, historySystem.Reachable System.free s →
      HistoryStep s (.recorded (some r)) s₁ → r.startedAt ≠ 0 →
      historySystem.Path System.free s₁ acts s₂ → HistoryStep s₂ (.recorded (some r')) s₃ →
      r'.startedAt ≤ r.startedAt → ∀ key e, s₃.entries.lookup key = some e →
      e.resolved = false → s₂.entries.lookup key = some e ∨
        ∃ raw ∈ r'.findings, issueFingerprint raw = key ∧ coveredBy r.execution raw = false := by
  let _ := redactor
  let _ := platform
  let _ := encoding
  intro never
  have first : HistoryStep opened.state (.recorded (some clean)) (filed opened clean).1.state :=
    filed_step opened clean (by decide +kernel)
  have second := filed_step (filed opened clean).1 misspelt (by decide +kernel)
  have third := filed_step (filed (filed opened clean).1 misspelt).1 returning
    (by decide +kernel)
  have back : ((filed (filed (filed opened clean).1 misspelt).1 returning).1.state.entries.lookup
      bare).map HistoryEntry.resolved = some false := by decide +kernel
  obtain ⟨e, found, unresolved⟩ := Option.map_eq_some_iff.mp back
  have fresh : (filed (filed opened clean).1 misspelt).1.state.entries.lookup bare = none := by
    decide +kernel
  have covered : ∀ raw ∈ returning.findings, coveredBy clean.execution raw = true := by
    decide +kernel
  rcases never _ _ _ _ _ _ _ (System.Reachable.init rfl) first (by decide)
    (System.Path.single second trivial) third (by decide) bare e found unresolved with
    before | ⟨raw, listed, -, uncovered⟩
  · rw [fresh] at before
    cases before
  · rw [covered raw listed] at uncovered
    cases uncovered

open Sample in
theorem no_resurrection_pruned : letI := redactor; letI := platform; letI := encoding
    let seen := (filed opened returning).1
    let kept := ((filed seen clean).1.pruneRetentionLocked (fun _ => false) (instant 300000)).1
    let again := report [] [run "DeploymentAnalyzer" [] 10, run "PodAnalyzer" [] 10]
      [some (finding [])] 10
    (seen.state.entries.lookup bare).map HistoryEntry.resolved = some false ∧
      kept.state.entries = [] ∧
      ∀ key e, (filed kept again).1.state.entries.lookup key = some e → e.resolved = false →
        kept.state.entries.lookup key = some e ∨ ∃ raw ∈ again.findings,
          issueFingerprint raw = key ∧ coveredBy clean.execution raw = false := by
  let _ := redactor
  let _ := platform
  let _ := encoding
  intro seen kept again
  have first : Definite opened.state (.recorded (some returning)) :=
    Definite.of_new (by decide +kernel) rfl
  have reached : historySystem.Reachable Definite seen.state :=
    (System.Reachable.init rfl).step (filed_step opened returning (by decide +kernel)) first
  have definite : Definite seen.state (.recorded (some clean)) :=
    Definite.of_new (by decide +kernel) (by decide +kernel)
  have pruned : historySystem.Path Definite (filed seen clean).1.state [.pruned] kept.state := by
    refine System.Path.single (HistoryStep.filePrune _ (fun _ => false) (instant 300000)) ?_
    intro r same
    cases same
  refine ⟨by decide +kernel, by decide +kernel, ?_⟩
  exact (no_resurrection reached (filed_step seen clean (by decide +kernel)) definite (by decide)
    pruned (filed_step kept again (by decide +kernel)) (by decide)).1

end Sre.Scanner
