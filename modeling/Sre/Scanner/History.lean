/- GID: Sre/Scanner/History
   digest: The history of findings, its reconciliation with scan reports, and the file that keeps it. -/

import Sre.Foundation.Assoc
import Sre.Foundation.Replace
import Sre.Scanner.Contract

set_option autoImplicit false

namespace Sre.Scanner

open Foundation Foundation.Assoc Foundation.Json Foundation.Outcome
open Foundation.Replace Foundation.Strings Sanitizer
open Value (omitempty)

structure AnalyzerInfo where
  name : Text
  resource : Text
  description : Text
  docsURL : Text
  parentKind : Text
  enabled : Bool
  issueCount : ℤ
  deriving DecidableEq

structure AnalyzerRun where
  info : AnalyzerInfo
  issueCount : ℤ
  duration : Text
  error : Text
  startedAt : Time
  finishedAt : Time
  deriving DecidableEq

structure ScanReport where
  error : Text
  scope : EffectiveScope
  issues : List (Option Issue)
  analyzers : List AnalyzerRun
  startedAt : Time
  finishedAt : Time

structure HistoryEntry where
  schemaVersion : Text
  fingerprint : Text
  issue : Option SanitizedIssue
  firstSeen : Time
  lastSeen : Time
  occurrences : ℤ
  lastReportStartedAt : Time
  resolved : Bool
  resolvedAt : Time

/-- The most recent execution of a scope. -/
structure HistoryCoverage where
  scope : EffectiveScope
  analyzers : List AnalyzerRun
  startedAt : Time
  finishedAt : Time
  error : Text
  deriving DecidableEq

/-- What a history store holds in memory. -/
structure HistoryState where
  entries : List (Text × HistoryEntry)
  coverage : List (Text × HistoryCoverage)

inductive HistoryError where
  | measure
  | unsupportedSchema (schema : Text)
  | file (step : FileStep)

def historySchemaVersion : Text := "scan-history/v1"

def markHistoryResolved (entry : HistoryEntry) (now : Time) : HistoryEntry :=
  { entry with
    resolvedAt := if entry.resolved = false ∨ entry.resolvedAt = 0 then now else entry.resolvedAt
    resolved := true }

section Fingerprint

variable [Platform]

def uidFingerprintSuffix (uid : Text) : Text := if uid.isEmpty then [] else '\x00' :: uid

def issueFingerprint (issue : Issue) : Text :=
  if issue.id.isEmpty then
    Platform.sha256 (issue.namespace_ ++ ['\x00'] ++ issue.kind ++ ['\x00'] ++ issue.name ++
      ['\x00'] ++ issue.category ++ uidFingerprintSuffix issue.targetUID)
  else
    Platform.sha256 (issue.id ++ ['\x00'] ++ issue.category ++ uidFingerprintSuffix issue.targetUID)

end Fingerprint

section Recording

variable [Redactor] [Platform]

def newEntry (fingerprint : Text) (firstSeen : Time) : HistoryEntry where
  schemaVersion := historySchemaVersion
  fingerprint := fingerprint
  issue := none
  firstSeen := firstSeen
  lastSeen := 0
  occurrences := 0
  lastReportStartedAt := 0
  resolved := false
  resolvedAt := 0

def recordIssue (now : Time) (entries : List (Text × HistoryEntry)) (issue : Issue) :
    List (Text × HistoryEntry) :=
  let fingerprint := issueFingerprint issue
  let entry := (entries.lookup fingerprint).getD (newEntry fingerprint now)
  put entries fingerprint { entry with
    schemaVersion := historySchemaVersion
    lastSeen := now
    occurrences := entry.occurrences + 1
    resolved := false
    resolvedAt := 0
    issue := some (SanitizeIssue issue) }

/-- Every entry is resolved but those of the issues, of which a nil one is passed over. -/
def recordHistory (entries : List (Text × HistoryEntry)) (issues : List (Option Issue))
    (now : Time) : List (Text × HistoryEntry) :=
  issues.reduceOption.foldl (recordIssue now)
    (entries.map fun e => (e.1, markHistoryResolved e.2 now))

end Recording

section Reports

def coveragePlan (c : HistoryCoverage) : Plan where
  schemaVersion := []
  includeNamespaces := c.scope.includeNamespaces
  excludeNamespaces := c.scope.excludeNamespaces
  labelSelector := c.scope.labelSelector
  kinds := c.scope.kinds
  names := c.scope.names
  analyzers := c.scope.analyzers
  maxConcurrency := 0
  timeout := 0

/-- A run of the analyzer succeeded, and the plan asked for it. -/
def observed (c : HistoryCoverage) (name : Text) : Bool :=
  c.analyzers.any fun run =>
    run.error.isEmpty && EqualFold run.info.name name && (coveragePlan c).IncludesAnalyzer name

/-- Successful coverage of every contributing analyzer. -/
def coveredBy (c : HistoryCoverage) (issue : Issue) : Bool :=
  c.scope.schemaVersion = scanSchemaVersion && c.error.isEmpty && c.scope.labelSelector.isEmpty &&
    !issue.analyzerNames.isEmpty && issueMatchesPlan (coveragePlan c) issue &&
    issue.analyzerNames.countP (observed c) = issue.analyzerNames.length

def texts (values : List Text) : Value := .arr (values.map .str)

def EffectiveScope.document (s : EffectiveScope) : Value :=
  .obj ([("schema_version".toList, .str s.schemaVersion)] ++
    omitempty s.includeNamespaces.isEmpty "include_namespaces" (texts s.includeNamespaces) ++
    omitempty s.excludeNamespaces.isEmpty "exclude_namespaces" (texts s.excludeNamespaces) ++
    omitempty s.labelSelector.isEmpty "label_selector" (.str s.labelSelector) ++
    omitempty s.kinds.isEmpty "kinds" (texts s.kinds) ++
    omitempty s.names.isEmpty "names" (texts s.names) ++
    omitempty s.analyzers.isEmpty "analyzers" (texts s.analyzers) ++
    [("max_concurrency".toList, .num (intNumeral s.maxConcurrency)),
      ("timeout".toList, .str s.timeout)])

/-- The runs of a report in the order of their names. -/
def ScanReport.runs (r : ScanReport) : List AnalyzerRun :=
  Sql.ascending (fun run => run.info.name) r.analyzers

/-- Runs are part of the key: a failed execution does not replace a successful one. -/
def coverageKey (r : ScanReport) : Text :=
  render goStyle r.scope.document ++ "|".toList ++ r.error ++
    r.runs.flatMap fun run => "|".toList ++ run.info.name ++ ":".toList ++ run.error

def HistoryCoverage.zero : HistoryCoverage := ⟨⟨[], [], [], [], [], [], [], 0, []⟩, [], 0, 0, []⟩

variable [Redactor] [Platform]

/-- Coverage after its way through JSON, which has no text for some instants. -/
def detached (c : HistoryCoverage) : HistoryCoverage :=
  let instants := [c.startedAt, c.finishedAt] ++
    c.analyzers.flatMap fun run => [run.startedAt, run.finishedAt]
  if instants.all fun t => (Platform.timeText t).isSome then c else .zero

/-- A newer observation of another object of the name, or newer coverage, disproves `raw`. -/
def stale (s : HistoryState) (startedAt : Time) (raw : Issue) : Bool :=
  (s.entries.any fun e => match e.2.issue with
    | none => false
    | some newer =>
      decide (startedAt < e.2.lastReportStartedAt) && newer.namespace_ = raw.namespace_ &&
        newer.kind = raw.kind && newer.name = raw.name && !newer.targetUID.isEmpty &&
        !raw.targetUID.isEmpty && newer.targetUID ≠ raw.targetUID) ||
  s.coverage.any fun c => decide (startedAt ≤ c.2.startedAt) && coveredBy c.2 raw

/-- The stored issue has the ID of `raw`, or its semantic identity. -/
def sameFinding (old : SanitizedIssue) (raw : Issue) : Bool :=
  (!raw.id.isEmpty && old.id = raw.id) ||
    (old.namespace_ = raw.namespace_ && old.kind = raw.kind && old.name = raw.name &&
      old.category = raw.category && old.summary = raw.summary)

/-- The observation of an issue on its way into the history. -/
structure Observation where
  entry : Option HistoryEntry
  raw : Issue
  entries : List (Text × HistoryEntry)

/-- An entry that continues one of another fingerprint. -/
def continued (fingerprint : Text) (entry : Option HistoryEntry) (old : HistoryEntry) :
    HistoryEntry :=
  match entry with
  | none => { newEntry fingerprint old.firstSeen with occurrences := old.occurrences }
  | some entry =>
    { entry with
      firstSeen :=
        if old.firstSeen ≠ 0 ∧ (entry.firstSeen = 0 ∨ old.firstSeen < entry.firstSeen) then
          old.firstSeen
        else entry.firstSeen
      occurrences := entry.occurrences + old.occurrences }

/-- One entry in the loop that resolves and merges entries of other fingerprints. -/
def absorb (fingerprint : Text) (startedAt now : Time) (o : Observation)
    (e : Text × HistoryEntry) : Observation :=
  match e.2.issue with
  | none => o
  | some old =>
    if e.1 = fingerprint ∨ sameFinding old o.raw = false then o
    else
      { entry := some (continued fingerprint o.entry e.2)
        raw := { o.raw with analyzerNames := appendUniqueField o.raw.analyzerNames old.analyzerNames }
        entries := put o.entries e.1
          { markHistoryResolved e.2 now with lastReportStartedAt := startedAt } }

def observe (iteration : Iteration (Text × HistoryEntry)) (coverage : List (Text × HistoryCoverage))
    (r : ScanReport) (now : Time) (entries : List (Text × HistoryEntry)) (raw : Issue) :
    List (Text × HistoryEntry) :=
  let fingerprint := issueFingerprint raw
  let known := entries.lookup fingerprint
  if known.any (fun entry => r.startedAt < entry.lastReportStartedAt) then entries
  else if stale ⟨entries, coverage⟩ r.startedAt raw then entries
  else
    let o := (iteration.order entries).foldl (absorb fingerprint r.startedAt now)
      ⟨known, raw, entries⟩
    let entry := o.entry.getD (newEntry fingerprint r.finishedAt)
    let raw := match entry.issue with
      | none => o.raw
      | some old =>
        { o.raw with analyzerNames := appendUniqueField o.raw.analyzerNames old.analyzerNames }
    put o.entries fingerprint { entry with
      issue := some (SanitizeIssue raw)
      resolved := false
      resolvedAt := 0
      lastSeen := r.finishedAt
      lastReportStartedAt := r.startedAt
      occurrences := entry.occurrences + 1 }

/-- The entries that a report covers are resolved, to be observed again if it has them. -/
def resolveCovered (c : HistoryCoverage) (startedAt now : Time)
    (entries : List (Text × HistoryEntry)) : List (Text × HistoryEntry) :=
  entries.map fun e => match e.2.issue with
    | none => e
    | some issue =>
      if e.2.lastReportStartedAt < startedAt ∧ coveredBy c (AsIssue issue) = true then
        (e.1, { markHistoryResolved e.2 now with lastReportStartedAt := startedAt })
      else e

/-- The history after a report; none if there is nothing to reconcile. -/
def reconcileReport (iteration : Iteration (Text × HistoryEntry)) (s : HistoryState)
    (report : Option ScanReport) (now : Time) : Option HistoryState :=
  match report with
  | none => none
  | some r =>
    let key := coverageKey r
    if r.startedAt = 0 then none
    else if (s.coverage.lookup key).any (fun previous => r.startedAt ≤ previous.startedAt) then none
    else
      let c := detached ⟨r.scope, r.runs, r.startedAt, r.finishedAt, r.error⟩
      let entries := resolveCovered c r.startedAt now s.entries
      some
        { entries := (DeduplicateIssues r.issues).foldl (observe iteration s.coverage r now) entries
          coverage := put s.coverage key c }

end Reports

section Retention

/-- The size in bytes of the indented JSON of an entry, which may fail to marshal, and of
the JSON of a key. -/
class HistoryEncoding where
  entrySize : HistoryEntry → Option ℕ
  keySize : Text → ℕ

variable [HistoryEncoding]

def resolvedHistoryTTL : Duration := 72 * 60 * minute

def maxInactiveHistoryEntries : ℕ := 10000

def maxInactiveHistoryBytes : ℕ := 128 * 2 ^ 20

/-- A resolved entry that retention may remove. -/
structure Candidate where
  key : Text
  resolvedAt : Time
  size : ℕ

/-- A resolved entry without a time receives the full grace period. -/
def HistoryEntry.dated (e : HistoryEntry) (now : Time) : HistoryEntry :=
  if e.resolved = true ∧ e.resolvedAt = 0 then { e with resolvedAt := now } else e

/-- How retention sees an entry: it stays (`none`), it is past its time, or it counts. -/
def historyMeasure (now : Time) (key : Text) (e : HistoryEntry) :
    Except HistoryError (Option (Option Candidate)) :=
  if e.resolved = false ∨ now < e.resolvedAt then .ok none
  else if resolvedHistoryTTL ≤ now - e.resolvedAt then .ok (some none)
  else match HistoryEncoding.entrySize e with
    | none => .error .measure
    | some size =>
      .ok (some (some ⟨key, e.resolvedAt, size + HistoryEncoding.keySize key + 12⟩))

/-- The keys past their time, and the other candidates. -/
def historyCandidates (now : Time) :
    List (Text × HistoryEntry) → Except HistoryError (List Text × List Candidate)
  | [] => .ok ([], [])
  | (key, e) :: rest => do
    let measured ← historyMeasure now key e
    let (drop, inactive) ← historyCandidates now rest
    match measured with
    | none => pure (drop, inactive)
    | some none => pure (key :: drop, inactive)
    | some (some c) => pure (drop, c :: inactive)

/-- The oldest candidates, until the rest is within the budgets. -/
def historyOverBudget : List Candidate → ℕ → ℕ → List Text
  | [], _, _ => []
  | c :: rest, remaining, bytes =>
    if remaining ≤ maxInactiveHistoryEntries ∧ bytes ≤ maxInactiveHistoryBytes then []
    else c.key :: historyOverBudget rest (remaining - 1) (bytes - c.size)

/-- The entries that stay, how many were removed, and whether anything changed. -/
def pruneHistory (entries : List (Text × HistoryEntry)) (now : Time) :
    Except HistoryError (ℕ × Bool × List (Text × HistoryEntry)) := do
  let dated := entries.map fun e => (e.1, e.2.dated now)
  let (expired, inactive) ← historyCandidates now dated
  let ordered := Sql.ascending (fun c => toLex (c.resolvedAt, c.key)) inactive
  let drop := expired ++ historyOverBudget ordered inactive.length (inactive.map Candidate.size).sum
  let changed := entries.any (fun e => e.2.resolved && e.2.resolvedAt = 0) || !drop.isEmpty
  pure (drop.length, changed, dated.filter fun e => e.1 ∉ drop)

end Retention

/-! The memory store is its state; its calls cannot fail to write. -/

namespace MemoryHistoryStore

def RecordReport [Redactor] [Platform] (s : HistoryState)
    (iteration : Iteration (Text × HistoryEntry)) (report : Option ScanReport) (now : Time) :
    HistoryState :=
  (reconcileReport iteration s report now).getD s

def PruneRetention [HistoryEncoding] (s : HistoryState) (now : Time) :
    HistoryState × Except HistoryError ℕ :=
  match pruneHistory s.entries now with
  | .error e => (s, .error e)
  | .ok (removed, _, entries) => ({ s with entries := entries }, .ok removed)

end MemoryHistoryStore

/-- What is at the path of a file store. -/
structure HistoryDocument where
  schemaVersion : Text
  entries : List (Text × HistoryEntry)
  coverage : List (Text × HistoryCoverage)

/-- The file store: its state, and the document at its path. -/
structure FileHistoryStore where
  cell : Cell HistoryState (Option HistoryDocument)

/-- `writeLocked`. -/
def historyProtocol : Protocol FileStep where
  before := [.createTemporary, .restrictTemporary, .write, .sync, .close, .replace]
  after := [.openDirectory, .syncDirectory]

def cloneHistoryEntriesLimit (entries : List (Text × HistoryEntry)) (limit : ℕ) :
    List HistoryEntry :=
  let sorted := (Sql.ascending Prod.fst entries).map Prod.snd
  if limit = 0 then sorted else sorted.take limit

section Stores

variable [Redactor]

/-- What an entry reads as after it was written as JSON. -/
def HistoryEntry.marshaled (e : HistoryEntry) : HistoryEntry :=
  { e with issue := e.issue.map SanitizedIssue.marshaled }

def historyDocument (s : HistoryState) : HistoryDocument where
  schemaVersion := historySchemaVersion
  entries := s.entries.map fun e => (e.1, e.2.marshaled)
  coverage := s.coverage.map fun c => (jsonText c.1, c.2)

namespace FileHistoryStore

def state (s : FileHistoryStore) : HistoryState := s.cell.memory

def disk (s : FileHistoryStore) : Option HistoryDocument := s.cell.disk

/-- `writeLocked`, and the assignments to the store if it succeeds. -/
def write (s : FileHistoryStore) (next : HistoryState) (fails : FileStep → Bool) :
    FileHistoryStore × Except HistoryError Unit :=
  match s.cell.commit historyProtocol fails next (some (historyDocument next)) with
  | (cell, none) => (⟨cell⟩, .ok ())
  | (cell, some step) => (⟨cell⟩, .error (.file step))

variable [HistoryEncoding]

def pruneRetentionLocked (s : FileHistoryStore) (fails : FileStep → Bool) (now : Time) :
    FileHistoryStore × Except HistoryError ℕ :=
  match pruneHistory s.state.entries now with
  | .error e => (s, .error e)
  | .ok (removed, false, _) => (s, .ok removed)
  | .ok (removed, true, entries) =>
    match s.write { s.state with entries := entries } fails with
    | (s, .error e) => (s, .error e)
    | (s, .ok ()) => (s, .ok removed)

def load : Option HistoryDocument → Except HistoryError HistoryState
  | none => .ok ⟨[], []⟩
  | some doc =>
    if doc.schemaVersion ≠ historySchemaVersion then .error (.unsupportedSchema doc.schemaVersion)
    else .ok ⟨doc.entries, doc.coverage⟩

/-- Opening the directory: what is at the path afterwards, and the store. -/
def NewFileHistoryStore (disk : Option HistoryDocument) (fails : FileStep → Bool) (now : Time) :
    Option HistoryDocument × Except HistoryError FileHistoryStore :=
  match load disk with
  | .error e => (disk, .error e)
  | .ok state =>
    match pruneRetentionLocked ⟨⟨state, disk⟩⟩ fails now with
    | (s, .error e) => (s.disk, .error e)
    | (s, .ok _) => (s.disk, .ok s)

/-- The entries in the order of their keys; a limit that is not positive is none. -/
def ListLimit (s : FileHistoryStore) (limit : ℕ) (fails : FileStep → Bool) (now : Time) :
    FileHistoryStore × Except HistoryError (List HistoryEntry) :=
  match s.pruneRetentionLocked fails now with
  | (s, .error e) => (s, .error e)
  | (s, .ok _) => (s, .ok (cloneHistoryEntriesLimit s.state.entries limit))

/-- The next state is pruned and written. -/
def advance (s : FileHistoryStore) (next : HistoryState) (fails : FileStep → Bool) (now : Time) :
    FileHistoryStore × Except HistoryError Unit :=
  match pruneHistory next.entries now with
  | .error e => (s, .error e)
  | .ok (_, _, entries) => s.write { next with entries := entries } fails

variable [Platform]

def Record (s : FileHistoryStore) (issues : List (Option Issue)) (fails : FileStep → Bool)
    (now : Time) : FileHistoryStore × Except HistoryError Unit :=
  s.advance { s.state with entries := recordHistory s.state.entries issues now } fails now

def RecordReport (s : FileHistoryStore) (iteration : Iteration (Text × HistoryEntry))
    (report : Option ScanReport) (fails : FileStep → Bool) (now : Time) :
    FileHistoryStore × Except HistoryError Unit :=
  match reconcileReport iteration s.state report now with
  | none => (s, .ok ())
  | some next => s.advance next fails now

end FileHistoryStore

end Stores

end Sre.Scanner
