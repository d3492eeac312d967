/- GID: Sre/Scanner/Durable
   digest: When the document of the history store reads as the state in memory. -/

import Sre.Scanner.Reconcile

set_option autoImplicit false

namespace Sre.Scanner

open Foundation Foundation.Assoc Foundation.Outcome Foundation.Replace Sanitizer List
open Redactor (SanitizeStructuredText)
open FileHistoryStore

section Names

variable {f : Text → Text} {names acc : List Text}

private def collect (f : Text → Text) (acc names : List Text) : List Text :=
  names.foldl (fun acc name => appendUniqueField acc [f name]) acc

end Names

variable [Redactor]

/-- The issue names no group, or that of its category. -/
def Issue.Grouped (i : Issue) : Prop := i.group = .unset ∨ i.group = ResolveFindingGroup i.category

omit [Redactor] in
private theorem Issue.Grouped.resolved {i : Issue} (grouped : i.Grouped) :
    i.resolvedGroup = ResolveFindingGroup i.category := by
  unfold Issue.resolvedGroup
  split
  · rfl
  · rename_i named
    exact grouped.resolve_left named

/-- The texts in the document of an issue. -/
def Issue.texts (i : Issue) : List Text :=
  [i.id, i.namespace_, i.kind, i.name, i.targetUID, i.targetResourceVersion, i.category, i.summary,
    i.details, i.logsSnippet, i.specSnippet, i.docsURL] ++ i.analyzerNames ++ i.events ++
    (match i.severity with
      | .other text => [text]
      | _ => []) ++
    i.parent.elim [] fun p => [p.namespace_, p.kind, p.name, p.uid]

/-- No text of the stored issue was cut inside a character. -/
def Issue.Uncut (i : Issue) : Prop := ∀ t ∈ (SanitizeIssue i).texts, Whole t

section Issues

variable {P : SanitizedIssue → Prop} {entries : List (Text × HistoryEntry)} {now : Time}

def IssuesAre (P : SanitizedIssue → Prop) (entries : List (Text × HistoryEntry)) : Prop :=
  ∀ e ∈ entries, ∀ i, e.2.issue = some i → P i

variable {iteration : Iteration (Text × HistoryEntry)} {coverage : List (Text × HistoryCoverage)}
  {r : ScanReport}

end Issues

section Grouped

end Grouped

section Calls

variable [HistoryEncoding]

inductive HistoryCall where
  | record (issues : List (Option Issue))
  | recordReport (iteration : Iteration (Text × HistoryEntry)) (report : Option ScanReport)
  | list (limit : ℕ)
  | pruneRetention
  | close
  | reopen

/-- What a restart would find. -/
def FileHistoryStore.durable (s : FileHistoryStore) : HistoryState :=
  match s.disk with
  | none => ⟨[], []⟩
  | some doc => ⟨doc.entries, doc.coverage⟩

/-- The store opened again at its path. -/
def FileHistoryStore.reopen (s : FileHistoryStore) (fails : FileStep → Bool) (now : Time) :
    FileHistoryStore × Except HistoryError Unit :=
  match NewFileHistoryStore s.disk fails now with
  | (disk, .error e) => (⟨⟨s.state, disk⟩⟩, .error e)
  | (_, .ok s) => (s, .ok ())

def FileHistoryStore.answer [Platform] (s : FileHistoryStore) (c : HistoryCall)
    (fails : FileStep → Bool) (now : Time) : FileHistoryStore × Option HistoryError :=
  match c with
  | .record issues => outcome (s.Record issues fails now)
  | .recordReport iteration report => outcome (s.RecordReport iteration report fails now)
  | .list limit => outcome (s.ListLimit limit fails now)
  | .pruneRetention => outcome (s.pruneRetentionLocked fails now)
  | .close => (s, none)
  | .reopen => outcome (s.reopen fails now)
where
  outcome {α : Type} : FileHistoryStore × Except HistoryError α →
      FileHistoryStore × Option HistoryError
    | (s, .ok _) => (s, none)
    | (s, .error e) => (s, some e)

/-- No issue of the call names another group than that of its category, and no text that it stores
was cut inside a character, the errors in the key of a report included. -/
def HistoryCall.Readable [Platform] : HistoryCall → Prop
  | .record issues => ∀ i, some i ∈ issues → i.Grouped ∧ i.Uncut
  | .recordReport _ report => ∀ r, report = some r →
    (∀ i, some i ∈ r.issues → i.Grouped) ∧ (∀ i ∈ DeduplicateIssues r.issues, i.Uncut) ∧
      Whole (coverageKey r)
  | _ => True

/-- A state that reads back from its document. -/
structure HistoryState.Settled (s : HistoryState) : Prop where
  entries : IssuesAre (fun i => SanitizedIssue.marshaled i = i) s.entries
  coverage : ∀ c ∈ s.coverage, Whole c.1

structure FileHistoryStore.Kept (s : FileHistoryStore) : Prop where
  settled : s.state.Settled
  agrees : s.durable = s.state

/-- How a call ends on a store in order: it has changed nothing, or it has succeeded and
the store is in order. -/
inductive Ends (s : FileHistoryStore) {α : Type} :
    FileHistoryStore × Except HistoryError α → Prop
  | same {result : Except HistoryError α} : Ends s (s, result)
  | done {s' : FileHistoryStore} {value : α} : s'.Kept → Ends s (s', .ok value)

variable {s : FileHistoryStore} {fails : FileStep → Bool} {now : Time}

end Calls

end Sre.Scanner
