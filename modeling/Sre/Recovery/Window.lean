/- GID: Sre/Recovery/Window
   digest: Where the scan of a health window stops, and what the limited lookback changes. -/

import Sre.Recovery

set_option autoImplicit false

namespace Sre.Recovery

open Foundation.Outcome Foundation.Sql Identity Incident Storage List

section Scan

variable (p : RecoveryProfile) (now : Time)

/-- The time that the gap to the next sample counts from. -/
def previousAt (passed : List HealthSample) : Time :=
  (passed.getLast?.map (·.sampledAt)).getD now

/-- After the samples `passed`, the sample `s` does not continue the window. -/
def Breaks (passed : List HealthSample) (s : HealthSample) : Prop :=
  (previousAt now passed < s.sampledAt ∨
    p.maximumGapSeconds * second < previousAt now passed - s.sampledAt) ∨
  s.coverage ≠ .complete ∨ sameSource s (passed.headD s) = false ∨
  (s.healthy = false ∨ s.readyReplicas < p.minimumReadyReplicas)

/-- With the sample `s` the window is long enough and has enough samples. -/
def Completes (passed : List HealthSample) (s : HealthSample) : Prop :=
  spans p (passed.headD s) passed.length s = true

def Settles (passed : List HealthSample) (s : HealthSample) : Prop :=
  Breaks p now passed s ∨ Completes p passed s

def Undecided (samples : List HealthSample) : Prop :=
  ∀ passed s, passed ++ [s] <+: samples → ¬ Settles p now passed s

/-- `s` is the first sample, newest first, that settles the assessment. -/
structure Decisive (samples passed : List HealthSample) (s : HealthSample) : Prop where
  front : passed ++ [s] <+: samples
  settles : Settles p now passed s
  undecided : Undecided p now passed

/-- The verdict at the sample that settles it. -/
def outcome (passed : List HealthSample) (s : HealthSample) : RecoveryStatus × RecoveryReason :=
  if previousAt now passed < s.sampledAt ∨
      p.maximumGapSeconds * second < previousAt now passed - s.sampledAt then
    (.unknown, if passed = [] then .staleObservations else .observationGap)
  else if s.coverage ≠ .complete then (.unknown, .incompleteCoverage)
  else if sameSource s (passed.headD s) = false then (.unknown, .sourceChanged)
  else if s.healthy = false ∨ s.readyReplicas < p.minimumReadyReplicas then
    (.notRecovered, .healthRequirementFailed)
  else (.recovered, .sustainedObservedHealth)

variable {p now} {passed samples rest : List HealthSample} {head s : HealthSample}

@[simp] theorem previousAt_nil : previousAt now [] = now := rfl

@[simp] theorem previousAt_concat : previousAt now (passed ++ [s]) = s.sampledAt := by
  simp [previousAt]

theorem Decisive.mono {longer : List HealthSample} (decisive : Decisive p now samples passed s)
    (front : samples <+: longer) : Decisive p now longer passed s :=
  ⟨decisive.front.trans front, decisive.settles, decisive.undecided⟩

theorem decisive_or_undecided (samples : List HealthSample) :
    (∃ passed s, Decisive p now samples passed s) ∨ Undecided p now samples := by
  induction samples using List.reverseRecOn with
  | nil =>
    refine .inr fun passed s front => ?_
    simp at front
  | append_singleton samples last ih =>
    rcases ih with ⟨passed, s, decisive⟩ | undecided
    · exact .inl ⟨passed, s, decisive.mono (prefix_append _ _)⟩
    · by_cases settles : Settles p now samples last
      · exact .inl ⟨samples, last, prefix_rfl, settles, undecided⟩
      · refine .inr fun passed s front => ?_
        rcases prefix_concat_iff.mp front with same | front
        · simp_all
        · exact undecided passed s front

theorem Undecided.of_prefix (undecided : Undecided p now samples) (front : passed <+: samples) :
    Undecided p now passed :=
  fun before r within => undecided before r (within.trans front)

theorem Decisive.not_undecided (decisive : Decisive p now samples passed s) :
    ¬ Undecided p now samples :=
  fun undecided => undecided passed s decisive.front decisive.settles

private theorem windowFrom_pass (first : passed.headD s = head) (open_ : ¬ Settles p now passed s) :
    windowFrom p head passed.length (previousAt now passed) (s :: rest) =
      windowFrom p head (passed ++ [s]).length (previousAt now (passed ++ [s])) rest := by
  simp only [Settles, Breaks, Completes, first, not_or] at open_
  obtain ⟨⟨gap, coverage, source, health⟩, window⟩ := open_
  rw [windowFrom, if_neg (not_or.mpr gap), if_neg coverage, if_neg source,
    if_neg (not_or.mpr health), if_neg window, previousAt_concat, length_append,
    length_singleton]

private theorem windowFrom_stop (first : passed.headD s = head) (settles : Settles p now passed s)
    (later : passed = [] → ¬ (previousAt now passed < s.sampledAt ∨
      p.maximumGapSeconds * second < previousAt now passed - s.sampledAt)) :
    windowFrom p head passed.length (previousAt now passed) (s :: rest) =
      outcome p now passed s := by
  simp only [Settles, Breaks, Completes, first] at settles
  rw [windowFrom, outcome, first]
  split
  · rename_i gap
    rw [if_neg fun blank => later blank gap]
  · rename_i gap
    split
    · rfl
    · rename_i coverage
      split
      · rfl
      · rename_i source
        split
        · rfl
        · rename_i health
          have window : spans p head passed.length s = true := by tauto
          rw [if_pos window]

private theorem windowFrom_of_decisive (passed between : List HealthSample)
    (first : (passed ++ between).headD s = head)
    (settles : Settles p now (passed ++ between) s)
    (undecided : Undecided p now (passed ++ between))
    (later : passed ++ between = [] → ¬ (now < s.sampledAt ∨
      p.maximumGapSeconds * second < now - s.sampledAt)) :
    windowFrom p head passed.length (previousAt now passed) (between ++ s :: rest) =
      outcome p now (passed ++ between) s := by
  induction between generalizing passed with
  | nil =>
    rw [append_nil] at first settles ⊢
    rw [nil_append]
    refine windowFrom_stop first settles fun blank => ?_
    subst blank
    exact later rfl
  | cons m between ih =>
    have within : passed ++ [m] <+: passed ++ m :: between := ⟨between, by simp⟩
    have leads : passed.headD m = head := by
      rw [← first]
      cases passed <;> rfl
    rw [cons_append, windowFrom_pass leads (undecided passed m within)]
    rw [append_cons passed m between] at first settles undecided later ⊢
    exact ih (passed ++ [m]) first settles undecided later

private theorem windowFrom_of_undecided (passed : List HealthSample)
    (first : ∀ r ∈ (passed ++ rest).head?, r = head)
    (undecided : Undecided p now (passed ++ rest)) :
    windowFrom p head passed.length (previousAt now passed) rest =
      (.unknown, .windowIncomplete) := by
  induction rest generalizing passed with
  | nil => rfl
  | cons m rest ih =>
    have within : passed ++ [m] <+: passed ++ m :: rest := ⟨rest, by simp⟩
    have leads : passed.headD m = head := by
      cases passed with
      | nil => exact first m rfl
      | cons a passed => exact first a rfl
    rw [windowFrom_pass leads (undecided passed m within)]
    rw [append_cons passed m rest] at first undecided
    exact ih (passed ++ [m]) first undecided

theorem AssessWindow_of_decisive (decisive : Decisive p now samples passed s) :
    AssessWindow p samples now = outcome p now passed s := by
  obtain ⟨⟨rest, rfl⟩, settles, undecided⟩ := decisive
  rw [append_assoc, singleton_append]
  cases passed with
  | nil =>
    simp only [nil_append, AssessWindow]
    split
    · rename_i gap
      simp [outcome, gap]
    · rename_i gap
      exact windowFrom_of_decisive [] [] rfl settles undecided
        fun _ => gap
  | cons head passed =>
    have open_ := undecided [] head ⟨passed, rfl⟩
    simp only [Settles, Breaks, not_or, previousAt_nil] at open_
    rw [cons_append, AssessWindow, if_neg (not_or.mpr open_.1.1)]
    exact windowFrom_of_decisive [] (head :: passed) rfl settles undecided
      (by simp)

theorem AssessWindow_of_undecided (undecided : Undecided p now samples) (some_ : samples ≠ []) :
    AssessWindow p samples now = (.unknown, .windowIncomplete) := by
  cases samples with
  | nil => exact absurd rfl some_
  | cons head rest =>
    have open_ := undecided [] head ⟨rest, rfl⟩
    simp only [Settles, Breaks, not_or, previousAt_nil] at open_
    rw [AssessWindow, if_neg (not_or.mpr open_.1.1)]
    exact windowFrom_of_undecided [] (by simp) undecided

theorem outcome_reason :
    (outcome p now passed s).2 ≠ .windowIncomplete ∧
      (outcome p now passed s).2 ≠ .missingObservations := by
  unfold outcome
  split
  · cases passed <;> simp
  · split
    · simp
    · split
      · simp
      · split <;> simp

end Scan

section Lookback

variable {p : RecoveryProfile} {now since : Time} {t : Tx} {incidentID handle : Text}
  {passed samples fetched : List HealthSample} {s : HealthSample}

/-- How far back the samples of an assessment are read. -/
def lookback (p : RecoveryProfile) : Duration :=
  (p.windowSeconds + p.maximumGapSeconds * 2) * second

def history (t : Tx) (incidentID handle : Text) : List HealthSample :=
  descending (fun s => timestamptz s.sampledAt) (t.tables.healthSamples.filter fun s =>
    s.incidentID = incidentID ∧ s.handle = handle)

private theorem undecided_of_missed (front : fetched <+: samples)
    (decisive : Decisive p now samples passed s) (missed : ¬ passed ++ [s] <+: fetched) :
    Undecided p now fetched := by
  rcases prefix_or_prefix_of_prefix front decisive.front with within | within
  · rcases prefix_concat_iff.mp within with rfl | within
    · exact absurd prefix_rfl missed
    · exact decisive.undecided.of_prefix within
  · exact absurd within missed

private theorem AssessWindow_of_missed (undecided : Undecided p now fetched) :
    AssessWindow p fetched now = (.unknown, .windowIncomplete) ∨
      AssessWindow p fetched now = (.unknown, .missingObservations) := by
  cases fetched with
  | nil => exact .inr rfl
  | cons head rest => exact .inl (AssessWindow_of_undecided undecided (by simp))

private theorem AssessWindow_prefix_iff (front : fetched <+: samples)
    (blank : fetched = [] → samples ≠ [] → ∃ s, Decisive p now samples [] s) :
    AssessWindow p fetched now = AssessWindow p samples now ↔
      ∀ passed s, Decisive p now samples passed s → passed ++ [s] <+: fetched := by
  constructor
  · intro same passed s decisive
    by_contra missed
    rw [AssessWindow_of_decisive decisive] at same
    obtain ⟨complete, present⟩ := @outcome_reason p now passed s
    rcases AssessWindow_of_missed (undecided_of_missed front decisive missed) with read | read
    · exact complete (by rw [← same, read])
    · exact present (by rw [← same, read])
  · intro within
    rcases @decisive_or_undecided p now samples with ⟨passed, s, decisive⟩ | undecided
    · have kept : Decisive p now fetched passed s :=
        ⟨within passed s decisive, decisive.settles, decisive.undecided⟩
      rw [AssessWindow_of_decisive decisive, AssessWindow_of_decisive kept]
    · by_cases none_ : fetched = []
      · have empty : samples = [] := by
          by_contra some_
          obtain ⟨s, decisive⟩ := blank none_ some_
          exact decisive.not_undecided undecided
        rw [none_, empty]
      · have some_ : samples ≠ [] := fun empty => none_ (prefix_nil.mp (empty ▸ front))
        rw [AssessWindow_of_undecided undecided some_,
          AssessWindow_of_undecided (undecided.of_prefix front) none_]

theorem HealthSamples_ok (fetch : t.HealthSamples incidentID handle since = .ok fetched) :
    fetched = ((history t incidentID handle).takeWhile fun s =>
      decide (timestamptz since ≤ timestamptz s.sampledAt)).take 512 := by
  simp only [Tx.HealthSamples, bind_ok, require_ok, pure_ok] at fetch
  obtain ⟨-, -, rfl⟩ := fetch
  rw [history, ← descending_since, filter_filter]
  congr 3
  funext s
  simp only [Bool.decide_and, ← and_assoc]
  exact Bool.and_comm _ _

theorem HealthSamples_front (fetch : t.HealthSamples incidentID handle since = .ok fetched) :
    fetched <+: history t incidentID handle := by
  rw [HealthSamples_ok fetch]
  apply IsPrefix.trans
  · exact take_prefix _ _
  · exact takeWhile_prefix _

private theorem recent_iff (front : passed ++ [s] <+: history t incidentID handle) :
    (passed ++ [s] <+: (history t incidentID handle).takeWhile fun s =>
      decide (timestamptz since ≤ timestamptz s.sampledAt)) ↔
        timestamptz since ≤ timestamptz s.sampledAt := by
  obtain ⟨rest, split⟩ := front
  have order := @pairwise_descending _ _ _ (fun s : HealthSample => timestamptz s.sampledAt)
    (t.tables.healthSamples.filter fun s => s.incidentID = incidentID ∧ s.handle = handle)
  rw [← history, ← split, append_assoc, pairwise_append] at order
  rw [← split]
  constructor
  · intro within
    have member := within.subset (mem_append_right _ (mem_singleton_self s))
    simpa using mem_takeWhile_imp member
  · intro recent
    have all : ∀ r ∈ passed ++ [s],
        decide (timestamptz since ≤ timestamptz r.sampledAt) = true := by
      intro r member
      rw [decide_eq_true_eq]
      rcases mem_append.mp member with earlier | last
      · exact recent.trans (order.2.2 r earlier s (by simp))
      · rwa [mem_singleton.mp last]
    rw [takeWhile_append_of_pos all]
    exact prefix_append _ _

theorem fetched_iff (fetch : t.HealthSamples incidentID handle since = .ok fetched)
    (front : passed ++ [s] <+: history t incidentID handle) :
    passed ++ [s] <+: fetched ↔
      passed.length < 512 ∧ timestamptz since ≤ timestamptz s.sampledAt := by
  rw [HealthSamples_ok fetch, prefix_take_iff, recent_iff front, and_comm,
    length_append, length_singleton, Nat.succ_le_iff]

section

variable (valid : ValidateProfile p = true)
include valid

private theorem gap_lt_lookback : p.maximumGapSeconds * second < lookback p := by
  simp only [ValidateProfile] at valid
  grind [lookback, second]

private theorem decisive_of_blank
    (fetch : t.HealthSamples incidentID handle (now - lookback p) = .ok fetched)
    (blank : fetched = []) (some_ : history t incidentID handle ≠ []) :
    ∃ s, Decisive p now (history t incidentID handle) [] s := by
  obtain ⟨head, rest, split⟩ := exists_cons_of_ne_nil some_
  have front : [] ++ [head] <+: history t incidentID handle := ⟨rest, by simp [split]⟩
  have missed : ¬ [] ++ [head] <+: fetched := by simp [blank]
  rw [fetched_iff fetch front] at missed
  have old : head.sampledAt < now - lookback p := by
    by_contra recent
    exact missed ⟨by simp, timestamptz_mono (not_lt.mp recent)⟩
  have stale : p.maximumGapSeconds * second < now - head.sampledAt := by
    have := gap_lt_lookback valid
    lia
  refine ⟨head, front, .inl (.inl (.inr stale)), fun before r within => ?_⟩
  simp at within

/-- The samples that an assessment fetches give the verdict of the whole history exactly if the
first sample that settles it is neither older than the lookback nor beyond the row limit. -/
theorem lookback_verdict_iff
    (fetch : t.HealthSamples incidentID handle (now - lookback p) = .ok fetched) :
    AssessWindow p fetched now = AssessWindow p (history t incidentID handle) now ↔
      ∀ passed s, Decisive p now (history t incidentID handle) passed s →
        passed.length < 512 ∧ timestamptz (now - lookback p) ≤ timestamptz s.sampledAt := by
  rw [AssessWindow_prefix_iff (HealthSamples_front fetch) (decisive_of_blank valid fetch)]
  constructor
  · intro within passed s decisive
    exact (fetched_iff fetch decisive.front).mp (within passed s decisive)
  · intro recent passed s decisive
    exact (fetched_iff fetch decisive.front).mpr (recent passed s decisive)

end

/-- A profile that wants three samples at most two minutes apart, over one minute. -/
abbrev sparse : RecoveryProfile :=
  ⟨"application-health", 1, ["0123456789abcdef0123456789abcdef"], 60, 120, 3, 1⟩

abbrev noon : Time := 1000000 * second

abbrev sampled (ages : List ℤ) : Tx :=
  { scope := ⟨"org", "cluster", "app"⟩, authorityEpoch := "epoch-1", now := noon,
    tables := { Tables.empty with healthSamples := ages.map fun age =>
      ⟨"incident-1", ⟨"item-1", 1⟩, "0123456789abcdef0123456789abcdef", "uid-1", "agent-1", 1,
        "epoch-1", .complete, true, 1, noon - age * second⟩ } }

/-- The third sample is within the gap of the second one and older than what is fetched. -/
theorem lookback_loses_recovery : ValidateProfile sparse = true ∧
    ((sampled [120, 240, 360]).tables.healthSamples.map (·.sampledAt)).Nodup ∧
    ∃ fetched, (sampled [120, 240, 360]).HealthSamples "incident-1"
        "0123456789abcdef0123456789abcdef" (noon - lookback sparse) = .ok fetched ∧
      AssessWindow sparse fetched noon = (.unknown, .windowIncomplete) ∧
      AssessWindow sparse (history (sampled [120, 240, 360]) "incident-1"
        "0123456789abcdef0123456789abcdef") noon = (.recovered, .sustainedObservedHealth) :=
  ⟨by decide +kernel, by decide +kernel, _, rfl, by decide +kernel, by decide +kernel⟩

theorem lookback_verdict_dense :
    ∃ fetched, (sampled [10, 50, 90]).HealthSamples "incident-1"
        "0123456789abcdef0123456789abcdef" (noon - lookback sparse) = .ok fetched ∧
      ∀ passed s, Decisive sparse noon (history (sampled [10, 50, 90]) "incident-1"
          "0123456789abcdef0123456789abcdef") passed s →
        passed.length < 512 ∧ timestamptz (noon - lookback sparse) ≤ timestamptz s.sampledAt :=
  ⟨_, rfl, (lookback_verdict_iff (by decide +kernel) rfl).mp (by decide +kernel)⟩

end Lookback

end Sre.Recovery
