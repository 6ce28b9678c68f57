import AiMeshChat.Oracle.StripSteps

/-!
# A dry run

`dry_run` is to compute what would be changed, and to change nothing. It reaches
`_filter_session_jsonl` alone: the logs are deleted and cut, and what advisors wrote is deleted, as
in a real run. So a dry run is harmless if and only if it does not come to its steps or there is
nothing for these (`dry_run_harmless_iff`).
-/

namespace AiMeshChat.Oracle.Transcript

open Lib Lib.Posix

/-- The report without the flag in which both runs may differ. -/
def Report.plain (r : Report) : Report :=
  { r with jsonl := r.jsonl.map fun jr => { jr with rewritten := false } }

/-- A dry run changes nothing, and reports what a real run reports. -/
structure Harmless (m : Machine) (now : ℤ) (w : World) (a : Args) : Prop where
  disk : (stripOracleSession m now w a true).1.disk = w.disk
  report : (stripOracleSession m now w a true).2.map Report.plain =
    (stripOracleSession m now w a false).2.map Report.plain

/-- Once the steps begin, no log is there to be deleted or cut; and if the transcript can be read,
no advisor wrote anything that can be deleted, and a transcript of which a line is dropped can be
written. -/
def NothingToStrip (m : Machine) (w : World) (a : Args) : Prop :=
  ∀ dir guard, begins m w a = some (dir, guard) → NoLogs m a w.disk dir ∧
    ∀ jr, (filterJsonl m true w.disk (locateSessionJsonl w a.sid dir)).2 = some jr →
      (∀ d ∈ targets w.disk a.sid dir, NoAdvisors m d w.disk) ∧
      (0 < jr.dropped → ∀ p ∈ locateSessionJsonl w a.sid dir, m.writable p = true)

theorem filterJsonl_dry (m : Machine) (t : Disk) (jsonl : Option (List Name)) :
    filterJsonl m true t jsonl = (t, (filterJsonl m true t jsonl).2) := by
  obtain ⟨h, -⟩ | ⟨jr, -, h, -⟩ | ⟨jr, -, -, -, -, -, -, -, h, -⟩ := filterJsonl_cases m t jsonl
  · rw [h]
  · rw [h]
  · rw [h]

section

variable {m : Machine} {now : ℤ} {w : World} {a : Args} {dir : List Name} {report : Report}

theorem dry_disk_iff : (steps m now w a true dir report).1.disk = w.disk ↔
    NoLogs m a w.disk dir ∧ ((filterJsonl m true w.disk (locateSessionJsonl w a.sid dir)).2 ≠ none →
      ∀ d ∈ targets w.disk a.sid dir, NoAdvisors m d w.disk) := by
  have hdry := filterJsonl_dry m (stripLogs m a dir w.disk) (locateSessionJsonl w a.sid dir)
  cases hr : (filterJsonl m true (stripLogs m a dir w.disk) (locateSessionJsonl w a.sid dir)).2 with
  | none =>
    rw [hr] at hdry
    rw [(steps_of_none hdry).1]
    constructor
    · intro hsame
      refine ⟨noLogs_of_le (le_of_eq hsame.symm), fun hread => ?_⟩
      rw [hsame] at hr
      exact absurd hr hread
    · intro h
      exact stripLogs_of_noLogs h.1
  | some jr =>
    rw [hr] at hdry
    rw [(steps_of_some hdry).1]
    constructor
    · intro hsame
      have hlogs : NoLogs m a w.disk dir := by
        refine noLogs_of_le ?_
        have hle := deleteAdvisorFiles_le m a dir (stripLogs m a dir w.disk)
        rwa [hsame] at hle
      rw [stripLogs_of_noLogs hlogs] at hsame
      exact ⟨hlogs, fun _ => noAdvisors_of_le (le_of_eq hsame.symm)⟩
    · intro h
      rw [stripLogs_of_noLogs h.1] at hr ⊢
      exact deleteAdvisorFiles_of_none (h.2 (by simp [hr]))

/-- Where no logs are stripped, the reports differ if and only if a real run cannot write what it
has filtered. -/
theorem dry_report_iff (hlogs : NoLogs m a w.disk dir) :
    (steps m now w a true dir report).2.map Report.plain =
        (steps m now w a false dir report).2.map Report.plain ↔
      ∀ jr, (filterJsonl m true w.disk (locateSessionJsonl w a.sid dir)).2 = some jr →
        0 < jr.dropped → ∀ p ∈ locateSessionJsonl w a.sid dir, m.writable p = true := by
  have hsame := stripLogs_of_noLogs hlogs
  obtain ⟨hdry, hreal⟩ | ⟨jr, hdropped, hdry, hreal⟩ |
      ⟨jr, p, content, kept, hp, -, -, hdropped, hdry, hreal⟩ :=
    filterJsonl_cases m w.disk (locateSessionJsonl w a.sid dir)
  · rw [hdry]
    rw [← hsame] at hdry hreal
    rw [(steps_of_none hdry).2, (steps_of_none hreal).2]
    simp
  · rw [hdry]
    rw [← hsame] at hdry hreal
    rw [(steps_of_some hdry).2, (steps_of_some hreal).2]
    simp [hdropped]
  · rw [hdry, hp]
    rw [← hsame] at hdry hreal
    rw [(steps_of_some hdry).2]
    by_cases hwritable : m.writable p = true
    · rw [if_pos hwritable] at hreal
      rw [(steps_of_some hreal).2, deleteAdvisorFiles_write]
      refine iff_of_true rfl ?_
      intro jr' _ _ p' hp'
      rwa [← Option.some.inj hp']
    · rw [if_neg hwritable] at hreal
      rw [(steps_of_none hreal).2]
      simp [hdropped.ne', hwritable]

end

/-- A dry run is harmless if and only if there is nothing to strip but lines of the transcript. -/
theorem dry_run_harmless_iff (m : Machine) (now : ℤ) (w : World) (a : Args) :
    Harmless m now w a ↔ NothingToStrip m w a := by
  cases hbegins : begins m w a with
  | none =>
    obtain ⟨r, -, hstrip⟩ := strip_of_begins_none hbegins
    refine iff_of_true ⟨by rw [hstrip], by rw [hstrip, hstrip]⟩ ?_
    intro dir guard h
    rw [hbegins] at h
    cases h
  | some pair =>
    obtain ⟨dir, guard⟩ := pair
    constructor
    · intro h dir' guard' hbegins'
      obtain ⟨rfl, rfl⟩ := Prod.mk.inj (Option.some.inj (hbegins.symm.trans hbegins'))
      have hdisk := h.disk
      have hreport := h.report
      rw [strip_of_begins hbegins] at hdisk hreport
      rw [strip_of_begins hbegins] at hreport
      obtain ⟨hlogs, hadvisors⟩ := dry_disk_iff.mp hdisk
      refine ⟨hlogs, fun jr hjr => ⟨hadvisors (by simp [hjr]), ?_⟩⟩
      exact (dry_report_iff hlogs).mp hreport jr hjr
    · intro h
      obtain ⟨hlogs, hrest⟩ := h dir guard hbegins
      constructor
      · rw [strip_of_begins hbegins, dry_disk_iff]
        refine ⟨hlogs, fun hread => ?_⟩
        obtain ⟨jr, hjr⟩ := Option.ne_none_iff_exists'.mp hread
        exact (hrest jr hjr).1
      · rw [strip_of_begins hbegins, strip_of_begins hbegins, dry_report_iff hlogs]
        exact fun jr hjr => (hrest jr hjr).2

/-- A transcript without lines, and a full log. -/
def oneLog : World where
  disk := ⟨[⟨[], none⟩, ⟨["a_s.jsonl".toList], some []⟩,
    ⟨["1.bash-original.log".toList], some [66]⟩], by decide⟩
  mtime _ := 0

/-- The dry run of a session that has ended deletes its log. -/
theorem dry_run_deletes :
    let log := ["1.bash-original.log".toList]
    let args : Args := { sid := ['s'], explicit := true }
    oneLog.disk.content log = some [66] ∧
      (stripOracleSession (.permissive 1) 0 oneLog args true).1.disk.content log = none := by decide

end AiMeshChat.Oracle.Transcript
