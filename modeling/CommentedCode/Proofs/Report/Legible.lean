import CommentedCode.Proofs.Report.Rendering
import CommentedCode.Proofs.Report.Run
import CommentedCode.Proofs.Text.Json
/-!
# Reports that are read back

The probabilities of a report are scores.  So what is printed of a run as JSON is read as the data
of its report.
-/
namespace CommentedCode

open scoped Naturals
open Double (IsProbability)

/-! ### Scores -/

namespace Check

variable {parser : Parser} {fs : FileSystem} {s : Settings}

private theorem isProbability_of_violation? {c : Comment} {v : Violation}
    (h : violation? s (outcome s c) = .ok (some v)) : IsProbability v.probability := by
  rw [violation?] at h
  split at h
  · rename_i hverdict
    split at h
    · cases h
      obtain ⟨line, rfl, -⟩ := Scan.exists_line_of_code hverdict
      exact isProbability_scoreLine line
    · cases h
  · cases h

private theorem isProbability_of_source {text : Text} {vs : List Violation}
    (h : source parser s text = .ok vs) : ∀ v ∈ vs, IsProbability v.probability := by
  intro v hv
  rw [source_eq] at h
  cases hcs : Comment.extract parser.captures text with
  | error e =>
    rw [hcs] at h
    cases h
  | ok cs =>
    rw [hcs] at h
    obtain ⟨c, -, hviolation⟩ := exists_violation?_of_mem h hv
    exact isProbability_of_violation? hviolation

private theorem isProbability_of_file {p root : Path} {told : FileReport}
    (h : (file parser fs s p root).outcome = .ok told) :
    ∀ v ∈ told.violations, IsProbability v.probability := by
  cases hread : fs.read p with
  | error fault =>
    simp only [file, hread] at h
    cases h
    exact List.forall_mem_nil _
  | ok content =>
    rw [outcome_file_of_read hread] at h
    cases hvs : source parser s (Source.ofBytes content) with
    | error e =>
      rw [hvs] at h
      cases h
    | ok vs =>
      rw [hvs] at h
      cases h
      exact isProbability_of_source hvs

theorem told_of_runBy {schedule : List Nat} {root : Path} {paths : List Path} {r : Report}
    (h : (runBy parser schedule fs s root paths).outcome = .ok r) : r.settings = s ∧
      ∀ told ∈ r.files, ∀ v ∈ told.violations, IsProbability v.probability := by
  cases hroot : fs.resolve? root with
  | none =>
    simp only [runBy, hroot] at h
    cases h
  | some start =>
    rw [outcome_runBy parser schedule hroot, bind_ok] at h
    obtain ⟨found, -, hreport⟩ := h
    cases hfiles : (files parser fs s (Path.absolute start) found).outcome with
    | error e =>
      rw [hfiles] at hreport
      cases hreport
    | ok all =>
      rw [hfiles] at hreport
      cases hreport
      refine ⟨rfl, fun told htold => ?_⟩
      rw [outcome_files] at hfiles
      obtain ⟨parts, -, hfile⟩ := exists_of_mem_mapM_ok hfiles htold
      exact isProbability_of_file hfile

end Check

/-! ### Legible JSON -/

open Json (Legible)

private theorem Json.legible_texts (items : List Text) : Legible (texts items) := by
  apply Legible.array
  intro item hitem
  obtain ⟨cs, -, rfl⟩ := List.mem_map.mp hitem
  exact .text cs

private theorem Settings.legible_json {s : Settings} (hthreshold : IsProbability s.threshold)
    (hjobs : s.jobs.natAbs < 10 ^ digitLimit) : Legible s.json := by
  apply Legible.object
  simp only [List.forall_mem_cons, List.not_mem_nil, false_implies, implies_true, and_true]
  exact ⟨.float hthreshold, .text _, .bool _, .text _, Json.legible_texts _, Json.legible_texts _,
    .bool _, .int hjobs⟩

private theorem FileReport.legible_json {told : FileReport}
    (hprobable : ∀ v ∈ told.violations, IsProbability v.probability)
    (hlines : ∀ n ∈ told.violations.flatMap fun v => [v.startLine, v.endLine],
      n.natAbs < 10 ^ digitLimit) : Legible told.json := by
  have hviolation (v : Violation) (hv : v ∈ told.violations) : Legible v.json := by
    have hnumber (n : Int) (hn : n ∈ [v.startLine, v.endLine]) : n.natAbs < 10 ^ digitLimit :=
      hlines n (List.mem_flatMap.mpr ⟨v, hv, hn⟩)
    apply Legible.object
    simp only [List.forall_mem_cons, List.not_mem_nil, false_implies, implies_true, and_true]
    exact ⟨.int (hnumber _ (by simp)), .int (hnumber _ (by simp)), .float (hprobable v hv),
      .text _⟩
  have herror : Legible (.option .text told.error) := by
    cases told.error with
    | none => exact .null
    | some reason => exact .text reason
  apply Legible.object
  simp only [List.forall_mem_cons, List.not_mem_nil, false_implies, implies_true, and_true]
  exact ⟨.text _, .array (List.forall_mem_map.mpr hviolation), herror⟩

/-- What is written of a report is read as its data, if it tells probabilities. -/
theorem Report.read?_written {report : Report}
    (hthreshold : IsProbability report.settings.threshold)
    (hprobable : ∀ told ∈ report.files, ∀ v ∈ told.violations, IsProbability v.probability)
    {text : Text} (h : report.json.written? = some text) :
    Json.read? text = some report.json := by
  obtain ⟨hwritable, hrender⟩ := Option.ite_none_right_eq_some.mp h
  obtain rfl := Option.some.inj hrender
  have hnumbers := (isWritable_json_iff report).mp hwritable
  rw [numbers, List.forall_mem_cons, List.forall_mem_append, List.forall_mem_flatMap] at hnumbers
  obtain ⟨hjobs, hlines, htotals⟩ := hnumbers
  apply Json.read?_render
  apply Legible.object
  simp only [List.forall_mem_cons, List.not_mem_nil, false_implies, implies_true, and_true]
    at htotals ⊢
  obtain ⟨hchecked, hviolations, hskipped⟩ := htotals
  have hfiles (told : FileReport) (htold : told ∈ report.files) : Legible told.json :=
    FileReport.legible_json (hprobable told htold) (hlines told htold)
  exact ⟨.text _, Settings.legible_json hthreshold hjobs, .array (List.forall_mem_map.mpr hfiles),
    .int hchecked, .int hviolations, .int hskipped⟩

end CommentedCode
