import CommentedCode.Proofs.Classifier.Leniency
import CommentedCode.Proofs.Double.Order
import CommentedCode.Proofs.Report.Violations
import Mathlib.Data.List.Basic
/-!
# Reports under lenient settings

A check reports the lines of the comments that are code, in order.  Lenient settings report
whatever strict ones report.
-/
namespace CommentedCode

def Violation.lines (v : Violation) : Int × Int :=
  (v.startLine, v.endLine)

namespace Check

def isCode (s : Settings) (c : Comment) : Bool :=
  (outcome s c).scan.verdict.isCode

/-- The lines of the comments that are code. -/
def codeLines (s : Settings) (cs : List Comment) : List (Int × Int) :=
  (cs.filter (isCode s)).map fun c => (c.startLine, c.endLine)

private theorem violation_lines (s : Settings) (c : Comment) {v : Option Violation}
    (h : violation? s (outcome s c) = .ok v) :
    v.toList.map Violation.lines = codeLines s [c] := by
  unfold violation? at h
  split at h
  · rename_i i p hv
    split at h
    · obtain rfl := Except.ok.inj h
      have hcode : isCode s c = true := by rw [isCode, hv]; rfl
      rw [codeLines, List.filter_cons_of_pos hcode]
      rfl
    · simp at h
  · rename_i hv
    obtain rfl := Except.ok.inj h
    have hcode : isCode s c = false := by
      cases hc : (outcome s c).scan.verdict with
      | code i p => exact absurd hc (hv i p)
      | _ => rw [isCode, hc]; rfl
    simp [codeLines, hcode]

/-- Where a check of comments returns, it reports the lines of those that are code. -/
theorem comments_lines (s : Settings) {cs : List Comment} {vs : List Violation}
    (h : comments s cs = .ok vs) : vs.map Violation.lines = codeLines s cs := by
  induction cs generalizing vs with
  | nil =>
    obtain rfl : vs = [] := (Except.ok.inj h).symm
    rfl
  | cons c cs ih =>
    change (do
      let first ← violation? s (outcome s c)
      let rest ← comments s cs
      return first.toList ++ rest) = Except.ok vs at h
    cases hf : violation? s (outcome s c) with
    | error e => rw [hf] at h; cases h
    | ok first =>
      cases hr : comments s cs with
      | error e => rw [hf, hr] at h; cases h
      | ok rest =>
        rw [hf, hr] at h
        obtain rfl : first.toList ++ rest = vs := Except.ok.inj h
        have hhead := violation_lines s c hf
        rw [List.map_append, hhead, ih hr]
        simp [codeLines, ← List.map_append, ← List.filter_append]

private theorem codeLines_lenient {a b : Settings} (h : a.options.Lenient b.options)
    (cs : List Comment) : (codeLines b cs).Sublist (codeLines a cs) := by
  apply List.Sublist.map
  apply List.monotone_filter_right
  intro c hc
  have hindex (s : Settings) : isCode s c = true ↔
      ∃ i, (Scan.text s.options scoreLine c.text).verdict.lineIndex? = some i := by
    change (Scan.text s.options scoreLine c.text).verdict.isCode = true ↔ _
    cases (Scan.text s.options scoreLine c.text).verdict <;>
      simp [Verdict.isCode, Verdict.lineIndex?]
  obtain ⟨i, hi⟩ := (hindex b).mp hc
  obtain ⟨j, -, hj⟩ := Scan.lineIndex_lenient h hi
  exact (hindex a).mpr ⟨j, hj⟩

end Check

/-- Lenient settings find code on the same line or before, and report all that strict settings
report, whatever the comments are. -/
theorem lenient_reports_more (a b : Settings) (h : a.options.Lenient b.options) :
    (∀ (score : Text → Float) (c : Comment) (i : Nat) (p : Float),
      (classify b.options score c).scan.verdict = .code i p →
        ∃ j ≤ i, ∃ q, (classify a.options score c).scan.verdict = .code j q) ∧
    (∀ cs, (Check.codeLines b cs).Sublist (Check.codeLines a cs)) ∧
    (∀ cs va vb, Check.comments a cs = .ok va → Check.comments b cs = .ok vb →
      (vb.map Violation.lines).Sublist (va.map Violation.lines)) ∧
    ∀ parser source va vb, Check.source parser a source = .ok va →
      Check.source parser b source = .ok vb →
        (vb.map Violation.lines).Sublist (va.map Violation.lines) := by
  have hlines (cs : List Comment) (va vb : List Violation) (ha : Check.comments a cs = .ok va)
      (hb : Check.comments b cs = .ok vb) :
      (vb.map Violation.lines).Sublist (va.map Violation.lines) := by
    rw [Check.comments_lines a ha, Check.comments_lines b hb]
    exact Check.codeLines_lenient h cs
  refine ⟨?_, Check.codeLines_lenient h, hlines, ?_⟩
  · intro score c i p hp
    have hi : (Scan.text b.options score c.text).verdict.lineIndex? = some i := by
      change (classify b.options score c).scan.verdict.lineIndex? = some i
      rw [hp]
      rfl
    obtain ⟨j, hji, hj⟩ := Scan.lineIndex_lenient h hi
    obtain ⟨q, hq⟩ := Verdict.eq_code_of_lineIndex hj
    exact ⟨j, hji, q, hq⟩
  · intro parser source va vb ha hb
    rw [Check.source_eq] at ha hb
    obtain ⟨cs, hcs, ha⟩ := bind_ok.mp ha
    obtain ⟨ds, hds, hb⟩ := bind_ok.mp hb
    obtain rfl := Except.ok.inj (hcs.symm.trans hds)
    exact hlines cs va vb ha hb

/-- A lower threshold, a longer skip sequence and no exemption report all that the defaults
report. -/
theorem lenient_reports_more_half :
    let lenient : Settings := { Settings.default with
      threshold := 0.5, skipSequence := "cmt!".toList, skipJavadocs := false }
    lenient.options.Lenient Settings.default.options ∧
      ∀ source va vb, Check.source .lexical lenient source = .ok va →
        Check.source .lexical Settings.default source = .ok vb →
          (vb.map Violation.lines).Sublist (va.map Violation.lines) := by
  intro lenient
  have h : lenient.options.Lenient Settings.default.options :=
    ⟨by decide, by decide, ⟨['!'], rfl⟩⟩
  exact ⟨h, (lenient_reports_more lenient Settings.default h).2.2.2 .lexical⟩

end CommentedCode
