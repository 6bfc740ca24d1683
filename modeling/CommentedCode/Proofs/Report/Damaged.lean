import CommentedCode.Proofs.Report.LineBreaks
import CommentedCode.Proofs.Text.Damaged
import CommentedCode.Proofs.Text.Unified
/-!
# Files with damaged text

A file is checked whatever its bytes are.  Bytes that are no character are lost, but none of the
characters around them, and a line break whose two characters they kept apart is one again.
-/
namespace CommentedCode

/-- Any bytes are read as a source without carriage returns, and if comments are whole characters
the report on a file tells its violations.  What is read around damage, or around no bytes at all,
are the two texts side by side. -/
theorem source_of_damaged :
    (∀ bs, '\r' ∉ Source.ofBytes bs ∧
      ∀ s : Settings, Options.inRange s.threshold = true →
        ∀ parser : Parser, (∀ c ∈ parser.captures (Source.ofBytes bs), c.Cuts (Source.ofBytes bs)) →
          ∀ (fs : FileSystem) (p root : Path), fs.read p = .ok bs →
            ∃ vs, Check.source parser s (Source.ofBytes bs) = .ok vs ∧
              (Check.file parser fs s p root).outcome =
                .ok ⟨Check.shownPath p root, vs, none⟩) ∧
    ∀ (before behind : Text) (junk : Utf8.Bytes), Utf8.Damage junk →
      Source.ofBytes (Utf8.encode before ++ (junk ++ Utf8.encode behind)) =
        Text.unifyBreaks (before ++ behind) := by
  constructor
  · intro bs
    refine ⟨Text.not_mem_unifyBreaks _, ?_⟩
    intro s hs parser hcuts fs p root hread
    obtain ⟨vs, hvs⟩ := Check.exists_source hs hcuts
    refine ⟨vs, hvs, ?_⟩
    rw [Check.outcome_file_of_read hread, hvs]
    rfl
  · intro before behind junk hjunk
    rw [Source.ofBytes, Utf8.decodeLossy_damage hjunk]

/-- The first two bytes of a euro sign between a carriage return and a line feed. -/
theorem source_of_damaged_break :
    let junk : Utf8.Bytes := [0xE2, 0x82]
    let bs := Utf8.encode ['}', '\r'] ++ (junk ++ Utf8.encode ['\n', '}'])
    let name := "A.java".toList
    let fs : FileSystem := ⟨.file name bs .empty, []⟩
    Utf8.Damage junk ∧ Source.ofBytes bs = ['}', '\n', '}'] ∧
      Options.inRange Settings.default.threshold = true ∧
      (∀ c ∈ Parser.lexical.captures (Source.ofBytes bs), c.Cuts (Source.ofBytes bs)) ∧
      fs.read ⟨[], [name]⟩ = .ok bs ∧
      ∀ root, ∃ vs, (Check.file .lexical fs .default ⟨[], [name]⟩ root).outcome =
        .ok ⟨Check.shownPath ⟨[], [name]⟩ root, vs, none⟩ := by
  intro junk bs name fs
  have hjunk : Utf8.Damage junk := .breaksOff ⟨by decide, '€', [0xAC], by decide, by decide⟩
  have hrange : Options.inRange Settings.default.threshold = true := by decide
  have hcuts := Parser.keepsCharacters_lexical (Source.ofBytes bs)
  have hread : fs.read ⟨[], [name]⟩ = .ok bs :=
    FileSystem.read_of_find? rfl (by decide) (by decide)
  obtain ⟨hfile, hsource⟩ := source_of_damaged
  refine ⟨hjunk, hsource _ _ junk hjunk, hrange, hcuts, hread, ?_⟩
  intro root
  obtain ⟨vs, -, hreport⟩ :=
    (hfile bs).2 .default hrange .lexical hcuts fs ⟨[], [name]⟩ root hread
  exact ⟨vs, hreport⟩

end CommentedCode
