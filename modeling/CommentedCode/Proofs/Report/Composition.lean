import CommentedCode.Proofs.Comment.Composition
import CommentedCode.Proofs.Report.Violations
/-!
# Checks of sources put together

What a check finds in a source does not depend on what stands elsewhere in the file: two sources
with a line feed between them have the violations of the one and those of the other, moved down.
-/
namespace CommentedCode

/-- The comments and the violations of two sources with a line feed between them are those of the
first one, and those of the second one as many lines further down as the first one has. -/
theorem check_append (parser : Parser) {source more : Text} (hs : Terminated source)
    (hm : Terminated more) (hsource : Capture.FollowsRule parser.captures source)
    (hmore : Capture.FollowsRule parser.captures more)
    (hwhole : Capture.FollowsRule parser.captures (source ++ '\n' :: more)) :
    let k : Int := List.count '\n' source + 1
    let parse := parser.captures
    ∃ as bs, Comment.extract parse source = .ok as ∧ Comment.extract parse more = .ok bs ∧
      Comment.extract parse (source ++ '\n' :: more) = .ok (as ++ bs.map (·.shift k)) ∧
      ∀ s : Settings,
        (Check.source parser s source = Check.comments s as ∧
          Check.source parser s more = Check.comments s bs ∧
          Check.source parser s (source ++ '\n' :: more) =
            Check.comments s (as ++ bs.map (·.shift k))) ∧
        (∀ va vb, Check.source parser s source = .ok va → Check.source parser s more = .ok vb →
          ∃ ws, Check.source parser s (source ++ '\n' :: more) = .ok (va ++ ws) ∧
            List.Forall₂ (Violation.Shifted s k) vb ws) ∧
        (Options.inRange s.threshold = true →
          ∃ va vb, Check.source parser s source = .ok va ∧
            Check.source parser s more = .ok vb) := by
  intro k parse
  have hclosed := hs.append_line hm
  have hcomments : Comment.ofSource (source ++ '\n' :: more) =
      Comment.ofSource source ++ (Comment.ofSource more).map (·.shift k) :=
    Comment.ofSource_append hs hm
  have hextract {text : Text} (ht : Terminated text) (hrule : Capture.FollowsRule parse text) :
      Comment.extract parse text = .ok (Comment.ofSource text) :=
    Comment.extract_eq_ofSource (hrule _ ht.segmented)
  have has := hextract hs hsource
  have hbs := hextract hm hmore
  have hall := hextract hclosed hwhole
  rw [hcomments] at hall
  refine ⟨Comment.ofSource source, Comment.ofSource more, has, hbs, hall, ?_⟩
  intro s
  have ha := Check.source_of_extract (s := s) has
  have hb := Check.source_of_extract (s := s) hbs
  have hwhole := Check.source_of_extract (s := s) hall
  refine ⟨⟨ha, hb, hwhole⟩, ?_, ?_⟩
  · intro va vb hva hvb
    obtain ⟨ws, hws, hshifted⟩ := Check.comments_shift (k := k) (hb ▸ hvb)
    exact ⟨ws, hwhole.trans (Check.comments_append (ha ▸ hva) hws), hshifted⟩
  · intro hrange
    obtain ⟨va, hva⟩ := Check.exists_comments hrange (Comment.ofSource source)
    obtain ⟨vb, hvb⟩ := Check.exists_comments hrange (Comment.ofSource more)
    exact ⟨va, vb, ha.trans hva, hb.trans hvb⟩

/-- A line comment that ends a source of two lines does not reach the block comment behind it. -/
theorem check_append_two_lines :
    let source := "\n// f();".toList
    let more := "/* x; */".toList
    (Terminated source ∧ Terminated more ∧
      ∀ text ∈ [source, more, source ++ '\n' :: more],
        Capture.FollowsRule Parser.lexical.captures text) ∧
      ∃ va vb ws, Check.source .lexical .default source = .ok va ∧
        Check.source .lexical .default more = .ok vb ∧
        Check.source .lexical .default (source ++ '\n' :: more) = .ok (va ++ ws) ∧
        List.Forall₂ (Violation.Shifted .default 2) vb ws := by
  intro source more
  have hline : Segmented [.other '\n', .comment "// f();".toList] source :=
    .cons (.other (by decide) (by decide) (by decide))
      (.cons (.lineComment (by decide : '\n' ∉ " f();".toList) (by simp)) .nil)
  have hblock : Segmented [.comment "/* x; */".toList] more :=
    .cons (.blockComment (by decide : ¬['*', '/'] <:+: " x; ".toList ++ ['*'])) .nil
  have hs : Terminated source := terminated_iff.mpr ⟨_, hline⟩
  have hm : Terminated more := terminated_iff.mpr ⟨_, hblock⟩
  refine ⟨⟨hs, hm, fun text _ => Capture.scan_followsRule text⟩, ?_⟩
  obtain ⟨_, _, -, -, -, hcheck⟩ := check_append .lexical hs hm
    (Capture.scan_followsRule source) (Capture.scan_followsRule more) (Capture.scan_followsRule _)
  obtain ⟨-, hsum, hreturns⟩ := hcheck .default
  obtain ⟨va, vb, ha, hb⟩ := hreturns (by decide)
  obtain ⟨ws, hws, hshifted⟩ := hsum va vb ha hb
  exact ⟨va, vb, ws, ha, hb, hws, hshifted⟩

end CommentedCode
