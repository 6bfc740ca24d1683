import CommentedCode.Proofs.Report.Violations
import CommentedCode.Proofs.Settings.Overriding
/-!
# Settings that can be reached

Settings are the defaults or are read from a mapping, and overrides are then tried on them one
after the other.  Whatever settings stand in the end, a run can use them: they are within their
limits, a classifier accepts their options, and the message about a comment that is code can be
written.
-/
namespace CommentedCode

namespace Text

private theorem lower_dot (cs : Text) : lower ('.' :: cs) = '.' :: lowerAfter ['.'] cs := by
  have hdot : lowerChar '.' = '.' := by decide
  have hdotted : ('.' : Char) ≠ '\u0130' := by decide
  have hsigma : ('.' : Char) ≠ '\u03A3' := by decide
  rw [lower, lowerAfter, if_neg hdotted, if_neg hsigma, hdot]
  rfl

end Text

private theorem Double.isNaN_of_lt {x y : Float} (h : x < y) : y.isNaN = false := by
  have hlt := (lt_iff x y).mp h
  obtain ⟨p, hp, q, hq, hpq⟩ := (lt_iff_place _ _).mp hlt
  change y.toModel.unpack.isNaN = false
  cases hy : y.toModel.unpack with
  | notANumber =>
    rw [hy] at hq
    cases hq
  | _ => rfl

private theorem Options.checked_eq_ok {o : Options Float} (ht : inRange o.threshold = true)
    (hs : o.skipSequence ≠ []) : checked o = .ok o := by
  rw [checked, checkThreshold, if_pos ht, checkSequence, if_neg hs]
  rfl

namespace Settings

private theorem head?_normalExtension (e : Text) : (normalExtension e).head? = some '.' := by
  rw [normalExtension]
  split
  · rename_i hdot
    obtain ⟨rest, hrest⟩ := Option.isSome_iff_exists.mp hdot
    have he : e = '.' :: rest := Text.after?_eq_some_iff.mp hrest
    rw [he, Text.lower_dot, List.head?_cons]
  · rw [Text.lower_dot, List.head?_cons]

private theorem mem_normalExtensions {s : Settings} {e : Text} :
    e ∈ s.normalExtensions ↔ ∃ given ∈ s.extensions, normalExtension given = e := by
  rw [normalExtensions, List.mem_eraseDups, List.mem_mergeSort, List.mem_map]

private theorem head?_of_mem_normalExtensions {s : Settings} {e : Text}
    (h : e ∈ s.normalExtensions) : e.head? = some '.' := by
  obtain ⟨given, -, rfl⟩ := mem_normalExtensions.mp h
  exact head?_normalExtension given

private theorem normalExtensions_ne_nil {s : Settings} (h : s.extensions ≠ []) :
    s.normalExtensions ≠ [] := by
  obtain ⟨given, hgiven⟩ := List.exists_mem_of_ne_nil _ h
  exact List.ne_nil_of_mem (mem_normalExtensions.mpr ⟨given, hgiven, rfl⟩)

private theorem hasKind_texts (items : List Text) : (texts items).HasKind (.list .text) := by
  apply Value.HasKind.list
  intro v hv
  obtain ⟨cs, -, rfl⟩ := List.mem_map.mp hv
  exact .text cs

private theorem hasKind_value (s : Settings) (p : Property) : (s.value p).HasKind p.kind := by
  cases p with
  | threshold => exact .float s.threshold
  | skipSequence => exact .text s.skipSequence
  | skipJavadocs => exact .bool s.skipJavadocs
  | message => exact .text s.message
  | extensions => exact hasKind_texts s.extensions
  | exclude => exact hasKind_texts s.exclude
  | respectGitignore => exact .bool s.respectGitignore
  | jobs => exact .int s.jobs

/-- Settings that a run can use without an error. -/
structure Usable (s : Settings) : Prop where
  threshold : 0.0 < s.threshold ∧ s.threshold ≤ 1.0
  isNumber : s.threshold.isNaN = false
  skipSequence : s.skipSequence ≠ []
  jobs : 1 ≤ s.jobs
  extensions : s.extensions ≠ []
  normalExtensions : s.normalExtensions ≠ []
  dotted : ∀ e ∈ s.normalExtensions, e.head? = some '.'
  typed : ∀ p, (s.value p).HasKind p.kind
  options : s.options.checked = .ok s.options
  message : ∀ c i p, (Check.outcome s c).scan.verdict = .code i p →
    ∃ message, Message.text? s c.startLine c.endLine (.float p) = some message

private theorem InOrder.usable {s : Settings} (h : s.InOrder) : s.Usable := by
  obtain ⟨hrange, hskip, hjobs, hextensions⟩ := (inOrder_iff s).mp h
  have hthreshold := (Options.inRange_iff s.threshold).mp hrange
  exact {
    threshold := hthreshold
    isNumber := Double.isNaN_of_lt hthreshold.1
    skipSequence := hskip
    jobs := hjobs
    extensions := hextensions
    normalExtensions := normalExtensions_ne_nil hextensions
    dotted := fun e => head?_of_mem_normalExtensions
    typed := s.hasKind_value
    options := Options.checked_eq_ok hrange hskip
    message := fun c i p hcode =>
      Option.isSome_iff_exists.mp (Check.isSome_text?_of_code hrange hcode) }

/-! ### Steps -/

/-- The settings after overrides were tried on them: a step that fails changes nothing. -/
def afterStep (s : Settings) (overrides : List (Text × Value)) : Settings :=
  match s.override overrides with
  | .ok t => t
  | .error _ => s

/-- Overrides are checked as a whole, and without any the settings are returned unchecked. -/
theorem InOrder.of_override {s t : Settings} (hs : s.InOrder) {overrides : List (Text × Value)}
    (h : s.override overrides = .ok t) : t.InOrder := by
  unfold override at h
  dsimp only at h
  split_ifs at h
  · obtain rfl := Except.ok.inj h
    exact hs
  · cases h
  · obtain ⟨built, -, hcheck⟩ := bind_ok.mp h
    exact eq_of_check hcheck ▸ hcheck

theorem InOrder.afterStep {s : Settings} (hs : s.InOrder) (overrides : List (Text × Value)) :
    (s.afterStep overrides).InOrder := by
  rw [Settings.afterStep]
  split
  · rename_i t ht
    exact hs.of_override ht
  · exact hs

/-- No sequence of steps leads out of order.  The induction is on the steps, with the settings
that each of them finds. -/
theorem InOrder.afterSteps {s : Settings} (hs : s.InOrder) (steps : List (List (Text × Value))) :
    (steps.foldl Settings.afterStep s).InOrder := by
  induction steps generalizing s with
  | nil => exact hs
  | cons overrides steps ih =>
    rw [List.foldl_cons]
    exact ih (hs.afterStep overrides)

theorem inOrder_of_steps {base : Settings}
    (h : base = default ∨ ∃ entries, ofMapping entries = .ok base)
    (steps : List (List (Text × Value))) : (steps.foldl Settings.afterStep base).InOrder := by
  have hbase : base.InOrder := by
    rcases h with rfl | ⟨entries, hread⟩
    · exact inOrder_default
    · exact (ofMapping_eq_ok hread).1
  exact hbase.afterSteps steps

end Settings

/-- The defaults and settings that were read from a mapping stay usable, whatever overrides are
tried on them. -/
theorem settings_usable {base : Settings}
    (h : base = Settings.default ∨ ∃ entries, Settings.ofMapping entries = .ok base)
    (steps : List (List (Text × Value))) : (steps.foldl Settings.afterStep base).Usable :=
  (Settings.inOrder_of_steps h steps).usable

/-- A threshold that is refused and a number of jobs that is taken. -/
theorem settings_usable_of_steps :
    let steps : List (List (Text × Value)) :=
      [[("classification_threshold".toList, .float 1.5)], [("jobs".toList, .int 4)]]
    let final := steps.foldl Settings.afterStep Settings.default
    final.threshold = Settings.default.threshold ∧ final.jobs = 4 ∧ final.Usable := by
  intro steps final
  have hfinal : final = { Settings.default with jobs := 4 } := rfl
  refine ⟨?_, ?_, settings_usable (.inl rfl) steps⟩
  · rw [hfinal]
  · rw [hfinal]

end CommentedCode
