import CommentedCode.Proofs.Files.Selection
import CommentedCode.Proofs.Ignore.WellFormed
/-!
# Collections that return

Where no links lead round in circles the files of existing paths are collected, unless the rules
fail: a pattern to exclude is malformed, or the ignore file of a directory that is walked holds a
malformed pattern or may not be read.
-/
namespace CommentedCode

namespace Discovery

/-- The patterns in the bytes of an ignore file. -/
def patternsIn (content : Utf8.Bytes) : List Text :=
  Ignore.Rules.patternLines (Text.splitAtBreaks (Source.ofBytes content))

/-- The ignore file of a directory, if there is one, can be read, and so can its patterns. -/
def ReadsRules (fs : FileSystem) (directory : Path) : Prop :=
  fs.isFile (ignoreFileIn directory) = true → ∃ content,
    fs.read (ignoreFileIn directory) = .ok content ∧
      ∀ line ∈ patternsIn content, Ignore.WellFormed line

/-- Whether the rules for a path can be read. -/
def ReadsAt (fs : FileSystem) (q : Query) (p : Path) : Prop :=
  fs.isFile p = false → q.respectGitignore = true → ReadsRules fs p

/-- How an ignore file makes a search fail. -/
inductive IgnoreFileFails (fs : FileSystem) (file : Path) : DiscoveryError → Prop
  | malformed {content : Utf8.Bytes} (error : Ignore.PatternError) :
      fs.read file = .ok content → (∃ line ∈ patternsIn content, ¬Ignore.WellFormed line) →
        IgnoreFileFails fs file (.pattern error)
  | unreadable :
      fs.isFile file = true → fs.read file = .error .denied →
        IgnoreFileFails fs file (.unreadable file .denied)

/-- How the rules make a collection fail. -/
inductive RulesFail (fs : FileSystem) (q : Query) (paths : List Path) : DiscoveryError → Prop
  | excluded (error : Ignore.PatternError) :
      (∃ line ∈ Ignore.Rules.patternLines q.exclude, ¬Ignore.WellFormed line) →
        RulesFail fs q paths (.pattern error)
  | ignored {p : Path} {error : DiscoveryError} :
      p ∈ paths → fs.isFile p = false → q.respectGitignore = true →
        IgnoreFileFails fs (ignoreFileIn p) error → RulesFail fs q paths error

theorem RulesFail.userMessage? {fs : FileSystem} {q : Query} {paths : List Path}
    {error : DiscoveryError} (h : RulesFail fs q paths error) : error.userMessage? = none := by
  cases h with
  | excluded => rfl
  | ignored _ _ _ hfile => cases hfile <;> rfl

theorem returnsIff_rulesOf (lines : List Text) :
    ReturnsIff (∀ line ∈ Ignore.Rules.patternLines lines, Ignore.WellFormed line)
      (fun error => (∃ line ∈ Ignore.Rules.patternLines lines, ¬Ignore.WellFormed line) ∧
        ∃ e, error = .pattern e) (rulesOf lines) := by
  have hread : ReturnsIff (∀ line ∈ Ignore.Rules.patternLines lines, Ignore.WellFormed line)
      (fun error => ∃ e, error = .pattern e) (rulesOf lines) :=
    (Ignore.returnsIff_ofLines? lines).mapError fun e _ => ⟨e, rfl⟩
  exact hread.mono fun hn error he => ⟨by simpa using hn, he⟩

private theorem returnsIff_rulesIn (fs : FileSystem) (directory : Path) :
    ReturnsIff (ReadsRules fs directory) (IgnoreFileFails fs (ignoreFileIn directory))
      (rulesIn fs directory) := by
  cases hfile : fs.isFile (ignoreFileIn directory) with
  | false =>
    refine .of_ok ⟨none, ?_⟩ ?_
    · rw [rulesIn, hfile]
      rfl
    · simp [ReadsRules, hfile]
  | true =>
    cases hread : fs.read (ignoreFileIn directory) with
    | ok content =>
      rw [rulesIn_of_read hread]
      refine ((returnsIff_rulesOf _).mono ?_).congr ?_
      · rintro - _ ⟨hmalformed, error, rfl⟩
        exact .malformed error hread hmalformed
      · simp [ReadsRules, hfile, hread, patternsIn]
    | error fault =>
      obtain rfl := FileSystem.fault_of_isFile hfile hread
      refine .of_error ⟨.unreadable (ignoreFileIn directory) .denied, ?_, ?_⟩ ?_
      · rw [rulesIn, hfile, hread]
        rfl
      · exact .unreadable hfile hread
      · simp [ReadsRules, hfile, hread]

variable {fs : FileSystem} (hlinks : FileSystem.LoopFree fs.top)
include hlinks

theorem returnsIff_filesAt (q : Query) (excluded : Option Ignore.Rules) {paths : List Path}
    {p : Path} (hmem : p ∈ paths) (hp : fs.exists? p = true) :
    ReturnsIff (ReadsAt fs q p) (RulesFail fs q paths) (filesAt fs q excluded p) := by
  obtain ⟨start, hstart⟩ := Option.isSome_iff_exists.mp (hlinks.isSome_resolve? p)
  cases hfile : fs.isFile p with
  | true =>
    rw [filesAt_file hfile hstart]
    exact .of_ok ⟨[start], rfl⟩ (by simp [ReadsAt, hfile])
  | false =>
    rw [filesAt_walked hp hfile hstart]
    have hown : ReturnsIff (q.respectGitignore = true → ReadsRules fs p) (RulesFail fs q paths)
        (ownRules fs q p) := by
      rw [ownRules]
      split
      · rename_i hrespect
        exact ((returnsIff_rulesIn fs p).mono fun _ _ => .ignored hmem hfile hrespect).congr
          ⟨fun h _ => h, fun h => h hrespect⟩
      · rename_i hrespect
        exact .of_ok ⟨none, rfl⟩ fun h => absurd h hrespect
    have hreal (found : List (List Text)) :
        ReturnsIff True (RulesFail fs q paths) (resolveAll fs found) :=
      .of_ok (exists_resolveAll fun parts _ => hlinks.isSome_resolve? _) trivial
    exact (hown.bind fun own => hreal _).congr (by simp [ReadsAt, hfile])

/-- All paths are looked at unless the patterns to exclude or the rules for one cannot be read. -/
theorem returnsIff_collect (q : Query) {paths : List Path}
    (hpaths : ∀ p ∈ paths, fs.exists? p = true) :
    ReturnsIff ((∀ line ∈ Ignore.Rules.patternLines q.exclude, Ignore.WellFormed line) ∧
        ∀ p ∈ paths, ReadsAt fs q p)
      (RulesFail fs q paths) (collect fs q paths).outcome := by
  have hexclude : ReturnsIff (∀ line ∈ Ignore.Rules.patternLines q.exclude, Ignore.WellFormed line)
      (RulesFail fs q paths) (rulesOf q.exclude) :=
    (returnsIff_rulesOf q.exclude).mono fun _ _ ⟨hmalformed, error, herror⟩ =>
      herror ▸ .excluded error hmalformed
  rw [outcome_collect]
  refine hexclude.bind fun excluded => ReturnsIff.map (ReturnsIff.mapM fun p hp => ?_) _
  exact returnsIff_filesAt hlinks q excluded hp (hpaths p hp)

end Discovery

theorem FileSystem.exists?_here (top : Listing) :
    exists? ⟨top, []⟩ (Path.ofText ['.']) = true := by
  have hpath : Path.ofText ['.'] = ⟨[], []⟩ := rfl
  simp [hpath, exists?, stat, reach, startOf, follow, Listing.at?, Path.isAbsolute]

theorem Discovery.readsRules_here (rest : Listing) :
    ReadsRules ⟨.file ".gitignore".toList (Utf8.encode "*.tmp\n".toList) rest, []⟩
      (Path.ofText ['.']) := by
  have hpath : ignoreFileIn (Path.ofText ['.']) = ⟨[], [ignoreFile]⟩ := rfl
  refine fun _ => ⟨Utf8.encode "*.tmp\n".toList, ?_, ?_⟩
  · rw [hpath]
    exact FileSystem.read_of_find? rfl (by decide) (by decide)
  · have hlines : patternsIn (Utf8.encode "*.tmp\n".toList) = ["*.tmp".toList] := by decide
    rw [hlines, List.forall_mem_singleton, Ignore.wellFormed_iff (by decide)]
    exact ⟨by decide, by decide, by decide⟩

end CommentedCode
