import CommentedCode.Proofs.CommandLine.Classifying
import CommentedCode.Proofs.CommandLine.Request
import CommentedCode.Proofs.Report.Integrity
/-!
# Requests to check

A request to check prints the report on its paths, as text or as JSON, and its exit code tells
whether a file has violations.
-/
namespace CommentedCode

namespace CommandLine

/-- The exit code tells whether there are violations. -/
structure Exits (report : Report) (code : Nat) : Prop where
  failing : code = 1 ↔ ∃ told ∈ report.files, told.violations ≠ []
  passing : code = 0 ↔ ∀ told ∈ report.files, told.violations = []

/-- How a request to check ends that has a report to print.  JSON is not written if a number of the
report is too long. -/
inductive Answered (r : CheckRequest) (report : Report) : Except RunError Output → Prop
  | text {code : Nat} (stderr : Text) (hjson : r.json = false) (hcode : Exits report code) :
      Answered r report (.ok ⟨code, report.listing, stderr⟩)
  | json {code : Nat} (stderr : Text) (hjson : r.json = true) (hcode : Exits report code)
      (hdigits : ∀ n ∈ report.numbers, n.natAbs < 10 ^ digitLimit) :
      Answered r report (.ok ⟨code, report.object.render, stderr⟩)
  | unwritable {n : Int} (hjson : r.json = true) (hn : n ∈ report.numbers)
      (hdigits : 10 ^ digitLimit ≤ n.natAbs) : Answered r report (.error .unwritable)

private theorem exits_present (report : Report) :
    Exits report (if report.hasViolations then 1 else 0) := by
  have hnone : ¬report.hasViolations = true ↔ ∀ told ∈ report.files, told.violations = [] := by
    rw [report.hasViolations_iff]
    simp
  constructor
  · rw [← report.hasViolations_iff]
    simp
  · rw [← hnone]
    simp

private theorem CheckRequest.present_eq (r : CheckRequest) (report : Report) :
    r.present report = (if r.json then written report.json else .ok report.text).map fun text =>
      ⟨if report.hasViolations then 1 else 0, text⟩ := by
  rw [present]
  split <;> rfl

private theorem answered_finish {r : CheckRequest} {report : Report} {least : Level}
    {answer : Logged RunError Answer} (h : answer.outcome = r.present report) :
    Answered r report (finish least answer) := by
  rw [r.present_eq] at h
  cases hjson : r.json with
  | false =>
    rw [hjson] at h
    rw [finish_of_ok h, report.text_eq]
    exact .text _ hjson (exits_present report)
  | true =>
    rw [hjson, if_pos rfl, written_eq] at h
    by_cases hwritable : report.json.isWritable = true
    · rw [if_pos hwritable] at h
      rw [finish_of_ok h, report.json_eq]
      exact .json _ hjson (exits_present report) (report.isWritable_json_iff.mp hwritable)
    · rw [if_neg hwritable] at h
      rw [finish_of_no_message h rfl]
      rw [report.isWritable_json_iff] at hwritable
      push Not at hwritable
      obtain ⟨n, hn, hdigits⟩ := hwritable
      exact .unwritable hjson hn hdigits

private theorem Request.answered_runBy {parser : Parser} {schedule : List Nat} {fs : FileSystem}
    (debug : Bool) (input : Text) {r : CheckRequest} {s : Settings}
    (hsettings : ((check r).settings fs).outcome = .ok s) {report : Report}
    (hreport : (Check.runBy parser schedule fs s (Path.absolute fs.here) r.paths).outcome =
      .ok report) :
    Answered r report ((check r).runBy parser schedule fs debug input) := by
  have hanswer : ((check r).answer parser schedule fs input).outcome = r.present report := by
    rw [answer, Logged.outcome_bind, hsettings]
    change (r.answer parser schedule fs s).outcome = _
    rw [CheckRequest.answer, Logged.outcome_bind]
    change Except.mapError _ (Check.runBy parser schedule fs s _ _).outcome >>= _ = _
    rw [hreport]
    rfl
  exact answered_finish hanswer

end CommandLine

/-- A run over existing paths reports on the files that it finds, whatever the number of workers
and however they get on, and a request to check prints that report. -/
theorem run_intact {parser : Parser} (hparser : parser.KeepsCharacters) {fs : FileSystem}
    (htree : fs.top.IsTree) (hlinks : FileSystem.LoopFree fs.top) {s : Settings} (hs : s.InOrder)
    (root : Path) {paths : List Path} (hpaths : ∀ p ∈ paths, fs.exists? p = true)
    (hpatterns : Check.ReadsPatterns fs s paths) :
    ∃ start found reports, fs.resolve? root = some start ∧
      Check.Intact parser fs s paths start found ⟨s, reports⟩ ∧
      (∀ jobs, 1 ≤ jobs → ∀ schedule,
        (Check.runBy parser schedule fs { s with jobs := jobs } root paths).outcome =
          .ok ⟨{ s with jobs := jobs }, reports⟩) ∧
      ∀ (r : CommandLine.CheckRequest) schedule debug input, r.paths = paths →
        root = Path.absolute fs.here →
        ((CommandLine.Request.check r).settings fs).outcome = .ok s →
        CommandLine.Answered r ⟨s, reports⟩
          ((CommandLine.Request.check r).runBy parser schedule fs debug input) := by
  obtain ⟨start, hstart⟩ := Option.isSome_iff_exists.mp (hlinks.isSome_resolve? root)
  obtain ⟨found, hfound⟩ := (Discovery.returnsIff_collect hlinks (Check.query s) hpaths).returns
    ⟨hpatterns.exclude, hpatterns.ignoreFiles⟩
  have hrange := ((Settings.inOrder_iff s).mp hs).1
  obtain ⟨reports, hreports, -⟩ :=
    Check.exists_files hparser hrange fs (Path.absolute start) found
  have hrun (jobs : Int) (schedule : List Nat) :
      (Check.runBy parser schedule fs { s with jobs := jobs } root paths).outcome =
        .ok ⟨{ s with jobs := jobs }, reports⟩ := by
    have hquery : Check.query { s with jobs := jobs } = Check.query s := rfl
    rw [Check.outcome_runBy parser schedule hstart, hquery, hfound]
    change (Check.files parser fs { s with jobs := jobs } _ found).outcome.map _ = _
    rw [Check.files_jobs, hreports]
    rfl
  refine ⟨start, found, reports, hstart, ?_, fun jobs _ => hrun jobs, ?_⟩
  · exact Check.intact_of_files hparser htree hlinks hrange hpaths hfound hreports
  · rintro r schedule debug input rfl rfl hsettings
    exact CommandLine.Request.answered_runBy debug input hsettings (hrun s.jobs schedule)

private theorem loopFree_dangling {rules content : Utf8.Bytes}
    {first second name target gone : Text} (htarget : Path.ofText target = ⟨[], [gone]⟩)
    (hfirst : first ≠ gone) (hsecond : second ≠ gone) (hname : name ≠ gone) : FileSystem.LoopFree
      (.file first rules (.file second content (.link name target .empty))) := by
  intro above other given hat
  obtain ⟨inside, habove, hfind⟩ := Listing.exists_directory_of_at? hat
  cases above with
  | nil =>
    obtain rfl := Node.directory.inj (Option.some.inj habove)
    simp only [Listing.find?] at hfind
    split_ifs at hfind with hfirst' hsecond' hname'
    · cases hfind
    · cases hfind
    · cases hfind
      subst hname'
      refine ⟨1, ?_⟩
      by_cases hdots : name = ['.', '.']
      · simp [FileSystem.follow, Listing.at?, hdots]
      · simp [FileSystem.follow, Listing.at?, Listing.find?, hdots, hfirst', hsecond', htarget,
          Path.isAbsolute, hfirst, hsecond, hname, apply_ite Option.isSome]
  | cons part above =>
    rw [Listing.at?_cons] at habove
    obtain ⟨node, hnode, hbelow⟩ := Option.bind_eq_some_iff.mp habove
    simp only [Listing.find?] at hnode
    split_ifs at hnode <;> cases hnode <;> cases above <;> cases hbelow

/-- A file with a comment and a link that leads to nothing, checked by two workers. -/
theorem run_intact_dangling :
    let fs : FileSystem := ⟨.file ".gitignore".toList (Utf8.encode "*.tmp\n".toList)
      (.file "A.java".toList (Utf8.encode "// int x = 5;\n".toList)
        (.link "B.java".toList "gone".toList .empty)), []⟩
    let s : Settings := .default
    let r : CommandLine.CheckRequest := ⟨.empty, [Path.ofText ['.']], [], none, false⟩
    (fs.top.IsTree ∧ FileSystem.LoopFree fs.top ∧ s.InOrder ∧
      (∀ p ∈ r.paths, fs.exists? p = true) ∧ Check.ReadsPatterns fs s r.paths) ∧
    ∃ found reports, Check.Intact .lexical fs s r.paths [] found ⟨s, reports⟩ ∧
      (Check.runBy .lexical [1, 0] fs { s with jobs := 2 } (Path.absolute []) r.paths).outcome =
        .ok ⟨{ s with jobs := 2 }, reports⟩ ∧
      CommandLine.Answered r ⟨s, reports⟩
        ((CommandLine.Request.check r).run .lexical fs false []) := by
  intro fs s r
  have htree : fs.top.IsTree := ⟨by decide, by decide⟩
  have hlinks : FileSystem.LoopFree fs.top :=
    loopFree_dangling rfl (by decide) (by decide) (by decide)
  have hs : s.InOrder := (Settings.inOrder_iff s).mpr ⟨by decide, by decide, by decide, by decide⟩
  have hpaths : ∀ p ∈ r.paths, fs.exists? p = true :=
    List.forall_mem_singleton.mpr (FileSystem.exists?_here _)
  have hpatterns : Check.ReadsPatterns fs s r.paths :=
    ⟨nofun, List.forall_mem_singleton.mpr fun _ _ => Discovery.readsRules_here _⟩
  refine ⟨⟨htree, hlinks, hs, hpaths, hpatterns⟩, ?_⟩
  obtain ⟨start, found, reports, hstart, hintact, hruns, hanswers⟩ :=
    run_intact Parser.keepsCharacters_lexical htree hlinks hs (Path.absolute []) hpaths hpatterns
  obtain rfl := Option.some.inj ((FileSystem.resolve?_top fs).symm.trans hstart)
  have hsettings : ((CommandLine.Request.check r).settings fs).outcome = .ok s := by
    rw [CommandLine.Request.outcome_settings_of_absent (by decide) rfl]
    rfl
  exact ⟨found, reports, hintact, hruns 2 (by decide) [1, 0],
    hanswers r [] false [] rfl rfl hsettings⟩

end CommentedCode
