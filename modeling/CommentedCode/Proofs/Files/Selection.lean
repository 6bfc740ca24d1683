import CommentedCode.Proofs.Files.Collection
import CommentedCode.Proofs.Files.Lookup
/-!
# What is collected below a directory

The files below a directory are selected by their paths from it: the name has one of the
extensions, no directory on the way holds version control data, and neither the file nor a
directory on the way is ignored.  Links to files count for what they lead to.
-/
namespace CommentedCode

namespace FileSystem

theorem resolve?_of_stat {fs : FileSystem} {p : Path} {node : Node} (h : fs.stat p = .ok node) :
    ∃ parts, fs.resolve? p = some parts ∧ fs.top.at? parts = some node := by
  rw [stat] at h
  split at h
  · cases h
  · split at h
    · cases h
    · cases h
    · rename_i parts hreach
      refine ⟨parts, resolve?_of_reach hreach, ?_⟩
      split at h
      · rename_i found hat
        obtain rfl := Except.ok.inj h
        exact hat
      · cases h

theorem isDirectory_of_linkFree {fs : FileSystem} (h : fs.top.linkFree = true) {p : Path}
    (hexists : fs.exists? p = true) (hfile : fs.isFile p = false) : fs.isDirectory p = true := by
  obtain ⟨node, hstat⟩ := exists_stat hexists
  obtain ⟨parts, -, hat⟩ := resolve?_of_stat hstat
  rw [isFile, hstat] at hfile
  rw [isDirectory, hstat]
  cases node with
  | directory inside => rfl
  | file content => cases hfile
  | link target => exact absurd hat (Listing.at?_ne_link h parts target)

end FileSystem

namespace Discovery

theorem rulesIn_of_read {fs : FileSystem} {directory : Path} {content : Utf8.Bytes}
    (h : fs.read (ignoreFileIn directory) = .ok content) :
    rulesIn fs directory = rulesOf (Text.splitAtBreaks (Source.ofBytes content)) := by
  rw [rulesIn, if_pos (FileSystem.isFile_of_read h), h]

/-- The rules that a directory has for itself, if they are respected. -/
def ownRules (fs : FileSystem) (q : Query) (directory : Path) :
    Except DiscoveryError (Option Ignore.Rules) :=
  if q.respectGitignore then rulesIn fs directory else .ok none

/-- What is selected by its path from the directory that is walked. -/
structure Selects (extensions : List Text) (rules : List Ignore.Rules) (parts : List Text) :
    Prop where
  accepted : ∃ name, parts.getLast? = some name ∧ Text.lower (Path.suffix name) ∈ extensions
  unversioned : versionControl ∉ parts.dropLast
  entered : ∀ parent rest, parent ++ rest = parts → parent ≠ [] → rest ≠ [] →
    ∀ r ∈ rules, r.ignores (Path.joined parent ++ ['/']) = false
  kept : ∀ r ∈ rules, r.ignores (Path.joined parts) = false

/-- The filter of a walk that starts in a directory. -/
def filterFrom (fs : FileSystem) (extensions : List Text) (rules : List Ignore.Rules)
    (start : List Text) : Filter where
  accepts := acceptedBy extensions
  ignores path := rules.any (·.ignores path)
  leadsToDirectory parts := fs.isDirectory (Path.absolute (start ++ parts))

variable {fs : FileSystem} {extensions : List Text} {rules : List Ignore.Rules}
  {start : List Text} {inside : Listing}

private theorem passes_filterFrom (parts : List Text) :
    (filterFrom fs extensions rules start).Passes [] parts ↔ Selects extensions rules parts := by
  have hnone (path : Text) : rules.any (·.ignores path) = false ↔
      ∀ r ∈ rules, r.ignores path = false := by simp
  constructor
  · intro ⟨⟨name, hlast, haccepts⟩, hunversioned, hentered, hkept⟩
    exact ⟨⟨name, hlast, List.contains_iff_mem.mp haccepts⟩, hunversioned,
      fun parent rest hsame hparent hrest =>
        (hnone _).mp (hentered parent rest hsame hparent hrest), (hnone _).mp hkept⟩
  · intro ⟨⟨name, hlast, haccepts⟩, hunversioned, hentered, hkept⟩
    exact ⟨⟨name, hlast, List.contains_iff_mem.mpr haccepts⟩, hunversioned,
      fun parent rest hsame hparent hrest =>
        (hnone _).mpr (hentered parent rest hsame hparent hrest), (hnone _).mpr hkept⟩

section OnePath

variable {q : Query} {excluded : Option Ignore.Rules} {p : Path}

theorem filesAt_missing (h : fs.exists? p = false) :
    filesAt fs q excluded p = .error (.notFound p) := by
  rw [filesAt, h]
  rfl

theorem filesAt_file (hfile : fs.isFile p = true) (hstart : fs.resolve? p = some start) :
    filesAt fs q excluded p = .ok [start] := by
  have hexists : fs.exists? p = true := FileSystem.exists?_of_isFile hfile
  simp only [filesAt, hexists, hstart, hfile]
  rfl

theorem filesAt_walked (hexists : fs.exists? p = true) (hfile : fs.isFile p = false)
    (hstart : fs.resolve? p = some start) :
    filesAt fs q excluded p = ownRules fs q p >>= fun own =>
      resolveAll fs (below fs q.extensions (own.toList ++ excluded.toList) start) := by
  simp only [filesAt, hexists, hstart, hfile, ownRules, Bool.not_true, Bool.false_eq_true, if_false]
  cases q.respectGitignore <;> rfl

private theorem filesAt_directory (hdirectory : fs.stat p = .ok (.directory inside))
    (hstart : fs.resolve? p = some start) :
    filesAt fs q excluded p = ownRules fs q p >>= fun own =>
      resolveAll fs (below fs q.extensions (own.toList ++ excluded.toList) start) := by
  have hexists : fs.exists? p = true := by rw [FileSystem.exists?, hdirectory]
  have hfile : fs.isFile p = false := by rw [FileSystem.isFile, hdirectory]
  exact filesAt_walked hexists hfile hstart

end OnePath

private theorem looksAt_filterFrom (htree : fs.top.IsTree)
    (hinside : fs.top.at? start = some (.directory inside)) {parts : List Text} {node : Node}
    (hat : inside.at? parts = some node) :
    (filterFrom fs extensions rules start).looksAt parts node =
      !fs.isDirectory (Path.absolute (start ++ parts)) := by
  have htop : fs.top.at? (start ++ parts) = some node := by rw [Listing.at?_append hinside, hat]
  cases node with
  | file content => rw [FileSystem.isDirectory, FileSystem.stat_at? htree htop nofun]; rfl
  | link target => rfl
  | directory below => rw [FileSystem.isDirectory, FileSystem.stat_at? htree htop nofun]; rfl

theorem mem_below_iff (htree : fs.top.IsTree)
    (hinside : fs.top.at? start = some (.directory inside)) (parts : List Text) :
    parts ∈ below fs extensions rules start ↔ ∃ r node, parts = start ++ r ∧
      inside.at? r = some node ∧ fs.isDirectory (Path.absolute parts) = false ∧
        Selects extensions rules r := by
  have hbelow : below fs extensions rules start =
      (walk (filterFrom fs extensions rules start) [] inside).map (start ++ ·) := by
    simp only [below, hinside]
    rfl
  rw [hbelow, List.mem_map]
  constructor
  · rintro ⟨r, hr, rfl⟩
    obtain ⟨_, node, rfl, hat, hlooks, hpasses⟩ :=
      (mem_walk_iff _ [] (htree.of_at? hinside) r).mp hr
    change (filterFrom fs extensions rules start).looksAt _ node = true at hlooks
    rw [looksAt_filterFrom htree hinside hat, Bool.not_eq_true'] at hlooks
    exact ⟨_, node, rfl, hat, hlooks, (passes_filterFrom _).mp hpasses⟩
  · rintro ⟨r, node, rfl, hat, hdirectory, hselects⟩
    refine ⟨r, (mem_walk_iff _ [] (htree.of_at? hinside) r).mpr ?_, rfl⟩
    refine ⟨r, node, rfl, hat, ?_, (passes_filterFrom r).mpr hselects⟩
    rw [looksAt_filterFrom htree hinside hat, hdirectory]
    rfl

private theorem isSome_resolve?_below (htree : fs.top.IsTree)
    (hinside : fs.top.at? start = some (.directory inside))
    (hlinks : ∀ r target, inside.at? r = some (.link target) →
      (fs.resolve? (Path.absolute (start ++ r))).isSome = true) :
    ∀ parts ∈ below fs extensions rules start,
      (fs.resolve? (Path.absolute parts)).isSome = true := by
  intro parts hparts
  obtain ⟨r, node, rfl, hat, -, -⟩ := (mem_below_iff htree hinside parts).mp hparts
  have htop : fs.top.at? (start ++ r) = some node := by rw [Listing.at?_append hinside, hat]
  cases node with
  | link target => exact hlinks r target hat
  | file content => rw [FileSystem.resolve?_at? htree htop nofun]; rfl
  | directory below => rw [FileSystem.resolve?_at? htree htop nofun]; rfl

/-- Without links what is not a directory is a file, and it is where its path says. -/
theorem resolve?_iff_of_linkFree (htree : fs.top.IsTree)
    (hinside : fs.top.at? start = some (.directory inside)) (hfree : inside.linkFree = true)
    {r : List Text} {node : Node} (hat : inside.at? r = some node) (parts : List Text) :
    fs.isDirectory (Path.absolute (start ++ r)) = false ∧
        fs.resolve? (Path.absolute (start ++ r)) = some parts ↔
      ∃ content, parts = start ++ r ∧ node = .file content := by
  have htop : fs.top.at? (start ++ r) = some node := by rw [Listing.at?_append hinside, hat]
  have hnode (target : Text) : node ≠ .link target := by
    rintro rfl
    exact Listing.at?_ne_link hfree r target hat
  rw [FileSystem.isDirectory, FileSystem.stat_at? htree htop hnode,
    FileSystem.resolve?_at? htree htop hnode, Option.some.injEq]
  cases node with
  | file content => exact ⟨fun h => ⟨content, h.2.symm, rfl⟩, fun ⟨_, h, _⟩ => ⟨rfl, h.symm⟩⟩
  | link target => exact absurd rfl (hnode target)
  | directory below => exact ⟨fun h => (nomatch h.1), fun ⟨_, _, h⟩ => (nomatch h)⟩

/-- The files below a directory are found, all of them and no others: each once, in ascending
order, at the path where it really is.  No link to a directory is followed. -/
theorem collect_directory (htree : fs.top.IsTree) {q : Query} {directory : Path}
    (hdirectory : fs.stat directory = .ok (.directory inside))
    (hstart : fs.resolve? directory = some start) {excluded own : Option Ignore.Rules}
    (hexcluded : Ignore.Rules.ofLines? q.exclude = .ok excluded)
    (hown : ownRules fs q directory = .ok own)
    (hlinks : ∀ r target, inside.at? r = some (.link target) →
      (fs.resolve? (Path.absolute (start ++ r))).isSome = true) :
    ∃ found, (collect fs q [directory]).outcome = .ok found ∧ found.Pairwise (· < ·) ∧
      (∀ parts, parts ∈ found ↔ ∃ r node, inside.at? r = some node ∧
        fs.isDirectory (Path.absolute (start ++ r)) = false ∧
        Selects q.extensions (own.toList ++ excluded.toList) r ∧
        fs.resolve? (Path.absolute (start ++ r)) = some parts) ∧
      (inside.linkFree = true → ∀ parts, parts ∈ found ↔ ∃ r content, parts = start ++ r ∧
        inside.at? r = some (.file content) ∧
        Selects q.extensions (own.toList ++ excluded.toList) r) := by
  obtain ⟨real, hreal, hinside⟩ := FileSystem.resolve?_of_stat hdirectory
  obtain rfl : real = start := Option.some.inj (hreal.symm.trans hstart)
  obtain ⟨found, hfound⟩ :=
    exists_resolveAll (isSome_resolve?_below htree hinside hlinks
      : ∀ parts ∈ below fs q.extensions (own.toList ++ excluded.toList) real, _)
  have hcollect : (collect fs q [directory]).outcome = .ok (ascending (union [] found)) := by
    rw [outcome_collect, hexcluded]
    change ([directory].mapM (filesAt fs q excluded)).map _ = _
    rw [List.mapM_cons, filesAt_directory hdirectory hstart, hown]
    change ((resolveAll fs _ >>= _) : Except _ _).map _ = _
    rw [hfound]
    rfl
  have hmem (parts : List Text) : parts ∈ ascending (union [] found) ↔
      ∃ r node, inside.at? r = some node ∧
        fs.isDirectory (Path.absolute (real ++ r)) = false ∧
        Selects q.extensions (own.toList ++ excluded.toList) r ∧
        fs.resolve? (Path.absolute (real ++ r)) = some parts := by
    rw [mem_ascending, mem_union, resolveAll_ok hfound]
    simp only [List.not_mem_nil, false_or, mem_below_iff htree hinside]
    constructor
    · rintro ⟨_, ⟨r, node, rfl, hat, hfile, hselects⟩, hparts⟩
      exact ⟨r, node, hat, hfile, hselects, hparts⟩
    · rintro ⟨r, node, hat, hfile, hselects, hparts⟩
      exact ⟨_, ⟨r, node, rfl, hat, hfile, hselects⟩, hparts⟩
  refine ⟨_, hcollect, pairwise_of_collect hcollect, hmem, fun hfree parts => ?_⟩
  rw [hmem]
  constructor
  · rintro ⟨r, node, hat, hfile, hselects, hparts⟩
    obtain ⟨content, rfl, rfl⟩ :=
      (resolve?_iff_of_linkFree htree hinside hfree hat parts).mp ⟨hfile, hparts⟩
    exact ⟨r, content, rfl, hat, hselects⟩
  · rintro ⟨r, content, rfl, hat, hselects⟩
    obtain ⟨hfile, hparts⟩ :=
      (resolve?_iff_of_linkFree htree hinside hfree hat _).mpr ⟨content, rfl, rfl⟩
    exact ⟨r, _, hat, hfile, hselects, hparts⟩

/-- A file that a negated pattern keeps, found by its name and through a link. -/
theorem collect_directory_negated :
    let inside : Listing := .file ".gitignore".toList (Utf8.encode "*.j\n!k.j".toList)
      (.file ['k', '.', 'j'] (some [])
        (.file ['x', '.', 'j'] (some []) (.link ['l'] ['k', '.', 'j'] .empty)))
    let fs : FileSystem := ⟨.directory ['d'] inside .empty, []⟩
    let q : Query := ⟨[['.', 'j'], []], [['g', '/']], true⟩
    let own : Ignore.Rules :=
      [⟨true, .anchored [.lead, .glyph .run, .glyph (.char '.'), .glyph (.char 'j'), .finish]⟩,
        ⟨false, .anchored [.lead, .glyph (.char 'k'), .glyph (.char '.'), .glyph (.char 'j'),
          .finish]⟩]
    let excluded : Ignore.Rules := [⟨true, .anchored [.lead, .glyph (.char 'g'), .markedSlash]⟩]
    fs.top.IsTree ∧ fs.stat (Path.absolute [['d']]) = .ok (.directory inside) ∧
      fs.resolve? (Path.absolute [['d']]) = some [['d']] ∧
      Ignore.Rules.ofLines? q.exclude = .ok (some excluded) ∧
      ownRules fs q (Path.absolute [['d']]) = .ok (some own) ∧
      (∀ r target, inside.at? r = some (.link target) →
        (fs.resolve? (Path.absolute ([['d']] ++ r))).isSome = true) ∧
      ∃ found, (collect fs q [Path.absolute [['d']]]).outcome = .ok found ∧
        found.Pairwise (· < ·) ∧ [['d'], ['k', '.', 'j']] ∈ found := by
  intro inside fs q own excluded
  have htree : fs.top.IsTree := ⟨by decide, by decide⟩
  have hat : fs.top.at? [['d']] = some (.directory inside) := rfl
  have hstat : fs.stat (Path.absolute [['d']]) = .ok (.directory inside) :=
    FileSystem.stat_at? htree hat (by simp)
  have hstart : fs.resolve? (Path.absolute [['d']]) = some [['d']] :=
    FileSystem.resolve?_at? htree hat (by simp)
  have hexcluded : Ignore.Rules.ofLines? q.exclude = .ok (some excluded) := by cbv
  have hown : ownRules fs q (Path.absolute [['d']]) = .ok (some own) := by
    have hread : fs.read (ignoreFileIn (Path.absolute [['d']])) =
        .ok (Utf8.encode "*.j\n!k.j".toList) := by
      have hhere : fs.top.at? [['d'], ignoreFile] =
        some (.file (Utf8.encode "*.j\n!k.j".toList)) := rfl
      exact FileSystem.read_at? htree hhere
    have hlines : Text.splitAtBreaks (Source.ofBytes (Utf8.encode "*.j\n!k.j".toList)) =
      [['*', '.', 'j'], ['!', 'k', '.', 'j']] := by decide
    change rulesIn fs (Path.absolute [['d']]) = _
    rw [rulesIn_of_read hread, hlines]
    cbv
  have hlinks : ∀ r target, inside.at? r = some (.link target) →
      (fs.resolve? (Path.absolute ([['d']] ++ r))).isSome = true := by
    intro r target hlink
    obtain rfl : r = [['l']] := by
      cases r with
      | nil => cases hlink
      | cons name r =>
        rw [Listing.at?_cons] at hlink
        obtain ⟨node, hfind, hnode⟩ := Option.bind_eq_some_iff.mp hlink
        simp only [inside, Listing.find?] at hfind
        split_ifs at hfind <;> cases hfind <;> cases r <;> simp_all [Node.at?]
    have hreach : fs.reach (Path.absolute [['d'], ['l']]) =
        some ⟨[['d'], ['k', '.', 'j']], none⟩ := by
      rw [FileSystem.reach, FileSystem.startOf_absolute]
      simp [FileSystem.follow, FileSystem.linkBound, Listing.at?, Listing.find?, fs, inside,
        Path.absolute, Path.isAbsolute, Path.ofText, Path.anchorOf, Path.components, Text.splitOn]
    rw [List.singleton_append, FileSystem.resolve?_of_reach hreach]
    rfl
  refine ⟨htree, hstat, hstart, hexcluded, hown, hlinks, ?_⟩
  obtain ⟨found, hfound, hsorted, hmem, -⟩ :=
    collect_directory htree hstat hstart hexcluded hown hlinks
  have hkept : fs.top.at? ([['d']] ++ [['k', '.', 'j']]) = some (.file (some [])) := rfl
  refine ⟨found, hfound, hsorted,
    (hmem _).mpr ⟨[['k', '.', 'j']], .file (some []), rfl, ?_, ?_, ?_⟩⟩
  · rw [FileSystem.isDirectory, FileSystem.stat_at? htree hkept (by simp)]
  · exact ⟨⟨_, rfl, by decide +kernel⟩, by decide, fun parent rest hsame hparent hrest =>
      absurd hsame (not_append_eq_singleton hparent hrest _), by decide +kernel⟩
  · exact FileSystem.resolve?_at? htree hkept (by simp)

end Discovery
end CommentedCode
