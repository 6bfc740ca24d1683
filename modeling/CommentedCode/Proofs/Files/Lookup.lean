import CommentedCode.Proofs.Files.Links
/-!
# Lookup without links

Where there are no symbolic links none leads round in circles.
-/
namespace CommentedCode

namespace Listing

/-- No entry of a tree without links is a link, and its directories are without links too. -/
private theorem holds_of_linkFree {l : Listing} (h : l.linkFree = true) {name : Text} {node : Node}
    (hfind : l.find? name = some node) : (∀ target, node ≠ .link target) ∧
      ∀ inside, node = .directory inside → inside.linkFree = true := by
  refine holds_of_find? (p := (·.linkFree = true))
    (q := fun _ node => (∀ target, node ≠ .link target) ∧
      ∀ inside, node = .directory inside → inside.linkFree = true) (fun _ node rest h => ?_) h hfind
  cases node <;> simp_all [entry, linkFree]

private theorem linkFree_of_find? {l inside : Listing} {name : Text} (h : l.linkFree = true)
    (hfind : l.find? name = some (.directory inside)) : inside.linkFree = true :=
  (holds_of_linkFree h hfind).2 inside rfl

private theorem find?_ne_link {l : Listing} (h : l.linkFree = true) (name target : Text) :
    l.find? name ≠ some (.link target) :=
  fun hfind => (holds_of_linkFree h hfind).1 target rfl

theorem at?_ne_link {l : Listing} (h : l.linkFree = true) (parts : List Text) (target : Text) :
    l.at? parts ≠ some (.link target) := by
  induction parts generalizing l with
  | nil => exact nofun
  | cons name parts ih =>
    rw [at?_cons]
    cases hfind : l.find? name with
    | none => exact nofun
    | some node =>
      rw [Option.bind_some]
      cases node with
      | directory inside => exact ih (linkFree_of_find? h hfind)
      | file content => cases parts <;> exact nofun
      | link other => exact absurd hfind (find?_ne_link h name other)

end Listing

namespace FileSystem

theorem loopFree_of_linkFree {top : Listing} (h : top.linkFree = true) : LoopFree top :=
  fun above name target hat => absurd hat (Listing.at?_ne_link h (above ++ [name]) target)

theorem isSome_resolve? {fs : FileSystem} (h : fs.top.linkFree = true) (p : Path) :
    (fs.resolve? p).isSome :=
  (loopFree_of_linkFree h).isSome_resolve? p

theorem exists_stat {fs : FileSystem} {p : Path} (h : fs.exists? p = true) :
    ∃ node, fs.stat p = .ok node := by
  rw [exists?] at h
  split at h
  · rename_i node hstat
    exact ⟨node, hstat⟩
  · cases h

theorem exists?_of_isFile {fs : FileSystem} {p : Path} (h : fs.isFile p = true) :
    fs.exists? p = true := by
  rw [isFile] at h
  rw [exists?]
  split at h
  · rename_i hstat
    rw [hstat]
  · cases h

theorem read_of_find? {top : Listing} {anchor name : Text} {content : Utf8.Bytes}
    (hfind : top.find? name = some (.file content)) (hdots : name ≠ ['.', '.'])
    (hnul : '\x00' ∉ name) : read ⟨top, []⟩ ⟨anchor, [name]⟩ = .ok content := by
  have hreach : reach ⟨top, []⟩ ⟨anchor, [name]⟩ = some ⟨[name], none⟩ := by
    simp [reach, startOf, follow, Listing.at?, hfind, hdots]
  simp [read, stat, hreach, Listing.at?, hfind, hnul]

theorem stat_of_find?_none {top : Listing} {anchor name : Text} (hfind : top.find? name = none)
    (hdots : name ≠ ['.', '.']) : stat ⟨top, []⟩ ⟨anchor, [name]⟩ = .error .missing := by
  have hreach : reach ⟨top, []⟩ ⟨anchor, [name]⟩ = some ⟨[name], some .missing⟩ := by
    simp [reach, startOf, follow, Listing.at?, hfind, hdots]
  by_cases hnul : '\x00' ∈ name <;> simp [stat, hreach, hnul]

theorem isFile_of_find?_none {top : Listing} {anchor name : Text} (hfind : top.find? name = none)
    (hdots : name ≠ ['.', '.']) : isFile ⟨top, []⟩ ⟨anchor, [name]⟩ = false := by
  rw [isFile, stat_of_find?_none hfind hdots]

theorem isFile_of_read {fs : FileSystem} {p : Path} {content : Utf8.Bytes}
    (h : fs.read p = .ok content) : fs.isFile p = true := by
  rw [read] at h
  rw [isFile]
  split at h
  · rename_i hstat
    rw [hstat]
  all_goals cases h

theorem fault_of_isFile {fs : FileSystem} {p : Path} {fault : Fault} (hfile : fs.isFile p = true)
    (hread : fs.read p = .error fault) : fault = .denied := by
  rw [isFile] at hfile
  split at hfile
  · rename_i content hstat
    rw [read, hstat] at hread
    cases content with
    | none => exact (Except.error.inj hread).symm
    | some content => cases hread
  · cases hfile

end FileSystem
end CommentedCode
