import CommentedCode.Proofs.Files.Tree
/-!
# Following links

Where a path leads is a relation as well: a link leads where its target leads.  A path leads to one
place at most, in a number of steps that it determines, so that a link that is met while it is being
followed leads nowhere.  If links do not lead round in circles, every path leads somewhere, and that
is its real path.
-/
namespace CommentedCode

namespace FileSystem

section

variable {top : Listing} {passing : List (List Text)} {reached : List Text} {name : Text}

private theorem real_up (rest : List Text) :
    real top passing reached (['.', '.'] :: rest) = real top passing reached.dropLast rest := by
  rw [real, if_pos rfl]

private theorem real_on (hname : name ≠ ['.', '.'])
    (hat : ∀ target, top.at? (reached ++ [name]) ≠ some (.link target)) (rest : List Text) :
    real top passing reached (name :: rest) = real top passing (reached ++ [name]) rest := by
  rw [real, if_neg hname]
  split
  · rename_i target hlink
    exact absurd hlink (hat target)
  · rfl

private theorem real_link (hname : name ≠ ['.', '.']) {target : Text}
    (hat : top.at? (reached ++ [name]) = some (.link target)) (hnew : reached ++ [name] ∉ passing)
    (rest : List Text) : real top passing reached (name :: rest) =
      match real top ((reached ++ [name]) :: passing)
          (if (Path.ofText target).isAbsolute then [] else reached) (Path.ofText target).parts with
      | .ok there => real top passing there rest
      | .error kept => .error (kept ++ rest) := by
  have hcontains : ¬passing.contains (reached ++ [name]) = true := by simpa using hnew
  rw [real, if_neg hname]
  split
  · rename_i other hlink
    obtain rfl : other = target := by cases hat.symm.trans hlink; rfl
    exact dif_neg hcontains
  · rename_i hnot
    exact absurd hat (hnot target)

end

/-- The place that components lead to from a directory, and the number of links on the way. -/
inductive Leads (top : Listing) : Nat → List Text → List Text → List Text → Prop
  | done {reached : List Text} : Leads top 0 reached [] reached
  | up {n : Nat} {reached rest there : List Text} :
      Leads top n reached.dropLast rest there → Leads top n reached (['.', '.'] :: rest) there
  | on {n : Nat} {reached rest there : List Text} {name : Text} : name ≠ ['.', '.'] →
      (∀ target, top.at? (reached ++ [name]) ≠ some (.link target)) →
      Leads top n (reached ++ [name]) rest there → Leads top n reached (name :: rest) there
  | link {m n : Nat} {reached between rest there : List Text} {name target : Text} :
      name ≠ ['.', '.'] → top.at? (reached ++ [name]) = some (.link target) →
      Leads top m (if (Path.ofText target).isAbsolute then [] else reached)
        (Path.ofText target).parts between →
      Leads top n between rest there → Leads top (m + n + 1) reached (name :: rest) there

/-- From the directory that it is in, every link can be followed to an end. -/
def LoopFree (top : Listing) : Prop :=
  ∀ above name target, top.at? (above ++ [name]) = some (.link target) →
    ∃ bound, (follow top bound above none [name]).isSome

variable {top : Listing}

namespace Leads

variable {m n : Nat} {reached parts rest there other : List Text}

theorem unique (h : Leads top m reached parts there) (h' : Leads top n reached parts other) :
    m = n ∧ there = other := by
  induction h generalizing n other with
  | done =>
    cases h' with
    | done => exact ⟨rfl, rfl⟩
  | up _ ih =>
    cases h' with
    | up h' => exact ih h'
    | on hname => exact absurd rfl hname
    | link hname => exact absurd rfl hname
  | on hname hat _ ih =>
    cases h' with
    | up => exact absurd rfl hname
    | on _ _ h' => exact ih h'
    | link _ hlink => exact absurd hlink (hat _)
  | link hname hlink _ _ ihTarget ihRest =>
    cases h' with
    | up => exact absurd rfl hname
    | on _ hat => exact absurd hlink (hat _)
    | link _ hlink' htarget' hrest' =>
      cases hlink.symm.trans hlink'
      obtain ⟨rfl, rfl⟩ := ihTarget htarget'
      obtain ⟨rfl, rfl⟩ := ihRest hrest'
      exact ⟨rfl, rfl⟩

theorem split (h : Leads top n reached (parts ++ rest) there) :
    ∃ i j between, Leads top i reached parts between ∧ Leads top j between rest there := by
  induction parts generalizing n reached with
  | nil => exact ⟨0, n, reached, .done, h⟩
  | cons name parts ih =>
    cases h with
    | up h =>
      obtain ⟨i, j, between, hfront, hrest⟩ := ih h
      exact ⟨i, j, between, .up hfront, hrest⟩
    | on hname hat h =>
      obtain ⟨i, j, between, hfront, hrest⟩ := ih h
      exact ⟨i, j, between, .on hname hat hfront, hrest⟩
    | link hname hlink htarget h =>
      obtain ⟨i, j, between, hfront, hrest⟩ := ih h
      exact ⟨_, j, between, .link hname hlink htarget hfront, hrest⟩

private theorem of_follow {links : Nat} {fault : Option Fault} {last : Reached}
    (h : follow top links reached fault parts = some last) :
    ∃ n, Leads top n reached parts last.parts := by
  fun_induction follow top links reached fault parts with
  | case1 =>
    obtain rfl := Option.some.inj h
    exact ⟨0, .done⟩
  | case2 _ _ _ _ _ _ ih =>
    obtain ⟨n, hrest⟩ := ih h
    exact ⟨n, .up hrest⟩
  | case3 => cases h
  | case4 reached _ name _ _ hat hname target hfind _ _ ih =>
    obtain ⟨_, hall⟩ := ih h
    obtain ⟨i, j, between, htarget, hrest⟩ := hall.split
    have hlink : top.at? (reached ++ [name]) = some (.link target) := by
      rw [Listing.at?_append_singleton hat, hfind]
    exact ⟨i + j + 1, .link hname hlink htarget hrest⟩
  | case5 _ reached _ name _ _ hat hname node hnode hfind ih =>
    obtain ⟨n, hrest⟩ := ih h
    refine ⟨n, .on hname (fun target hlink => ?_) hrest⟩
    rw [Listing.at?_append_singleton hat, hfind] at hlink
    exact hnode target (Option.some.inj hlink)
  | case6 _ reached _ name _ _ hat hname hfind ih =>
    obtain ⟨n, hrest⟩ := ih h
    refine ⟨n, .on hname (fun target hlink => ?_) hrest⟩
    rw [Listing.at?_append_singleton hat, hfind] at hlink
    cases hlink
  | case7 _ reached _ name _ next hnot _ ih =>
    obtain ⟨n, hrest⟩ := ih h
    by_cases hname : name = ['.', '.']
    · subst hname
      exact ⟨n, .up hrest⟩
    · simp only [next, hname] at hrest
      refine ⟨n, .on hname (fun target hlink => ?_) hrest⟩
      obtain ⟨inside, hat, -⟩ := Listing.exists_directory_of_at? hlink
      exact hnot inside hat

/-- The links that are being followed lead over so many links at least. -/
def Needs (top : Listing) (n : Nat) (passing : List (List Text)) : Prop :=
  ∀ above name target, above ++ [name] ∈ passing →
    top.at? (above ++ [name]) = some (.link target) → ∀ m there,
      Leads top m (if (Path.ofText target).isAbsolute then [] else above)
        (Path.ofText target).parts there → n ≤ m

variable {passing : List (List Text)}

theorem Needs.none : Needs top n [] :=
  fun _ _ _ hmem => absurd hmem List.not_mem_nil

theorem Needs.mono (h : Needs top n passing) (hle : m ≤ n) : Needs top m passing :=
  fun above name target hmem hat k last hleads =>
    Nat.le_trans hle (h above name target hmem hat k last hleads)

theorem Needs.cons (h : Needs top m passing) {name target : Text}
    (hlink : top.at? (reached ++ [name]) = some (.link target))
    (htarget : Leads top m (if (Path.ofText target).isAbsolute then [] else reached)
      (Path.ofText target).parts there) : Needs top m ((reached ++ [name]) :: passing) := by
  intro above next found hmem hat k last hleads
  rcases List.mem_cons.mp hmem with hsame | hmem
  · obtain ⟨rfl, hnext⟩ := List.append_inj' hsame rfl
    cases hnext
    cases hlink.symm.trans hat
    exact Nat.le_of_eq (htarget.unique hleads).1
  · exact h above next found hmem hat k last hleads

/-- No link is met while it is being followed, since it would need as many links as all the way. -/
theorem real_eq (h : Leads top n reached parts there) (hpassing : Needs top n passing) :
    real top passing reached parts = .ok there := by
  induction h generalizing passing with
  | done => rw [real]
  | up _ ih => rw [real_up, ih hpassing]
  | on hname hat _ ih => rw [real_on hname hat, ih hpassing]
  | @link m n reached between rest there name target hname hlink htarget hrest ihTarget ihRest =>
    have hnew : reached ++ [name] ∉ passing := by
      intro hmem
      have hle := hpassing reached name target hmem hlink m between htarget
      omega
    have hbetween := ihTarget ((hpassing.mono (by omega)).cons hlink htarget)
    rw [real_link hname hlink hnew, hbetween]
    exact ihRest (hpassing.mono (by omega))

private theorem exists_of_loopFree (h : LoopFree top) (reached parts : List Text) :
    ∃ n there, Leads top n reached parts there := by
  induction parts generalizing reached with
  | nil => exact ⟨0, reached, .done⟩
  | cons name rest ih =>
    by_cases hname : name = ['.', '.']
    · obtain ⟨n, there, hrest⟩ := ih reached.dropLast
      exact ⟨n, there, hname ▸ .up hrest⟩
    · by_cases hlink : ∃ target, top.at? (reached ++ [name]) = some (.link target)
      · obtain ⟨target, hlink⟩ := hlink
        obtain ⟨bound, hfollow⟩ := h reached name target hlink
        obtain ⟨last, hlast⟩ := Option.isSome_iff_exists.mp hfollow
        obtain ⟨_, hleads⟩ := of_follow hlast
        cases hleads with
        | up => exact absurd rfl hname
        | on _ hat => exact absurd hlink (hat _)
        | link _ hlink' htarget _ =>
          cases hlink.symm.trans hlink'
          obtain ⟨n, there, hrest⟩ := ih _
          exact ⟨_, there, .link hname hlink htarget hrest⟩
      · obtain ⟨n, there, hrest⟩ := ih (reached ++ [name])
        exact ⟨n, there, .on hname (not_exists.mp hlink) hrest⟩

end Leads

section

variable {fs : FileSystem} {p : Path}

private theorem resolve?_of_leads {n : Nat} {there : List Text}
    (h : Leads fs.top n (fs.startOf p) p.parts there) : fs.resolve? p = some there := by
  rw [resolve?, h.real_eq Leads.Needs.none]

theorem resolve?_of_reach {last : Reached} (h : fs.reach p = some last) :
    fs.resolve? p = some last.parts := by
  obtain ⟨n, hleads⟩ := Leads.of_follow h
  exact resolve?_of_leads hleads

theorem resolve?_top (fs : FileSystem) : fs.resolve? (Path.absolute []) = some [] :=
  resolve?_of_leads .done

theorem resolve?_at? (htree : fs.top.IsTree) {parts : List Text} {node : Node}
    (hat : fs.top.at? parts = some node) (hnode : ∀ target, node ≠ .link target) :
    fs.resolve? (Path.absolute parts) = some parts :=
  resolve?_of_reach (reach_at? htree hat hnode)

/-- If no link leads round in circles, every path is resolved to where it leads. -/
theorem LoopFree.exists_resolve? (h : LoopFree fs.top) (p : Path) :
    ∃ n there, fs.resolve? p = some there ∧ Leads fs.top n (fs.startOf p) p.parts there := by
  obtain ⟨n, there, hleads⟩ := Leads.exists_of_loopFree h (fs.startOf p) p.parts
  exact ⟨n, there, resolve?_of_leads hleads, hleads⟩

theorem LoopFree.isSome_resolve? (h : LoopFree fs.top) (p : Path) : (fs.resolve? p).isSome := by
  obtain ⟨n, there, hthere, -⟩ := h.exists_resolve? p
  rw [hthere]
  rfl

end
end FileSystem
end CommentedCode
