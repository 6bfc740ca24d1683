import CommentedCode.Ignore.Pattern
/-!
# Matches of longer paths

What a token leaves behind of a path, it also leaves behind of a longer one.  So a match of a path
that ends with a slash is a match of everything below, as long as no name is due behind the slash.
-/
namespace CommentedCode.Ignore

private theorem mem_restsUpTo_self (stop : Char) (cs : Text) : cs ∈ restsUpTo stop cs := by
  cases cs with
  | nil => simp [restsUpTo]
  | cons c cs =>
    rw [restsUpTo]
    split <;> simp

private theorem restsUpTo_append {stop : Char} {cs r : Text} (h : r ∈ restsUpTo stop cs)
    (more : Text) : r ++ more ∈ restsUpTo stop (cs ++ more) := by
  induction cs with
  | nil =>
    obtain rfl : r = [] := by simpa [restsUpTo] using h
    exact mem_restsUpTo_self stop more
  | cons c cs ih =>
    by_cases hc : c = stop
    · obtain rfl : r = c :: cs := by simpa [restsUpTo, hc] using h
      exact mem_restsUpTo_self stop _
    · simp only [restsUpTo, hc, if_false, List.mem_append, List.mem_singleton] at h
      rw [List.cons_append, restsUpTo, if_neg hc]
      rcases h with h | rfl
      · exact List.mem_append_left _ (ih h)
      · simp

private theorem restsUpTo_suffix {stop : Char} {cs r : Text} (h : r ∈ restsUpTo stop cs) :
    r <:+ cs := by
  induction cs with
  | nil => simpa [restsUpTo] using h
  | cons c cs ih =>
    rw [restsUpTo] at h
    split at h
    · obtain rfl := List.mem_singleton.mp h
      exact List.suffix_refl _
    · rcases List.mem_append.mp h with h | h
      · exact (ih h).trans (List.suffix_cons c cs)
      · obtain rfl := List.mem_singleton.mp h
        exact List.suffix_refl _

private theorem mem_restsUpTo_of_stop {stop : Char} {cs r : Text} (hs : stop ∈ cs)
    (h : r ∈ restsUpTo stop cs) : stop ∈ r := by
  induction cs with
  | nil => simp at hs
  | cons c cs ih =>
    by_cases hc : c = stop
    · obtain rfl : r = c :: cs := by simpa [restsUpTo, hc] using h
      exact hs
    · simp only [restsUpTo, hc, if_false, List.mem_append, List.mem_singleton] at h
      rcases h with h | rfl
      · exact ih ((List.mem_cons.mp hs).resolve_left (Ne.symm hc)) h
      · exact hs

private theorem dropWhile_mem_restsUpTo (stop : Char) (cs : Text) :
    cs.dropWhile (· ≠ stop) ∈ restsUpTo stop cs := by
  induction cs with
  | nil => simp [restsUpTo]
  | cons c cs ih =>
    by_cases hc : c = stop
    · simp [restsUpTo, hc]
    · rw [List.dropWhile_cons_of_pos (by simpa using hc), restsUpTo, if_neg hc]
      exact List.mem_append_left _ ih

private theorem leadRests_append {started : Bool} {cs r : Text} (h : r ∈ leadRests started cs)
    (more : Text) : r ++ more ∈ leadRests started (cs ++ more) := by
  induction cs generalizing started with
  | nil => simp [leadRests] at h
  | cons c cs ih =>
    rw [leadRests, List.mem_append] at h
    rw [List.cons_append, leadRests, List.mem_append]
    rcases h with h | h
    · left
      by_cases hc : c = '\n'
      · simp [hc] at h
      · rw [if_neg hc] at h ⊢
        exact ih h
    · right
      by_cases hs : (started && decide (c = '/')) = true
      · rw [if_pos hs] at h ⊢
        rw [List.mem_singleton.mp h]
        exact List.mem_singleton_self _
      · rw [if_neg hs] at h
        simp at h

private theorem leadRests_suffix {started : Bool} {cs r : Text} (h : r ∈ leadRests started cs) :
    r <:+ cs := by
  induction cs generalizing started with
  | nil => simp [leadRests] at h
  | cons c cs ih =>
    apply List.IsSuffix.trans _ (List.suffix_cons c cs)
    rcases List.mem_append.mp h with h | h
    · split at h
      · simp at h
      · exact ih h
    · split at h
      · obtain rfl := List.mem_singleton.mp h
        exact List.suffix_refl _
      · simp at h

private theorem betweenRests_append {cs r : Text} (h : r ∈ betweenRests cs) (more : Text) :
    r ++ more ∈ betweenRests (cs ++ more) := by
  unfold betweenRests at h
  split at h
  · rename_i c cs
    by_cases hc : c = '\n'
    · simp [hc] at h
    · rw [if_neg hc] at h
      simpa [betweenRests, hc] using restsUpTo_append h more
  · simp at h

private theorem betweenRests_suffix {cs r : Text} (h : r ∈ betweenRests cs) : r <:+ cs := by
  unfold betweenRests at h
  split at h
  · rename_i c cs
    split at h
    · simp at h
    · have hcons := (List.suffix_cons c cs).trans (List.suffix_cons '/' (c :: cs))
      exact (restsUpTo_suffix h).trans hcons
  · simp at h

namespace Glyph

/-- Whether a glyph never takes a slash; one with a bracket may. -/
def sparesSlash : Glyph → Bool
  | char c => c ≠ '/'
  | set _ _ => false
  | _ => true

private theorem rests_append {g : Glyph} {cs r : Text} (h : r ∈ g.rests cs) (more : Text) :
    r ++ more ∈ g.rests (cs ++ more) := by
  cases g with
  | run => exact restsUpTo_append h more
  | someRun =>
    cases cs with
    | nil => simp [rests] at h
    | cons c cs =>
      by_cases hc : c = '/'
      · simp [rests, hc] at h
      · simp only [rests, hc, if_false] at h
        simpa [rests, hc] using restsUpTo_append h more
  | _ =>
    cases cs with
    | nil => simp [rests] at h
    | cons c cs =>
      simp only [rests] at h
      simp only [List.cons_append, rests]
      split at h <;> simp_all

private theorem rests_suffix {g : Glyph} {cs r : Text} (h : r ∈ g.rests cs) : r <:+ cs := by
  cases g with
  | run => exact restsUpTo_suffix h
  | someRun =>
    cases cs with
    | nil => simp [rests] at h
    | cons c cs =>
      simp only [rests] at h
      split at h
      · simp at h
      · exact (restsUpTo_suffix h).trans (List.suffix_cons c cs)
  | _ =>
    cases cs with
    | nil => simp [rests] at h
    | cons c cs =>
      simp only [rests] at h
      split at h <;> simp_all

private theorem slash_mem_rests {g : Glyph} (hg : g.sparesSlash = true) {cs r : Text}
    (hs : '/' ∈ cs) (h : r ∈ g.rests cs) : '/' ∈ r := by
  cases g with
  | run => exact mem_restsUpTo_of_stop hs h
  | set negated ranges => simp [sparesSlash] at hg
  | someRun =>
    cases cs with
    | nil => simp at hs
    | cons c cs =>
      by_cases hc : c = '/'
      · simp [rests, hc] at h
      · simp only [rests, hc, if_false] at h
        exact mem_restsUpTo_of_stop ((List.mem_cons.mp hs).resolve_left (Ne.symm hc)) h
  | char d =>
    cases cs with
    | nil => simp at hs
    | cons c cs =>
      by_cases hc : c = d
      · obtain rfl : r = cs := by simpa [rests, hc] using h
        have hd : c ≠ '/' := by simpa [sparesSlash, hc] using hg
        exact (List.mem_cons.mp hs).resolve_left (Ne.symm hd)
      · simp [rests, hc] at h
  | one =>
    cases cs with
    | nil => simp at hs
    | cons c cs =>
      by_cases hc : c = '/'
      · simp [rests, hc] at h
      · obtain rfl : r = cs := by simpa [rests, hc] using h
        exact (List.mem_cons.mp hs).resolve_left (Ne.symm hc)

end Glyph

/-- Whether the tokens match the beginning of a path. -/
def Matches (ts : List Token) (cs : Text) : Prop :=
  (matchTokens ts cs).isSome = true

private theorem findSome_isSome_iff (f : Text → Option Bool) (rests : List Text) (cs : Text) :
    ((rests ++ [cs]).findSome? f).isSome = true ↔
      (∃ r ∈ rests, (f r).isSome = true) ∨ (f cs).isSome = true := by
  simp [List.findSome?_append, List.findSome?_isSome_iff]

private theorem matches_lead_iff {ts : List Token} {cs : Text} :
    Matches (.lead :: ts) cs ↔ (∃ r ∈ leadRests false cs, Matches ts r) ∨ Matches ts cs := by
  rw [Matches, matchTokens]
  exact findSome_isSome_iff _ _ _

private theorem matches_between_iff {ts : List Token} {cs : Text} :
    Matches (.between :: ts) cs ↔ (∃ r ∈ betweenRests cs, Matches ts r) ∨ Matches ts cs := by
  rw [Matches, matchTokens]
  exact findSome_isSome_iff _ _ _

private theorem matches_glyph_iff {g : Glyph} {ts : List Token} {cs : Text} :
    Matches (.glyph g :: ts) cs ↔ ∃ r ∈ g.rests cs, Matches ts r := by
  simp only [Matches, matchTokens, List.findSome?_isSome_iff]

private theorem matches_slash_iff {ts : List Token} {cs : Text} :
    Matches (.slash :: ts) cs ↔ ∃ r, cs = '/' :: r ∧ Matches ts r := by
  simp only [Matches, matchTokens]
  split
  · simp
  · rename_i h
    simpa using fun r hr => absurd hr (h r)

private theorem matches_markedSlash_iff {ts : List Token} {cs : Text} :
    Matches (.markedSlash :: ts) cs ↔ ∃ r, cs = '/' :: r ∧ Matches ts r := by
  simp only [Matches, matchTokens]
  split
  · simp
  · rename_i h
    simpa using fun r hr => absurd hr (h r)

private theorem matches_finish_iff {ts : List Token} {cs : Text} :
    Matches (.finish :: ts) cs ↔ (∃ r, cs = '/' :: r) ∨ cs = [] ∨ cs = ['\n'] := by
  simp only [Matches, matchTokens]
  split <;> simp_all

/-- No glyph takes a slash, and behind a token that may take one no end is due. -/
def Steady : List Token → Prop
  | [] => True
  | .glyph g :: ts => g.sparesSlash = true ∧ Steady ts
  | .finish :: ts => Steady ts
  | .lead :: ts => ts.head? ≠ some .finish ∧ Steady ts
  | .between :: ts => ts.head? ≠ some .finish ∧ Steady ts
  | .slash :: ts => ts.head? ≠ some .finish ∧ Steady ts
  | .markedSlash :: ts => ts.head? ≠ some .finish ∧ Steady ts

/-- Nothing, or a text that ends with a slash. -/
def Open (cs : Text) : Prop :=
  cs = [] ∨ ['/'] <:+ cs

private theorem Open.of_suffix {cs r : Text} (h : Open cs) (hr : r <:+ cs) : Open r := by
  rcases h with rfl | h
  · exact .inl (List.suffix_nil.mp hr)
  · cases r with
    | nil => exact .inl rfl
    | cons c r => exact .inr (List.suffix_of_suffix_length_le h hr (by simp))

private theorem Open.slash_mem {cs : Text} (h : Open cs) (hne : cs ≠ []) : '/' ∈ cs :=
  (h.resolve_left hne).subset (by simp)

/-- A match of a directory is a match of everything below it.  The induction is on the tokens;
only at the end of the directory can a name be due, and then the name may be empty. -/
theorem Matches.append {ts : List Token} {cs : Text} (hs : Steady ts) (ho : Open cs)
    (hf : cs = [] → ts.head? ≠ some .finish) (h : Matches ts cs) (more : Text) :
    Matches ts (cs ++ more) := by
  induction ts generalizing cs more with
  | nil => rfl
  | cons t ts ih =>
    cases t with
    | lead =>
      refine matches_lead_iff.mpr ?_
      rcases matches_lead_iff.mp h with ⟨r, hr, h⟩ | h
      · exact .inl ⟨r ++ more, leadRests_append hr more,
          ih hs.2 (ho.of_suffix (leadRests_suffix hr)) (fun _ => hs.1) h more⟩
      · exact .inr (ih hs.2 ho (fun _ => hs.1) h more)
    | between =>
      refine matches_between_iff.mpr ?_
      rcases matches_between_iff.mp h with ⟨r, hr, h⟩ | h
      · exact .inl ⟨r ++ more, betweenRests_append hr more,
          ih hs.2 (ho.of_suffix (betweenRests_suffix hr)) (fun _ => hs.1) h more⟩
      · exact .inr (ih hs.2 ho (fun _ => hs.1) h more)
    | slash =>
      obtain ⟨r, rfl, hm⟩ := matches_slash_iff.mp h
      have hr := ho.of_suffix (List.suffix_cons '/' r)
      exact matches_slash_iff.mpr ⟨r ++ more, rfl, ih hs.2 hr (fun _ => hs.1) hm more⟩
    | markedSlash =>
      obtain ⟨r, rfl, hm⟩ := matches_markedSlash_iff.mp h
      have hr := ho.of_suffix (List.suffix_cons '/' r)
      exact matches_markedSlash_iff.mpr ⟨r ++ more, rfl, ih hs.2 hr (fun _ => hs.1) hm more⟩
    | finish =>
      have hslash := ho.slash_mem (fun hc => hf hc rfl)
      refine matches_finish_iff.mpr (.inl ?_)
      rcases matches_finish_iff.mp h with ⟨r, rfl⟩ | rfl | rfl
      · exact ⟨r ++ more, rfl⟩
      · simp at hslash
      · simp at hslash
    | glyph g =>
      refine matches_glyph_iff.mpr ?_
      obtain ⟨r, hr, h⟩ := matches_glyph_iff.mp h
      have hor := ho.of_suffix (Glyph.rests_suffix hr)
      by_cases hcs : cs = []
      · -- the glyph is a run that takes nothing; on the longer path it takes the whole name
        subst hcs
        obtain ⟨rfl, rfl⟩ : g = .run ∧ r = [] := by
          cases g <;> simp_all [Glyph.rests, restsUpTo]
        refine ⟨more.dropWhile (· ≠ '/'), dropWhile_mem_restsUpTo '/' more, ?_⟩
        by_cases hend : ts.head? = some .finish
        · obtain ⟨ts, rfl⟩ := List.head?_eq_some_iff.mp hend
          refine matches_finish_iff.mpr ?_
          cases hd : more.dropWhile (· ≠ '/') with
          | nil => exact .inr (.inl rfl)
          | cons c d =>
            have hc := List.head?_dropWhile_not (· ≠ '/') more
            rw [hd] at hc
            have hc : c = '/' := by simpa using hc
            exact .inl ⟨d, by rw [hc]⟩
        · exact ih hs.2 hor (fun _ => hend) h _
      · have hslash := Glyph.slash_mem_rests hs.1 (ho.slash_mem hcs) hr
        have hne : r ≠ [] := List.ne_nil_of_mem hslash
        exact ⟨r ++ more, Glyph.rests_append hr more,
          ih hs.2 hor (fun hc => absurd hc hne) h more⟩

end CommentedCode.Ignore
