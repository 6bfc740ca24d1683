import CommentedCode.Evidence.Measure
/-!
# Occurrences without overlaps

Counting from the left finds as many occurrences of a token as can be chosen without overlaps.
So the parts of a text have no more occurrences together than the whole.  Characters that the
token does not have, in front of a text or behind it, make no difference.
-/
namespace CommentedCode.Text

open scoped Naturals

section Scan

variable {token : Text}

private theorem countFrom_drop (token : Text) (skip : Nat) (cs : Text) :
    countFrom token skip cs = countFrom token 0 (cs.drop skip) := by
  induction skip generalizing cs with
  | zero => rfl
  | succ skip ih =>
    cases cs with
    | nil => rfl
    | cons c cs => exact ih cs

private theorem countFrom_token_append (h : token ≠ []) (cs : Text) :
    countFrom token 0 (token ++ cs) = 1 + countFrom token 0 cs := by
  cases token with
  | nil => exact absurd rfl h
  | cons t ts =>
    have hstarts : startsWith ((t :: ts) ++ cs) (t :: ts) = true := startsWith_iff.mpr ⟨cs, rfl⟩
    rw [List.cons_append] at hstarts ⊢
    rw [countFrom, if_pos hstarts, countFrom_drop, List.length_cons, Nat.add_sub_cancel,
      List.drop_left]

private theorem countFrom_cons_of_not {c : Char} {cs : Text}
    (h : ¬startsWith (c :: cs) token = true) :
    countFrom token 0 (c :: cs) = countFrom token 0 cs := by
  rw [countFrom, if_neg h]

end Scan

/-- So many occurrences of `token` can be chosen in a text without overlaps. -/
inductive Occurs (token : Text) : Nat → Text → Prop
  | none (cs : Text) : Occurs token 0 cs
  | skip (c : Char) {n : Nat} {cs : Text} : Occurs token n cs → Occurs token n (c :: cs)
  | take {n : Nat} {cs : Text} : Occurs token n cs → Occurs token (n + 1) (token ++ cs)

namespace Occurs

variable {token : Text} {m n : Nat} {as bs cs : Text}

theorem behind (h : Occurs token n cs) (front : Text) : Occurs token n (front ++ cs) := by
  induction front with
  | nil => exact h
  | cons c front ih => exact ih.skip c

theorem append (ha : Occurs token m as) (hb : Occurs token n bs) :
    Occurs token (m + n) (as ++ bs) := by
  induction ha with
  | none cs =>
    rw [Nat.zero_add]
    exact hb.behind cs
  | skip c _ ih => exact ih.skip c
  | take _ ih =>
    rw [List.append_assoc, Nat.add_right_comm]
    exact ih.take

private theorem of_succ (h : Occurs token (n + 1) cs) : Occurs token n cs := by
  generalize hm : n + 1 = m at h
  induction h generalizing n with
  | none cs => cases hm
  | skip c _ ih => exact (ih hm).skip c
  | take h _ =>
    obtain rfl := Nat.succ.inj hm
    exact h.behind token

/-- As many characters as the token has cost at most one occurrence. -/
theorem drop (h : Occurs token (n + 1) cs) {k : Nat} (hk : k ≤ token.length) :
    Occurs token n (cs.drop k) := by
  generalize hm : n + 1 = m at h
  induction h generalizing n k with
  | none cs => cases hm
  | skip c h ih =>
    cases k with
    | zero => exact (hm ▸ h).of_succ.skip c
    | succ k => exact ih (Nat.le_of_succ_le hk) hm
  | take h _ =>
    obtain rfl := Nat.succ.inj hm
    rw [List.drop_append_of_le_length hk]
    exact h.behind _

/-- No choice has more occurrences than are counted: if the first character of an occurrence
that is counted is not chosen, giving up one occurrence makes room for this one. -/
theorem le_countFrom (ht : token ≠ []) (h : Occurs token n cs) : n ≤ countFrom token 0 cs := by
  generalize hlen : cs.length = len
  induction len using Nat.strongRecOn generalizing n cs with
  | ind len ih =>
    cases h with
    | none => exact Nat.zero_le _
    | @take m rest h =>
      have hpos := List.length_pos_iff.mpr ht
      have hshort : rest.length < len := by
        rw [← hlen, List.length_append]
        omega
      have hrest := ih _ hshort h rfl
      rw [countFrom_token_append ht]
      omega
    | @skip c _ rest h =>
      have hshort : rest.length < len := by
        rw [← hlen, List.length_cons]
        omega
      by_cases hs : startsWith (c :: rest) token = true
      · cases n with
        | zero => exact Nat.zero_le _
        | succ n =>
          have hdrop : Occurs token n (rest.drop (token.length - 1)) := h.drop (by omega)
          have hless : (rest.drop (token.length - 1)).length < len := by
            rw [List.length_drop]
            omega
          have hrest := ih _ hless hdrop rfl
          rw [countFrom, if_pos hs, countFrom_drop]
          omega
      · rw [countFrom_cons_of_not hs]
        exact ih _ hshort h rfl

end Occurs

theorem occurs_countFrom {token : Text} (ht : token ≠ []) (cs : Text) :
    Occurs token (countFrom token 0 cs) cs := by
  generalize hlen : cs.length = len
  induction len using Nat.strongRecOn generalizing cs with
  | ind len ih =>
    cases cs with
    | nil => exact .none []
    | cons c cs =>
      by_cases hs : startsWith (c :: cs) token = true
      · obtain ⟨rest, hrest⟩ := startsWith_iff.mp hs
        have hpos := List.length_pos_iff.mpr ht
        have hshort : rest.length < len := by
          rw [← hlen, hrest, List.length_append]
          omega
        rw [hrest, countFrom_token_append ht, Nat.add_comm]
        exact (ih _ hshort rest rfl).take
      · rw [countFrom_cons_of_not hs]
        exact (ih _ (hlen ▸ Nat.lt_succ_self _) cs rfl).skip c

theorem count_append_le {token : Text} (ht : token ≠ []) (as bs : Text) :
    count as token + count bs token ≤ count (as ++ bs) token := by
  simp only [count, if_neg ht]
  exact ((occurs_countFrom ht as).append (occurs_countFrom ht bs)).le_countFrom ht

theorem countAll_append_le {tokens : List Text} (ht : ∀ token ∈ tokens, token ≠ [])
    (as bs : Text) :
    countAll as tokens + countAll bs tokens ≤ countAll (as ++ bs) tokens := by
  induction tokens with
  | nil => exact Nat.le_refl 0
  | cons token tokens ih =>
    rw [List.forall_mem_cons] at ht
    have hfirst := count_append_le ht.1 as bs
    have hrest := ih ht.2
    simp only [countAll, List.map_cons, List.sum_cons] at hrest ⊢
    omega

/-! ### Other characters around -/

section Around

variable {token front back : Text}

theorem count_behind (ht : token ≠ []) (hf : ∀ c ∈ front, c ∉ token) (cs : Text) :
    count (front ++ cs) token = count cs token := by
  simp only [count, if_neg ht]
  induction front with
  | nil => rfl
  | cons c front ih =>
    rw [List.forall_mem_cons] at hf
    have hstarts : ¬startsWith (c :: (front ++ cs)) token = true := by
      intro hs
      obtain ⟨rest, hrest⟩ := startsWith_iff.mp hs
      cases token with
      | nil => exact ht rfl
      | cons t ts => exact hf.1 (List.mem_cons.mpr (.inl (List.cons.inj hrest).1))
    rw [List.cons_append, countFrom_cons_of_not hstarts]
    exact ih hf.2

private theorem startsWith_append (hb : ∀ c ∈ back, c ∉ token) (cs : Text) :
    startsWith (cs ++ back) token = startsWith cs token := by
  rw [Bool.eq_iff_iff, startsWith_iff, startsWith_iff]
  constructor
  · intro ⟨rest, hrest⟩
    rcases List.append_eq_append_iff.mp hrest with ⟨more, rfl, hback⟩ | ⟨more, rfl, -⟩
    · cases more with
      | nil => exact ⟨[], by simp⟩
      | cons c more =>
        have hc : c ∈ back := by simp [hback]
        exact absurd (by simp) (hb c hc)
    · exact ⟨more, rfl⟩
  · intro ⟨rest, hrest⟩
    exact ⟨rest ++ back, by rw [hrest, List.append_assoc]⟩

theorem count_before (ht : token ≠ []) (hb : ∀ c ∈ back, c ∉ token) (cs : Text) :
    count (cs ++ back) token = count cs token := by
  have hscan (skip : Nat) : countFrom token skip (cs ++ back) = countFrom token skip cs := by
    induction cs generalizing skip with
    | nil =>
      have hrest : ∀ c ∈ back.drop skip, c ∉ token := fun c hc => hb c (List.mem_of_mem_drop hc)
      have hnone := count_behind ht hrest []
      simp only [count, if_neg ht, List.append_nil] at hnone
      rw [List.nil_append, countFrom_drop, hnone, countFrom, countFrom]
    | cons c cs ih =>
      cases skip with
      | zero =>
        have hstarts := startsWith_append hb (c :: cs)
        rw [List.cons_append] at hstarts ⊢
        rw [countFrom, countFrom, hstarts, ih, ih]
      | succ skip => exact ih skip
  simp only [count, if_neg ht, hscan]

end Around

end CommentedCode.Text
