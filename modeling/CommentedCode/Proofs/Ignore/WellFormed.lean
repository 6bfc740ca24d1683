import CommentedCode.Proofs.Ignore.Reading
/-!
# Well-formed patterns

A line without a bracket reads as a pattern unless nothing or only a sign of negation stands in
it, or a backslash ends one of its segments and escapes nothing.
-/
namespace CommentedCode.Ignore

/-- A line that reads as a pattern. -/
def WellFormed (line : Text) : Prop :=
  ∃ p, Pattern.read? line = .ok p

/-- Whether the last character is a backslash that nothing follows to be taken as it is. -/
def leavesEscape : Text → Bool
  | [] => false
  | '\\' :: _ :: cs => leavesEscape cs
  | ['\\'] => true
  | _ :: cs => leavesEscape cs

private theorem returnsIff_glyphs {cs : Text} (hb : '[' ∉ cs) :
    ReturnsIff (leavesEscape cs = false) (· = .danglingEscape) (glyphs cs) := by
  fun_induction glyphs cs with
  | case1 => exact .of_ok ⟨[], rfl⟩ rfl
  | case2 c cs ih =>
    rw [leavesEscape]
    exact (ih (by simp_all)).map _
  | case3 => exact .of_error ⟨_, rfl, rfl⟩ (by simp [leavesEscape])
  | case4 cs ih => exact (ih (by simp_all)).map _
  | case5 cs ih => exact (ih (by simp_all)).map _
  | case6 => simp at hb
  | case7 => simp at hb
  | case8 c cs hpair hend _ _ _ ih =>
    rw [leavesEscape]
    · exact (ih (by simp_all)).map _
    · exact hpair
    · exact hend

private theorem returnsIff_segmentGlyphs {segment : Text} (hb : '[' ∉ segment) :
    ReturnsIff (leavesEscape segment = false) (· = .danglingEscape) (segmentGlyphs segment) := by
  rw [segmentGlyphs]
  split
  · rename_i hstar
    exact .of_ok ⟨_, rfl⟩ (hstar ▸ rfl)
  · exact (returnsIff_glyphs hb).map _

private theorem returnsIff_tokens (isDirectory : Bool) {segments : List Text}
    (hb : ∀ segment ∈ segments, '[' ∉ segment) (first joined : Bool) :
    ReturnsIff (∀ segment ∈ segments, leavesEscape segment = false) (· = .danglingEscape)
      (tokens isDirectory first joined segments) := by
  induction segments generalizing first joined with
  | nil => exact .of_ok ⟨[], rfl⟩ nofun
  | cons segment rest ih =>
    obtain ⟨hsegment, hrest⟩ := List.forall_mem_cons.mp hb
    rw [List.forall_mem_cons, tokens]
    split
    · rename_i hstars
      have hnone : leavesEscape segment = false := hstars ▸ rfl
      split
      · exact ((ih hrest _ _).map _).congr (by simp [hnone])
      · split
        · rename_i hlast
          exact .of_ok ⟨_, rfl⟩ ⟨hnone, by simp [hlast]⟩
        · exact ((ih hrest _ _).map _).congr (by simp [hnone])
    · refine (returnsIff_segmentGlyphs hsegment).bind fun here => ?_
      dsimp only
      by_cases hlast : rest = []
      · rw [if_pos hlast]
        exact .of_ok ⟨_, rfl⟩ (by simp [hlast])
      · rw [if_neg hlast]
        exact (ih hrest false true).map fun later =>
          (if joined then [.slash] else []) ++ here ++ later

private theorem returnsIff_shapeOf (isDirectory : Bool) {segments : List Text}
    (hb : ∀ segment ∈ segments, '[' ∉ segment) :
    ReturnsIff (∀ segment ∈ segments, leavesEscape segment = false) (· = .danglingEscape)
      (shapeOf isDirectory segments) := by
  unfold shapeOf
  split
  · rename_i h
    exact .of_ok ⟨_, rfl⟩ (h ▸ by decide)
  split
  · rename_i h
    exact .of_ok ⟨_, rfl⟩ (h ▸ by decide)
  split
  · rename_i h
    exact .of_ok ⟨_, rfl⟩ (h ▸ by decide)
  · exact (returnsIff_tokens isDirectory hb _ _).map _

/-! ### No ranges without brackets -/

private theorem glyphs_unbroken {cs : Text} {gs : List Glyph}
    (hb : '[' ∉ cs) (h : glyphs cs = .ok gs) : ∀ g ∈ gs, g.isBroken = false := by
  fun_induction glyphs cs generalizing gs with
  | case1 =>
    obtain rfl := Except.ok.inj h
    exact List.forall_mem_nil _
  | case3 => cases h
  | case6 => simp at hb
  | case7 => simp at hb
  | case2 c cs ih | case4 cs ih | case5 cs ih | case8 c cs _ _ _ _ _ ih =>
    obtain ⟨later, hlater, rfl⟩ := map_ok h
    exact List.forall_mem_cons.mpr ⟨rfl, ih (by simp_all) hlater⟩

/-- No token holds a range in the wrong order. -/
def Unbroken (ts : List Token) : Prop :=
  ∀ g, .glyph g ∈ ts → g.isBroken = false

theorem Unbroken.nil : Unbroken [] :=
  fun _ h => absurd h List.not_mem_nil

theorem Unbroken.single {t : Token} (h : ∀ g, t ≠ .glyph g) : Unbroken [t] :=
  fun g hg => absurd (List.mem_singleton.mp hg).symm (h g)

theorem Unbroken.append {as bs : List Token} (ha : Unbroken as) (hb : Unbroken bs) :
    Unbroken (as ++ bs) :=
  fun g hg => (List.mem_append.mp hg).elim (ha g) (hb g)

private theorem segmentGlyphs_unbroken {segment : Text} {ts : List Token} (hb : '[' ∉ segment)
    (h : segmentGlyphs segment = .ok ts) : Unbroken ts := by
  unfold segmentGlyphs at h
  split at h
  · obtain rfl := Except.ok.inj h
    intro g hg
    obtain rfl := Token.glyph.inj (List.mem_singleton.mp hg)
    rfl
  · obtain ⟨gs, hgs, rfl⟩ := map_ok h
    intro g hg
    obtain ⟨g', hg', heq⟩ := List.mem_map.mp hg
    obtain rfl := Token.glyph.inj heq
    exact glyphs_unbroken hb hgs g' hg'

theorem ReadAs.unbroken {d first joined : Bool} {segments : List Text} {ts : List Token}
    (h : ReadAs d first joined segments ts) (hb : ∀ segment ∈ segments, '[' ∉ segment) :
    Unbroken ts := by
  have hjoined {joined : Bool} {ts : List Token} (h : Unbroken ts) :
      Unbroken ((if joined then [Token.slash] else []) ++ ts) := by
    cases joined with
    | false => exact h
    | true => exact (Unbroken.single (by simp)).append h
  induction h with
  | nil => exact .nil
  | lead _ ih | between _ _ ih =>
    exact (Unbroken.single (by simp)).append (ih fun s hs => hb s (List.mem_cons_of_mem _ hs))
  | inside => cases d <;> exact .single (by simp)
  | @last first joined segment here _ hhere =>
    have hunbroken := segmentGlyphs_unbroken (hb segment (by simp)) hhere
    exact hjoined (hunbroken.append (.single (by simp)))
  | @name first joined segment rest here later _ hhere _ _ ih =>
    have hunbroken := segmentGlyphs_unbroken (hb segment (by simp)) hhere
    exact hjoined (hunbroken.append (ih fun s hs => hb s (List.mem_cons_of_mem _ hs)))

private theorem shapeOf_unbroken {d : Bool} {segments : List Text} {shape : Shape}
    (hb : ∀ segment ∈ segments, '[' ∉ segment) (h : shapeOf d segments = .ok shape) :
    shape.isBroken = false := by
  unfold shapeOf at h
  split at h
  · obtain rfl := Except.ok.inj h
    cases d <;> rfl
  split at h
  · obtain rfl := Except.ok.inj h
    rfl
  split at h
  · obtain rfl := Except.ok.inj h
    rfl
  · obtain ⟨ts, hts, rfl⟩ := map_ok h
    have hunbroken := (readAs_of_tokens hts).unbroken hb
    rw [Shape.isBroken, List.any_eq_false]
    intro t ht
    cases t with
    | glyph g => simp [hunbroken g ht]
    | _ => exact Bool.false_ne_true

/-! ### The segments of a pattern -/

private theorem mem_collapse_iff {segments : List Text} {s : Text} :
    s ∈ collapse segments ↔ s ∈ segments := by
  refine ⟨mem_collapse, fun h => ?_⟩
  fun_induction collapse segments with
  | case1 => exact h
  | case2 segment rest next later heq hstars ih =>
    rw [heq] at ih
    rcases List.mem_cons.mp h with rfl | h
    · rw [hstars.1, hstars.2]
      exact List.mem_cons_self
    · exact ih h
  | case3 segment rest next later heq _ ih =>
    rw [heq] at ih
    exact List.mem_cons.mpr ((List.mem_cons.mp h).imp_right ih)
  | case4 segment rest heq ih =>
    rw [heq] at ih
    exact List.mem_cons.mpr ((List.mem_cons.mp h).imp_right ih)

private theorem mem_openEnd_of_mem {segments : List Text} {s : Text} (h : s ∈ segments)
    (hs : s ≠ []) : s ∈ openEnd segments := by
  fun_induction openEnd segments with
  | case1 => exact h
  | case2 => exact absurd (List.mem_singleton.mp h) hs
  | case3 segment rest _ ih => exact List.mem_cons.mpr ((List.mem_cons.mp h).imp_right ih)

private theorem mem_anchor_of_mem {segments : List Text} {s : Text} (h : s ∈ segments)
    (hs : s ≠ []) : s ∈ anchor segments := by
  unfold anchor
  split
  · exact (List.mem_cons.mp h).resolve_left hs
  · split
    · exact h
    · exact List.mem_cons_of_mem _ h
  · split
    · exact h
    · exact List.mem_cons_of_mem _ h
  · exact h

/-- What holds of an empty segment and of two stars holds of the segments of a pattern if it
holds of those that are written. -/
theorem forall_segments_iff {p : Text → Prop} (hempty : p []) (hstars : p doubleStar)
    (written : List Text) :
    (∀ s ∈ collapse (openEnd (anchor written)), p s) ↔ ∀ s ∈ written, p s := by
  constructor
  · intro h s hs
    by_cases hne : s = []
    · exact hne ▸ hempty
    · exact h s (mem_collapse_iff.mpr (mem_openEnd_of_mem (mem_anchor_of_mem hs hne) hne))
  · intro h s hs
    rcases mem_openEnd (mem_collapse hs) with hs | rfl
    · rcases mem_anchor hs with hs | rfl
      · exact h s hs
      · exact hstars
    · exact hstars

private theorem exists_splitOn_cons (sep c : Char) (cs : Text) :
    ∃ part parts, Text.splitOn sep cs = part :: parts ∧
      Text.splitOn sep (c :: cs) =
        if c = sep then [] :: part :: parts else (c :: part) :: parts := by
  have hne : Text.splitOn sep cs ≠ [] := by
    cases cs with
    | nil => exact List.cons_ne_nil _ _
    | cons d ds =>
      rw [Text.splitOn]
      split
      · exact List.cons_ne_nil _ _
      · split <;> exact List.cons_ne_nil _ _
  obtain ⟨part, parts, hparts⟩ := List.exists_cons_of_ne_nil hne
  refine ⟨part, parts, hparts, ?_⟩
  rw [Text.splitOn, hparts]

private theorem segments_ne_nil {body : Text} (h : body ≠ []) :
    collapse (openEnd (anchor (Text.splitOn '/' body))) ≠ [] := by
  have hcollapse {segments : List Text} (hs : openEnd segments ≠ []) :
      collapse (openEnd segments) ≠ [] := by
    obtain ⟨segment, rest, heq⟩ := List.exists_cons_of_ne_nil hs
    exact List.ne_nil_of_mem (mem_collapse_iff.mpr (heq ▸ List.mem_cons_self : segment ∈ _))
  apply hcollapse
  obtain ⟨c, cs, rfl⟩ := List.exists_cons_of_ne_nil h
  obtain ⟨part, parts, -, heq⟩ := exists_splitOn_cons '/' c cs
  rw [heq]
  split
  · change openEnd (part :: parts) ≠ []
    unfold openEnd
    split <;> simp_all
  · have hmem : c :: part ∈ anchor ((c :: part) :: parts) :=
      mem_anchor_of_mem List.mem_cons_self (List.cons_ne_nil _ _)
    exact List.ne_nil_of_mem (mem_openEnd_of_mem hmem (List.cons_ne_nil _ _))

/-! ### Lines -/

/-- What makes a line without a bracket a pattern. -/
structure IsClosed (line : Text) : Prop where
  ne_nil : line ≠ []
  ne_negation : line ≠ ['!']
  segments : ∀ segment ∈ Text.splitOn '/' line, leavesEscape segment = false

private theorem leavesEscape_cons {c : Char} (h : c ≠ '\\') (cs : Text) :
    leavesEscape (c :: cs) = leavesEscape cs := by
  rw [leavesEscape]
  · exact fun _ _ hc => absurd hc h
  · exact fun hc => absurd hc h

private theorem isClosed_negation {body : Text} : IsClosed ('!' :: body) ↔
    body ≠ [] ∧ ∀ segment ∈ Text.splitOn '/' body, leavesEscape segment = false := by
  have hsegments : (∀ segment ∈ Text.splitOn '/' ('!' :: body), leavesEscape segment = false) ↔
      ∀ segment ∈ Text.splitOn '/' body, leavesEscape segment = false := by
    obtain ⟨part, parts, heq, hcons⟩ := exists_splitOn_cons '/' '!' body
    rw [hcons, if_neg (by decide), heq, List.forall_mem_cons, List.forall_mem_cons,
      leavesEscape_cons (by decide)]
  constructor
  · intro h
    exact ⟨fun hnil => h.ne_negation (hnil ▸ rfl), hsegments.mp h.segments⟩
  · intro ⟨hne, h⟩
    exact ⟨List.cons_ne_nil _ _, fun heq => hne (List.cons.inj heq).2, hsegments.mpr h⟩

theorem wellFormed_iff {line : Text} (hb : '[' ∉ line) : WellFormed line ↔ IsClosed line := by
  unfold WellFormed Pattern.read?
  split
  · rename_i hslash
    subst hslash
    exact ⟨fun _ => ⟨by decide, by decide, by decide⟩, fun _ => ⟨none, rfl⟩⟩
  split
  rename_i ignores body heq
  obtain ⟨hbody, hclosed⟩ : '[' ∉ body ∧ (IsClosed line ↔
      body ≠ [] ∧ ∀ segment ∈ Text.splitOn '/' body, leavesEscape segment = false) := by
    split at heq
    · obtain ⟨-, rfl⟩ := Prod.mk.inj heq
      exact ⟨fun h => hb (List.mem_cons_of_mem _ h), isClosed_negation⟩
    · rename_i hnegation
      obtain ⟨-, rfl⟩ := Prod.mk.inj heq
      exact ⟨hb, fun h => ⟨h.ne_nil, h.segments⟩,
        fun h => ⟨h.1, fun hline => hnegation [] hline, h.2⟩⟩
  rw [hclosed]
  by_cases hne : body = []
  · subst hne
    exact ⟨nofun, fun h => absurd rfl h.1⟩
  have hplain : ∀ s ∈ collapse (openEnd (anchor (Text.splitOn '/' body))), '[' ∉ s :=
    (forall_segments_iff (by decide) (by decide) _).mpr
      fun s hs h => hbody (mem_of_mem_splitOn hs h)
  dsimp only
  split
  · rename_i hnil
    exact absurd hnil (segments_ne_nil hne)
  have hshape := (returnsIff_shapeOf (decide ((Text.splitOn '/' body).getLast? = some []))
    hplain).congr (forall_segments_iff (p := fun s => leavesEscape s = false) rfl rfl _)
  by_cases hall : ∀ segment ∈ Text.splitOn '/' body, leavesEscape segment = false
  · obtain ⟨shape, heq⟩ := hshape.returns hall
    rw [heq]
    simp only [shapeOf_unbroken hplain heq, Bool.false_eq_true, if_false]
    exact ⟨fun _ => ⟨hne, hall⟩, fun _ => ⟨_, rfl⟩⟩
  · obtain ⟨e, heq, rfl⟩ := hshape.fails hall
    rw [heq]
    exact ⟨nofun, fun h => absurd h.2 hall⟩

/-! ### Rules -/

private theorem returnsIff_readAll (lines : List Text) :
    ReturnsIff (∀ line ∈ lines, WellFormed line) (fun _ => True) (Rules.readAll lines) := by
  induction lines with
  | nil => exact .of_ok ⟨[], rfl⟩ nofun
  | cons line lines ih =>
    have hfirst : ReturnsIff (WellFormed line) (fun _ => True) (Pattern.read? line) := by
      refine ⟨id, fun hn => ?_⟩
      cases hr : Pattern.read? line with
      | ok p => exact absurd ⟨p, hr⟩ hn
      | error e => exact ⟨e, rfl, trivial⟩
    have hboth := hfirst.bind fun p => ih.bind fun rest =>
      ReturnsIff.of_ok (c := True) ⟨p.toList ++ rest, rfl⟩ trivial
    exact hboth.congr (by rw [List.forall_mem_cons, and_true])

theorem returnsIff_ofLines? (lines : List Text) :
    ReturnsIff (∀ line ∈ Rules.patternLines lines, WellFormed line) (fun _ => True)
      (Rules.ofLines? lines) := by
  simp only [Rules.ofLines?]
  split
  · rename_i hnone
    rw [hnone]
    exact .of_ok ⟨none, rfl⟩ nofun
  · exact (returnsIff_readAll _).map some

end CommentedCode.Ignore
