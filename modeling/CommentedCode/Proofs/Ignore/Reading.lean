import CommentedCode.Ignore.Rules
import CommentedCode.Proofs.Ignore.Matching
import CommentedCode.Proofs.Outcome
/-!
# Patterns as they are read

A line without a bracket is read as tokens in which no glyph takes a slash and no end is due
behind one.
-/
namespace CommentedCode.Ignore

/-- Neither a slash nor an opening bracket. -/
def IsPlain (segment : Text) : Prop :=
  '/' ∉ segment ∧ '[' ∉ segment

private theorem IsPlain.tail {c : Char} {cs : Text} (h : IsPlain (c :: cs)) :
    c ≠ '/' ∧ c ≠ '[' ∧ IsPlain cs := by
  simp only [IsPlain, List.mem_cons, not_or] at h
  exact ⟨Ne.symm h.1.1, Ne.symm h.2.1, h.1.2, h.2.2⟩

private theorem isPlain_doubleStar : IsPlain doubleStar := by
  simp [IsPlain, doubleStar]

private theorem glyphs_spare {cs : Text} {gs : List Glyph} (hp : IsPlain cs)
    (h : glyphs cs = .ok gs) : ∀ g ∈ gs, g.sparesSlash = true := by
  fun_induction glyphs cs generalizing gs with
  | case1 =>
    obtain rfl := Except.ok.inj h
    simp
  | case2 c cs ih =>
    obtain ⟨gs, hgs, rfl⟩ := map_ok h
    obtain ⟨hc, -, hp⟩ := hp.tail.2.2.tail
    simpa [Glyph.sparesSlash, hc] using ih hp hgs
  | case3 => cases h
  | case4 cs ih =>
    obtain ⟨gs, hgs, rfl⟩ := map_ok h
    simpa [Glyph.sparesSlash] using ih hp.tail.2.2 hgs
  | case5 cs ih =>
    obtain ⟨gs, hgs, rfl⟩ := map_ok h
    simpa [Glyph.sparesSlash] using ih hp.tail.2.2 hgs
  | case6 => exact absurd rfl hp.tail.2.1
  | case7 => exact absurd rfl hp.tail.2.1
  | case8 c cs _ _ _ _ _ ih =>
    obtain ⟨gs, hgs, rfl⟩ := map_ok h
    simpa [Glyph.sparesSlash, hp.tail.1] using ih hp.tail.2.2 hgs

private theorem glyphs_ne_nil {cs : Text} {gs : List Glyph} (hne : cs ≠ [])
    (h : glyphs cs = .ok gs) : gs ≠ [] := by
  fun_induction glyphs cs with
  | case1 => exact absurd rfl hne
  | case3 => cases h
  | case6 => cases h
  | _ =>
    obtain ⟨gs, -, rfl⟩ := map_ok h
    exact List.cons_ne_nil _ _

private theorem segmentGlyphs_spare {segment : Text} {ts : List Token} (hp : IsPlain segment)
    (h : segmentGlyphs segment = .ok ts) :
    (∀ t ∈ ts, ∃ g, t = .glyph g ∧ g.sparesSlash = true) ∧ (segment ≠ [] → ts ≠ []) := by
  unfold segmentGlyphs at h
  split at h
  · obtain rfl := Except.ok.inj h
    simp [Glyph.sparesSlash]
  · obtain ⟨gs, hgs, rfl⟩ := map_ok h
    refine ⟨?_, ?_⟩
    · intro t ht
      obtain ⟨g, hg, rfl⟩ := List.mem_map.mp ht
      exact ⟨g, rfl, glyphs_spare hp hgs g hg⟩
    · intro hne
      simpa using glyphs_ne_nil hne hgs

private theorem Steady.append_glyphs {here later : List Token}
    (hh : ∀ t ∈ here, ∃ g, t = .glyph g ∧ g.sparesSlash = true) (hl : Steady later) :
    Steady (here ++ later) := by
  induction here with
  | nil => exact hl
  | cons t here ih =>
    obtain ⟨g, rfl, hg⟩ := hh t (by simp)
    exact ⟨hg, ih (fun t ht => hh t (by simp [ht]))⟩

private theorem head_append_glyphs {here later : List Token}
    (hh : ∀ t ∈ here, ∃ g, t = .glyph g ∧ g.sparesSlash = true)
    (hl : here = [] → later.head? ≠ some .finish) :
    (here ++ later).head? ≠ some .finish := by
  cases here with
  | nil => exact hl rfl
  | cons t here =>
    obtain ⟨g, rfl, -⟩ := hh t (by simp)
    simp

/-- What the segments of a line are read as, the first of them alone and then the rest. -/
inductive ReadAs (isDirectory : Bool) : Bool → Bool → List Text → List Token → Prop
  | nil {first joined : Bool} : ReadAs isDirectory first joined [] []
  | lead {joined : Bool} {rest : List Text} {later : List Token} :
    ReadAs isDirectory false false rest later →
    ReadAs isDirectory true joined (doubleStar :: rest) (.lead :: later)
  | inside {joined : Bool} :
    ReadAs isDirectory false joined [doubleStar] [if isDirectory then .markedSlash else .slash]
  | between {joined : Bool} {rest : List Text} {later : List Token} :
    rest ≠ [] → ReadAs isDirectory false true rest later →
    ReadAs isDirectory false joined (doubleStar :: rest) (.between :: later)
  | last {first joined : Bool} {segment : Text} {here : List Token} :
    segment ≠ doubleStar → segmentGlyphs segment = .ok here →
    ReadAs isDirectory first joined [segment]
      ((if joined then [Token.slash] else []) ++ (here ++ [.finish]))
  | name {first joined : Bool} {segment : Text} {rest : List Text} {here later : List Token} :
    segment ≠ doubleStar → segmentGlyphs segment = .ok here → rest ≠ [] →
    ReadAs isDirectory false true rest later → ReadAs isDirectory first joined (segment :: rest)
      ((if joined then [Token.slash] else []) ++ (here ++ later))

theorem readAs_of_tokens {d first joined : Bool} {segments : List Text} {ts : List Token}
    (h : tokens d first joined segments = .ok ts) : ReadAs d first joined segments ts := by
  induction segments generalizing first joined ts with
  | nil =>
    obtain rfl := Except.ok.inj h
    exact .nil
  | cons segment rest ih =>
    rw [tokens] at h
    split at h
    · rename_i hstars
      subst hstars
      cases first with
      | true =>
        obtain ⟨later, hlater, rfl⟩ := map_ok h
        exact .lead (ih hlater)
      | false =>
        by_cases hlast : rest = []
        · simp only [hlast, Bool.false_eq_true, if_false, if_true] at h
          obtain rfl := Except.ok.inj h
          rw [hlast]
          exact .inside
        · simp only [hlast, Bool.false_eq_true, if_false] at h
          obtain ⟨later, hlater, rfl⟩ := map_ok h
          exact .between hlast (ih hlater)
    · rename_i hsegment
      obtain ⟨here, hhere, h⟩ := bind_ok.mp h
      dsimp only at h
      split at h
      · rename_i hlast
        obtain rfl := Except.ok.inj h
        rw [hlast, List.append_assoc]
        exact .last hsegment hhere
      · rename_i hlast
        obtain ⟨later, hlater, h⟩ := bind_ok.mp h
        obtain rfl := Except.ok.inj h
        rw [List.append_assoc]
        exact .name hsegment hhere hlast (ih hlater)

private theorem ReadAs.steady {d first joined : Bool} {segments : List Text} {ts : List Token}
    (h : ReadAs d first joined segments ts) (hp : ∀ s ∈ segments, IsPlain s)
    (hl : segments.getLast? ≠ some []) : Steady ts ∧ ts.head? ≠ some .finish := by
  have hrest {segment : Text} {rest : List Text} (h : (segment :: rest).getLast? ≠ some []) :
      rest.getLast? ≠ some [] := by
    cases rest with
    | nil => exact nofun
    | cons next rest => rwa [List.getLast?_cons_cons] at h
  have hjoined {joined : Bool} {ts : List Token} (hs : Steady ts) (hf : ts.head? ≠ some .finish) :
      Steady ((if joined then [Token.slash] else []) ++ ts) ∧
        ((if joined then [Token.slash] else []) ++ ts).head? ≠ some .finish := by
    cases joined with
    | false => exact ⟨hs, hf⟩
    | true => exact ⟨⟨hf, hs⟩, by simp⟩
  induction h with
  | nil => simp [Steady]
  | lead _ ih | between _ _ ih =>
    obtain ⟨hs, hf⟩ := ih (fun s hs => hp s (List.mem_cons_of_mem _ hs)) (hrest hl)
    exact ⟨⟨hf, hs⟩, by simp⟩
  | inside => cases d <;> simp [Steady]
  | @last first joined segment here _ hhere =>
    obtain ⟨hspare, hne⟩ := segmentGlyphs_spare (hp segment (by simp)) hhere
    have hsegment : segment ≠ [] := by
      rintro rfl
      exact hl rfl
    have hend : Steady [Token.finish] := trivial
    exact hjoined (hend.append_glyphs hspare)
      (head_append_glyphs hspare fun hnil => absurd hnil (hne hsegment))
  | @name first joined segment rest here later _ hhere _ _ ih =>
    obtain ⟨hspare, -⟩ := segmentGlyphs_spare (hp segment (by simp)) hhere
    obtain ⟨hs, hf⟩ := ih (fun s hs => hp s (List.mem_cons_of_mem _ hs)) (hrest hl)
    exact hjoined (hs.append_glyphs hspare) (head_append_glyphs hspare fun _ => hf)

/-! ### The segments of a line -/

theorem not_mem_of_mem_splitOn (sep : Char) (cs : Text) : ∀ part ∈ Text.splitOn sep cs,
    sep ∉ part := by
  induction cs with
  | nil => simp [Text.splitOn]
  | cons c cs ih =>
    intro part hpart
    rw [Text.splitOn] at hpart
    split at hpart
    · rcases List.mem_cons.mp hpart with rfl | hpart
      · simp
      · exact ih part hpart
    · rename_i hc
      split at hpart
      · obtain rfl := List.mem_singleton.mp hpart
        simpa using Ne.symm hc
      · rename_i first parts heq
        rw [heq] at ih
        rcases List.mem_cons.mp hpart with rfl | hpart
        · simpa [Ne.symm hc] using ih first (by simp)
        · exact ih part (by simp [hpart])

theorem mem_of_mem_splitOn {sep : Char} {cs part : Text} (h : part ∈ Text.splitOn sep cs) :
    part ⊆ cs := by
  induction cs generalizing part with
  | nil =>
    obtain rfl : part = [] := by simpa [Text.splitOn] using h
    simp
  | cons c cs ih =>
    rw [Text.splitOn] at h
    split at h
    · rcases List.mem_cons.mp h with rfl | h
      · simp
      · exact List.Subset.trans (ih h) (List.subset_cons_self c cs)
    · split at h
      · obtain rfl := List.mem_singleton.mp h
        simp
      · rename_i first parts heq
        rw [heq] at ih
        rcases List.mem_cons.mp h with rfl | h
        · exact List.cons_subset_cons c (ih (by simp))
        · exact List.Subset.trans (ih (by simp [h])) (List.subset_cons_self c cs)

private theorem isPlain_of_mem_splitOn {line part : Text} (hb : '[' ∉ line)
    (h : part ∈ Text.splitOn '/' line) : IsPlain part :=
  ⟨not_mem_of_mem_splitOn '/' line part h, fun hm => hb (mem_of_mem_splitOn h hm)⟩

theorem mem_anchor {segments : List Text} {s : Text} (h : s ∈ anchor segments) :
    s ∈ segments ∨ s = doubleStar := by
  unfold anchor at h
  split at h
  · exact .inl (List.mem_cons_of_mem _ h)
  · split at h
    · exact .inl h
    · exact (List.mem_cons.mp h).symm
  · split at h
    · exact .inl h
    · exact (List.mem_cons.mp h).symm
  · exact .inl h

theorem mem_openEnd {segments : List Text} {s : Text} (h : s ∈ openEnd segments) :
    s ∈ segments ∨ s = doubleStar := by
  fun_induction openEnd segments with
  | case1 => exact .inl h
  | case2 => exact .inr (List.mem_singleton.mp h)
  | case3 segment rest _ ih =>
    rcases List.mem_cons.mp h with rfl | h
    · simp
    · exact (ih h).imp_left (List.mem_cons_of_mem _)

private theorem getLast_openEnd (segments : List Text) : (openEnd segments).getLast? ≠ some [] := by
  fun_induction openEnd segments with
  | case1 => simp
  | case2 => simp [doubleStar]
  | case3 segment rest h ih =>
    cases hr : openEnd rest with
    | nil =>
      have hrest : rest = [] := by
        unfold openEnd at hr
        split at hr <;> simp_all
      subst hrest
      simpa using h
    | cons next later =>
      rw [List.getLast?_cons_cons, ← hr]
      exact ih

theorem mem_collapse {segments : List Text} {s : Text} (h : s ∈ collapse segments) :
    s ∈ segments := by
  fun_induction collapse segments with
  | case1 => exact h
  | case2 segment rest next later heq _ ih =>
    rw [heq] at ih
    exact List.mem_cons_of_mem _ (ih h)
  | case3 segment rest next later heq _ ih =>
    rw [heq] at ih
    rcases List.mem_cons.mp h with rfl | h
    · simp
    · exact List.mem_cons_of_mem _ (ih h)
  | case4 segment rest heq ih =>
    rw [List.mem_singleton.mp h]
    simp

private theorem getLast_collapse (segments : List Text) :
    (collapse segments).getLast? = segments.getLast? := by
  have hcons (segment next : Text) (rest later : List Text)
      (h : (next :: later).getLast? = rest.getLast?) :
      (next :: later).getLast? = (segment :: rest).getLast? := by
    cases rest with
    | nil => simp at h
    | cons first rest => rw [List.getLast?_cons_cons, h]
  fun_induction collapse segments with
  | case1 => rfl
  | case2 segment rest next later heq _ ih => exact hcons _ _ _ _ (heq ▸ ih)
  | case3 segment rest next later heq _ ih =>
    rw [List.getLast?_cons_cons]
    exact hcons _ _ _ _ (heq ▸ ih)
  | case4 segment rest heq ih =>
    rw [heq] at ih
    have hrest : rest = [] := by simpa using ih.symm
    rw [hrest]

/-! ### Patterns and rules -/

def Shape.IsSteady : Shape → Prop
  | .anchored ts => Steady ts ∧ ts.head? ≠ some .finish
  | _ => True

private theorem shapeOf_steady {d : Bool} {segments : List Text} {shape : Shape}
    (hp : ∀ s ∈ segments, IsPlain s) (hl : segments.getLast? ≠ some [])
    (h : shapeOf d segments = .ok shape) : shape.IsSteady := by
  unfold shapeOf at h
  split at h
  · obtain rfl := Except.ok.inj h
    cases d <;> trivial
  · split at h
    · obtain rfl := Except.ok.inj h
      trivial
    · split at h
      · obtain rfl := Except.ok.inj h
        trivial
      · obtain ⟨ts, hts, rfl⟩ := map_ok h
        exact (readAs_of_tokens hts).steady hp hl

/-- A line that neither negates nor holds a bracket. -/
def IsPlainLine (line : Text) : Prop :=
  line.head? ≠ some '!' ∧ '[' ∉ line

instance (line : Text) : Decidable (IsPlainLine line) :=
  inferInstanceAs (Decidable (_ ∧ _))

theorem Pattern.read_ok {line : Text} {p : Pattern} (hline : line.head? ≠ some '!')
    (h : Pattern.read? line = .ok (some p)) : p.ignores = true ∧
      shapeOf ((Text.splitOn '/' line).getLast? = some [])
        (collapse (openEnd (anchor (Text.splitOn '/' line)))) = .ok p.shape := by
  unfold read? at h
  split at h
  · cases h
  · split at h
    rename_i ignores body heq
    split at heq
    · exact absurd rfl hline
    · obtain ⟨rfl, rfl⟩ := Prod.mk.inj heq
      dsimp only at h
      split at h
      · cases h
      · split at h
        · cases h
        · cases h
        · rename_i hshape
          split at h
          · cases h
          · obtain rfl := Option.some.inj (Except.ok.inj h)
            exact ⟨rfl, hshape⟩

private theorem Pattern.read_steady {line : Text} {p : Pattern} (hp : IsPlainLine line)
    (h : Pattern.read? line = .ok (some p)) : p.ignores = true ∧ p.shape.IsSteady := by
  let segments := collapse (openEnd (anchor (Text.splitOn '/' line)))
  have hplain : ∀ s ∈ segments, IsPlain s := by
    intro s hs
    rcases mem_openEnd (mem_collapse hs) with hs | rfl
    · rcases mem_anchor hs with hs | rfl
      · exact isPlain_of_mem_splitOn hp.2 hs
      · exact isPlain_doubleStar
    · exact isPlain_doubleStar
  have hlast : segments.getLast? ≠ some [] := by
    rw [getLast_collapse]
    exact getLast_openEnd _
  obtain ⟨hignores, hshape⟩ := Pattern.read_ok hp.1 h
  exact ⟨hignores, shapeOf_steady hplain hlast hshape⟩

private theorem Shape.match_append {shape : Shape} {cs : Text} (hs : shape.IsSteady) (ho : Open cs)
    (h : (shape.match? cs).isSome = true) (more : Text) :
    (shape.match? (cs ++ more)).isSome = true := by
  cases shape with
  | everything =>
    by_cases hany : cs.any (· ≠ '\n') = true
    · simp only [Shape.match?, List.any_append, hany, Bool.true_or, if_true, Option.isSome_some]
    · rw [Shape.match?, if_neg hany] at h
      cases h
  | nested marked =>
    by_cases hslash : '/' ∈ cs
    · simp [Shape.match?, hslash]
    · simp [Shape.match?, hslash] at h
  | anchored ts => exact Matches.append hs.1 ho (fun _ => hs.2) h more

namespace Rules

theorem readAll_cons_ok {line : Text} {lines : List Text} {rules : Rules} :
    readAll (line :: lines) = .ok rules ↔ ∃ first rest, Pattern.read? line = .ok first ∧
      readAll lines = .ok rest ∧ rules = first.toList ++ rest := by
  have hread : readAll (line :: lines) = Pattern.read? line >>= fun first =>
      readAll lines >>= fun rest => .ok (first.toList ++ rest) := rfl
  simp only [hread, bind_ok, Except.ok.injEq, exists_and_left, eq_comm (a := rules)]

theorem mem_readAll {lines : List Text} {rules : Rules} {p : Pattern}
    (h : readAll lines = .ok rules) (hp : p ∈ rules) :
    ∃ line ∈ lines, Pattern.read? line = .ok (some p) := by
  induction lines generalizing rules with
  | nil =>
    obtain rfl := Except.ok.inj h
    simp at hp
  | cons line lines ih =>
    obtain ⟨first, rest, hfirst, hrest, rfl⟩ := readAll_cons_ok.mp h
    rcases List.mem_append.mp hp with hp | hp
    · obtain rfl := Option.mem_toList.mp hp
      exact ⟨line, by simp, hfirst⟩
    · obtain ⟨l, hl, hread⟩ := ih hrest hp
      exact ⟨l, by simp [hl], hread⟩

/-- Rules read from lines whose patterns neither negate nor hold a bracket. -/
def IsPlain (rules : Rules) : Prop :=
  ∃ lines, ofLines? lines = .ok (some rules) ∧ ∀ line ∈ patternLines lines, IsPlainLine line

private theorem IsPlain.steady {rules : Rules} (h : rules.IsPlain) :
    ∀ p ∈ rules, p.ignores = true ∧ p.shape.IsSteady := by
  intro p hp
  obtain ⟨lines, hread, hplain⟩ := h
  unfold ofLines? at hread
  dsimp only at hread
  split at hread
  · cases hread
  · obtain ⟨all, hall, heq⟩ := map_ok hread
    obtain rfl := Option.some.inj heq
    obtain ⟨line, hline, hp⟩ := mem_readAll hall hp
    exact Pattern.read_steady (hplain line hline) hp

private theorem ignores_iff {rules : Rules} (h : ∀ p ∈ rules, p.ignores = true) (path : Text) :
    rules.ignores path = true ↔
      ∃ p ∈ rules, (p.shape.match? (normalPath path)).isSome = true := by
  have hmem {p : Pattern} {marked : Bool} : (p, marked) ∈ hits rules path ↔
      p ∈ rules ∧ p.shape.match? (normalPath path) = some marked := by
    simp [hits]
  unfold ignores
  constructor
  · intro hi
    dsimp only at hi
    split at hi
    · rename_i p marked heq
      have hp : (p, marked) ∈ hits rules path := by
        rcases Option.or_eq_some_iff.mp heq with hf | ⟨-, hh⟩
        · exact List.mem_of_find?_eq_some hf
        · exact List.mem_of_head? hh
      obtain ⟨hp, hm⟩ := hmem.mp hp
      exact ⟨p, hp, by simp [hm]⟩
    · cases hi
  · intro ⟨p, hp, hm⟩
    obtain ⟨marked, hm⟩ := Option.isSome_iff_exists.mp hm
    have hhit := hmem.mpr ⟨hp, hm⟩
    dsimp only
    split
    · rename_i q marked heq
      have hq : (q, marked) ∈ hits rules path := by
        rcases Option.or_eq_some_iff.mp heq with hf | ⟨-, hh⟩
        · exact List.mem_of_find?_eq_some hf
        · exact List.mem_of_head? hh
      exact h q (hmem.mp hq).1
    · rename_i heq
      have hnil := (Option.or_eq_none_iff.mp heq).2
      rw [List.head?_eq_none_iff.mp hnil] at hhit
      simp at hhit

private theorem normalPath_directory (d more : Text) :
    normalPath (d ++ '/' :: more) = normalPath (d ++ ['/']) ++ more ∧
      Open (normalPath (d ++ ['/'])) := by
  have hopen (cs : Text) : Open (cs ++ ['/']) := .inr (List.suffix_append cs _)
  rcases d with _ | ⟨c, d⟩
  · exact ⟨rfl, .inl rfl⟩
  by_cases hslash : c = '/'
  · subst hslash
    exact ⟨by simp [normalPath], hopen d⟩
  by_cases hdot : c = '.'
  · subst hdot
    rcases d with _ | ⟨e, d⟩
    · exact ⟨rfl, .inl rfl⟩
    by_cases he : e = '/'
    · subst he
      exact ⟨by simp [normalPath], hopen d⟩
    · exact ⟨by simp [normalPath, he], by simpa [normalPath, he] using hopen ('.' :: e :: d)⟩
  · exact ⟨by simp [normalPath, hslash, hdot],
      by simpa [normalPath, hslash, hdot] using hopen (c :: d)⟩

theorem IsPlain.ignores_below {rules : Rules} (h : rules.IsPlain) {d : Text}
    (hd : rules.ignores (d ++ ['/']) = true) (more : Text) :
    rules.ignores (d ++ '/' :: more) = true := by
  have hall : ∀ p ∈ rules, p.ignores = true := fun p hp => (h.steady p hp).1
  obtain ⟨hpath, hopen⟩ := normalPath_directory d more
  obtain ⟨p, hp, hm⟩ := (ignores_iff hall _).mp hd
  refine (ignores_iff hall _).mpr ⟨p, hp, ?_⟩
  rw [hpath]
  exact Shape.match_append (h.steady p hp).2 hopen hm more

end Rules
end CommentedCode.Ignore
