import CommentedCode.Comment.Segment
import Mathlib.Data.List.Infix
/-!
# The segmentation of a source

The plain lexical rule says what may stand at the front of a source, without a scanner.  Its
segments are determined by the source, and they cover it where every literal and every block
comment has an end.
-/
namespace CommentedCode

/-- What may follow an opening quote, the closing one included. -/
inductive QuoteBody (quote : Char) : Text → Prop
  | close : QuoteBody quote [quote]
  | escape {cs : Text} (c : Char) : QuoteBody quote cs → QuoteBody quote ('\\' :: c :: cs)
  | char {c : Char} {cs : Text} :
      c ≠ '\\' → c ≠ quote → QuoteBody quote cs → QuoteBody quote (c :: cs)

/-- What may follow the opener of a text block, the closing quotes included. -/
inductive BlockBody : Text → Prop
  | close : BlockBody ['"', '"', '"']
  | escape {cs : Text} (c : Char) : BlockBody cs → BlockBody ('\\' :: c :: cs)
  | char {c : Char} {cs : Text} :
      c ≠ '\\' → ¬['"', '"', '"'] <+: c :: cs → BlockBody cs → BlockBody (c :: cs)

def OpensComment (cs : Text) : Prop :=
  ['/', '/'] <+: cs ∨ ['/', '*'] <+: cs

instance (cs : Text) : Decidable (OpensComment cs) :=
  inferInstanceAs (Decidable (_ ∨ _))

/-- `Begins s rest` says that `s` is the first segment of a source that goes on with `rest`. -/
inductive Begins : Segment → Text → Prop
  | block {body rest : Text} :
      BlockBody body → Begins (.literal ('"' :: '"' :: '"' :: body)) rest
  | string {body rest : Text} :
      QuoteBody '"' body → ¬['"', '"'] <+: body ++ rest → Begins (.literal ('"' :: body)) rest
  | char {body rest : Text} : QuoteBody '\'' body → Begins (.literal ('\'' :: body)) rest
  | lineComment {body rest : Text} :
      '\n' ∉ body → (∀ c ∈ rest.head?, c = '\n') →
        Begins (.comment ('/' :: '/' :: body)) rest
  | blockComment {body rest : Text} :
      ¬['*', '/'] <:+: body ++ ['*'] →
        Begins (.comment ('/' :: '*' :: (body ++ ['*', '/']))) rest
  | other {c : Char} {rest : Text} :
      c ≠ '"' → c ≠ '\'' → ¬OpensComment (c :: rest) → Begins (.other c) rest

/-- `Cut segs source rest` says that `source` begins with the segments `segs` and goes on with
`rest`. -/
inductive Cut : List Segment → Text → Text → Prop
  | nil {rest : Text} : Cut [] rest rest
  | cons {s : Segment} {segs : List Segment} {mid rest : Text} :
      Begins s mid → Cut segs mid rest → Cut (s :: segs) (s.text ++ mid) rest

def Segmented (segs : List Segment) (source : Text) : Prop :=
  Cut segs source []

/-- `Closes body cs` says that `cs` begins with a `body`. -/
def Closes (body : Text → Prop) (cs : Text) : Prop :=
  ∃ text rest, body text ∧ cs = text ++ rest

/-- A literal or a block comment opens at the front and has no end. -/
inductive Unclosed : Text → Prop
  | block {cs : Text} : ¬Closes BlockBody cs → Unclosed ('"' :: '"' :: '"' :: cs)
  | string {cs : Text} :
      ¬['"', '"'] <+: cs → ¬Closes (QuoteBody '"') cs → Unclosed ('"' :: cs)
  | char {cs : Text} : ¬Closes (QuoteBody '\'') cs → Unclosed ('\'' :: cs)
  | comment {cs : Text} : ¬['*', '/'] <:+: cs → Unclosed ('/' :: '*' :: cs)

/-- Every literal and every block comment of a source has an end. -/
def Terminated (source : Text) : Prop :=
  ∀ segs rest, Cut segs source rest → ¬Unclosed rest

namespace Segment

private theorem spanQuote_body {quote : Char} (hq : quote ≠ '\\') {body : Text}
    (h : QuoteBody quote body) (rest : Text) :
    spanQuote quote (body ++ rest) = (body, rest) := by
  induction h with
  | close =>
    rw [List.singleton_append, spanQuote]
    · simp
    · intro c cs hc
      exact absurd hc hq
  | escape c _ ih => rw [List.cons_append, List.cons_append, spanQuote, ih]
  | char hb hc _ ih =>
    rw [List.cons_append, spanQuote, if_neg hc, ih]
    intro c cs hc
    exact absurd hc hb

private theorem three_le_length {body : Text} (h : BlockBody body) : 3 ≤ body.length := by
  induction h with
  | close => simp
  | escape c _ ih => simp only [List.length_cons]; omega
  | char _ _ _ ih => simp only [List.length_cons]; omega

private theorem spanBlock_body {body : Text} (h : BlockBody body) (rest : Text) :
    spanBlock (body ++ rest) = (body, rest) := by
  induction h with
  | close => rfl
  | escape c _ ih => rw [List.cons_append, List.cons_append, spanBlock, ih]
  | @char c cs hb hquotes hbody ih =>
    rw [List.cons_append, spanBlock, ih]
    · intro d ds hc
      exact absurd hc hb
    · intro tail hc heq
      -- the body has room for the three quotes, so they would not reach into the rest
      have hlength := three_le_length hbody
      obtain ⟨d, e, cs, rfl⟩ : ∃ d e cs', cs = d :: e :: cs' := by
        match cs, hlength with
        | d :: e :: cs', _ => exact ⟨d, e, cs', rfl⟩
      simp only [List.cons_append, List.cons.injEq] at heq
      obtain ⟨rfl, rfl, -⟩ := heq
      exact hquotes ⟨cs, by rw [hc]; rfl⟩

private theorem spanComment?_body {body : Text} (h : ¬['*', '/'] <:+: body ++ ['*']) (rest : Text) :
    spanComment? (body ++ ['*', '/'] ++ rest) = some (body ++ ['*', '/'], rest) := by
  induction body with
  | nil => rfl
  | cons c body ih =>
    have htail : ¬['*', '/'] <:+: body ++ ['*'] :=
      fun hin => h (hin.trans (List.suffix_cons c _).isInfix)
    rw [List.cons_append, List.cons_append, spanComment?, ih htail]
    · rfl
    · intro tail hc heq
      apply h
      cases body with
      | nil => simp at heq
      | cons d body =>
        simp only [List.cons_append, List.cons.injEq] at heq
        obtain ⟨rfl, -⟩ := heq
        exact ⟨[], body ++ ['*'], by simp [hc]⟩

private theorem spanLine_body {body rest : Text} (hbody : '\n' ∉ body)
    (hrest : ∀ c ∈ rest.head?, c = '\n') : spanLine (body ++ rest) = (body, rest) := by
  have hp (c : Char) (hc : c ∈ body) : decide (c ≠ '\n') = true :=
    decide_eq_true fun h => hbody (h ▸ hc)
  rw [spanLine, List.takeWhile_append_of_pos hp, List.dropWhile_append_of_pos hp]
  cases rest with
  | nil => simp
  | cons c rest =>
    obtain rfl := hrest c rfl
    simp

end Segment

theorem Begins.next {s : Segment} {rest : Text} (h : Begins s rest) :
    ∃ c cs, s.text ++ rest = c :: cs ∧ Segment.next c cs = (s, rest) := by
  cases h with
  | @block body _ hbody =>
    refine ⟨'"', '"' :: '"' :: (body ++ rest), rfl, ?_⟩
    rw [Segment.next, Segment.spanBlock_body hbody]
  | @string body _ hbody hquotes =>
    refine ⟨'"', body ++ rest, rfl, ?_⟩
    rw [Segment.next, Segment.spanQuote_body (by decide) hbody]
    intro cs heq
    exact hquotes ⟨cs, heq.symm⟩
  | @char body _ hbody =>
    refine ⟨'\'', body ++ rest, rfl, ?_⟩
    rw [Segment.next, Segment.spanQuote_body (by decide) hbody]
  | @lineComment body _ hbody hrest =>
    refine ⟨'/', '/' :: (body ++ rest), rfl, ?_⟩
    rw [Segment.next, Segment.spanLine_body hbody hrest]
  | @blockComment body _ hbody =>
    refine ⟨'/', '*' :: (body ++ ['*', '/'] ++ rest), rfl, ?_⟩
    rw [Segment.next, Segment.spanComment?_body hbody]
  | @other c _ hd hq hopen =>
    refine ⟨c, rest, rfl, ?_⟩
    rw [Segment.next]
    · exact fun hc => absurd hc hd
    · exact fun hc => absurd hc hq
    · exact fun _ hc => absurd hc hd
    · intro cs hc hrest
      exact hopen (Or.inl ⟨cs, by rw [hc, hrest]; rfl⟩)
    · intro cs hc hrest
      exact hopen (Or.inr ⟨cs, by rw [hc, hrest]; rfl⟩)

theorem Begins.unique {s t : Segment} {rest mid : Text} (hs : Begins s rest) (ht : Begins t mid)
    (h : s.text ++ rest = t.text ++ mid) : s = t ∧ rest = mid := by
  obtain ⟨c, cs, hc, hnext⟩ := hs.next
  obtain ⟨d, ds, hd, hnext'⟩ := ht.next
  obtain ⟨rfl, rfl⟩ : c = d ∧ cs = ds := by simpa using hc.symm.trans (h.trans hd)
  simpa using hnext.symm.trans hnext'

theorem Begins.ne_nil {s : Segment} {rest : Text} (h : Begins s rest) : s.text ≠ [] := by
  cases h <;> simp [Segment.text]

namespace Cut

theorem append {segs more : List Segment} {source mid rest : Text} (h : Cut segs source mid)
    (hmore : Cut more mid rest) : Cut (segs ++ more) source rest := by
  induction h with
  | nil => exact hmore
  | cons hs _ ih => exact .cons hs (ih hmore)

theorem source_eq {segs : List Segment} {source rest : Text} (h : Cut segs source rest) :
    source = segs.flatMap Segment.text ++ rest := by
  induction h with
  | nil => rfl
  | cons _ _ ih => rw [List.flatMap_cons, List.append_assoc, ← ih]

theorem begins {front back : List Segment} {s : Segment} {source rest : Text}
    (h : Cut (front ++ s :: back) source rest) : Begins s (back.flatMap Segment.text ++ rest) := by
  induction front generalizing source with
  | nil =>
    cases h with
    | cons hs hrest =>
      rw [← hrest.source_eq]
      exact hs
  | cons t front ih =>
    cases h with
    | cons _ hrest => exact ih hrest

private theorem rest_segmented {segs all : List Segment} {source rest : Text}
    (h : Cut segs source rest) (hall : Segmented all source) :
    ∃ more, all = segs ++ more ∧ Segmented more rest := by
  induction h generalizing all with
  | nil => exact ⟨all, rfl, hall⟩
  | @cons s segs mid rest hs _ ih =>
    obtain ⟨source, hsource⟩ : ∃ source, source = s.text ++ mid := ⟨_, rfl⟩
    rw [← hsource] at hall
    cases hall with
    | nil =>
      have hnil := List.append_eq_nil_iff.mp hsource.symm
      exact absurd hnil.1 hs.ne_nil
    | @cons t more mid' _ ht hmore =>
      obtain ⟨rfl, rfl⟩ := ht.unique hs hsource
      obtain ⟨tail, rfl, htail⟩ := ih hmore
      exact ⟨tail, rfl, htail⟩

private theorem all_eq {segs : List Segment} {source rest : Text} (h : Cut segs source rest) :
    Segment.all source = segs ++ Segment.all rest := by
  induction h with
  | nil => rfl
  | cons hs _ ih =>
    obtain ⟨c, cs, hc, hnext⟩ := hs.next
    rw [hc, Segment.all, hnext, ih]
    rfl

end Cut

theorem Segmented.eq_all {segs : List Segment} {source : Text} (h : Segmented segs source) :
    segs = Segment.all source := by
  rw [Cut.all_eq h, Segment.all, List.append_nil]

theorem Segmented.source_eq {segs : List Segment} {source : Text} (h : Segmented segs source) :
    source = segs.flatMap Segment.text := by
  rw [← List.append_nil (segs.flatMap Segment.text)]
  exact Cut.source_eq h

private theorem exists_first_close {cs : Text} (h : ['*', '/'] <:+: cs) :
    ∃ body rest, cs = body ++ ['*', '/'] ++ rest ∧ ¬['*', '/'] <:+: body ++ ['*'] := by
  induction cs with
  | nil => simp at h
  | cons c cs ih =>
    by_cases hfront : ['*', '/'] <+: c :: cs
    · obtain ⟨rest, hrest⟩ := hfront
      exact ⟨[], rest, hrest.symm, by decide⟩
    · have htail : ['*', '/'] <:+: cs := (List.infix_cons_iff.mp h).resolve_left hfront
      obtain ⟨body, rest, rfl, hfirst⟩ := ih htail
      refine ⟨c :: body, rest, rfl, ?_⟩
      intro hin
      rcases List.infix_cons_iff.mp hin with hpre | hin
      · apply hfront
        refine hpre.trans ⟨'/' :: rest, ?_⟩
        simp
      · exact hfirst hin

private theorem exists_line (cs : Text) :
    ∃ body rest, cs = body ++ rest ∧ '\n' ∉ body ∧ ∀ c ∈ rest.head?, c = '\n' := by
  refine ⟨(Segment.spanLine cs).1, (Segment.spanLine cs).2, (Segment.spanLine_append cs).symm,
    ?_, ?_⟩
  · intro hmem
    have hall : ∀ c ∈ cs.takeWhile (· ≠ '\n'), decide (c ≠ '\n') = true :=
      List.all_eq_true.mp List.all_takeWhile
    exact absurd (hall '\n' hmem) (by decide)
  · intro c hc
    have h := List.head?_dropWhile_not (fun d => decide (d ≠ '\n')) cs
    change c ∈ (cs.dropWhile (· ≠ '\n')).head? at hc
    rw [Option.mem_def] at hc
    rw [hc] at h
    simpa using h

private theorem exists_begins {source : Text} (hne : source ≠ []) (h : ¬Unclosed source) :
    ∃ s rest, source = s.text ++ rest ∧ Begins s rest := by
  obtain ⟨c, cs, rfl⟩ := List.exists_cons_of_ne_nil hne
  by_cases hd : c = '"'
  · subst hd
    by_cases hquotes : ['"', '"'] <+: cs
    · obtain ⟨ds, rfl⟩ := hquotes
      by_cases hclose : Closes BlockBody ds
      · obtain ⟨body, rest, hb, rfl⟩ := hclose
        exact ⟨_, rest, rfl, .block hb⟩
      · exact absurd (.block hclose) h
    · by_cases hclose : Closes (QuoteBody '"') cs
      · obtain ⟨body, rest, hb, rfl⟩ := hclose
        exact ⟨_, rest, rfl, .string hb hquotes⟩
      · exact absurd (.string hquotes hclose) h
  by_cases hq : c = '\''
  · subst hq
    by_cases hclose : Closes (QuoteBody '\'') cs
    · obtain ⟨body, rest, hb, rfl⟩ := hclose
      exact ⟨_, rest, rfl, .char hb⟩
    · exact absurd (.char hclose) h
  by_cases hline : ['/', '/'] <+: c :: cs
  · obtain ⟨ds, hds⟩ := hline
    obtain ⟨rfl, rfl⟩ : '/' = c ∧ '/' :: ds = cs := by simpa using hds
    obtain ⟨body, rest, rfl, hbody, hrest⟩ := exists_line ds
    exact ⟨_, rest, rfl, .lineComment hbody hrest⟩
  by_cases hblock : ['/', '*'] <+: c :: cs
  · obtain ⟨ds, hds⟩ := hblock
    obtain ⟨rfl, rfl⟩ : '/' = c ∧ '*' :: ds = cs := by simpa using hds
    by_cases hclose : ['*', '/'] <:+: ds
    · obtain ⟨body, rest, rfl, hfirst⟩ := exists_first_close hclose
      exact ⟨_, rest, rfl, .blockComment hfirst⟩
    · exact absurd (.comment hclose) h
  · exact ⟨.other c, cs, rfl, .other hd hq (not_or.mpr ⟨hline, hblock⟩)⟩

private theorem Begins.not_unclosed {s : Segment} {rest : Text} (h : Begins s rest) :
    ¬Unclosed (s.text ++ rest) := by
  intro hopen
  cases h with
  | @block body _ hbody =>
    cases hopen with
    | block hnone => exact hnone ⟨body, rest, hbody, rfl⟩
    | string hquotes _ => exact hquotes ⟨body ++ rest, rfl⟩
  | @string body _ hbody hquotes =>
    change Unclosed ('"' :: (body ++ rest)) at hopen
    generalize hcs : body ++ rest = cs at hopen
    cases hopen with
    | block _ => exact hquotes ⟨_, hcs.symm⟩
    | string _ hnone => exact hnone ⟨body, rest, hbody, hcs.symm⟩
  | @char body _ hbody =>
    change Unclosed ('\'' :: (body ++ rest)) at hopen
    cases hopen with
    | char hnone => exact hnone ⟨body, rest, hbody, rfl⟩
  | lineComment _ _ => cases hopen
  | @blockComment body _ _ =>
    cases hopen with
    | comment hnone => exact hnone ⟨body, rest, rfl⟩
  | @other c _ hd hq hcomment =>
    change Unclosed (c :: rest) at hopen
    cases hopen with
    | block _ => exact hd rfl
    | string _ _ => exact hd rfl
    | char _ => exact hq rfl
    | @comment cs _ => exact hcomment (Or.inr ⟨cs, rfl⟩)

/-- The source has a segmentation just when everything in it is closed. -/
theorem terminated_iff {source : Text} : Terminated source ↔ ∃ segs, Segmented segs source := by
  constructor
  · intro h
    induction hn : source.length using Nat.strongRecOn generalizing source with
    | ind n ih =>
      by_cases hne : source = []
      · exact ⟨[], hne ▸ .nil⟩
      · obtain ⟨s, rest, rfl, hs⟩ := exists_begins hne (h [] source .nil)
        have hlength : rest.length < n := by
          have hpos := List.length_pos_iff.mpr hs.ne_nil
          rw [List.length_append] at hn
          omega
        have hrest : Terminated rest := fun segs tail hcut => h (s :: segs) tail (.cons hs hcut)
        obtain ⟨segs, hsegs⟩ := ih rest.length hlength hrest rfl
        exact ⟨s :: segs, .cons hs hsegs⟩
  · intro ⟨segs, hsegs⟩ front rest hcut hopen
    obtain ⟨more, -, hmore⟩ := hcut.rest_segmented hsegs
    cases hmore with
    | nil => cases hopen
    | cons hs _ => exact hs.not_unclosed hopen

/-- A source in which everything is closed has one segmentation, and the scanner finds it. -/
theorem Terminated.segmented {source : Text} (h : Terminated source) :
    Segmented (Segment.all source) source := by
  obtain ⟨segs, hsegs⟩ := terminated_iff.mp h
  rwa [← hsegs.eq_all]

private theorem close_of_spanComment? {cs body rest : Text}
    (h : Segment.spanComment? cs = some (body, rest)) : ['*', '/'] <:+: cs := by
  fun_induction Segment.spanComment? cs generalizing body rest with
  | case1 => simp at h
  | case2 cs => exact ⟨[], cs, rfl⟩
  | case3 c cs _ ih =>
    obtain ⟨⟨inner, tail⟩, hs, -⟩ := Option.map_eq_some_iff.mp h
    exact (ih hs).trans (List.suffix_cons c cs).isInfix

/-- A comment that the scanner finds is closed, also where something else is not. -/
theorem Begins.of_next {c : Char} {cs text rest : Text}
    (h : Segment.next c cs = (.comment text, rest)) : Begins (.comment text) rest := by
  unfold Segment.next at h
  split at h
  · simp at h
  · simp at h
  · simp at h
  · rename_i cs
    obtain ⟨body, tail, rfl, hbody, htail⟩ := exists_line cs
    rw [Segment.spanLine_body hbody htail] at h
    simp only [Prod.mk.injEq, Segment.comment.injEq] at h
    obtain ⟨rfl, rfl⟩ := h
    exact .lineComment hbody htail
  · rename_i cs
    split at h
    · rename_i hspan
      obtain ⟨inner, tail, rfl, hfirst⟩ := exists_first_close (close_of_spanComment? hspan)
      rw [Segment.spanComment?_body hfirst] at hspan
      simp only [Option.some.injEq, Prod.mk.injEq, Segment.comment.injEq] at h hspan
      obtain ⟨rfl, rfl⟩ := hspan
      obtain ⟨rfl, rfl⟩ := h
      exact .blockComment hfirst
    · simp at h
  · simp at h

theorem Segment.begins_of_mem {source text : Text} (h : .comment text ∈ Segment.all source) :
    ∃ rest, Begins (.comment text) rest := by
  fun_induction Segment.all source with
  | case1 => simp at h
  | case2 c cs ih =>
    rcases List.mem_cons.mp h with hhead | htail
    · exact ⟨(Segment.next c cs).2, .of_next (Prod.ext hhead.symm rfl)⟩
    · exact ih htail

end CommentedCode
