/-!
# Text

Text is a list of characters, so that every rule about it is a recursion on the list.
-/
namespace CommentedCode

abbrev Text := List Char

namespace Text

/-- Parts between separators; there is always at least one. -/
def splitOn (sep : Char) : Text → List Text
  | [] => [[]]
  | c :: cs =>
    if c = sep then [] :: splitOn sep cs
    else match splitOn sep cs with
      | [] => [[c]]
      | part :: parts => (c :: part) :: parts

def join (sep : Text) (parts : List Text) : Text :=
  sep.intercalate parts

theorem join_singleton (sep part : Text) : join sep [part] = part :=
  List.intercalate_singleton

theorem join_cons (sep part : Text) {parts : List Text} (h : parts ≠ []) :
    join sep (part :: parts) = part ++ (sep ++ join sep parts) := by
  rw [join, List.intercalate_cons_of_ne_nil h, List.append_assoc]
  rfl

theorem join_concat (sep : Text) (parts : List Text) (last : Text) :
    join sep (parts ++ [last]) = parts.flatMap (· ++ sep) ++ last := by
  induction parts with
  | nil => exact join_singleton sep last
  | cons part parts ih =>
    rw [List.cons_append, join_cons sep part (by simp), ih, List.flatMap_cons]
    simp only [List.append_assoc]

/-- The rest after `lead`, if the text begins with it. -/
def after? : Text → Text → Option Text
  | [], cs => some cs
  | _ :: _, [] => none
  | l :: ls, c :: cs => if l = c then after? ls cs else none

theorem after?_eq_some_iff {lead cs rest : Text} :
    after? lead cs = some rest ↔ cs = lead ++ rest := by
  induction lead generalizing cs with
  | nil => simp [after?]
  | cons l ls ih =>
    cases cs with
    | nil => simp [after?]
    | cons c cs =>
      by_cases h : l = c
      · simp [after?, h, ih]
      · simp [after?, h, Ne.symm h]

def startsWith (cs lead : Text) : Bool :=
  (after? lead cs).isSome

theorem startsWith_iff {cs lead : Text} :
    startsWith cs lead = true ↔ ∃ rest, cs = lead ++ rest := by
  simp only [startsWith, Option.isSome_iff_exists, after?_eq_some_iff]

def dropLastWhile (p : Char → Bool) (cs : Text) : Text :=
  (cs.reverse.dropWhile p).reverse

/-- Replaces every occurrence of `old`, found from the left; `old` is not empty. -/
def replaceAll (old new : Text) (cs : Text) : Text :=
  go 0 cs
where
  go : Nat → Text → Text
    | _, [] => []
    | skip + 1, _ :: cs => go skip cs
    | 0, c :: cs =>
      if startsWith (c :: cs) old then new ++ go (old.length - 1) cs else c :: go 0 cs

section Replace

variable {old : Text} (new : Text)

private theorem replaceAll_drop (skip : Nat) (cs : Text) :
    replaceAll.go old new skip cs = replaceAll old new (cs.drop skip) := by
  induction skip generalizing cs with
  | zero => rfl
  | succ skip ih =>
    cases cs with
    | nil => rfl
    | cons c cs => exact ih cs

theorem replaceAll_append (h : old ≠ []) (cs : Text) :
    replaceAll old new (old ++ cs) = new ++ replaceAll old new cs := by
  cases old with
  | nil => exact absurd rfl h
  | cons o os =>
    have hstarts : startsWith (o :: (os ++ cs)) (o :: os) = true := startsWith_iff.mpr ⟨cs, rfl⟩
    rw [List.cons_append, replaceAll, replaceAll.go, if_pos hstarts, replaceAll_drop,
      List.length_cons, Nat.add_sub_cancel, List.drop_left]

theorem replaceAll_cons_of_not {c : Char} {cs : Text} (h : ¬startsWith (c :: cs) old = true) :
    replaceAll old new (c :: cs) = c :: replaceAll old new cs := by
  rw [replaceAll, replaceAll.go, if_neg h]
  rfl

end Replace

/-- Order by code points, a prefix first. -/
def lt (a b : Text) : Bool :=
  decide (a < b)

end Text
end CommentedCode
