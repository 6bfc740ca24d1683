import CommentedCode.Proofs.Decimal.Literal
import CommentedCode.Settings.Basic
/-!
# Values that name a property

A key names a property only if it is the text of its name: what is displayed of any other value
begins with a character with which no name begins.
-/
namespace CommentedCode

namespace Property

/-- The characters with which names begin. -/
def initials : List Char :=
  ['c', 's', 'm', 'e', 'r', 'j']

/-- A text that begins as no name does. -/
def IsForeign (cs : Text) : Prop :=
  ∃ c rest, cs = c :: rest ∧ c ∉ initials

private theorem exists_initial (p : Property) : ∃ c ∈ initials, p.name.toList.head? = some c := by
  cases p <;> exact ⟨_, by decide, rfl⟩

private theorem isForeign_of_isDigit {cs : Text} (h : ∃ d rest, cs = d :: rest ∧ d.isDigit = true) :
    IsForeign cs := by
  obtain ⟨d, rest, rfl, hd⟩ := h
  have hletters : initials.all (!·.isDigit) = true := rfl
  refine ⟨d, rest, rfl, fun hmem => ?_⟩
  have hletter : (!d.isDigit) = true := List.all_eq_true.mp hletters d hmem
  rw [hd] at hletter
  cases hletter

private theorem isForeign_minus (cs : Text) : IsForeign ('-' :: cs) :=
  ⟨'-', cs, rfl, by decide⟩

private theorem IsForeign.ofName?_eq_none {cs : Text} (h : IsForeign cs) : ofName? cs = none := by
  obtain ⟨c, rest, rfl, hforeign⟩ := h
  refine List.find?_eq_none.mpr fun p _ hp => hforeign ?_
  obtain ⟨first, hfirst, hhead⟩ := exists_initial p
  rw [of_decide_eq_true hp, List.head?_cons] at hhead
  exact Option.some.inj hhead ▸ hfirst

end Property

private theorem exists_decimalDigits (n : Nat) :
    ∃ d rest, decimalDigits n = d :: rest ∧ d.isDigit = true := by
  obtain ⟨d, rest, heq⟩ := List.exists_cons_of_ne_nil (Nat.toDigits_ne_nil (n := n) (b := 10))
  exact ⟨d, rest, heq, Nat.isDigit_of_mem_toDigits (by decide) (by decide)
    (heq ▸ List.mem_cons_self)⟩

namespace Property

private theorem isForeign_decimal (d : Decimal) : IsForeign d.text := by
  obtain ⟨cs, htext, hunsigned⟩ := d.exists_unsigned
  rw [htext]
  split
  · exact isForeign_minus cs
  · obtain ⟨c, hc, hdigit⟩ := hunsigned.head
    obtain ⟨rest, hcs⟩ := List.head?_eq_some_iff.mp hc
    exact isForeign_of_isDigit ⟨c, rest, hcs, hdigit⟩

private theorem isForeign_floatText (x : Float) : IsForeign (floatText x) := by
  unfold floatText Numeral.text
  split
  · exact isForeign_decimal _
  · split
    · exact isForeign_minus _
    · exact ⟨'i', _, rfl, by decide⟩
  · exact ⟨'n', _, rfl, by decide⟩

private theorem isForeign_intText (n : Int) : IsForeign (intText n) := by
  unfold intText
  split
  · exact isForeign_minus _
  · exact isForeign_of_isDigit (exists_decimalDigits _)

private theorem isForeign_date (year month day : Nat) :
    IsForeign (Value.date year month day).display := by
  obtain ⟨d, rest, hdigits, hd⟩ := exists_decimalDigits year
  apply isForeign_of_isDigit
  rw [Value.display, Value.padded]
  cases hzeros : zeros (4 - (decimalDigits year).length) with
  | nil => exact ⟨d, _, by rw [hdigits]; rfl, hd⟩
  | cons c more =>
    have hc : c = '0' := List.eq_of_mem_replicate (hzeros ▸ List.mem_cons_self)
    exact ⟨c, _, rfl, hc ▸ rfl⟩

theorem isForeign_display {v : Value} (h : ∀ cs, v ≠ .text cs) : IsForeign v.display := by
  cases v with
  | text cs => exact absurd rfl (h cs)
  | int n => exact isForeign_intText n
  | float x => exact isForeign_floatText x
  | date y m d => exact isForeign_date y m d
  | bool b => cases b <;> exact ⟨_, _, rfl, by decide⟩
  | tuple items =>
    change IsForeign (Value.tuple items).literal
    rw [Value.literal_tuple]
    split <;> exact ⟨'(', _, rfl, by decide⟩
  | _ => exact ⟨_, _, rfl, by decide⟩

theorem eq_text_of_ofName? {key : Value} {p : Property} (h : ofName? key.display = some p) :
    key = .text p.name.toList := by
  by_cases htext : ∃ cs, key = .text cs
  · obtain ⟨cs, rfl⟩ := htext
    have hname := List.find?_some (p := fun q : Property => decide (q.name.toList = cs)) h
    rw [of_decide_eq_true hname]
  · rw [(isForeign_display (not_exists.mp htext)).ofName?_eq_none] at h
    cases h

end Property
end CommentedCode
