import CommentedCode.Proofs.Decimal.Literal
import CommentedCode.Proofs.Report.Violations
import CommentedCode.Value.Display
/-!
# Two places

A value is given to two places as the number that its literal is: rounded to the nearest
hundredth, halves away from zero, with its sign, and written with a point and two digits.  A larger
number is never shown as a smaller one, so that no message shows a probability below the threshold
that it reached.
-/
namespace CommentedCode

/-! ### The text -/

/-- A whole number as it is written: the first digit is a zero only if it is alone. -/
structure IsWhole (cs : Text) : Prop where
  ne_nil : cs ≠ []
  digits : ∀ c ∈ cs, c.isDigit = true
  leading : cs.head? = some '0' → cs = ['0']

private theorem eq_zero_of_head? {n : Nat} (h : (decimalDigits n).head? = some '0') : n = 0 := by
  induction n using Nat.strong_induction_on with
  | _ n ih =>
    rw [decimalDigits, Nat.toDigits_eq_if (by decide)] at h
    split at h
    · rename_i hlt
      have hall : ∀ k < 10, k.digitChar = '0' → k = 0 := by decide
      exact hall n hlt (Option.some.inj h)
    · rename_i hge
      rw [List.head?_append_of_ne_nil _ Nat.toDigits_ne_nil] at h
      have hrest := ih (n / 10) (by omega) h
      omega

private theorem isWhole_decimalDigits (n : Nat) : IsWhole (decimalDigits n) where
  ne_nil := decimalDigits_ne_nil n
  digits := all_isDigit_decimalDigits n
  leading h := by
    rw [eq_zero_of_head? h]
    rfl

namespace Decimal

/-- A text that shows a number of hundredths: a minus if it is negative, a whole number, a point
and two digits. -/
structure IsShown (p : Decimal) (cs : Text) : Prop where
  layout : ∃ whole cents, cs = (if p.negative then ['-'] else []) ++ whole ++ '.' :: cents ∧
    IsWhole whole ∧ cents.length = 2 ∧ ∀ c ∈ cents, c.isDigit = true
  reading : Reading.numeral? cs = some (.finite p)

private theorem isShown_centText (negative : Bool) (n : Nat) :
    IsShown ⟨negative, n, -2⟩ (if negative then '-' :: centText n else centText n) := by
  generalize hwhole : decimalDigits (n / 100) = whole
  generalize hcents : decimalDigits (n % 100 / 10) ++ decimalDigits (n % 100 % 10) = cents
  have hw : IsWhole whole := hwhole ▸ isWhole_decimalDigits _
  have hc : ∀ c ∈ cents, c.isDigit = true :=
    hcents ▸ List.forall_mem_append.mpr ⟨all_isDigit_decimalDigits _, all_isDigit_decimalDigits _⟩
  have hone {k : Nat} (hk : k < 10) : (decimalDigits k).length = 1 := by
    rw [decimalDigits, Nat.toDigits_of_lt_base hk]
    rfl
  have htwo : cents.length = 2 := by
    rw [← hcents, List.length_append, hone (by omega), hone (by omega)]
  have htext : centText n = whole ++ '.' :: (cents ++ []) := by
    rw [centText, ← hwhole, ← hcents]
    simp
  have hvalue : Reading.digitsValue 10 (whole ++ cents) = n := by
    rw [Reading.digitsValue_append hw.digits hc, htwo, ← hwhole, ← hcents,
      Reading.digitsValue_append (all_isDigit_decimalDigits _) (all_isDigit_decimalDigits _),
      hone (by omega), Reading.digitsValue_decimalDigits, Reading.digitsValue_decimalDigits,
      Reading.digitsValue_decimalDigits]
    omega
  rw [htext]
  refine ⟨⟨whole, cents, ?_, hw, htwo, hc⟩, ?_⟩
  · cases negative <;> simp
  · have hunsigned := Reading.isUnsigned_point hw.ne_nil hw.digits hc Reading.isExponent_nil
    rw [Reading.numeral?_signed hunsigned.chars hunsigned.head,
      Reading.decimal?_point hw.ne_nil hw.digits hc Reading.isExponent_nil, hvalue, htwo]
    rfl

/-- What is given to two places is the rounded decimal, unless that is too long. -/
theorem twoPlaces?_spec (d : Decimal) :
    (d.hundredths < 10 ^ 28 → ∃ cs, d.twoPlaces? = some cs ∧ d.rounded.IsShown cs) ∧
      (10 ^ 28 ≤ d.hundredths → d.twoPlaces? = none) := by
  rw [twoPlaces?_eq]
  constructor
  · intro hfits
    rw [if_pos hfits]
    exact ⟨_, rfl, isShown_centText d.negative d.hundredths⟩
  · intro hlong
    rw [if_neg (not_lt.mpr hlong)]

private theorem isShown_of_twoPlaces? {d : Decimal} {cs : Text} (h : d.twoPlaces? = some cs) :
    d.rounded.IsShown cs := by
  rcases lt_or_ge d.hundredths (10 ^ 28) with hfits | hlong
  · obtain ⟨ds, hds, hshown⟩ := d.twoPlaces?_spec.1 hfits
    exact Option.some.inj (hds.symm.trans h) ▸ hshown
  · rw [d.twoPlaces?_spec.2 hlong] at h
    cases h

end Decimal

/-! ### Values -/

private theorem Numeral.eq_finite_of_numeral?_text {x : Numeral} {d : Decimal}
    (h : Reading.numeral? x.text = some (.finite d)) : ∃ e, x = .finite e ∧ e.value = d.value := by
  cases x with
  | finite e =>
    obtain ⟨d', hread, hsign, hsize⟩ := e.numeral?_text
    obtain rfl := Numeral.finite.inj (Option.some.inj (hread.symm.trans h))
    exact ⟨e, rfl, by rw [Decimal.value, Decimal.value, hsign, hsize]⟩
  | infinite negative => cases negative <;> cases h
  | nan => cases h

theorem Numeral.twoPlaces?_eq (x : Numeral) :
    x.twoPlaces? = (Reading.numeral? x.text).bind Numeral.twoPlaces? := by
  cases x with
  | finite d =>
    obtain ⟨e, hread, hsign, hsize⟩ := d.numeral?_text
    change d.twoPlaces? = (Reading.numeral? d.text).bind Numeral.twoPlaces?
    rw [hread]
    exact Decimal.twoPlaces?_congr hsign.symm hsize.symm
  | infinite negative => cases negative <;> rfl
  | nan => rfl

namespace Value

/-- Two places of a value are those of the number that its literal is, if it is one. -/
theorem twoPlaces?_eq (v : Value) :
    v.twoPlaces? = (Reading.numeral? v.literal).bind Numeral.twoPlaces? := by
  have hforeign {c : Char} (h : c ∈ Reading.opening) (cs : Text) :
      none = (Reading.numeral? (c :: cs)).bind Numeral.twoPlaces? := by
    rw [Reading.numeral?_eq_none h, Option.bind_none]
  cases v with
  | null => rfl
  | bool b => cases b <;> rfl
  | int n =>
    obtain ⟨d, hread, hsign, hsize⟩ := numeral?_intText n
    change (Decimal.ofInt n).twoPlaces? = (Reading.numeral? (intText n)).bind Numeral.twoPlaces?
    rw [hread]
    exact Decimal.twoPlaces?_congr hsign.symm hsize.symm
  | float x => exact (Numeral.ofFloat x).twoPlaces?_eq
  | text cs =>
    apply hforeign
    unfold Quoted.quoteFor
    split <;> decide
  | tuple items =>
    change none = (Reading.numeral? (Value.tuple items).literal).bind Numeral.twoPlaces?
    rw [Value.literal_tuple]
    split <;> exact hforeign (by decide) _
  | bytes bs => exact hforeign (c := 'b') (by decide) _
  | date y m d => exact hforeign (c := 'd') (by decide) _
  | list items => exact hforeign (c := '[') (by decide) _
  | mapping entries => exact hforeign (c := '\x7b') (by decide) _

private theorem exists_isShown {x : Float} (hx : Numeral.ofFloat x ≠ .nan) {cs : Text}
    (h : (Value.float x).twoPlaces? = some cs) :
    ∃ d, Numeral.ofFloat x = .finite d ∧ d.rounded.IsShown cs := by
  change (Numeral.ofFloat x).twoPlaces? = some cs at h
  cases hfloat : Numeral.ofFloat x with
  | finite d =>
    rw [hfloat] at h
    exact ⟨d, rfl, Decimal.isShown_of_twoPlaces? h⟩
  | infinite negative =>
    rw [hfloat] at h
    cases h
  | nan => exact absurd hfloat hx

end Value

/-! ### Messages -/

/-- The message of a violation shows its probability and the threshold as these two texts. -/
structure Violation.Shows (s : Settings) (v : Violation) (shown limit : Text) : Prop where
  probability : (Value.float v.probability).twoPlaces? = some shown
  threshold : (Value.float s.threshold).twoPlaces? = some limit
  message : v.message = Message.compose s v.startLine v.endLine shown limit
  worded : ∃ place, v.message = place ++ " with a probability of ".toList ++ shown ++
    ". (TIP: you can adjust classificationTreshold property (actual is ".toList ++ limit ++
    ") or use skipCheckSequence (actual is ".toList ++ s.skipSequence ++ ")).".toList

private theorem Message.compose_worded (s : Settings) (startLine endLine : Int)
    (shown limit : Text) : ∃ place, compose s startLine endLine shown limit =
      place ++ " with a probability of ".toList ++ shown ++
        ". (TIP: you can adjust classificationTreshold property (actual is ".toList ++ limit ++
        ") or use skipCheckSequence (actual is ".toList ++ s.skipSequence ++ ")).".toList := by
  have hwords : " classified as commented out java code with a probability of ".toList =
      " classified as commented out java code".toList ++ " with a probability of ".toList := rfl
  refine ⟨s.message ++ ' ' :: place startLine endLine ++
    " classified as commented out java code".toList, ?_⟩
  rw [compose, hwords]
  simp only [List.append_assoc]

private theorem Check.exists_shows {s : Settings} {c : Comment} {v : Violation}
    (h : violation? s (outcome s c) = .ok (some v)) :
    s.threshold ≤ v.probability ∧ ∃ shown limit, v.Shows s shown limit := by
  cases hverdict : (outcome s c).scan.verdict with
  | code i p =>
    rw [violation?, hverdict] at h
    dsimp only at h
    split at h
    · rename_i message hmessage
      obtain rfl := Option.some.inj (Except.ok.inj h)
      rw [Message.text?] at hmessage
      obtain ⟨shown, hshown, hrest⟩ := Option.bind_eq_some_iff.mp hmessage
      obtain ⟨limit, hlimit, hcompose⟩ := Option.bind_eq_some_iff.mp hrest
      obtain ⟨line, rfl, hreached⟩ := Scan.exists_line_of_code hverdict
      obtain rfl := Option.some.inj hcompose
      exact ⟨hreached, shown, limit, hshown, hlimit, rfl, Message.compose_worded ..⟩
    · cases h
  | _ =>
    rw [violation?, hverdict] at h
    cases h

/-- Two places are the nearest hundredth of what the literal of a value says, halves away from zero
and with its sign, or nothing if that has more than twenty-eight digits.  They keep the order of
literals, and these keep the order of numbers, so that no message shows a probability below the
threshold. -/
theorem twoPlaces_half_up :
    (∀ v : Value, v.twoPlaces? = (Reading.numeral? v.literal).bind Numeral.twoPlaces?) ∧
    (∀ d : Decimal, ∃ p : Decimal, p.negative = d.negative ∧ p.exponent = -2 ∧
      IsHalfUp d.value p.value ∧
      (p.coefficient < 10 ^ 28 →
        ∃ cs, (Numeral.finite d).twoPlaces? = some cs ∧ p.IsShown cs) ∧
      (10 ^ 28 ≤ p.coefficient → (Numeral.finite d).twoPlaces? = none)) ∧
    (∀ d e : Decimal, d.value ≤ e.value → ∀ cs ds p q,
      d.twoPlaces? = some cs → Reading.numeral? cs = some (.finite p) →
      e.twoPlaces? = some ds → Reading.numeral? ds = some (.finite q) → p.value ≤ q.value) ∧
    (∀ x y : Float, x ≤ y → ∀ d e, Reading.numeral? (floatText x) = some (.finite d) →
      Reading.numeral? (floatText y) = some (.finite e) → d.value ≤ e.value) ∧
    ∀ (s : Settings) (cs : List Comment) (vs : List Violation), Check.comments s cs = .ok vs →
      ∀ v ∈ vs, ∃ shown limit p q, v.Shows s shown limit ∧
        Reading.numeral? shown = some (.finite p) ∧
        Reading.numeral? limit = some (.finite q) ∧ q.value ≤ p.value := by
  refine ⟨Value.twoPlaces?_eq, fun d => ?_, ?_, ?_, ?_⟩
  · exact ⟨d.rounded, rfl, rfl, d.isHalfUp_rounded, d.twoPlaces?_spec⟩
  · intro d e h cs ds p q hcs hp hds hq
    have hd := (Decimal.isShown_of_twoPlaces? hcs).reading
    have he := (Decimal.isShown_of_twoPlaces? hds).reading
    obtain rfl := Numeral.finite.inj (Option.some.inj (hd.symm.trans hp))
    obtain rfl := Numeral.finite.inj (Option.some.inj (he.symm.trans hq))
    exact Decimal.rounded_mono h
  · intro x y h d e hd he
    obtain ⟨d', hx, hd'⟩ := Numeral.eq_finite_of_numeral?_text hd
    obtain ⟨e', hy, he'⟩ := Numeral.eq_finite_of_numeral?_text he
    rw [← hd', ← he']
    exact Numeral.ofFloat_mono h hx hy
  · intro s cs vs h v hv
    obtain ⟨c, -, hviolation⟩ := Check.exists_violation?_of_mem h hv
    obtain ⟨hreached, shown, limit, hshows⟩ := Check.exists_shows hviolation
    obtain ⟨hthreshold, hprobability⟩ := Numeral.ofFloat_ne_nan hreached
    obtain ⟨d, hd, hshown⟩ := Value.exists_isShown hprobability hshows.probability
    obtain ⟨e, he, hlimit⟩ := Value.exists_isShown hthreshold hshows.threshold
    exact ⟨shown, limit, d.rounded, e.rounded, hshows, hshown.reading, hlimit.reading,
      Decimal.rounded_mono (Numeral.ofFloat_mono hreached he hd)⟩

/-- A carry makes the number longer, also past the limit; a zero keeps its minus; a loop in a
comment is reported with its probability. -/
theorem twoPlaces_half_up_carry :
    (∃ p : Decimal, IsHalfUp (Decimal.value ⟨false, 9995, -3⟩) p.value ∧
        p.IsShown "10.00".toList) ∧
      (∃ p : Decimal, IsHalfUp (Decimal.value ⟨true, 4, -3⟩) p.value ∧ p.IsShown "-0.00".toList) ∧
      (Numeral.finite ⟨false, 10 ^ 29 - 5, -3⟩).twoPlaces? = none ∧
      ∃ v, Check.comments .default [⟨"for (;;) { f(); }".toList, 1, 1⟩] = .ok [v] ∧
        ∃ shown limit p q, v.Shows .default shown limit ∧
          Reading.numeral? shown = some (.finite p) ∧
          Reading.numeral? limit = some (.finite q) ∧ q.value ≤ p.value := by
  obtain ⟨-, hrounds, -, -, hmessages⟩ := twoPlaces_half_up
  have hshown {d : Decimal} {cs : Text} (h : (Numeral.finite d).twoPlaces? = some cs) :
      ∃ p : Decimal, IsHalfUp d.value p.value ∧ p.IsShown cs := by
    obtain ⟨p, -, -, hnearest, hfits, hlong⟩ := hrounds d
    rcases lt_or_ge p.coefficient (10 ^ 28) with hshort | hmore
    · obtain ⟨ds, hds, hp⟩ := hfits hshort
      exact ⟨p, hnearest, Option.some.inj (hds.symm.trans h) ▸ hp⟩
    · rw [hlong hmore] at h
      cases h
  refine ⟨hshown (by decide +kernel), hshown (by decide +kernel), by decide +kernel, ?_⟩
  obtain ⟨vs, hvs⟩ := Check.exists_comments (s := .default) (by decide)
    [⟨"for (;;) { f(); }".toList, 1, 1⟩]
  have hone : (Check.comments .default [⟨"for (;;) { f(); }".toList, 1, 1⟩]).toOption.map
      List.length = some 1 := by decide +kernel
  rw [hvs] at hone
  obtain ⟨v, rfl⟩ := List.length_eq_one_iff.mp (Option.some.inj hone)
  exact ⟨v, hvs, hmessages _ _ _ hvs v (List.mem_singleton_self v)⟩

end CommentedCode
