import CommentedCode.Decimal.Notation
import CommentedCode.Proofs.Decimal.Reading
import CommentedCode.Proofs.Decimal.Rounding
/-!
# Printed numbers

A number that is printed is read back as the same number, whichever notation was taken.  The
literals of values that are no numbers are not read at all.
-/
namespace CommentedCode

theorem all_isDigit_decimalDigits (n : Nat) : ∀ c ∈ decimalDigits n, c.isDigit = true :=
  fun _ => Nat.isDigit_of_mem_toDigits (by decide) le_rfl

theorem decimalDigits_ne_nil (n : Nat) : decimalDigits n ≠ [] :=
  Nat.toDigits_ne_nil

private theorem all_isDigit_zeros (n : Nat) : ∀ c ∈ zeros n, c.isDigit = true := by
  intro c hc
  rw [List.eq_of_mem_replicate hc]
  rfl

namespace Reading

/-! ### Digits -/

private theorem digitsValue_eq {cs : Text} (h : ∀ c ∈ cs, c.isDigit = true) :
    digitsValue 10 cs = Nat.ofDigitChars 10 cs 0 := by
  rw [digitsValue, Nat.ofDigitChars]
  generalize 0 = front
  induction cs generalizing front with
  | nil => rfl
  | cons c cs ih =>
    have hc := toNat_of_isDigit (h c List.mem_cons_self)
    have hstep : front * 10 + c.toNat - '0'.toNat = 10 * front + (c.toNat - '0'.toNat) := by
      change front * 10 + c.toNat - 48 = 10 * front + (c.toNat - 48)
      omega
    rw [List.foldl_cons, List.foldl_cons, hstep]
    exact ih (fun d hd => h d (List.mem_cons_of_mem c hd)) _

theorem digitsValue_decimalDigits (n : Nat) : digitsValue 10 (decimalDigits n) = n := by
  rw [digitsValue_eq (all_isDigit_decimalDigits n)]
  exact Nat.ofDigitChars_ten_toDigits

theorem digitsValue_append {cs ds : Text} (hc : ∀ c ∈ cs, c.isDigit = true)
    (hd : ∀ c ∈ ds, c.isDigit = true) :
    digitsValue 10 (cs ++ ds) = digitsValue 10 cs * 10 ^ ds.length + digitsValue 10 ds := by
  rw [digitsValue_eq (List.forall_mem_append.mpr ⟨hc, hd⟩), digitsValue_eq hc, digitsValue_eq hd,
    Nat.ofDigitChars_append, Nat.ofDigitChars_eq_ofDigitChars_zero, Nat.mul_comm]

private theorem digitsValue_zeros (k : Nat) : digitsValue 10 (zeros k) = 0 := by
  rw [digitsValue_eq (all_isDigit_zeros k), zeros, Nat.ofDigitChars_replicate_zero, Nat.mul_zero]

private theorem digitsValue_zeros_append (k : Nat) {cs : Text} (h : ∀ c ∈ cs, c.isDigit = true) :
    digitsValue 10 (zeros k ++ cs) = digitsValue 10 cs := by
  rw [digitsValue_append (all_isDigit_zeros k) h, digitsValue_zeros, Nat.zero_mul, Nat.zero_add]

private theorem digitsValue_append_zeros (k : Nat) {cs : Text} (h : ∀ c ∈ cs, c.isDigit = true) :
    digitsValue 10 (cs ++ zeros k) = digitsValue 10 cs * 10 ^ k := by
  rw [digitsValue_append h (all_isDigit_zeros k), digitsValue_zeros, Nat.add_zero, zeros,
    List.length_replicate]

/-! ### The characters of a printed number -/

/-- The characters that printed numbers are made of. -/
def printed : Text :=
  "0123456789+-.e".toList

theorem mem_printed_of_isDigit {c : Char} (h : c.isDigit = true) : c ∈ printed := by
  have hc := toNat_of_isDigit h
  have hchar : (c.toNat - 48).digitChar = c := by
    apply Char.toNat_inj.mp
    rw [Nat.toNat_digitChar_of_lt_ten (by omega)]
    omega
  have hall : ∀ n < 10, n.digitChar ∈ printed := by decide
  rw [← hchar]
  exact hall _ (by omega)

private theorem printed_kept :
    ∀ c ∈ printed, isPadding c = false ∧ plainDigit c = c ∧ c ≠ '_' ∧ c.toLower ≠ 'n' :=
  List.forall_iff_forall_mem.mp (by decide +kernel)

theorem body_of_printed {cs : Text} (h : cs ⊆ printed) : body cs = cs := by
  have hfront (ds : Text) (hds : ds ⊆ printed) : ds.dropWhile isPadding = ds := by
    cases ds with
    | nil => rfl
    | cons c ds =>
      rw [List.dropWhile_cons_of_neg]
      simp [(printed_kept c (hds List.mem_cons_self)).1]
  have hback : Text.dropLastWhile isPadding cs = cs := by
    rw [Text.dropLastWhile, hfront _ (fun c hc => h (List.mem_reverse.mp hc)), List.reverse_reverse]
  rw [body, hfront cs h, hback]
  exact List.map_congr_left (fun c hc => (printed_kept c (h hc)).2.1) |>.trans (List.map_id _)

theorem joinDigits_of_printed {cs : Text} (h : cs ⊆ printed) (previous : Bool) :
    joinDigits previous cs = some cs := by
  induction cs generalizing previous with
  | nil => rfl
  | cons c cs ih =>
    obtain ⟨hc, hcs⟩ := List.cons_subset.mp h
    rw [joinDigits, if_neg (printed_kept c hc).2.2.1, ih hcs]
    rfl

private theorem numeral?_of_printed {cs : Text} (h : cs ⊆ printed) :
    numeral? cs = (decimal? (sign cs).1 (sign cs).2).map .finite := by
  have hrest : (sign cs).2 ⊆ cs := by
    rw [sign.eq_def]
    split
    · exact List.subset_cons_self _ _
    · exact List.subset_cons_self _ _
    · exact List.Subset.refl _
  -- all the words have an `n` in them
  have hword : 'n' ∉ asciiLower (sign cs).2 := by
    intro hn
    obtain ⟨c, hc, hlower⟩ := List.mem_map.mp hn
    exact (printed_kept c (h (hrest hc))).2.2.2 hlower
  have hinf : ¬(asciiLower (sign cs).2 = "inf".toList ∨
      asciiLower (sign cs).2 = "infinity".toList) := by
    rintro (heq | heq) <;> rw [heq] at hword <;> exact hword (by decide)
  have hnan : asciiLower (sign cs).2 ≠ "nan".toList := by
    intro heq
    rw [heq] at hword
    exact hword (by decide)
  rw [numeral?, body_of_printed h, joinDigits_of_printed h]
  dsimp only
  rw [if_neg hinf, if_neg hnan]

theorem sign_cons {c : Char} (hminus : c ≠ '-') (hplus : c ≠ '+') (cs : Text) :
    sign (c :: cs) = (false, c :: cs) := by
  rw [sign.eq_def]
  split
  · rename_i heq
    exact absurd (List.cons.inj heq).1 hminus
  · rename_i heq
    exact absurd (List.cons.inj heq).1 hplus
  · rfl

theorem numeral?_signed {negative : Bool} {cs : Text} (h : cs ⊆ printed)
    (hd : ∃ c ∈ cs.head?, c.isDigit = true) :
    numeral? (if negative then '-' :: cs else cs) = (decimal? negative cs).map .finite := by
  cases negative with
  | true =>
    rw [if_pos rfl, numeral?_of_printed (List.cons_subset.mpr ⟨by decide, h⟩)]
    rfl
  | false =>
    obtain ⟨c, hc, hdigit⟩ := hd
    obtain ⟨ds, rfl⟩ := List.head?_eq_some_iff.mp hc
    have hsign : sign (c :: ds) = (false, c :: ds) := by
      apply sign_cons <;> rintro rfl <;> cases hdigit
    rw [if_neg Bool.false_ne_true, numeral?_of_printed h, hsign]

/-! ### Mantissa and exponent -/

/-- The end of a number: nothing, or an exponent. -/
structure IsExponent (rest : Text) (e : Int) : Prop where
  chars : rest ⊆ printed
  head : ∀ c ∈ rest.head?, c.isDigit = false ∧ c ≠ '.'
  reading : exponent? rest = some e

theorem isExponent_nil : IsExponent [] 0 :=
  ⟨List.nil_subset _, nofun, rfl⟩

private theorem isExponent_digits (e : Int) (k : Nat) :
    IsExponent ('e' :: (if e < 0 then '-' else '+') :: (zeros k ++ decimalDigits e.natAbs)) e := by
  have hall : ∀ c ∈ zeros k ++ decimalDigits e.natAbs, c.isDigit = true :=
    List.forall_mem_append.mpr ⟨all_isDigit_zeros k, all_isDigit_decimalDigits _⟩
  have hne : zeros k ++ decimalDigits e.natAbs ≠ [] :=
    List.append_ne_nil_of_right_ne_nil _ (decimalDigits_ne_nil _)
  have hvalue : digitsValue 10 (zeros k ++ decimalDigits e.natAbs) = e.natAbs := by
    rw [digitsValue_zeros_append k (all_isDigit_decimalDigits _), digitsValue_decimalDigits]
  generalize zeros k ++ decimalDigits e.natAbs = digits at hall hne hvalue ⊢
  refine ⟨?_, by rintro c ⟨⟩; decide, ?_⟩
  · have hsign : (if e < 0 then '-' else '+') ∈ printed := by split <;> decide
    exact List.cons_subset.mpr ⟨by decide, List.cons_subset.mpr
      ⟨hsign, fun c hc => mem_printed_of_isDigit (hall c hc)⟩⟩
  · have hsign : sign ((if e < 0 then '-' else '+') :: digits) = (decide (e < 0), digits) := by
      split
      · rename_i hneg
        rw [decide_eq_true hneg]
        rfl
      · rename_i hneg
        rw [decide_eq_false hneg]
        rfl
    have hdigits : (decide (digits ≠ []) && digits.all Char.isDigit) = true := by
      rw [Bool.and_eq_true, decide_eq_true_eq, List.all_eq_true]
      exact ⟨hne, hall⟩
    rw [exponent?, if_pos (by decide), hsign]
    dsimp only
    rw [if_pos hdigits, hvalue]
    congr 1
    by_cases hneg : e < 0
    · rw [if_pos (decide_eq_true hneg)]
      omega
    · rw [if_neg (by rwa [decide_eq_true_eq])]
      omega

/-- An unsigned text that is read as a number of the size `q`, with whatever sign. -/
structure IsUnsigned (cs : Text) (q : ℚ) : Prop where
  chars : cs ⊆ printed
  head : ∃ c ∈ cs.head?, c.isDigit = true
  reading : ∀ negative, ∃ d, decimal? negative cs = some d ∧ d.negative = negative ∧ d.size = q

section Mantissa

variable {whole fraction rest : Text} {e : Int}

private theorem takeWhile_isDigit (h : ∀ c ∈ whole, c.isDigit = true)
    (hr : ∀ c ∈ rest.head?, c.isDigit = false) :
    (whole ++ rest).takeWhile Char.isDigit = whole ∧
      (whole ++ rest).dropWhile Char.isDigit = rest := by
  rw [List.takeWhile_append_of_pos h, List.dropWhile_append_of_pos h]
  cases rest with
  | nil => exact ⟨List.append_nil _, rfl⟩
  | cons c rest =>
    have hc := hr c rfl
    rw [List.takeWhile_cons_of_neg (by simp [hc]), List.dropWhile_cons_of_neg (by simp [hc])]
    exact ⟨List.append_nil _, rfl⟩

private theorem head?_digits (hne : whole ≠ []) (hw : ∀ c ∈ whole, c.isDigit = true) :
    ∃ c ∈ (whole ++ rest).head?, c.isDigit = true := by
  obtain ⟨c, cs, rfl⟩ := List.exists_cons_of_ne_nil hne
  exact ⟨c, rfl, hw c List.mem_cons_self⟩

theorem decimal?_point (hne : whole ≠ []) (hw : ∀ c ∈ whole, c.isDigit = true)
    (hf : ∀ c ∈ fraction, c.isDigit = true) (hr : IsExponent rest e) (negative : Bool) :
    decimal? negative (whole ++ '.' :: (fraction ++ rest)) =
      some ⟨negative, digitsValue 10 (whole ++ fraction), e - fraction.length⟩ := by
  have hpoint : ∀ c ∈ ('.' :: (fraction ++ rest)).head?, c.isDigit = false := by
    rintro c ⟨⟩
    rfl
  obtain ⟨htake, hdrop⟩ := takeWhile_isDigit hw hpoint
  obtain ⟨htake', hdrop'⟩ := takeWhile_isDigit hf (fun c hc => (hr.head c hc).1)
  rw [decimal?, htake, hdrop, if_neg (fun h => hne h.1)]
  simp only [htake', hdrop', hr.reading, Option.map_some]

private theorem decimal?_whole (hne : whole ≠ []) (hw : ∀ c ∈ whole, c.isDigit = true)
    (hr : IsExponent rest e) (negative : Bool) :
    decimal? negative (whole ++ rest) = some ⟨negative, digitsValue 10 whole, e⟩ := by
  obtain ⟨htake, hdrop⟩ := takeWhile_isDigit hw (fun c hc => (hr.head c hc).1)
  rw [decimal?, htake, hdrop, if_neg (fun h => hne h.1)]
  split
  · exact absurd rfl (hr.head '.' rfl).2
  · rw [hr.reading, List.append_nil, List.length_nil]
    simp only [Option.map_some, Int.natCast_zero, Int.sub_zero]

theorem isUnsigned_point (hne : whole ≠ []) (hw : ∀ c ∈ whole, c.isDigit = true)
    (hf : ∀ c ∈ fraction, c.isDigit = true) (hr : IsExponent rest e) :
    IsUnsigned (whole ++ '.' :: (fraction ++ rest))
      (digitsValue 10 (whole ++ fraction) * 10 ^ (e - fraction.length)) where
  chars := List.append_subset.mpr ⟨fun c hc => mem_printed_of_isDigit (hw c hc),
    List.cons_subset.mpr ⟨by decide, List.append_subset.mpr
      ⟨fun c hc => mem_printed_of_isDigit (hf c hc), hr.chars⟩⟩⟩
  head := head?_digits hne hw
  reading negative := ⟨_, decimal?_point hne hw hf hr negative, rfl, rfl⟩

private theorem isUnsigned_whole (hne : whole ≠ []) (hw : ∀ c ∈ whole, c.isDigit = true)
    (hr : IsExponent rest e) :
    IsUnsigned (whole ++ rest) (digitsValue 10 whole * 10 ^ e) where
  chars := List.append_subset.mpr ⟨fun c hc => mem_printed_of_isDigit (hw c hc), hr.chars⟩
  head := head?_digits hne hw
  reading negative := ⟨_, decimal?_whole hne hw hr negative, rfl, rfl⟩

end Mantissa

theorem IsUnsigned.numeral? {cs : Text} {q : ℚ} (h : IsUnsigned cs q) (negative : Bool) :
    ∃ d, Reading.numeral? (if negative then '-' :: cs else cs) = some (.finite d) ∧
      d.negative = negative ∧ d.size = q := by
  obtain ⟨d, hd, hsign, hsize⟩ := h.reading negative
  exact ⟨d, by rw [numeral?_signed h.chars h.head, hd, Option.map_some], hsign, hsize⟩

end Reading

namespace Decimal

open Reading

section Positional

variable {digits : Text} {n : Nat} {point : Int} (hall : ∀ c ∈ digits, c.isDigit = true)
  (hread : digitsValue 10 digits = n)
include hall hread

private theorem isUnsigned_behind (hpoint : point ≤ 0) :
    IsUnsigned ('0' :: '.' :: zeros (-point).toNat ++ digits)
      (n * 10 ^ (point - digits.length)) := by
  have hf : ∀ c ∈ zeros (-point).toNat ++ digits, c.isDigit = true :=
    List.forall_mem_append.mpr ⟨all_isDigit_zeros _, hall⟩
  have hvalue : digitsValue 10 (['0'] ++ (zeros (-point).toNat ++ digits)) = n := by
    rw [← hread]
    exact digitsValue_zeros_append ((-point).toNat + 1) hall
  have hplace : (0 : Int) - (zeros (-point).toNat ++ digits).length = point - digits.length := by
    rw [List.length_append, zeros, List.length_replicate]
    omega
  have h := isUnsigned_point (List.cons_ne_nil '0' []) (List.forall_mem_singleton.mpr rfl) hf
    isExponent_nil
  rwa [hvalue, hplace, List.append_nil] at h

variable (hne : digits ≠ [])
include hne

private theorem isUnsigned_before (hpoint : (digits.length : Int) ≤ point) :
    IsUnsigned (digits ++ zeros (point - digits.length).toNat ++ ['.', '0'])
      (n * 10 ^ (point - digits.length)) := by
  generalize hk : (point - digits.length).toNat = k
  have hw : ∀ c ∈ digits ++ zeros k, c.isDigit = true :=
    List.forall_mem_append.mpr ⟨hall, all_isDigit_zeros k⟩
  have hvalue : digitsValue 10 (digits ++ zeros k ++ ['0']) = n * 10 ^ (k + 1) := by
    rw [List.append_assoc, zeros, ← List.replicate_succ', ← hread]
    exact digitsValue_append_zeros (k + 1) hall
  have hsize : ((n * 10 ^ (k + 1) : Nat) : ℚ) * 10 ^ ((0 : Int) - 1) =
      n * 10 ^ (point - digits.length) := by
    have hplace : point - digits.length = k := by omega
    rw [hplace, zpow_natCast]
    push_cast
    norm_num
    ring
  have hf : ∀ c ∈ ['0'], c.isDigit = true := List.forall_mem_singleton.mpr rfl
  have h := isUnsigned_point (List.append_ne_nil_of_left_ne_nil hne _) hw hf isExponent_nil
  rwa [hvalue, List.length_singleton, Nat.cast_one, hsize] at h

private theorem isUnsigned_around (hpos : 0 < point) (hpoint : point < digits.length) :
    IsUnsigned (digits.take point.toNat ++ '.' :: digits.drop point.toNat)
      (n * 10 ^ (point - digits.length)) := by
  have hplace : (0 : Int) - (digits.drop point.toNat).length = point - digits.length := by
    rw [List.length_drop]
    omega
  have hw : digits.take point.toNat ≠ [] := by
    rw [Ne, List.take_eq_nil_iff, not_or]
    exact ⟨by omega, hne⟩
  have hf : ∀ c ∈ digits.drop point.toNat, c.isDigit = true :=
    fun c hc => hall c (List.mem_of_mem_drop hc)
  have h := isUnsigned_point hw (fun c hc => hall c (List.mem_of_mem_take hc)) hf isExponent_nil
  rwa [List.take_append_drop, hread, hplace, List.append_nil] at h

end Positional

private theorem isUnsigned_positional (n : Nat) (point : Int) :
    IsUnsigned (positional (decimalDigits n) point)
      (n * 10 ^ (point - (decimalDigits n).length)) := by
  have hall := all_isDigit_decimalDigits n
  have hread := digitsValue_decimalDigits n
  have hne := decimalDigits_ne_nil n
  rw [positional]
  split
  · rename_i hfront
    exact isUnsigned_behind hall hread hfront
  · rename_i hfront
    split
    · rename_i hback
      exact isUnsigned_before hall hread hne hback
    · rename_i hback
      exact isUnsigned_around hall hread hne (Int.not_le.mp hfront) (Int.not_le.mp hback)

private theorem isUnsigned_scientific (n : Nat) (e : Int) :
    IsUnsigned (scientific (decimalDigits n) e)
      (n * 10 ^ (e + 1 - (decimalDigits n).length)) := by
  have hall := all_isDigit_decimalDigits n
  have hread := digitsValue_decimalDigits n
  have hne := decimalDigits_ne_nil n
  have hexponent := isExponent_digits e (2 - (decimalDigits e.natAbs).length)
  generalize decimalDigits n = digits at hall hread hne ⊢
  rcases digits with _ | ⟨d, _ | ⟨c, cs⟩⟩
  · exact absurd rfl hne
  · have h := isUnsigned_whole (List.cons_ne_nil d []) hall hexponent
    rw [hread] at h
    rw [List.length_singleton, Nat.cast_one, add_sub_cancel_right]
    simpa only [scientific, List.cons_append, List.append_assoc] using h
  · obtain ⟨hd, hf⟩ := List.forall_mem_cons.mp hall
    have h := isUnsigned_point (List.cons_ne_nil d []) (List.forall_mem_singleton.mpr hd) hf
      hexponent
    have hvalue : digitsValue 10 ([d] ++ c :: cs) = n := hread
    rw [hvalue] at h
    have hplace : e + 1 - (d :: c :: cs).length = e - (c :: cs).length := by
      simp only [List.length_cons]
      omega
    rw [hplace]
    simpa only [scientific, List.cons_append, List.nil_append, List.append_assoc] using h

/-- Whichever notation is taken, the text without its sign is read as the size. -/
theorem exists_unsigned (d : Decimal) :
    ∃ cs, d.text = (if d.negative then '-' :: cs else cs) ∧ IsUnsigned cs d.size := by
  obtain ⟨negative, n, e⟩ := d
  refine ⟨_, rfl, ?_⟩
  dsimp only
  generalize hpoint : e + (decimalDigits n).length = point
  have hplace : e = point - (decimalDigits n).length := by omega
  rw [size]
  split
  · rename_i hzero
    have hzeros : ∀ c ∈ ['0'], c.isDigit = true := List.forall_mem_singleton.mpr rfl
    have h := isUnsigned_point (List.cons_ne_nil '0' []) hzeros hzeros isExponent_nil
    have hvalue : digitsValue 10 (['0'] ++ ['0']) = 0 := by decide
    rw [hvalue, Nat.cast_zero, zero_mul] at h
    rwa [hzero, Nat.cast_zero, zero_mul]
  · split
    · rw [hplace]
      exact isUnsigned_positional n point
    · have h := isUnsigned_scientific n (point - 1)
      rwa [sub_add_cancel, ← hplace] at h

theorem numeral?_text (d : Decimal) :
    ∃ e, numeral? d.text = some (.finite e) ∧ e.negative = d.negative ∧ e.size = d.size := by
  obtain ⟨cs, htext, hunsigned⟩ := d.exists_unsigned
  rw [htext]
  exact hunsigned.numeral? d.negative

end Decimal

theorem numeral?_intText (n : Int) :
    ∃ d, Reading.numeral? (intText n) = some (.finite d) ∧
      d.negative = (Decimal.ofInt n).negative ∧ d.size = (Decimal.ofInt n).size := by
  have h := Reading.isUnsigned_whole (decimalDigits_ne_nil n.natAbs) (all_isDigit_decimalDigits _)
    Reading.isExponent_nil
  rw [Reading.digitsValue_decimalDigits, List.append_nil] at h
  have hread := h.numeral? (decide (n < 0))
  simp only [decide_eq_true_eq] at hread
  exact hread

namespace Reading

/-! ### Texts that are no numbers -/

/-- Characters with which literals begin and numbers do not. -/
def opening : Text :=
  "'\"bd[(\x7b".toList

private theorem opening_kept : ∀ c ∈ opening, isPadding c = false ∧ plainDigit c = c ∧
    c ≠ '_' ∧ c ≠ '-' ∧ c ≠ '+' ∧ c ≠ '.' ∧ c.isDigit = false ∧ c.toLower ∉ ['i', 'n'] :=
  List.forall_iff_forall_mem.mp (by decide +kernel)

private theorem dropLastWhile_cons {p : Char → Bool} {c : Char} (h : p c = false) (cs : Text) :
    Text.dropLastWhile p (c :: cs) = c :: Text.dropLastWhile p cs := by
  rw [Text.dropLastWhile, Text.dropLastWhile, List.reverse_cons, List.dropWhile_append]
  split
  · rename_i hempty
    rw [List.isEmpty_iff.mp hempty, List.dropWhile_cons_of_neg (by simp [h])]
    rfl
  · rw [List.reverse_append]
    rfl

theorem numeral?_eq_none {c : Char} (h : c ∈ opening) (cs : Text) : numeral? (c :: cs) = none := by
  obtain ⟨hpadding, hplain, hjoin, hminus, hplus, hpoint, hdigit, hword⟩ := opening_kept c h
  have hbody : body (c :: cs) = c :: (Text.dropLastWhile isPadding cs).map plainDigit := by
    rw [body, List.dropWhile_cons_of_neg (by simp [hpadding]), dropLastWhile_cons hpadding,
      List.map_cons, hplain]
  rw [numeral?, hbody, joinDigits, if_neg hjoin]
  cases joinDigits c.isDigit ((Text.dropLastWhile isPadding cs).map plainDigit) with
  | none => rfl
  | some rest =>
    have hlower {word : Text} (hw : ∃ first ∈ ['i', 'n'], word.head? = some first) :
        asciiLower (c :: rest) ≠ word := by
      rintro rfl
      obtain ⟨first, hmem, hfirst⟩ := hw
      exact hword (Option.some.inj hfirst ▸ hmem)
    have hdecimal : decimal? false (c :: rest) = none := by
      rw [decimal?, List.takeWhile_cons_of_neg (by simp [hdigit]),
        List.dropWhile_cons_of_neg (by simp [hdigit])]
      rw [if_pos]
      refine ⟨rfl, ?_⟩
      split
      · rename_i heq
        exact absurd (List.cons.inj heq).1 hpoint
      · rfl
    simp only [Option.map_some]
    rw [sign_cons hminus hplus]
    dsimp only
    rw [if_neg (not_or.mpr ⟨hlower ⟨'i', by decide, rfl⟩, hlower ⟨'i', by decide, rfl⟩⟩),
      if_neg (hlower ⟨'n', by decide, rfl⟩), hdecimal]
    rfl

end Reading

end CommentedCode
