import CommentedCode.Proofs.Double.Nearest
/-!
# The grid of doubles

The double nearest to a rational number is a multiple of a power of two, which grows with the
number.  Rounding to the grid is monotone and leaves zero and one as they are; a tie goes to the
even multiple.
-/
namespace CommentedCode.Double

open Float.Model.UnpackedFloat

/-! ### The nearest integer -/

/-- A number rounded to the nearest integer, a tie to the even one. -/
def toEven (q : ℚ) : ℤ :=
  if Int.fract q < 1 / 2 then ⌊q⌋
  else if 1 / 2 < Int.fract q then ⌊q⌋ + 1
  else if ⌊q⌋ % 2 = 0 then ⌊q⌋ else ⌊q⌋ + 1

private theorem floor_le_toEven (q : ℚ) : ⌊q⌋ ≤ toEven q := by
  unfold toEven
  split_ifs <;> omega

private theorem toEven_le_floor (q : ℚ) : toEven q ≤ ⌊q⌋ + 1 := by
  unfold toEven
  split_ifs <;> omega

private theorem toEven_intCast (n : ℤ) : toEven n = n := by
  have hrest : Int.fract (n : ℚ) < 1 / 2 := by
    rw [Int.fract_intCast]
    norm_num
  rw [toEven, if_pos hrest, Int.floor_intCast]

private theorem toEven_mono : Monotone toEven := by
  intro p q h
  have hfloor : ⌊p⌋ ≤ ⌊q⌋ := Int.floor_mono h
  rcases hfloor.lt_or_eq with hlt | heq
  · have hp := toEven_le_floor p
    have hq := floor_le_toEven q
    omega
  · have hrest : Int.fract p ≤ Int.fract q := by
      rw [Int.fract, Int.fract, heq]
      exact sub_le_sub_right h _
    unfold toEven
    rw [heq]
    split_ifs <;> first | omega | (exfalso; linarith)

/-- On quotients of natural numbers this is how they are rounded. -/
theorem toEven_div {num den : Nat} (hd : 0 < den) :
    toEven (num / den) = (divToEven num den : Nat) := by
  have hden : (0 : ℚ) < den := Nat.cast_pos.mpr hd
  have hfloor : ⌊(num / den : ℚ)⌋ = ((num / den : Nat) : ℤ) := by
    rw [Rat.floor_natCast_div_natCast]
    exact (Int.natCast_ediv num den).symm
  have hfract : Int.fract (num / den : ℚ) = (num % den : Nat) / den :=
    Int.fract_div_natCast_eq_div_natCast_mod
  have hless : Int.fract (num / den : ℚ) < 1 / 2 ↔ 2 * (num % den) < den := by
    rw [hfract, div_lt_div_iff₀ hden (by norm_num)]
    norm_cast
    omega
  have hmore : 1 / 2 < Int.fract (num / den : ℚ) ↔ den < 2 * (num % den) := by
    rw [hfract, div_lt_div_iff₀ (by norm_num) hden]
    norm_cast
    omega
  simp only [toEven, divToEven, hless, hmore, hfloor]
  split_ifs <;> omega

/-! ### The mantissa that is shifted -/

/-- What a mantissa with its two residual bits says of the number that it was cut from. -/
structure CutFrom (q : ℚ) (em : ExtendedMantissa) (rest : ℚ) : Prop where
  eq : q = em.mantissa + rest
  nonneg : 0 ≤ rest
  lt_one : rest < 1
  roundBit : em.roundBit = true ↔ 1 / 2 ≤ rest
  stickyBit : em.stickyBit = true ↔ rest ≠ 0 ∧ rest ≠ 1 / 2

theorem CutFrom.shiftRightOne {q rest : ℚ} {em : ExtendedMantissa} (h : CutFrom q em rest) :
    CutFrom (q / 2) em.shiftRightOne (((em.mantissa % 2 : Nat) + rest) / 2) := by
  obtain ⟨heq, hnonneg, hlt, hround, hsticky⟩ := h
  have hmantissa : (em.mantissa : ℚ) = (em.mantissa % 2 : Nat) + 2 * (em.mantissa / 2 : Nat) := by
    exact_mod_cast (Nat.mod_add_div em.mantissa 2).symm
  have hbits : (em.roundBit || em.stickyBit) = true ↔ rest ≠ 0 := by
    rw [Bool.or_eq_true, hround, hsticky]
    constructor
    · rintro (hhalf | hne) hzero
      · linarith
      · exact hne.1 hzero
    · intro hne
      by_cases hhalf : rest = 1 / 2
      · exact .inl hhalf.ge
      · exact .inr ⟨hne, hhalf⟩
  have hhalved : q / 2 = (em.mantissa / 2 : Nat) + ((em.mantissa % 2 : Nat) + rest) / 2 := by
    rw [heq, hmantissa]
    ring
  rcases Nat.mod_two_eq_zero_or_one em.mantissa with hbit | hbit <;> rw [hbit] at hhalved ⊢
  · rw [Nat.cast_zero, zero_add] at hhalved ⊢
    refine ⟨hhalved, by linarith, by linarith, ?_, hbits.trans ?_⟩
    · have hnext : em.shiftRightOne.roundBit = false := by
        simp [ExtendedMantissa.shiftRightOne, hbit]
      rw [hnext]
      exact iff_of_false Bool.false_ne_true (by linarith)
    · constructor
      · intro hne
        exact ⟨fun hzero => hne (by linarith), fun hhalf => by linarith⟩
      · intro hne hzero
        exact hne.1 (by linarith)
  · rw [Nat.cast_one] at hhalved ⊢
    refine ⟨hhalved, by linarith, by linarith, ?_, hbits.trans ?_⟩
    · have hnext : em.shiftRightOne.roundBit = true := by
        simp [ExtendedMantissa.shiftRightOne, hbit]
      rw [hnext]
      exact iff_of_true rfl (by linarith)
    · constructor
      · intro hne
        exact ⟨fun hzero => by linarith, fun hhalf => hne (by linarith)⟩
      · intro hne hzero
        exact hne.2 (by linarith)

theorem CutFrom.roundedMantissa {q rest : ℚ} {em : ExtendedMantissa} (h : CutFrom q em rest) :
    toEven q = em.roundedMantissa := by
  obtain ⟨heq, hnonneg, hlt, hround, hsticky⟩ := h
  have hfloor : ⌊q⌋ = em.mantissa := by
    rw [Int.floor_eq_iff, heq, Int.cast_natCast]
    constructor <;> linarith
  have hfract : Int.fract q = rest := by
    rw [Int.fract, hfloor, heq, Int.cast_natCast]
    ring
  obtain ⟨m, round, sticky⟩ := em
  rw [toEven, hfloor, hfract]
  dsimp only at hround hsticky ⊢
  cases round with
  | false =>
    have hless : rest < 1 / 2 := by
      by_contra hn
      exact Bool.false_ne_true (hround.mpr (not_lt.mp hn))
    rw [if_pos hless]
    cases sticky <;> rfl
  | true =>
    have hmost : ¬rest < 1 / 2 := not_lt.mpr (hround.mp rfl)
    rw [if_neg hmost]
    cases sticky with
    | true =>
      have hne := (hsticky.mp rfl).2
      have hmore : 1 / 2 < rest := lt_of_le_of_ne (not_lt.mp hmost) (Ne.symm hne)
      rw [if_pos hmore]
      rfl
    | false =>
      have hhalf : ¬1 / 2 < rest := by
        intro hmore
        exact Bool.false_ne_true (hsticky.mpr ⟨by linarith, by linarith⟩)
      rw [if_neg hhalf]
      change _ = ((m + m % 2 : Nat) : ℤ)
      split_ifs <;> omega

/-- A mantissa that is shifted is rounded to the nearest integer. -/
theorem toEven_shifted (m k : Nat) : toEven (m / 2 ^ k) = shifted m k := by
  have hcut (k : Nat) :
      ∃ rest, CutFrom (m / 2 ^ k) (ExtendedMantissa.mk m false false >>> k) rest := by
    induction k with
    | zero =>
      refine ⟨0, ?_, le_rfl, one_pos, ?_, ?_⟩
      · rw [pow_zero, div_one, add_zero]
        rfl
      · constructor
        · exact nofun
        · intro h
          norm_num at h
      · constructor
        · exact nofun
        · intro h
          exact absurd rfl h.1
    | succ k ih =>
      obtain ⟨rest, hrest⟩ := ih
      rw [pow_succ, ← div_div]
      exact ⟨_, hrest.shiftRightOne⟩
  obtain ⟨rest, hrest⟩ := hcut k
  exact hrest.roundedMantissa

/-! ### The nearest multiple -/

/-- The exponent of the last bit that a double near `q` keeps. -/
def lastPlace (q : ℚ) : ℤ :=
  max (Int.log 2 q - 52) (-1074)

/-- A number rounded to a double, an infinite range of exponents being there above. -/
def nearest (q : ℚ) : ℚ :=
  toEven (q / 2 ^ lastPlace q) * 2 ^ lastPlace q

private theorem two_zpow_pos (t : ℤ) : (0 : ℚ) < 2 ^ t :=
  zpow_pos (by norm_num) t

private theorem two_zpow_add (t : ℤ) (n : ℕ) : (2 : ℚ) ^ (t + n) = (2 ^ n : ℤ) * 2 ^ t := by
  rw [zpow_add₀ two_ne_zero, zpow_natCast, mul_comm]
  norm_cast

theorem two_pow_mul_zpow {t : ℤ} (h : t ≤ 0) : (2 : ℚ) ^ (-t).toNat * 2 ^ t = 1 := by
  rw [← zpow_natCast, ← zpow_add₀ two_ne_zero, ← zpow_zero (2 : ℚ)]
  congr 1
  omega

theorem lastPlace_eq {q : ℚ} {t : ℤ} (hq : 0 < q) (hleast : -1074 ≤ t)
    (hlt : q < 2 ^ (t + 53)) (hnormal : 2 ^ (t + 52) ≤ q ∨ t = -1074) : lastPlace q = t := by
  have hlog : Int.log 2 q < t + 53 :=
    (Int.lt_zpow_iff_log_lt (R := ℚ) (by decide) hq).mp (by exact_mod_cast hlt)
  rw [lastPlace]
  rcases hnormal with hle | rfl
  · have hge : t + 52 ≤ Int.log 2 q :=
      (Int.zpow_le_iff_le_log (R := ℚ) (by decide) hq).mp (by exact_mod_cast hle)
    omega
  · omega

private theorem lt_two_zpow_lastPlace {q : ℚ} (hq : 0 < q) : q < 2 ^ (lastPlace q + 53) := by
  have hlog : Int.log 2 q < lastPlace q + 53 := by
    rw [lastPlace]
    omega
  exact_mod_cast (Int.lt_zpow_iff_log_lt (R := ℚ) (b := 2) (by decide) hq).mpr hlog

private theorem two_zpow_lastPlace_le {q : ℚ} (hq : 0 < q) (h : -1074 < lastPlace q) :
    2 ^ (lastPlace q + 52) ≤ q := by
  have hlog : lastPlace q + 52 ≤ Int.log 2 q := by
    rw [lastPlace] at h ⊢
    omega
  exact_mod_cast (Int.zpow_le_iff_le_log (R := ℚ) (b := 2) (by decide) hq).mpr hlog

private theorem lastPlace_mono {p q : ℚ} (hp : 0 < p) (h : p ≤ q) : lastPlace p ≤ lastPlace q := by
  have hlog := Int.log_mono_right (b := 2) hp h
  rw [lastPlace, lastPlace]
  omega

theorem nearest_of_lastPlace {q r : ℚ} {t : ℤ} (ht : lastPlace q = t) (hq : q = r * 2 ^ t) :
    nearest q = toEven r * 2 ^ t := by
  have hdiv : q / 2 ^ t = r := by
    rw [hq]
    exact mul_div_cancel_right₀ r (two_zpow_pos t).ne'
  rw [nearest, ht, hdiv]

theorem nearest_zero : nearest 0 = 0 := by
  rw [nearest, zero_div]
  have hzero : toEven 0 = 0 := toEven_intCast 0
  rw [hzero, Int.cast_zero, zero_mul]

theorem nearest_one : nearest 1 = 1 := by
  have hplace : lastPlace 1 = -52 :=
    lastPlace_eq one_pos (by decide) (by norm_num) (.inl (by norm_num))
  have hshift : (1 : ℚ) = (2 ^ 52 : ℤ) * 2 ^ (-52 : ℤ) := by norm_num
  rw [nearest_of_lastPlace hplace hshift, toEven_intCast, ← hshift]

theorem nearest_nonneg {q : ℚ} (hq : 0 ≤ q) : 0 ≤ nearest q := by
  have hquot : 0 ≤ q / 2 ^ lastPlace q := div_nonneg hq (two_zpow_pos _).le
  have hfloor : 0 ≤ toEven (q / 2 ^ lastPlace q) :=
    (Int.floor_nonneg.mpr hquot).trans (floor_le_toEven _)
  exact mul_nonneg (Int.cast_nonneg hfloor) (two_zpow_pos _).le

private theorem nearest_le {q : ℚ} {n : ℤ} (h : q ≤ n * 2 ^ lastPlace q) :
    nearest q ≤ n * 2 ^ lastPlace q := by
  have hquot : q / 2 ^ lastPlace q ≤ n := (div_le_iff₀ (two_zpow_pos _)).mpr h
  have hround := toEven_mono hquot
  rw [toEven_intCast] at hround
  exact mul_le_mul_of_nonneg_right (Int.cast_le.mpr hround) (two_zpow_pos _).le

private theorem le_nearest {q : ℚ} {n : ℤ} (h : n * 2 ^ lastPlace q ≤ q) :
    n * 2 ^ lastPlace q ≤ nearest q := by
  have hquot : n ≤ q / 2 ^ lastPlace q := (le_div_iff₀ (two_zpow_pos _)).mpr h
  have hround := toEven_mono hquot
  rw [toEven_intCast] at hround
  exact mul_le_mul_of_nonneg_right (Int.cast_le.mpr hround) (two_zpow_pos _).le

/-- Within one place the nearest integers decide; between two places there is a power of two that
neither number passes. -/
theorem nearest_mono : MonotoneOn nearest (Set.Ici 0) := by
  intro p hp q _ h
  rcases (Set.mem_Ici.mp hp).lt_or_eq with hpos | rfl
  · have hqpos : 0 < q := hpos.trans_le h
    rcases (lastPlace_mono hpos h).lt_or_eq with hlt | heq
    · have hleast : -1074 ≤ lastPlace p := le_max_right _ _
      have hbelow : nearest p ≤ (2 ^ 53 : ℤ) * 2 ^ lastPlace p := by
        apply nearest_le
        have hlt := lt_two_zpow_lastPlace hpos
        exact hlt.le.trans_eq (two_zpow_add _ 53)
      have habove : (2 ^ 52 : ℤ) * 2 ^ lastPlace q ≤ nearest q := by
        apply le_nearest
        have hle := two_zpow_lastPlace_le hqpos (hleast.trans_lt hlt)
        exact (two_zpow_add _ 52).symm.trans_le hle
      have hbetween : (2 : ℚ) ^ (lastPlace p + (53 : ℕ)) ≤ 2 ^ (lastPlace q + (52 : ℕ)) :=
        zpow_le_zpow_right₀ (by norm_num) (by omega)
      rw [two_zpow_add, two_zpow_add] at hbetween
      exact hbelow.trans (hbetween.trans habove)
    · rw [nearest, nearest, heq]
      have hquot : p / 2 ^ lastPlace q ≤ q / 2 ^ lastPlace q :=
        div_le_div_of_nonneg_right h (two_zpow_pos _).le
      exact mul_le_mul_of_nonneg_right (Int.cast_le.mpr (toEven_mono hquot)) (two_zpow_pos _).le
  · rw [nearest_zero]
    exact nearest_nonneg h

end CommentedCode.Double
