import CommentedCode.Proofs.Text.Encoding
/-!
# Damaged text

Bytes between two texts that are no character are dropped and cost neither of the texts a character:
a character that breaks off is one fault, and each byte with which no character begins is one.
-/
namespace CommentedCode.Utf8

/-- A byte with which no character begins: a continuation byte, or one that no encoding has. -/
def isStray (b : UInt8) : Bool :=
  isContinuation b || b == 0xC0 || b == 0xC1 || 0xF5 ≤ b

/-- Bytes of a character, without the last of them. -/
def BreaksOff (bs : Bytes) : Prop :=
  bs ≠ [] ∧ ∃ c missing, missing ≠ [] ∧ String.utf8EncodeChar c = bs ++ missing

/-- Bytes that stand for no character. -/
inductive Damage (bs : Bytes) : Prop
  | breaksOff (h : BreaksOff bs)
  | stray (h : ∀ b ∈ bs, isStray b = true)

private theorem isStray_iff (b : UInt8) :
    isStray b = true ↔ 0x80 ≤ b.toNat ∧ b.toNat < 0xC2 ∨ 0xF5 ≤ b.toNat := by
  have heq (n : UInt8) : b = n ↔ b.toNat = n.toNat := UInt8.toNat_inj.symm
  simp only [isStray, Bool.or_eq_true, isContinuation_iff, beq_iff_eq, heq, decide_eq_true_eq,
    UInt8.le_iff_toNat_le, UInt8.reduceToNat]
  omega

private theorem piece_stray {b : UInt8} (h : isStray b = true) (rest : Bytes) :
    piece b rest = .fault .badStart 0 := by
  rw [isStray_iff] at h
  unfold piece
  simp only [UInt8.lt_iff_toNat_lt, UInt8.reduceToNat]
  rcases h with ⟨hl, hu⟩ | hl
  · rw [if_neg (by omega), if_pos (by omega)]
  · rw [if_neg (by omega), if_neg (by omega), if_neg (by omega), if_neg (by omega),
      if_neg (by omega)]

/-- What follows does not go on with a character. -/
def StartsAfresh (bs : Bytes) : Prop :=
  ∀ next ∈ bs.head?, isContinuation next = false

private theorem startsAfresh_encode (cs : Text) : StartsAfresh (encode cs) := by
  intro next hnext
  cases cs with
  | nil => cases hnext
  | cons c cs =>
    obtain ⟨b, tail, hbytes, hpiece⟩ := piece_encodeChar c
    rw [encode_cons, hbytes, List.cons_append, List.head?_cons, Option.mem_some_iff] at hnext
    subst hnext
    rw [Bool.eq_false_iff]
    intro hcontinues
    have hstray : isStray b = true := by simp [isStray, hcontinues]
    have hchar := hpiece []
    rw [piece_stray hstray] at hchar
    cases hchar

/-! ### Characters that break off -/

section BreaksOff

variable {a b c : UInt8} {rest : Bytes} (h : StartsAfresh rest)
include h

private theorem piece_first (hl : ¬a < 0x80) (hstart : ¬a < 0xC2) (hu : a < 0xF5) :
    ∃ kind, piece a rest = .fault kind 0 := by
  unfold piece
  rw [if_neg hl, if_neg hstart, if_pos hu]
  cases rest with
  | nil => exact ⟨.truncated, by simp⟩
  | cons next rest =>
    have hnext : continues a next = false := by simp [continues, h next rfl]
    exact ⟨.badContinuation, by simp [hnext]⟩

private theorem piece_second (hl : ¬a < 0x80) (hstart : ¬a < 0xC2) (htwo : ¬a < 0xE0)
    (hu : a < 0xF5) (hb : continues a b = true) : ∃ kind, piece a (b :: rest) = .fault kind 1 := by
  unfold piece
  rw [if_neg hl, if_neg hstart, if_neg htwo, if_pos hu]
  simp only [hb]
  cases rest with
  | nil => exact ⟨.truncated, by simp⟩
  | cons next rest => exact ⟨.badContinuation, by simp [h next rfl]⟩

private theorem piece_third (hl : ¬a < 0x80) (hstart : ¬a < 0xC2) (htwo : ¬a < 0xE0)
    (hthree : ¬a < 0xF0) (hu : a < 0xF5) (hb : continues a b = true)
    (hc : isContinuation c = true) : ∃ kind, piece a (b :: c :: rest) = .fault kind 2 := by
  unfold piece
  rw [if_neg hl, if_neg hstart, if_neg htwo, if_neg hthree, if_pos hu]
  simp only [hb, hc]
  cases rest with
  | nil => exact ⟨.truncated, rfl⟩
  | cons next rest => exact ⟨.badContinuation, by simp [h next rfl]⟩

end BreaksOff

private theorem piece_of_breaksOff {a : UInt8} {covered missing rest : Bytes} {ch : Char}
    {size : Nat} (hwhole : piece a (covered ++ missing) = .char ch size)
    (hsize : (covered ++ missing).length = size) (hmissing : missing ≠ []) (h : StartsAfresh rest) :
    ∃ kind, piece a (covered ++ rest) = .fault kind covered.length := by
  have hpos := List.length_pos_iff.mpr hmissing
  generalize hall : covered ++ missing = all at hwhole hsize
  revert hwhole
  -- The cases that are left are the branches of `piece` that find a character.
  fun_cases piece a all <;> intro hwhole <;> simp only [reduceCtorEq, Piece.char.injEq] at hwhole
  all_goals
    obtain ⟨rfl, rfl⟩ := hwhole
    rw [← hall, List.length_append] at hsize
  case case1 => omega
  case case4 hl hstart hu second behind hsecond =>
    obtain rfl : covered = [] := List.eq_nil_of_length_eq_zero (by omega)
    exact piece_first h hl hstart (UInt8.lt_trans hu (by decide))
  case case8 hl hstart htwo hu second hsecond third behind hthird =>
    have hlast : a < 0xF5 := UInt8.lt_trans hu (by decide)
    rcases covered with _ | ⟨_, _ | ⟨_, _⟩⟩
    · exact piece_first h hl hstart hlast
    · cases hall
      exact piece_second h hl hstart htwo hlast hsecond
    · rw [List.length_cons, List.length_cons] at hsize
      omega
  case case14 hl hstart htwo hthree hu second hsecond third hthird fourth behind hfourth =>
    rcases covered with _ | ⟨_, _ | ⟨_, _ | ⟨_, _⟩⟩⟩
    · exact piece_first h hl hstart hu
    · cases hall
      exact piece_second h hl hstart htwo hu hsecond
    · cases hall
      exact piece_third h hl hstart htwo hthree hu hsecond hthird
    · rw [List.length_cons, List.length_cons, List.length_cons] at hsize
      omega

/-! ### Between two texts -/

private theorem decodeLossy_of_stray {bs : Bytes} (h : ∀ b ∈ bs, isStray b = true) (rest : Bytes) :
    decodeLossy (bs ++ rest) = decodeLossy rest := by
  induction bs with
  | nil => rfl
  | cons b bs ih =>
    rw [List.forall_mem_cons] at h
    have hpiece : piece b ([] ++ (bs ++ rest)) = .fault .badStart ([] : Bytes).length :=
      piece_stray h.1 _
    have hdropped : decodeLossy (b :: (bs ++ rest)) = decodeLossy (bs ++ rest) :=
      decodeLossy_of_fault hpiece
    rw [List.cons_append, hdropped, ih h.2]

private theorem decodeLossy_of_breaksOff {bs rest : Bytes} (hbs : BreaksOff bs)
    (h : StartsAfresh rest) : decodeLossy (bs ++ rest) = decodeLossy rest := by
  obtain ⟨hne, ch, missing, hmissing, hbytes⟩ := hbs
  obtain ⟨a, covered, rfl⟩ := List.exists_cons_of_ne_nil hne
  obtain ⟨b, tail, htail, hpiece⟩ := piece_encodeChar ch
  rw [htail] at hbytes
  obtain ⟨rfl, rfl⟩ := List.cons.inj hbytes
  have hwhole := hpiece []
  rw [List.append_nil] at hwhole
  obtain ⟨kind, hkind⟩ := piece_of_breaksOff hwhole rfl hmissing h
  exact decodeLossy_of_fault hkind

theorem decodeLossy_damage {junk : Bytes} (h : Damage junk) (before behind : Text) :
    decodeLossy (encode before ++ (junk ++ encode behind)) = before ++ behind := by
  rw [decodeLossy_encode_append]
  cases h with
  | breaksOff h => rw [decodeLossy_of_breaksOff h (startsAfresh_encode behind), decodeLossy_encode]
  | stray h => rw [decodeLossy_of_stray h, decodeLossy_encode]

end CommentedCode.Utf8
