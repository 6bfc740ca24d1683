import CommentedCode.Proofs.Outcome
import CommentedCode.Proofs.Text.Encoding
/-!
# Strict decoding

A character is read from its own bytes and from no others, so strict reading succeeds on encoded
text and on nothing else.
-/
namespace CommentedCode.Utf8

/-! ### The bytes of a code point -/

private theorem byte_ext {a : UInt8} {n : Nat} (h : n = a.toNat) : UInt8.ofNat n = a := by
  rw [h]
  exact UInt8.ofNat_toNat

private theorem val_ofNat {v : Nat} (h : v.isValidChar) : (Char.ofNat v).val.toNat = v := by
  rw [Char.ofNat, dif_pos h]
  rfl

private theorem encodeChar_one {v : Nat} (h : v < 0x80) :
    String.utf8EncodeChar (Char.ofNat v) = [UInt8.ofNat v] := by
  have hvalid : v.isValidChar := .inl (by omega)
  rw [String.utf8EncodeChar, val_ofNat hvalid]
  exact if_pos (by omega)

private theorem encodeChar_two {v : Nat} (hl : 0x80 ≤ v) (hu : v < 0x800) :
    String.utf8EncodeChar (Char.ofNat v) =
      [UInt8.ofNat (v / 64 % 0x20 + 0xC0), UInt8.ofNat (v % 0x40 + 0x80)] := by
  have hvalid : v.isValidChar := .inl (by omega)
  rw [String.utf8EncodeChar, val_ofNat hvalid]
  rw [if_neg (by omega), if_pos (by omega)]

private theorem encodeChar_three {v : Nat} (hl : 0x800 ≤ v) (hu : v < 0x10000)
    (hvalid : v.isValidChar) :
    String.utf8EncodeChar (Char.ofNat v) =
      [UInt8.ofNat (v / 4096 % 0x10 + 0xE0), UInt8.ofNat (v / 64 % 0x40 + 0x80),
        UInt8.ofNat (v % 0x40 + 0x80)] := by
  rw [String.utf8EncodeChar, val_ofNat hvalid]
  rw [if_neg (by omega), if_neg (by omega), if_pos (by omega)]

private theorem encodeChar_four {v : Nat} (hl : 0x10000 ≤ v) (hu : v < 0x110000) :
    String.utf8EncodeChar (Char.ofNat v) =
      [UInt8.ofNat (v / 262144 % 0x08 + 0xF0), UInt8.ofNat (v / 4096 % 0x40 + 0x80),
        UInt8.ofNat (v / 64 % 0x40 + 0x80), UInt8.ofNat (v % 0x40 + 0x80)] := by
  have hvalid : v.isValidChar := .inr ⟨by omega, hu⟩
  rw [String.utf8EncodeChar, val_ofNat hvalid]
  rw [if_neg (by omega), if_neg (by omega), if_neg (by omega)]

/-! ### Bytes that are read as a character -/

private theorem encodeChar_of_two {a b : UInt8} (hl : 0xC2 ≤ a.toNat) (hu : a.toNat < 0xE0)
    (hb : continues a b = true) :
    String.utf8EncodeChar (Char.ofNat ((a.toNat - 0xC0) * 0x40 + low b)) = [a, b] := by
  rw [continues_iff, isContinuation_iff] at hb
  unfold low
  rw [encodeChar_two (by omega) (by omega)]
  simp only [List.cons.injEq, and_true]
  exact ⟨byte_ext (by omega), byte_ext (by omega)⟩

private theorem encodeChar_of_three {a b c : UInt8} (hl : 0xE0 ≤ a.toNat) (hu : a.toNat < 0xF0)
    (hb : continues a b = true) (hc : isContinuation c = true) :
    String.utf8EncodeChar
      (Char.ofNat ((a.toNat - 0xE0) * 0x1000 + low b * 0x40 + low c)) = [a, b, c] := by
  rw [continues_iff, isContinuation_iff] at hb
  rw [isContinuation_iff] at hc
  obtain ⟨hrange, hoverlong, hsurrogate, -, -⟩ := hb
  have hvalid : ((a.toNat - 0xE0) * 0x1000 + low b * 0x40 + low c).isValidChar := by
    unfold low Nat.isValidChar
    omega
  unfold low at hvalid ⊢
  rw [encodeChar_three (by omega) (by omega) hvalid]
  simp only [List.cons.injEq, and_true]
  exact ⟨byte_ext (by omega), byte_ext (by omega), byte_ext (by omega)⟩

private theorem encodeChar_of_four {a b c d : UInt8} (hl : 0xF0 ≤ a.toNat) (hu : a.toNat < 0xF5)
    (hb : continues a b = true) (hc : isContinuation c = true) (hd : isContinuation d = true) :
    String.utf8EncodeChar (Char.ofNat
      ((a.toNat - 0xF0) * 0x40000 + low b * 0x1000 + low c * 0x40 + low d)) = [a, b, c, d] := by
  rw [continues_iff, isContinuation_iff] at hb
  rw [isContinuation_iff] at hc hd
  obtain ⟨hrange, -, -, hoverlong, hlast⟩ := hb
  unfold low
  rw [encodeChar_four (by omega) (by omega)]
  simp only [List.cons.injEq, and_true]
  exact ⟨byte_ext (by omega), byte_ext (by omega), byte_ext (by omega), byte_ext (by omega)⟩

private theorem le_of_not_lt {a n : UInt8} (h : ¬a < n) : n.toNat ≤ a.toNat := by
  rw [UInt8.lt_iff_toNat_lt] at h
  exact Nat.le_of_not_lt h

private theorem encodeChar_of_piece {b : UInt8} {rest : Bytes} {c : Char} {size : Nat}
    (h : piece b rest = .char c size) :
    ∃ tail behind, rest = tail ++ behind ∧ tail.length = size ∧
      String.utf8EncodeChar c = b :: tail := by
  -- The cases that are left are the branches of `piece` that find a character.
  revert h
  fun_cases piece b rest <;> intro h <;> simp only [reduceCtorEq, Piece.char.injEq] at h
  all_goals obtain ⟨rfl, rfl⟩ := h
  case case1 hu =>
    refine ⟨[], rest, rfl, rfl, ?_⟩
    rw [encodeChar_one (UInt8.lt_iff_toNat_lt.mp hu), byte_ext rfl]
  case case4 _ hl hu second behind hsecond =>
    exact ⟨[second], behind, rfl, rfl,
      encodeChar_of_two (le_of_not_lt hl) (UInt8.lt_iff_toNat_lt.mp hu) hsecond⟩
  case case8 _ _ hl hu second hsecond third behind hthird =>
    exact ⟨[second, third], behind, rfl, rfl,
      encodeChar_of_three (le_of_not_lt hl) (UInt8.lt_iff_toNat_lt.mp hu) hsecond hthird⟩
  case case14 _ _ _ hl hu second hsecond third hthird fourth behind hfourth =>
    exact ⟨[second, third, fourth], behind, rfl, rfl,
      encodeChar_of_four (le_of_not_lt hl) (UInt8.lt_iff_toNat_lt.mp hu) hsecond hthird hfourth⟩

/-- The text that is read encodes all bytes, but for those that still belong to the last piece. -/
theorem encode_of_decodeFrom {position skip : Nat} {bs : Bytes} {cs : Text}
    (h : decodeFrom position skip bs = .ok cs) : encode cs = bs.drop skip := by
  induction bs generalizing position skip cs with
  | nil =>
    obtain rfl : cs = [] := by
      cases skip <;> exact (Except.ok.inj h).symm
    rw [List.drop_nil]
    rfl
  | cons b bs ih =>
    cases skip with
    | succ skip => exact ih h
    | zero =>
      rw [decodeFrom] at h
      split at h
      · rename_i c size hpiece
        obtain ⟨later, hlater, rfl⟩ := map_ok h
        obtain ⟨tail, behind, rfl, rfl, hbytes⟩ := encodeChar_of_piece hpiece
        rw [encode_cons, hbytes, ih hlater, List.drop_left]
        rfl
      · cases h

theorem decode?_eq_ok_iff {bs : Bytes} {cs : Text} : decode? bs = .ok cs ↔ encode cs = bs := by
  constructor
  · intro h
    rw [encode_of_decodeFrom h, List.drop_zero]
  · rintro rfl
    exact decode?_encode cs

theorem exists_decode?_error {bs : Bytes} (h : ∀ cs, encode cs ≠ bs) :
    ∃ e, decode? bs = .error e := by
  cases hread : decode? bs with
  | error e => exact ⟨e, rfl⟩
  | ok cs => exact absurd (decode?_eq_ok_iff.mp hread) (h cs)

end CommentedCode.Utf8
