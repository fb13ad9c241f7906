import Mathlib.Tactic.SplitIfs

/-!
# The order of texts and the order of their bytes

Texts are compared character by character.  The bytes of the smaller of two characters are before
those of the greater one and never only a beginning of them, so texts come in the order of their
bytes as well.
-/

namespace Stencil.Text

/-- The bytes of a text in UTF-8. -/
def bytes (text : String) : List UInt8 :=
  text.toUTF8.data.toList

/-- One sequence of bytes is before another one, whatever follows them: at the first place where
they differ it has the smaller byte. -/
inductive Below : List UInt8 → List UInt8 → Prop where
  | here {low high : UInt8} (less : low < high) (lows highs : List UInt8) :
      Below (low :: lows) (high :: highs)
  | behind (byte : UInt8) {lows highs : List UInt8} (below : Below lows highs) :
      Below (byte :: lows) (byte :: highs)

theorem not_below_nil (highs : List UInt8) : ¬ Below [] highs := by
  rintro ⟨⟩

theorem below_cons_iff {low high : UInt8} {lows highs : List UInt8} :
    Below (low :: lows) (high :: highs) ↔
      low.toNat < high.toNat ∨ (low.toNat = high.toNat ∧ Below lows highs) := by
  constructor
  · intro below
    cases below with
    | here less => exact .inl (UInt8.lt_iff_toNat_lt.mp less)
    | behind _ below => exact .inr ⟨rfl, below⟩
  · rintro (less | ⟨same, below⟩)
    · exact .here (UInt8.lt_iff_toNat_lt.mpr less) lows highs
    · obtain rfl := UInt8.toNat_inj.mp same
      exact .behind low below

theorem Below.append_lt {lows highs : List UInt8} (below : Below lows highs)
    (left right : List UInt8) : lows ++ left < highs ++ right := by
  induction below with
  | here less => exact .rel less
  | behind byte _ induction => exact .cons induction

theorem toNat_octet {number : Nat} (fits : number < 256) : (UInt8.ofNat number).toNat = number :=
  UInt8.toNat_ofNat_of_lt' fits

theorem below_utf8EncodeChar {first second : Char} (less : first < second) :
    Below (String.utf8EncodeChar first) (String.utf8EncodeChar second) := by
  have numbers : first.val.toNat < second.val.toNat := UInt32.lt_iff_toNat_lt.mp less
  have bound : second.val.toNat < 0x110000 := by
    have valid := second.valid
    simp only [UInt32.isValidChar, Nat.isValidChar] at valid
    omega
  have digits (number : Nat) :
      number / 64 / 64 = number / 4096 ∧ number / 4096 / 64 = number / 262144 :=
    ⟨Nat.div_div_eq_div_mul _ _ _, Nat.div_div_eq_div_mul _ _ _⟩
  have firstDigits := digits first.val.toNat
  have secondDigits := digits second.val.toNat
  have firstTop : first.val.toNat / 262144 % 8 = first.val.toNat / 262144 :=
    Nat.mod_eq_of_lt (by omega)
  have secondTop : second.val.toNat / 262144 % 8 = second.val.toNat / 262144 :=
    Nat.mod_eq_of_lt (by omega)
  -- The first byte of a character tells how many there are, and grows with that.
  simp only [String.utf8EncodeChar]
  split_ifs <;> simp (disch := omega) only [below_cons_iff, not_below_nil, toNat_octet] <;> omega

theorem bytes_eq_flatMap (text : String) :
    bytes text = text.toList.flatMap String.utf8EncodeChar := by
  have written : text.toUTF8 = (text.toList.flatMap String.utf8EncodeChar).toByteArray := by
    conv => lhs; rw [← String.ofList_toList (s := text)]
    rfl
  rw [bytes, written]
  simp

theorem flatMap_utf8EncodeChar_lt {first second : List Char} (less : first < second) :
    first.flatMap String.utf8EncodeChar < second.flatMap String.utf8EncodeChar := by
  induction less with
  | @nil character rest =>
      obtain ⟨head, tail, encoded⟩ :=
        List.exists_cons_of_ne_nil (String.utf8EncodeChar_ne_nil (c := character))
      simp [encoded]
  | @cons character first second _ induction =>
      simpa using List.append_left_lt induction
  | rel less =>
      simpa using (below_utf8EncodeChar less).append_lt _ _

/-- Texts come in the order of their bytes. -/
theorem lt_iff_bytes_lt {first second : String} : first < second ↔ bytes first < bytes second := by
  have grows {first second : String} (less : first < second) : bytes first < bytes second := by
    rw [bytes_eq_flatMap, bytes_eq_flatMap]
    exact flatMap_utf8EncodeChar_lt less
  constructor
  · exact grows
  · intro less
    by_cases same : first = second
    · subst same
      exact absurd less (List.lt_irrefl _)
    · by_cases before : first < second
      · exact before
      · have after : second < first :=
          Std.lt_of_le_of_ne (String.not_lt.mp before) (Ne.symm same)
        exact absurd less (List.lt_asymm (grows after))

end Stencil.Text
