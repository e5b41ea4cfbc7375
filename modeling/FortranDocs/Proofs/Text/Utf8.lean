import FortranDocs.Text.Utf8

/-!
# Texts as bytes and back

A text is read back from the bytes in which it is encoded: `Utf8.decode_encode`.  The four lengths
of a character's bytes are the four cases in which bytes are read.
-/

namespace FortranDocs
namespace Utf8

variable {first second third fourth : UInt8} {position code : Nat} {rest : List UInt8}

theorem isContinuation_iff {byte : UInt8} :
    isContinuation byte = true ↔ 0x80 ≤ byte.toNat ∧ byte.toNat ≤ 0xBF := by
  simp [isContinuation, UInt8.le_iff_toNat_le]

namespace Lead

/-- Whether a byte announces a number of bytes behind a second one, with bounds that admit some
second byte. -/
def Announces (first second : UInt8) (more : Nat) : Prop :=
  ∃ low high, ofByte? first = some ⟨low, high, more⟩ ∧
    low.toNat ≤ second.toNat ∧ second.toNat ≤ high.toNat

/-- What the first of two bytes announces. -/
theorem announces_of_two
    (low : 0xC2 ≤ first.toNat)
    (high : first.toNat ≤ 0xDF)
    (continues : isContinuation second = true) :
    Announces first second 0 := by
  refine ⟨0x80, 0xBF, ?_, isContinuation_iff.mp continues⟩
  simp [ofByte?, UInt8.le_iff_toNat_le, low, high]

/-- What the first of three bytes announces, unless they are overlong or a surrogate. -/
theorem announces_of_three
    (low : 0xE0 ≤ first.toNat)
    (high : first.toNat ≤ 0xEF)
    (continues : isContinuation second = true)
    (full : first.toNat = 0xE0 → 0xA0 ≤ second.toNat)
    (scalar : first.toNat = 0xED → second.toNat ≤ 0x9F) :
    Announces first second 1 := by
  rw [isContinuation_iff] at continues
  by_cases least : first.toNat = 0xE0
  · obtain rfl : first = 0xE0 := UInt8.toNat_inj.mp least
    exact ⟨0xA0, 0xBF, rfl, full least, continues.2⟩
  · by_cases surrogate : first.toNat = 0xED
    · obtain rfl : first = 0xED := UInt8.toNat_inj.mp surrogate
      exact ⟨0x80, 0x9F, rfl, continues.1, scalar surrogate⟩
    · refine ⟨0x80, 0xBF, ?_, continues⟩
      have above : 0xE1 ≤ first.toNat := by omega
      have notTwo : ¬ first.toNat ≤ 0xDF := by omega
      simp [ofByte?, UInt8.le_iff_toNat_le, ← UInt8.toNat_inj, least, surrogate, above, high,
        notTwo]

/-- What the first of four bytes announces, unless they are overlong or beyond the last code
point. -/
theorem announces_of_four
    (low : 0xF0 ≤ first.toNat)
    (high : first.toNat ≤ 0xF4)
    (continues : isContinuation second = true)
    (full : first.toNat = 0xF0 → 0x90 ≤ second.toNat)
    (scalar : first.toNat = 0xF4 → second.toNat ≤ 0x8F) :
    Announces first second 2 := by
  rw [isContinuation_iff] at continues
  by_cases least : first.toNat = 0xF0
  · obtain rfl : first = 0xF0 := UInt8.toNat_inj.mp least
    exact ⟨0x90, 0xBF, rfl, full least, continues.2⟩
  · by_cases last : first.toNat = 0xF4
    · obtain rfl : first = 0xF4 := UInt8.toNat_inj.mp last
      exact ⟨0x80, 0x8F, rfl, continues.1, scalar last⟩
    · refine ⟨0x80, 0xBF, ?_, continues⟩
      have above : 0xF1 ≤ first.toNat := by omega
      have below : first.toNat ≤ 0xF3 := by omega
      have notTwo : ¬ first.toNat ≤ 0xDF := by omega
      have notThree : ¬ first.toNat ≤ 0xEF := by omega
      have notFirst : ¬ first.toNat = 0xE0 := by omega
      have notSurrogate : ¬ first.toNat = 0xED := by omega
      simp [ofByte?, UInt8.le_iff_toNat_le, ← UInt8.toNat_inj, least, above, below, notTwo,
        notThree, notFirst, notSurrogate]

theorem Announces.admits
    {more : Nat}
    (announces : Announces first second more) :
    ∃ lead, ofByte? first = some lead ∧ lead.more = more ∧
      (second < lead.low || lead.high < second) = false := by
  obtain ⟨low, high, leads, lower, upper⟩ := announces
  refine ⟨_, leads, rfl, ?_⟩
  simpa [UInt8.lt_iff_toNat_lt] using ⟨lower, upper⟩

end Lead

theorem decodeFrom_of_one
    (ascii : first.toNat < 0x80)
    (value : first.toNat = code) :
    decodeFrom position (first :: rest) =
      (decodeFrom (position + 1) rest).map (Char.ofNat code :: ·) := by
  subst value
  rw [decodeFrom.eq_def]
  exact if_pos (UInt8.lt_iff_toNat_lt.mpr ascii)

theorem decodeFrom_of_two
    (low : 0x80 ≤ first.toNat)
    (announces : Lead.Announces first second 0)
    (value : first.toNat % 0x20 * 0x40 + payload second = code) :
    decodeFrom position (first :: second :: rest) =
      (decodeFrom (position + 2) rest).map (Char.ofNat code :: ·) := by
  subst value
  obtain ⟨lead, leads, more, admits⟩ := announces.admits
  have notAscii : ¬ first < 0x80 := by simpa [UInt8.lt_iff_toNat_lt] using low
  rw [decodeFrom.eq_def]
  simp only [notAscii, leads, admits, more, Bool.false_eq_true, if_false]

theorem decodeFrom_of_three
    (low : 0x80 ≤ first.toNat)
    (announces : Lead.Announces first second 1)
    (continues : isContinuation third = true)
    (value : (first.toNat % 0x10 * 0x40 + payload second) * 0x40 + payload third = code) :
    decodeFrom position (first :: second :: third :: rest) =
      (decodeFrom (position + 3) rest).map (Char.ofNat code :: ·) := by
  subst value
  obtain ⟨lead, leads, more, admits⟩ := announces.admits
  have notAscii : ¬ first < 0x80 := by simpa [UInt8.lt_iff_toNat_lt] using low
  rw [decodeFrom.eq_def]
  simp only [notAscii, leads, admits, more, continues, Bool.false_eq_true, if_false, if_true]

theorem decodeFrom_of_four
    (low : 0x80 ≤ first.toNat)
    (announces : Lead.Announces first second 2)
    (continues : isContinuation third = true)
    (ends : isContinuation fourth = true)
    (value :
      ((first.toNat % 0x08 * 0x40 + payload second) * 0x40 + payload third) * 0x40 +
        payload fourth = code) :
    decodeFrom position (first :: second :: third :: fourth :: rest) =
      (decodeFrom (position + 4) rest).map (Char.ofNat code :: ·) := by
  subst value
  obtain ⟨lead, leads, more, admits⟩ := announces.admits
  have notAscii : ¬ first < 0x80 := by simpa [UInt8.lt_iff_toNat_lt] using low
  rw [decodeFrom.eq_def]
  simp only [notAscii, leads, admits, more, continues, ends, Bool.false_eq_true, if_false, if_true]

/-- The six bits of a code point that go into a byte that continues a sequence. -/
theorem toNat_continuation (bits : Nat) :
    (UInt8.ofNat (bits % 0x40 + 0x80)).toNat = bits % 0x40 + 0x80 := by
  rw [UInt8.toNat_ofNat']
  omega

theorem isContinuation_continuation (bits : Nat) :
    isContinuation (UInt8.ofNat (bits % 0x40 + 0x80)) = true := by
  rw [isContinuation_iff, toNat_continuation]
  omega

theorem payload_continuation (bits : Nat) :
    payload (UInt8.ofNat (bits % 0x40 + 0x80)) = bits % 0x40 := by
  rw [payload, toNat_continuation]
  omega

/-- The bits of a code point that go into the first byte of a sequence. -/
theorem toNat_lead {size mark : Nat} (bits : Nat) (small : size + mark ≤ 0x100)
    (positive : 0 < size) :
    (UInt8.ofNat (bits % size + mark)).toNat = bits % size + mark := by
  have bound := Nat.mod_lt bits positive
  rw [UInt8.toNat_ofNat', Nat.mod_eq_of_lt]
  omega

/-- The bytes of a code point. -/
def bytesOf (code : Nat) : List UInt8 :=
  if code ≤ 0x7F then
    [UInt8.ofNat code]
  else if code ≤ 0x7FF then
    [UInt8.ofNat (code / 0x40 % 0x20 + 0xC0), UInt8.ofNat (code % 0x40 + 0x80)]
  else if code ≤ 0xFFFF then
    [UInt8.ofNat (code / 0x1000 % 0x10 + 0xE0), UInt8.ofNat (code / 0x40 % 0x40 + 0x80),
      UInt8.ofNat (code % 0x40 + 0x80)]
  else
    [UInt8.ofNat (code / 0x40000 % 0x08 + 0xF0), UInt8.ofNat (code / 0x1000 % 0x40 + 0x80),
      UInt8.ofNat (code / 0x40 % 0x40 + 0x80), UInt8.ofNat (code % 0x40 + 0x80)]

/-- The bytes of a code point are read as its character. -/
theorem decodeFrom_bytesOf
    {code : Nat}
    (valid : code.isValidChar)
    (position : Nat)
    (rest : List UInt8) :
    decodeFrom position (bytesOf code ++ rest) =
      (decodeFrom (position + (bytesOf code).length) rest).map (Char.ofNat code :: ·) := by
  unfold Nat.isValidChar at valid
  fun_cases bytesOf code with
  | case1 ascii =>
      have toNat : (UInt8.ofNat code).toNat = code := by
        rw [UInt8.toNat_ofNat', Nat.mod_eq_of_lt]
        omega
      exact decodeFrom_of_one (by omega) toNat
  | case2 notOne two =>
      have lead := toNat_lead (code / 0x40) (by decide : 0x20 + 0xC0 ≤ 0x100) (by decide)
      have announces := Lead.announces_of_two (by rw [lead]; omega) (by rw [lead]; omega)
        (isContinuation_continuation code)
      refine decodeFrom_of_two (by rw [lead]; omega) announces ?_
      rw [lead, payload_continuation]
      omega
  | case3 notOne notTwo three =>
      have lead := toNat_lead (code / 0x1000) (by decide : 0x10 + 0xE0 ≤ 0x100) (by decide)
      have next := toNat_continuation (code / 0x40)
      have announces := Lead.announces_of_three (by rw [lead]; omega) (by rw [lead]; omega)
        (isContinuation_continuation (code / 0x40)) (by rw [lead, next]; omega)
        (by rw [lead, next]; omega)
      refine decodeFrom_of_three (by rw [lead]; omega) announces
        (isContinuation_continuation code) ?_
      rw [lead, payload_continuation, payload_continuation]
      omega
  | case4 notOne notTwo notThree =>
      have lead := toNat_lead (code / 0x40000) (by decide : 0x08 + 0xF0 ≤ 0x100) (by decide)
      have next := toNat_continuation (code / 0x1000)
      have announces := Lead.announces_of_four (by rw [lead]; omega) (by rw [lead]; omega)
        (isContinuation_continuation (code / 0x1000)) (by rw [lead, next]; omega)
        (by rw [lead, next]; omega)
      refine decodeFrom_of_four (by rw [lead]; omega) announces
        (isContinuation_continuation (code / 0x40)) (isContinuation_continuation code) ?_
      rw [lead, payload_continuation, payload_continuation, payload_continuation]
      omega

/-- A text is read back from its bytes. -/
theorem decode_encode (text : Text) : decode (encode text) = .ok text := by
  have read (position : Nat) : decodeFrom position (encode text) = .ok text := by
    induction text generalizing position with
    | nil => rw [encode, List.flatMap_nil, decodeFrom]
    | cons character rest inductionHypothesis =>
        have encoded : encode (character :: rest) = bytesOf character.toNat ++ encode rest := rfl
        have valid : character.toNat.isValidChar := character.valid
        rw [encoded, decodeFrom_bytesOf valid, inductionHypothesis, Char.ofNat_toNat]
        rfl
  exact read 0

end Utf8
end FortranDocs
