import Logbook.Text.Utf8

/-!
# Text comes back from its octets

Reading the octets of a text gives the text. Every sequence that is written for a character is
promised in full by its first octet: the bits that the octet holds, how many octets follow, and
bounds that the second octet keeps.
-/

namespace Logbook.Text

/-! ## Octets of a sequence -/

theorem toNat_octet {n : Nat} (h : n < 256) : (UInt8.ofNat n).toNat = n := by
  rw [UInt8.toNat_ofNat', Nat.mod_eq_of_lt h]

theorem decode_single {n : Nat} (h : n < 0x80) (rest : Bytes) :
    decode (UInt8.ofNat n :: rest) = Char.ofNat n :: decode rest := by
  rw [decode, toNat_octet (by omega), if_pos h]

theorem decode_lead {n : Nat} {lead : Lead} (h : 0x80 ≤ n) (h' : n < 256)
    (hlead : lead? n = some lead) (rest : Bytes) :
    decode (UInt8.ofNat n :: rest) = decodeOpen lead rest := by
  rw [decode, toNat_octet h', if_neg (by omega), hlead]

section

variable {bits more least greatest : Nat} (h : more < 64) (hleast : least ≤ 0x80 + more)
  (hgreatest : 0x80 + more ≤ greatest) (rest : Bytes)

include h hleast hgreatest

/-- The last six bits of an open sequence complete the character. -/
theorem decodeOpen_last :
    decodeOpen ⟨bits, 1, least, greatest⟩ (UInt8.ofNat (0x80 + more) :: rest) =
      Char.ofNat (bits * 64 + more) :: decode rest := by
  rw [decodeOpen, toNat_octet (by omega), if_pos ⟨hleast, hgreatest⟩, Nat.add_sub_cancel_left]
  rfl

theorem decodeOpen_more (following : Nat) :
    decodeOpen ⟨bits, following + 2, least, greatest⟩ (UInt8.ofNat (0x80 + more) :: rest) =
      decodeOpen ⟨bits * 64 + more, following + 1, 0x80, 0xBF⟩ rest := by
  rw [decodeOpen, toNat_octet (by omega), if_pos ⟨hleast, hgreatest⟩, Nat.add_sub_cancel_left]
  exact if_neg (by simp)

end

/-! ## First octets -/

theorem lead?_of_two {n : Nat} (h : 0x80 ≤ n) (h' : n < 0x800) :
    lead? (0xC0 + n / 64) = some ⟨n / 64, 1, 0x80, 0xBF⟩ := by
  have hrange : 0xC2 ≤ 0xC0 + n / 64 ∧ 0xC0 + n / 64 ≤ 0xDF := by omega
  rw [lead?, if_pos hrange, Nat.add_sub_cancel_left]

/-- The surrogates are left out by the bound for the octet behind `0xED`. -/
theorem lead?_of_three {n : Nat} (h : 0x800 ≤ n) (h' : n < 0x10000)
    (hscalar : n < 0xD800 ∨ 0xDFFF < n) :
    ∃ least greatest, lead? (0xE0 + n / 4096) = some ⟨n / 4096, 2, least, greatest⟩ ∧
      least ≤ 0x80 + n / 64 % 64 ∧ 0x80 + n / 64 % 64 ≤ greatest := by
  unfold lead?
  rw [if_neg (by omega)]
  split
  · rw [show n / 4096 = 0 by omega]
    exact ⟨_, _, rfl, by omega⟩
  split
  · rw [show n / 4096 = 0xD by omega]
    exact ⟨_, _, rfl, by omega⟩
  rw [if_pos (by omega), Nat.add_sub_cancel_left]
  exact ⟨_, _, rfl, by omega⟩

theorem lead?_of_four {n : Nat} (h : 0x10000 ≤ n) (h' : n < 0x110000) :
    ∃ least greatest, lead? (0xF0 + n / 262144) = some ⟨n / 262144, 3, least, greatest⟩ ∧
      least ≤ 0x80 + n / 4096 % 64 ∧ 0x80 + n / 4096 % 64 ≤ greatest := by
  unfold lead?
  rw [if_neg (by omega), if_neg (by omega), if_neg (by omega), if_neg (by omega)]
  split
  · rw [show n / 262144 = 0 by omega]
    exact ⟨_, _, rfl, by omega⟩
  split
  · rw [Nat.add_sub_cancel_left]
    exact ⟨_, _, rfl, by omega⟩
  rw [if_pos (by omega), show n / 262144 = 4 by omega]
  exact ⟨_, _, rfl, by omega⟩

/-! ## Characters and texts -/

theorem scalar_toNat (c : Char) :
    c.toNat < 0xD800 ∨ (0xDFFF < c.toNat ∧ c.toNat < 0x110000) := c.valid

theorem decode_encodeChar (c : Char) (rest : Bytes) :
    decode (encodeChar c ++ rest) = c :: decode rest := by
  have hscalar := scalar_toNat c
  have hchar : Char.ofNat c.toNat = c := Char.ofNat_toNat c
  unfold encodeChar
  dsimp only
  generalize c.toNat = n at hscalar hchar ⊢
  split
  · rename_i hone
    rw [List.singleton_append, decode_single hone, hchar]
  split
  · rename_i htwo
    have hbits : n / 64 * 64 + n % 64 = n := by omega
    simp only [List.cons_append, List.nil_append]
    rw [decode_lead (by omega) (by omega) (lead?_of_two (by omega) htwo),
      decodeOpen_last (by omega) (by omega) (by omega), hbits, hchar]
  split
  · rename_i hthree
    obtain ⟨least, greatest, hlead, hleast, hgreatest⟩ :=
      lead?_of_three (by omega) hthree (by omega)
    have hbits : (n / 4096 * 64 + n / 64 % 64) * 64 + n % 64 = n := by omega
    simp only [List.cons_append, List.nil_append]
    rw [decode_lead (by omega) (by omega) hlead, decodeOpen_more (by omega) hleast hgreatest,
      decodeOpen_last (by omega) (by omega) (by omega), hbits, hchar]
  · obtain ⟨least, greatest, hlead, hleast, hgreatest⟩ :=
      lead?_of_four (n := n) (by omega) (by omega)
    have hbits :
        ((n / 262144 * 64 + n / 4096 % 64) * 64 + n / 64 % 64) * 64 + n % 64 = n := by omega
    simp only [List.cons_append, List.nil_append]
    rw [decode_lead (by omega) (by omega) hlead, decodeOpen_more (by omega) hleast hgreatest,
      decodeOpen_more (by omega) (by omega) (by omega),
      decodeOpen_last (by omega) (by omega) (by omega), hbits, hchar]

theorem decode_encode_append (text : Text) (rest : Bytes) :
    decode (encode text ++ rest) = text ++ decode rest := by
  induction text with
  | nil => rfl
  | cons c more ih =>
      rw [encode, List.flatMap_cons, List.append_assoc, decode_encodeChar]
      exact congrArg (c :: ·) ih

theorem decode_encode (text : Text) : decode (encode text) = text := by
  have h := decode_encode_append text []
  simpa [decode] using h

/-! ## Characters among other octets -/

/-- An octet that continues no sequence. -/
def Starts (b : UInt8) : Prop := b.toNat < 0x80 ∨ 0xBF < b.toNat

/-- Only octets that continue a sequence can be promised. -/
theorem bounds_of_lead? {n : Nat} {lead : Lead} (h : lead? n = some lead) :
    0x80 ≤ lead.least ∧ lead.greatest ≤ 0xBF := by
  unfold lead? at h
  repeat
    split at h
    · rw [← Option.some_inj.1 h]
      constructor <;> dsimp only <;> omega
  cases h

theorem decodeOpen_starts {lead : Lead} {b : UInt8} (hb : Starts b) (hleast : 0x80 ≤ lead.least)
    (hgreatest : lead.greatest ≤ 0xBF) (rest : Bytes) :
    decodeOpen lead (b :: rest) = replacement :: decode (b :: rest) := by
  have hout : ¬ (lead.least ≤ b.toNat ∧ b.toNat ≤ lead.greatest) := by
    rintro ⟨hmin, hmax⟩
    rcases hb with h | h <;> omega
  rw [decodeOpen, decode, if_neg hout]
  by_cases hone : b.toNat < 0x80
  · simp only [if_pos hone]
  · simp only [if_neg hone]
    cases lead? b.toNat <;> rfl

/-- Where an octet starts something, reading starts afresh, whatever was left open before. -/
theorem decode_append_starts {b : UInt8} (hb : Starts b) (rest front : Bytes) :
    decode (front ++ b :: rest) = decode front ++ decode (b :: rest) ∧
      ∀ lead : Lead, 0x80 ≤ lead.least → lead.greatest ≤ 0xBF →
        decodeOpen lead (front ++ b :: rest) = decodeOpen lead front ++ decode (b :: rest) := by
  induction front with
  | nil =>
      refine ⟨rfl, fun lead hleast hgreatest => ?_⟩
      exact decodeOpen_starts hb hleast hgreatest rest
  | cons octet front ih =>
      obtain ⟨hdecode, hopen⟩ := ih
      constructor
      · rw [List.cons_append, decode, decode]
        split
        · rw [hdecode, List.cons_append]
        · cases hlead : lead? octet.toNat with
          | none => simp only [hdecode, List.cons_append]
          | some lead =>
              obtain ⟨hleast, hgreatest⟩ := bounds_of_lead? hlead
              exact hopen lead hleast hgreatest
      · intro lead hleast hgreatest
        rw [List.cons_append, decodeOpen, decodeOpen]
        split
        · dsimp only
          split
          · rw [hdecode, List.cons_append]
          · exact hopen _ (by simp) (by simp)
        split
        · rw [hdecode, List.cons_append, List.cons_append]
        · cases hlead : lead? octet.toNat with
          | none => simp only [hdecode, List.cons_append]
          | some next =>
              obtain ⟨hleast, hgreatest⟩ := bounds_of_lead? hlead
              simp only [hopen next hleast hgreatest, List.cons_append]

theorem exists_encodeChar (c : Char) : ∃ b more, encodeChar c = b :: more ∧ Starts b := by
  have hscalar := scalar_toNat c
  unfold encodeChar Starts
  dsimp only
  split
  · exact ⟨_, _, rfl, .inl (by rw [toNat_octet] <;> omega)⟩
  split
  · exact ⟨_, _, rfl, .inr (by rw [toNat_octet] <;> omega)⟩
  split
  · exact ⟨_, _, rfl, .inr (by rw [toNat_octet] <;> omega)⟩
  · exact ⟨_, _, rfl, .inr (by rw [toNat_octet] <;> omega)⟩

theorem decode_append_encodeChar (front : Bytes) (c : Char) (rest : Bytes) :
    decode (front ++ encodeChar c ++ rest) = decode front ++ c :: decode rest := by
  obtain ⟨b, more, hchar, hstarts⟩ := exists_encodeChar c
  rw [List.append_assoc, ← decode_encodeChar c rest, hchar, List.cons_append]
  exact (decode_append_starts hstarts (more ++ rest) front).1

end Logbook.Text
