import SiblingStore.Proofs.Text.Hex
import SiblingStore.Proofs.Text.Utf8

/-!
# Texts of hexadecimal digits

Which texts can be read as hexadecimal: those of evenly many digits, and a text of eight is
what names a client. Writing what was read gives the text back in lower case.
-/

namespace SiblingStore

namespace Text.Hex

def isDigit (c : Char) : Bool :=
  ('0' ≤ c && c ≤ '9') || ('a' ≤ c && c ≤ 'f') || ('A' ≤ c && c ≤ 'F')

def isOctet (b : UInt8) : Bool := (value? b).isSome

/-! ## Digits and their octets -/

theorem isDigit_iff (c : Char) :
    isDigit c = true ↔
      0x30 ≤ c.toNat ∧ c.toNat ≤ 0x39 ∨ 0x61 ≤ c.toNat ∧ c.toNat ≤ 0x66 ∨
        0x41 ≤ c.toNat ∧ c.toNat ≤ 0x46 := by
  have hle (a b : Char) : a ≤ b ↔ a.toNat ≤ b.toNat := Iff.rfl
  unfold isDigit
  simp only [Bool.or_eq_true, Bool.and_eq_true, decide_eq_true_eq, hle, or_assoc]
  exact Iff.rfl

theorem isOctet_iff (b : UInt8) :
    isOctet b = true ↔
      0x30 ≤ b.toNat ∧ b.toNat ≤ 0x39 ∨ 0x61 ≤ b.toNat ∧ b.toNat ≤ 0x66 ∨
        0x41 ≤ b.toNat ∧ b.toNat ≤ 0x46 := by
  have hle (a b : UInt8) : a ≤ b ↔ a.toNat ≤ b.toNat := Iff.rfl
  unfold isOctet value?
  simp only [hle]
  split_ifs with h₁ h₂ h₃
  · exact iff_of_true rfl (.inl h₁)
  · exact iff_of_true rfl (.inr (.inl h₂))
  · exact iff_of_true rfl (.inr (.inr h₃))
  · apply iff_of_false (by simp)
    rintro (h | h | h)
    · exact h₁ h
    · exact h₂ h
    · exact h₃ h

theorem digit_of_value? {b : UInt8} {n : Nat} (h : value? b = some n) :
    n < 16 ∧ digit n = (Char.ofNat b.toNat).toLower := by
  have hall : ∀ k < 256, (value? (UInt8.ofNat k)).all
      (fun n => n < 16 && digit n = (Char.ofNat (UInt8.ofNat k).toNat).toLower) = true := by
    decide +kernel
  have hb := hall b.toNat b.toNat_lt
  rw [UInt8.ofNat_toNat, h] at hb
  simpa using hb

theorem encodeChar_of_isDigit {c : Char} (h : isDigit c = true) :
    Utf8.encodeChar c = [UInt8.ofNat c.toNat] := by
  have hascii : c.toNat < 0x80 := by
    have hrange := (isDigit_iff c).1 h
    omega
  unfold Utf8.encodeChar
  dsimp only
  rw [if_pos hascii]

/-- No character but a digit is written with the octets of digits. -/
theorem forall_isOctet_encodeChar (c : Char) :
    (∀ b ∈ Utf8.encodeChar c, isOctet b = true) ↔ isDigit c = true := by
  rw [isDigit_iff]
  have hvalid := Utf8.toNat_valid c
  constructor
  · intro h
    unfold Utf8.encodeChar at h
    dsimp only at h
    split_ifs at h
    · have hoctet := (isOctet_iff _).1 (h _ List.mem_cons_self)
      rw [Utf8.toNat_ofNat_of_lt (by omega)] at hoctet
      exact hoctet
    · have hoctet := (isOctet_iff _).1 (h _ List.mem_cons_self)
      rw [Utf8.toNat_ofNat_of_lt (by omega)] at hoctet
      omega
    · have hoctet := (isOctet_iff _).1 (h _ List.mem_cons_self)
      rw [Utf8.toNat_ofNat_of_lt (by omega)] at hoctet
      omega
    · have hoctet := (isOctet_iff _).1 (h _ List.mem_cons_self)
      rw [Utf8.toNat_ofNat_of_lt (by omega)] at hoctet
      omega
  · intro h b hb
    rw [encodeChar_of_isDigit ((isDigit_iff c).2 h), List.mem_singleton] at hb
    rw [hb, isOctet_iff, Utf8.toNat_ofNat_of_lt (by omega)]
    exact h

/-! ## Texts -/

theorem forall_isOctet_encode (s : String) :
    (∀ b ∈ Utf8.encode s, isOctet b = true) ↔ ∀ c ∈ s.toList, isDigit c = true := by
  unfold Utf8.encode
  simp only [List.mem_flatMap]
  constructor
  · intro h c hc
    exact (forall_isOctet_encodeChar c).1 fun b hb => h b ⟨c, hc, hb⟩
  · rintro h b ⟨c, hc, hb⟩
    exact (forall_isOctet_encodeChar c).2 (h c hc) b hb

theorem encode_of_forall_isDigit {s : String} (h : ∀ c ∈ s.toList, isDigit c = true) :
    Utf8.encode s = s.toList.map fun c => UInt8.ofNat c.toNat := by
  unfold Utf8.encode
  generalize s.toList = cs at h
  induction cs with
  | nil => rfl
  | cons c cs ih =>
      have hc := encodeChar_of_isDigit (h c List.mem_cons_self)
      have hcs := ih fun c' hc' => h c' (List.mem_cons_of_mem c hc')
      rw [List.flatMap_cons, hc, hcs]
      rfl

/-- What pairs of digits are read as, written again, is the digits in lower case. -/
theorem encodeChars_of_decodePairs {index : Nat} {bs out : Bytes}
    (h : decodePairs index bs = .ok out) :
    (∀ b ∈ bs, isOctet b = true) ∧
      encodeChars out = bs.map fun b => (Char.ofNat b.toNat).toLower := by
  induction index, bs using decodePairs.induct generalizing out with
  | case1 index =>
      cases h
      exact ⟨fun _ hb => absurd hb List.not_mem_nil, rfl⟩
  | case2 index b => cases h
  | case3 index high low rest hhigh =>
      simp only [decodePairs, hhigh] at h
      cases h
  | case4 index high low rest m hhigh hlow =>
      simp only [decodePairs, hhigh, hlow] at h
      cases h
  | case5 index high low rest m hhigh n hlow ih =>
      simp only [decodePairs, hhigh, hlow] at h
      cases hrest : decodePairs (index + 2) rest with
      | error fault =>
          rw [hrest] at h
          cases h
      | ok out' =>
          rw [hrest] at h
          cases h
          obtain ⟨hoctets, hchars⟩ := ih hrest
          obtain ⟨hm, hhigh'⟩ := digit_of_value? hhigh
          obtain ⟨hn, hlow'⟩ := digit_of_value? hlow
          constructor
          · intro b hb
            rcases List.mem_cons.1 hb with rfl | hb
            · exact Option.isSome_of_eq_some hhigh
            · rcases List.mem_cons.1 hb with rfl | hb
              · exact Option.isSome_of_eq_some hlow
              · exact hoctets b hb
          · have hoctet : (UInt8.ofNat (16 * m + n)).toNat = 16 * m + n :=
              Utf8.toNat_ofNat_of_lt (by omega)
            have hdiv : (16 * m + n) / 16 = m := by omega
            have hmod : (16 * m + n) % 16 = n := by omega
            show digit ((UInt8.ofNat (16 * m + n)).toNat / 16) ::
              digit ((UInt8.ofNat (16 * m + n)).toNat % 16) :: encodeChars out' = _
            rw [hoctet, hdiv, hmod, hhigh', hlow', hchars]
            rfl

theorem exists_decodePairs {index : Nat} {bs : Bytes} (heven : bs.length % 2 = 0)
    (h : ∀ b ∈ bs, isOctet b = true) : ∃ out, decodePairs index bs = .ok out := by
  induction index, bs using decodePairs.induct with
  | case1 index => exact ⟨[], rfl⟩
  | case2 index b => simp at heven
  | case3 index high low rest hhigh =>
      have hoctet := h high List.mem_cons_self
      rw [isOctet, hhigh] at hoctet
      cases hoctet
  | case4 index high low rest m hhigh hlow =>
      have hoctet := h low (by simp)
      rw [isOctet, hlow] at hoctet
      cases hoctet
  | case5 index high low rest m hhigh n hlow ih =>
      simp only [List.length_cons] at heven
      obtain ⟨out, hout⟩ := ih (by omega) fun b hb => h b (by simp [hb])
      refine ⟨UInt8.ofNat (16 * m + n) :: out, ?_⟩
      simp only [decodePairs, hhigh, hlow, hout]
      rfl

theorem length_encodeChars (bs : Bytes) : (encodeChars bs).length = 2 * bs.length := by
  induction bs with
  | nil => rfl
  | cons b bs ih =>
      show (encodeChars bs).length + 2 = 2 * (bs.length + 1)
      omega

/-- A text that can be read consists of digits, two for each octet, and is written again in
lower case. -/
theorem decode_ok {s : String} {out : Bytes} (h : decode s = .ok out) :
    (∀ c ∈ s.toList, isDigit c = true) ∧ s.length = 2 * out.length ∧
      encode out = s.toLower := by
  unfold decode decodeOctets at h
  split_ifs at h
  obtain ⟨hoctets, hchars⟩ := encodeChars_of_decodePairs h
  have hdigits := (forall_isOctet_encode s).1 hoctets
  have hlower : encodeChars out = s.toList.map Char.toLower := by
    rw [hchars, encode_of_forall_isDigit hdigits, List.map_map]
    apply List.map_congr_left
    intro c hc
    have hrange := (isDigit_iff c).1 (hdigits c hc)
    show (Char.ofNat (UInt8.ofNat c.toNat).toNat).toLower = c.toLower
    rw [Utf8.toNat_ofNat_of_lt (by omega), Char.ofNat_toNat]
  refine ⟨hdigits, ?_, ?_⟩
  · have hlength := congrArg List.length hlower
    rw [length_encodeChars, List.length_map, String.length_toList] at hlength
    exact hlength.symm
  · unfold encode String.toLower
    rw [hlower, ← String.toList_map]
    exact String.ofList_toList

theorem size_of_forall_isDigit {s : String} (h : ∀ c ∈ s.toList, isDigit c = true) :
    Utf8.size s = s.length := by
  unfold Utf8.size
  rw [encode_of_forall_isDigit h, List.length_map, String.length_toList]

theorem exists_decode {s : String} (heven : s.length % 2 = 0)
    (h : ∀ c ∈ s.toList, isDigit c = true) : ∃ out, decode s = .ok out := by
  have hlength : (Utf8.encode s).length = s.length := size_of_forall_isDigit h
  unfold decode decodeOctets
  rw [if_neg (by omega)]
  exact exists_decodePairs (by omega) ((forall_isOctet_encode s).2 h)

end Text.Hex

namespace ClientId

open Text.Hex (isDigit)

theorem decode_of_ofHex {s : String} {id : ClientId} (h : ofHex s = .ok id) :
    Text.Hex.decode s = .ok id.octets := by
  unfold ofHex at h
  split at h
  · cases h
  · rename_i hdecode
    split_ifs at h
    cases h
    exact hdecode

/-- Exactly eight digits name a client. -/
theorem exists_ofHex_iff (s : String) :
    (∃ id, ofHex s = .ok id) ↔ s.length = 8 ∧ ∀ c ∈ s.toList, isDigit c = true := by
  constructor
  · rintro ⟨id, h⟩
    obtain ⟨hdigits, hlength, -⟩ := Text.Hex.decode_ok (decode_of_ofHex h)
    rw [id.four] at hlength
    exact ⟨hlength, hdigits⟩
  · rintro ⟨hlength, hdigits⟩
    obtain ⟨out, hout⟩ := Text.Hex.exists_decode (by omega) hdigits
    have hfour : out.length = 4 := by
      have hsame := (Text.Hex.decode_ok hout).2.1
      omega
    refine ⟨⟨out, hfour⟩, ?_⟩
    unfold ofHex
    rw [hout]
    exact dif_pos hfour

theorem toHex_of_ofHex {s : String} {id : ClientId} (h : ofHex s = .ok id) :
    id.toHex = s.toLower :=
  (Text.Hex.decode_ok (decode_of_ofHex h)).2.2

end ClientId

end SiblingStore
