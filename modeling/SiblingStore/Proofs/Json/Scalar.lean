import SiblingStore.Json.Reader
import SiblingStore.Json.Writer
import SiblingStore.Proofs.Text.Utf8
import Mathlib.Tactic.IntervalCases

/-!
# Reading what was written: strings, numbers and booleans

A written value is read back as itself whatever follows it, as long as nothing
follows that could belong to it.
-/

namespace SiblingStore.Json.Reader

variable {α β : Type}

/-- What comes next ends a value: a comma, a closing bracket or brace, or nothing. -/
def Delimited (rest : Bytes) : Prop :=
  ∀ b ∈ rest.head?, b = comma ∨ b = closeBracket ∨ b = closeBrace

/-- A text that can be told from space and from the end of a list or object. -/
def Begins (bs : Bytes) : Prop :=
  ∃ b tail, bs = b :: tail ∧ isSpace b = false ∧ b ≠ closeBracket ∧ b ≠ closeBrace

/-- The text `bs` is read as `a`, whatever comes after it. -/
structure Reads (r : Reader α) (bs : Bytes) (a : α) : Prop where
  begins : Begins bs
  value : ∀ rest, Delimited rest → r (bs ++ rest) = .ok (a, rest)

theorem delimited_nil : Delimited [] := by
  intro b hb
  simp at hb

theorem delimited_cons {b : UInt8} (h : b = comma ∨ b = closeBracket ∨ b = closeBrace)
    (rest : Bytes) : Delimited (b :: rest) := by
  intro c hc
  rw [List.head?_cons, Option.mem_some_iff] at hc
  rwa [← hc]

theorem skipSpace_cons {b : UInt8} (h : isSpace b = false) (rest : Bytes) :
    skipSpace (b :: rest) = b :: rest := by
  rw [skipSpace, List.dropWhile_cons, h]
  rfl

theorem Begins.append {bs : Bytes} (h : Begins bs) (rest : Bytes) : Begins (bs ++ rest) := by
  obtain ⟨b, tail, rfl, hb⟩ := h
  exact ⟨b, tail ++ rest, rfl, hb⟩

theorem Reads.map {r : Reader α} {bs : Bytes} {a : α} (h : Reads r bs a) {f : α → β} {b : β}
    (hb : f a = b) : Reads (r.map f) bs b := by
  refine ⟨h.begins, fun rest hrest => ?_⟩
  rw [Reader.map, h.value rest hrest, ← hb]
  rfl

theorem run_of_reads {r : Reader α} {bs : Bytes} {a : α} (h : Reads r bs a) :
    run r bs = .ok a := by
  have hvalue := h.value [] delimited_nil
  rw [List.append_nil] at hvalue
  rw [run, hvalue]
  rfl

/-! ## Strings -/

theorem fourDigits_low {n : Nat} (h : n < 32) :
    fourDigits 0x30 0x30 (Bytes.ofChar (Text.Hex.digit (n / 16)))
      (Bytes.ofChar (Text.Hex.digit (n % 16))) = some n := by
  interval_cases n <;> rfl

theorem codePoint_low {b : UInt8} (h : b < 0x20) : codePoint b.toNat = [b] := by
  have hn : b.toNat < 32 := UInt8.lt_iff_toNat_lt.1 h
  have hchar : (Char.ofNat b.toNat).toNat = b.toNat := by
    rw [Char.ofNat, dif_pos (Or.inl (by omega))]
    rfl
  rw [codePoint, Text.Utf8.encodeChar, hchar, if_pos (by omega), UInt8.ofNat_toNat]

theorem stringOctets_plain {b : UInt8} (hquote : b ≠ quote) (hslash : b ≠ backslash)
    (hlow : ¬b < 0x20) (rest : Bytes) :
    stringOctets (b :: rest) = (stringOctets rest).map fun p => (b :: p.1, p.2) := by
  rw [stringOctets.eq_def]
  simp only [hquote, hslash, hlow, if_false]

theorem stringOctets_short {e c : UInt8} (hu : e ≠ 0x75) (h : shortEscape e = some c)
    (rest : Bytes) :
    stringOctets (backslash :: e :: rest) =
      (stringOctets rest).map fun p => (c :: p.1, p.2) := by
  have hquote : backslash ≠ quote := by decide
  rw [stringOctets.eq_def]
  simp only [hquote, hu, h, if_true, if_false]

theorem stringOctets_long {h₁ h₂ h₃ h₄ : UInt8} {n : Nat}
    (h : fourDigits h₁ h₂ h₃ h₄ = some n) (hn : n < 0xD800) (rest : Bytes) :
    stringOctets (backslash :: 0x75 :: h₁ :: h₂ :: h₃ :: h₄ :: rest) =
      (stringOctets rest).map fun p => (codePoint n ++ p.1, p.2) := by
  have hquote : backslash ≠ quote := by decide
  have hlone : ¬(0xDC00 ≤ n ∧ n ≤ 0xDFFF) := by omega
  rw [stringOctets.eq_def]
  simp only [hquote, h, hlone, hn, true_or, if_true, if_false]

theorem stringOctets_escape (b : UInt8) (rest : Bytes) :
    stringOctets (Writer.escape b ++ rest) =
      (stringOctets rest).map fun p => (b :: p.1, p.2) := by
  unfold Writer.escape
  split_ifs with h1 h2 h3 h4 h5 h6 h7 h8
  · subst h1
    exact stringOctets_short (by decide) (by decide) rest
  · subst h2
    exact stringOctets_short (by decide) (by decide) rest
  · subst h3
    exact stringOctets_short (by decide) (by decide) rest
  · subst h4
    exact stringOctets_short (by decide) (by decide) rest
  · subst h5
    exact stringOctets_short (by decide) (by decide) rest
  · subst h6
    exact stringOctets_short (by decide) (by decide) rest
  · subst h7
    exact stringOctets_short (by decide) (by decide) rest
  · have hn : b.toNat < 32 := UInt8.lt_iff_toNat_lt.1 h8
    have hlong := stringOctets_long (fourDigits_low hn) (by omega) rest
    rw [codePoint_low h8] at hlong
    exact hlong
  · exact stringOctets_plain h1 h2 h8 rest

theorem stringOctets_flatMap_escape (octets rest : Bytes) :
    stringOctets (octets.flatMap Writer.escape ++ quote :: rest) = .ok (octets, rest) := by
  induction octets with
  | nil =>
      rw [List.flatMap_nil, List.nil_append, stringOctets.eq_def]
      rfl
  | cons b octets ih =>
      rw [List.flatMap_cons, List.append_assoc, stringOctets_escape, ih]
      rfl

theorem stringTail_text (s : String) (rest : Bytes) :
    stringTail ((Text.Utf8.encode s).flatMap Writer.escape ++ quote :: rest) =
      .ok (s, rest) := by
  rw [stringTail, stringOctets_flatMap_escape]
  simp only [Text.Utf8.decode_encode]

theorem text_append (s : String) (rest : Bytes) :
    Writer.text s ++ rest =
      quote :: ((Text.Utf8.encode s).flatMap Writer.escape ++ quote :: rest) := by
  simp [Writer.text, quote]

theorem begins_text (s : String) : Begins (Writer.text s) :=
  ⟨quote, (Text.Utf8.encode s).flatMap Writer.escape ++ [quote], rfl, by decide, by decide,
    by decide⟩

theorem reads_text (s : String) : Reads text (Writer.text s) s := by
  refine ⟨begins_text s, fun rest _ => ?_⟩
  rw [text_append, text, skipSpace_cons (by decide)]
  exact stringTail_text s rest

/-! ## Booleans -/

theorem reads_boolean (b : Bool) : Reads boolean (Writer.boolean b) b := by
  cases b with
  | false => exact ⟨⟨0x66, _, rfl, by decide, by decide, by decide⟩, fun _ _ => rfl⟩
  | true => exact ⟨⟨0x74, _, rfl, by decide, by decide, by decide⟩, fun _ _ => rfl⟩

/-! ## Whole numbers -/

def digitByte (d : Nat) : UInt8 := Bytes.ofChar (Nat.digitChar d)

theorem natural_of_lt {n : Nat} (h : n < 10) : Writer.natural n = [digitByte n] := by
  rw [Writer.natural, Nat.toDigits_of_lt_base h]
  rfl

theorem natural_of_ge {n : Nat} (h : 10 ≤ n) :
    Writer.natural n = Writer.natural (n / 10) ++ [digitByte (n % 10)] := by
  rw [Writer.natural, Nat.toDigits_of_base_le (by decide) h, List.map_append]
  rfl

theorem isDigit_digitByte {d : Nat} (h : d < 10) : isDigit (digitByte d) = true := by
  interval_cases d <;> rfl

theorem digitValue_digitByte {d : Nat} (h : d < 10) : digitValue (digitByte d) = d := by
  interval_cases d <;> rfl

def valueFrom (acc : Nat) (ds : Bytes) : Nat :=
  ds.foldl (fun n b => n * 10 + digitValue b) acc

theorem le_valueFrom (acc : Nat) (ds : Bytes) : acc ≤ valueFrom acc ds := by
  induction ds generalizing acc with
  | nil => exact le_rfl
  | cons d ds ih =>
      have h := ih (acc * 10 + digitValue d)
      rw [valueFrom, List.foldl_cons]
      rw [valueFrom] at h
      omega

theorem significand_append {acc : Nat} {ds : Bytes} (hds : ∀ d ∈ ds, isDigit d = true)
    (hfits : valueFrom acc ds < UInt64.size) (rest : Bytes) :
    significand acc (ds ++ rest) = significand (valueFrom acc ds) rest := by
  induction ds generalizing acc with
  | nil => rfl
  | cons d ds ih =>
      have hfits' : valueFrom (acc * 10 + digitValue d) ds < UInt64.size := hfits
      have hstep : acc * 10 + digitValue d < UInt64.size :=
        (le_valueFrom _ ds).trans_lt hfits'
      rw [List.cons_append, significand, if_pos ⟨hds d (by simp), hstep⟩]
      exact ih (fun d' hd' => hds d' (by simp [hd'])) hfits'

/-- A number in decimal: digits that make it, without needless zeros. -/
theorem natural_eq_cons (n : Nat) :
    ∃ d ds, Writer.natural n = d :: ds ∧ isDigit d = true ∧ (∀ b ∈ ds, isDigit b = true) ∧
      valueFrom (digitValue d) ds = n ∧ (d = 0x30 → ds = []) := by
  induction n using Nat.strong_induction_on with
  | _ n ih =>
    rcases Nat.lt_or_ge n 10 with h | h
    · refine ⟨digitByte n, [], natural_of_lt h, isDigit_digitByte h, by simp, ?_, fun _ => rfl⟩
      exact digitValue_digitByte h
    · have hlast : n % 10 < 10 := Nat.mod_lt n (by decide)
      obtain ⟨d, ds, heq, hd, hds, hvalue, hzero⟩ := ih (n / 10) (by omega)
      refine ⟨d, ds ++ [digitByte (n % 10)], ?_, hd, ?_, ?_, ?_⟩
      · rw [natural_of_ge h, heq]
        rfl
      · intro b hb
        rcases List.mem_append.1 hb with hb | hb
        · exact hds b hb
        · rw [List.mem_singleton.1 hb]
          exact isDigit_digitByte hlast
      · rw [valueFrom, List.foldl_append]
        rw [valueFrom] at hvalue
        rw [hvalue, List.foldl_cons, List.foldl_nil, digitValue_digitByte hlast]
        omega
      · intro hd0
        rw [hzero hd0, hd0] at hvalue
        have hnone : n / 10 = 0 := hvalue.symm
        omega

theorem isSpace_of_isDigit {d : UInt8} (h : isDigit d = true) : isSpace d = false := by
  have hrange : 0x30 ≤ d.toNat ∧ d.toNat ≤ 0x39 := by
    simpa [isDigit, UInt8.le_iff_toNat_le] using h
  simp only [isSpace, Bool.or_eq_false_iff, beq_eq_false_iff_ne, ne_eq, ← UInt8.toNat_inj]
  refine ⟨⟨⟨?_, ?_⟩, ?_⟩, ?_⟩ <;> (show ¬d.toNat = _; simp; omega)

theorem ne_of_isDigit {d b : UInt8} (hd : isDigit d = true) (hb : isDigit b = false) :
    d ≠ b := by
  rintro rfl
  rw [hd] at hb
  exact Bool.noConfusion hb

theorem Delimited.not_isDigit {rest : Bytes} (h : Delimited rest) {b : UInt8}
    (hb : b ∈ rest.head?) : isDigit b = false := by
  rcases h b hb with rfl | rfl | rfl <;> rfl

theorem significand_delimited {acc : Nat} {rest : Bytes} (h : Delimited rest) :
    significand acc rest = (acc, rest) := by
  cases rest with
  | nil => rfl
  | cons b rest =>
      have hb : isDigit b = false := h.not_isDigit rfl
      rw [significand, hb]
      simp

theorem numberTail_delimited {s : Nat} {rest : Bytes} (h : Delimited rest) :
    numberTail false s rest = .ok (.natural s, rest) := by
  cases rest with
  | nil => rfl
  | cons b rest =>
      rcases h b rfl with rfl | rfl | rfl <;> rfl

theorem unsigned_natural {n : Nat} (hn : n < UInt64.size) {rest : Bytes}
    (hrest : Delimited rest) :
    unsigned false (Writer.natural n ++ rest) = .ok (.natural n, rest) := by
  obtain ⟨d, ds, heq, hd, hds, hvalue, hzero⟩ := natural_eq_cons n
  have hsig : significand (digitValue d) (ds ++ rest) = (n, rest) := by
    rw [significand_append hds (by rw [hvalue]; exact hn), hvalue, significand_delimited hrest]
  rw [heq, List.cons_append, unsigned.eq_def]
  by_cases hd0 : d = 0x30
  · -- a lone zero: what follows it must not be a digit
    have hn0 : n = 0 := by
      rw [← hvalue, hzero hd0, hd0]
      rfl
    rw [hzero hd0, List.nil_append, hd0, hn0]
    cases rest with
    | nil => rfl
    | cons b rest =>
        simp only [if_true, hrest.not_isDigit (b := b) rfl]
        exact numberTail_delimited hrest
  · simp only [if_neg hd0, hd, if_true, hsig]
    cases rest with
    | nil => rfl
    | cons b rest =>
        simp only [hrest.not_isDigit (b := b) rfl]
        exact numberTail_delimited hrest

theorem reads_number {n : Nat} (hn : n < UInt64.size) (expected : String) :
    Reads (number expected) (Writer.natural n) (.natural n) := by
  obtain ⟨d, ds, heq, hd, -⟩ := natural_eq_cons n
  refine ⟨⟨d, ds, heq, isSpace_of_isDigit hd, ne_of_isDigit hd (by decide),
    ne_of_isDigit hd (by decide)⟩, fun rest hrest => ?_⟩
  have hvalue := unsigned_natural hn hrest
  rw [heq, List.cons_append] at hvalue ⊢
  rw [number, skipSpace_cons (isSpace_of_isDigit hd)]
  simp only [if_neg (ne_of_isDigit hd (b := 0x2D) (by decide)), hd, if_true, hvalue]

theorem reads_natural {n limit : Nat} (hn : n ≤ limit) (hlimit : limit < UInt64.size)
    (expected : String) : Reads (natural limit expected) (Writer.natural n) n := by
  have h := reads_number (hn.trans_lt hlimit) expected
  refine ⟨h.begins, fun rest hrest => ?_⟩
  rw [natural, h.value rest hrest]
  simp only [if_pos hn]

theorem reads_word64 (n : UInt64) : Reads word64 (Writer.natural n.toNat) n := by
  have hn : n.toNat < UInt64.size := n.toNat_lt
  exact (reads_natural (Nat.le_sub_one_of_lt hn) (by decide) "u64").map UInt64.ofNat_toNat

theorem reads_octet (b : UInt8) : Reads octet (Writer.natural b.toNat) b := by
  have hb : b.toNat < 256 := b.toNat_lt
  exact (reads_natural (Nat.le_of_lt_succ hb) (by decide) "an octet").map UInt8.ofNat_toNat

end SiblingStore.Json.Reader
