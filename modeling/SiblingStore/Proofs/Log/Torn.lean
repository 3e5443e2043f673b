import SiblingStore.Proofs.Digest.Crc32
import SiblingStore.Proofs.Log.Entry
import Mathlib.Data.Fintype.BigOperators
import Mathlib.Data.Fintype.Pigeonhole
import Mathlib.Tactic.IntervalCases

/-!
# Writing behind an entry that cannot be read

Whatever bytes end a replay, some entry that is written behind them is not read
back. Less than a header takes the start of the new entry for its own; and an
unreadable entry that swallows the start of what follows cannot tell all that may
follow apart.
-/

namespace SiblingStore.Log

/-! ## Versions to write behind a torn entry -/

/-- A version without value and history. -/
def probe (l : Location) (tag : String) (time : UInt64) : Version := .live l [] .empty ⟨tag, time⟩

def probeHead (l : Location) : Bytes :=
  0x7B :: (Json.Writer.separated
    [Json.Writer.entry ("bucket", Json.Writer.text l.bucket),
     Json.Writer.entry ("key", Json.Writer.text l.key),
     Json.Writer.entry ("vclock", Clock.empty.json),
     Json.Writer.entry ("value", Json.Writer.list []),
     Json.Writer.entry ("tombstone", Json.Writer.boolean false),
     Json.Writer.text "vtag" ++ [0x3A]])

def probeMiddle : Bytes := 0x2C :: (Json.Writer.text "timestamp_ms" ++ [0x3A])

theorem json_probe (l : Location) (tag : String) (time : UInt64) :
    (probe l tag time).json =
      probeHead l ++ (Json.Writer.text tag ++
        (probeMiddle ++ (Json.Writer.natural time.toNat ++ [0x7D]))) := by
  simp [probe, Version.live, Version.json, Json.Writer.object, Json.Writer.separated,
    Json.Writer.entry, probeHead, probeMiddle]

theorem length_encodeChar_le (c : Char) : (Text.Utf8.encodeChar c).length ≤ 4 := by
  unfold Text.Utf8.encodeChar
  dsimp only
  split_ifs <;> simp

theorem length_escape_le (b : UInt8) : (Json.Writer.escape b).length ≤ 6 := by
  unfold Json.Writer.escape
  split_ifs <;> simp

theorem length_text_le (s : String) :
    (Json.Writer.text s).length ≤ 6 * Text.Utf8.size s + 2 := by
  have hoctets : ∀ bs : Bytes, (bs.flatMap Json.Writer.escape).length ≤ 6 * bs.length := by
    intro bs
    induction bs with
    | nil => exact le_rfl
    | cons b bs ih =>
        have hb := length_escape_le b
        rw [List.flatMap_cons, List.length_append, List.length_cons]
        omega
  have h := hoctets (Text.Utf8.encode s)
  rw [Json.Writer.text, Text.Utf8.size]
  simp only [List.cons_append, List.length_cons, List.length_append, List.length_nil]
  omega

theorem size_ofList_le (cs : List Char) : Text.Utf8.size (String.ofList cs) ≤ 4 * cs.length := by
  rw [Text.Utf8.size, Text.Utf8.encode, String.toList_ofList]
  induction cs with
  | nil => exact le_rfl
  | cons c cs ih =>
      have hc := length_encodeChar_le c
      rw [List.flatMap_cons, List.length_append, List.length_cons]
      omega

/-- Names short enough for the probes of their location. -/
def ShortNames (l : Location) : Prop :=
  Text.Utf8.size l.bucket + Text.Utf8.size l.key ≤ 10000

theorem length_probeHead_le {l : Location} (h : ShortNames l) :
    (probeHead l).length ≤ 60100 := by
  have hbucket := length_text_le l.bucket
  have hkey := length_text_le l.key
  have hfixed : (Json.Writer.text "bucket").length = 8 ∧ (Json.Writer.text "key").length = 5 ∧
      (Json.Writer.text "vclock").length = 8 ∧ (Json.Writer.text "value").length = 7 ∧
      (Json.Writer.text "tombstone").length = 11 ∧ (Json.Writer.text "vtag").length = 6 ∧
      Clock.empty.json.length = 14 ∧ (Json.Writer.list []).length = 2 ∧
      (Json.Writer.boolean false).length = 5 := by decide
  obtain ⟨h1, h2, h3, h4, h5, h6, h7, h8, h9⟩ := hfixed
  unfold ShortNames at h
  simp only [probeHead, Json.Writer.separated, Json.Writer.entry, List.length_cons,
    List.length_append, List.length_nil, h1, h2, h3, h4, h5, h6, h7, h8, h9]
  omega

theorem length_probeMiddle : probeMiddle.length = 16 := by decide

/-! ## Behind less than a header -/

def padding (n : Nat) : String := String.ofList (List.replicate n 'a')

theorem text_padding (n : Nat) :
    Json.Writer.text (padding n) = 0x22 :: List.replicate n 0x61 ++ [0x22] := by
  have hletters : ((List.replicate n 'a').flatMap Text.Utf8.encodeChar).flatMap
      Json.Writer.escape = List.replicate n 0x61 := by
    induction n with
    | zero => rfl
    | succ n ih =>
        rw [List.replicate_succ, List.flatMap_cons, List.flatMap_append, ih]
        rfl
  rw [Json.Writer.text, padding, Text.Utf8.encode, String.toList_ofList, hletters]

/-- The length of a probe's text in which every low octet is set. -/
def probeLength : Nat := 65793

theorem exists_padding {l : Location} (h : ShortNames l) :
    ∃ n, (probe l (padding n) 0).json.length = probeLength ∧
      (probe l (padding n) 1).json.length = probeLength := by
  have hhead := length_probeHead_le h
  have hmiddle := length_probeMiddle
  have hlength : ∀ n (t : UInt64), (Json.Writer.natural t.toNat).length = 1 →
      (probe l (padding n) t).json.length = (probeHead l).length + n + 20 := by
    intro n t ht
    rw [json_probe, text_padding]
    simp only [List.length_append, List.length_cons, List.length_replicate, List.length_nil,
      hmiddle, ht]
    omega
  refine ⟨probeLength - 20 - (probeHead l).length, ?_, ?_⟩
  · rw [hlength _ 0 rfl, probeLength]
    omega
  · rw [hlength _ 1 rfl, probeLength]
    omega

/-- The checks of two probes that differ in time alone differ in every octet. -/
theorem probe_checks (l : Location) (tag : String) :
    Digest.Crc32.ofBytes (probe l tag 0).json ^^^ Digest.Crc32.ofBytes (probe l tag 1).json =
      0x191B3141 := by
  have hzero : Json.Writer.natural (0 : UInt64).toNat = [0x30] := rfl
  have hone : Json.Writer.natural (1 : UInt64).toNat = [0x31] := rfl
  have hform : ∀ d : UInt8, probeHead l ++ (Json.Writer.text tag ++ (probeMiddle ++
      ([d] ++ [0x7D]))) = (probeHead l ++ (Json.Writer.text tag ++ probeMiddle)) ++ [d, 0x7D] := by
    simp
  have hdiffer : Digest.Crc32.shiftOctet (Digest.Crc32.shiftOctet
      ((0x30 : UInt8) ^^^ 0x31).toUInt32) = 0x191B3141 := by decide +kernel
  rw [json_probe, json_probe, hzero, hone, hform, hform, Digest.Crc32.ofBytes_xor_ofBytes, hdiffer]

theorem getElem?_littleEndian_four (n : Nat) {i : Nat} (h : i < 4) :
    (Bytes.littleEndian 4 n)[i]? = some (UInt8.ofNat (n >>> (8 * i) % 256)) := by
  simp only [Nat.shiftRight_eq_div_pow]
  interval_cases i <;> simp [Bytes.littleEndian, Nat.div_div_eq_div_mul]

theorem octet_ne_zero_or {a b : UInt32} (h : a ^^^ b = 0x191B3141) {i : Nat} (hi : i < 4) :
    (Bytes.littleEndian 4 a.toNat)[i]? ≠ some 0 ∨ (Bytes.littleEndian 4 b.toNat)[i]? ≠ some 0 := by
  by_contra hboth
  rw [not_or, not_not, not_not, getElem?_littleEndian_four _ hi,
    getElem?_littleEndian_four _ hi, Option.some_inj, Option.some_inj] at hboth
  have hzero : ∀ n : Nat, UInt8.ofNat (n % 256) = 0 → n % 256 = 0 := by
    intro n hn
    have hto := congrArg UInt8.toNat hn
    simpa using hto
  have ha := hzero _ hboth.1
  have hb := hzero _ hboth.2
  have hxor : (0x191B3141 : UInt32).toNat >>> (8 * i) % 2 ^ 8 = 0 := by
    rw [← h, UInt32.toNat_xor, Nat.shiftRight_xor_distrib, Nat.xor_mod_two_pow]
    rw [show (2 : Nat) ^ 8 = 256 from rfl, ha, hb]
    rfl
  interval_cases i <;> exact absurd hxor (by decide)

theorem getElem?_append_entry {t : Bytes} (hshort : t.length < 8) (v : Version) :
    (t ++ entry v)[7]? = (Bytes.littleEndian 4 (Digest.Crc32.ofBytes v.json).toNat ++
      Bytes.littleEndian 4 v.json.length)[7 - t.length]? := by
  rw [List.getElem?_append_right (by omega), entry_eq, ← List.append_assoc,
    List.getElem?_append_left (by simp; omega)]

/-- One of two probes is not read behind less than a header. -/
theorem exists_ending_short {t : Bytes} (hne : t ≠ []) (hshort : t.length < 8) {l : Location}
    (hl : ShortNames l) :
    ∃ tag time e, (probe l tag time).json.length = probeLength ∧
      next (t ++ entry (probe l tag time)) = .ending e := by
  obtain ⟨n, hzero, hone⟩ := exists_padding hl
  have hpos : 0 < t.length := List.length_pos_iff.2 hne
  have hends : ∀ time, (probe l (padding n) time).json.length = probeLength →
      (t ++ entry (probe l (padding n) time))[7]? ≠ some 0 →
      ∃ e, next (t ++ entry (probe l (padding n) time)) = .ending e := by
    intro time htime htop
    refine next_of_top ?_ htop
    rw [List.length_append, length_entry, htime, probeLength, shortLimit]
    omega
  rcases Nat.lt_or_ge t.length 4 with hsize | hcheck
  · -- the highest octet of the length is one of the low octets of the probe's length
    have htop : (t ++ entry (probe l (padding n) 0))[7]? ≠ some 0 := by
      rw [getElem?_append_entry hshort, List.getElem?_append_right (by simp; omega), hzero,
        Bytes.length_littleEndian]
      interval_cases t.length <;> decide
    obtain ⟨e, he⟩ := hends 0 hzero htop
    exact ⟨_, _, e, hzero, he⟩
  · -- it is an octet of the check, in which the two probes differ
    have htop : ∀ time, (t ++ entry (probe l (padding n) time))[7]? =
        (Bytes.littleEndian 4
          (Digest.Crc32.ofBytes (probe l (padding n) time).json).toNat)[7 - t.length]? := by
      intro time
      rw [getElem?_append_entry hshort, List.getElem?_append_left (by simp; omega)]
    rcases octet_ne_zero_or (probe_checks l (padding n)) (i := 7 - t.length) (by omega)
      with hoctet | hoctet
    · obtain ⟨e, he⟩ := hends 0 hzero (htop 0 ▸ hoctet)
      exact ⟨_, _, e, hzero, he⟩
    · obtain ⟨e, he⟩ := hends 1 hone (htop 1 ▸ hoctet)
      exact ⟨_, _, e, hone, he⟩

/-! ## Behind a header -/

def LostBehind (log : Bytes) (v : Version) : Prop :=
  ∀ r, replay (log ++ entry v) = .ok r → v ∉ r.versions

theorem lostBehind_of_ending {log : Bytes} {v : Version} {e : Ending}
    (h : next (log ++ entry v) = .ending e) : LostBehind log v := by
  intro r hr
  rw [replay_ending h] at hr
  injection hr with hr
  rw [← hr]
  exact List.not_mem_nil

theorem next_mismatch_append {log : Bytes} {expected actual : UInt32}
    (h : next log = .ending (.mismatch expected actual)) (more : Bytes) :
    next (log ++ more) = .ending (.mismatch expected actual) := by
  rcases Nat.lt_or_ge log.length 8 with hshort | hlong
  · rw [next_short hshort] at h
    exact absurd h (by simp)
  · obtain ⟨check, size, body, hcheck, hsize, rfl⟩ := exists_header hlong
    rw [next_header hcheck hsize] at h
    rw [List.append_assoc, List.append_assoc, next_header hcheck hsize]
    split_ifs at h with hbody hsum
    · exact absurd h (by simp)
    · have htake : (body ++ more).take (Bytes.toNat size) = body.take (Bytes.toNat size) :=
        List.take_append_of_le_length (by omega)
      rw [if_neg (by rw [List.length_append]; omega), htake, if_pos hsum]
      exact h

/-- What a version says that is read back behind the start of an entry: it ends
that entry, and the octets that the entry took of it tell it. -/
theorem run_of_not_lostBehind {check size body : Bytes} (hcheck : check.length = 4)
    (hsize : size.length = 4) (hshort : body.length < Bytes.toNat size + 1) {v : Version}
    (hsmall : (entry v).length ≤ shortLimit)
    (h : ¬LostBehind (check ++ (size ++ body)) v) :
    Bytes.toNat size + 1 ≤ body.length + (entry v).length ∧
      Json.Reader.run Version.reader
        (body ++ (entry v).take (Bytes.toNat size - body.length)) = .ok v := by
  have hform : check ++ (size ++ body) ++ entry v = check ++ (size ++ (body ++ entry v)) := by
    simp
  have hnext := next_header hcheck hsize (body ++ entry v)
  rw [← hform] at hnext
  have htake : (body ++ entry v).take (Bytes.toNat size) =
      body ++ (entry v).take (Bytes.toNat size - body.length) := by
    rw [List.take_append, List.take_of_length_le (by omega)]
  have hdrop : (body ++ entry v).drop (Bytes.toNat size + 1) =
      (entry v).drop (Bytes.toNat size + 1 - body.length) := by
    rw [List.drop_append, List.drop_of_length_le (by omega), List.nil_append]
  rw [htake, hdrop] at hnext
  split_ifs at hnext with hbody hsum
  · exact absurd (lostBehind_of_ending hnext) h
  · exact absurd (lostBehind_of_ending hnext) h
  · rw [List.length_append] at hbody
    refine ⟨by omega, ?_⟩
    obtain ⟨e, hrest⟩ := replay_drop_entry (v := v) hsmall
      (k := Bytes.toNat size + 1 - body.length) (by omega)
    unfold LostBehind at h
    push Not at h
    obtain ⟨r, hr, hmem⟩ := h
    rw [replay_payload hnext, hrest] at hr
    cases hread : Json.Reader.run Version.reader
        (body ++ (entry v).take (Bytes.toNat size - body.length)) with
    | error fault => rw [hread] at hr; exact absurd hr (by simp)
    | ok v' =>
        rw [hread] at hr
        injection hr with hr
        rw [← hr] at hmem
        rw [List.mem_singleton.1 hmem]

/-! ## More tags than prefixes -/

def lettered {n : Nat} (bits : Fin n → Bool) : String :=
  String.ofList (List.ofFn fun i => if bits i then 'a' else 'b')

theorem lettered_injective {n : Nat} : Function.Injective (@lettered n) := by
  intro f g h
  have hlists := String.ofList_injective h
  funext i
  have hi := congrFun (List.ofFn_injective hlists) i
  by_cases hf : f i <;> by_cases hg : g i <;> simp_all

theorem size_lettered_le {n : Nat} (bits : Fin n → Bool) :
    Text.Utf8.size (lettered bits) ≤ 4 * n := by
  have h := size_ofList_le (List.ofFn fun i => if bits i then 'a' else 'b')
  rwa [List.length_ofFn] at h

theorem length_entry_probe_le {l : Location} (hl : ShortNames l) (tag : String) :
    (entry (probe l tag 0)).length ≤ 60200 + 6 * Text.Utf8.size tag := by
  have hhead := length_probeHead_le hl
  have hmiddle := length_probeMiddle
  have htag := length_text_le tag
  have hzero : (Json.Writer.natural (0 : UInt64).toNat).length = 1 := rfl
  rw [length_entry, json_probe]
  simp only [List.length_append, List.length_cons, List.length_nil, hmiddle, hzero]
  omega

/-- No part of given length tells all probes apart. -/
theorem exists_same_prefix (l : Location) (m : Nat) :
    ∃ f g : Fin (8 * m + 1) → Bool, lettered f ≠ lettered g ∧
      (m ≤ (entry (probe l (lettered f) 0)).length →
        m ≤ (entry (probe l (lettered g) 0)).length →
        (entry (probe l (lettered f) 0)).take m = (entry (probe l (lettered g) 0)).take m) := by
  let octets (f : Fin (8 * m + 1) → Bool) (i : Fin m) : Fin 256 :=
    ((entry (probe l (lettered f) 0)).getD i 0).toFin
  have hcard : Fintype.card (Fin m → Fin 256) < Fintype.card (Fin (8 * m + 1) → Bool) := by
    rw [Fintype.card_fun, Fintype.card_fun, Fintype.card_fin, Fintype.card_fin, Fintype.card_fin,
      Fintype.card_bool, show (256 : Nat) = 2 ^ 8 from rfl, ← pow_mul]
    exact Nat.pow_lt_pow_right (by omega) (by omega)
  obtain ⟨f, g, hne, hsame⟩ := Fintype.exists_ne_map_eq_of_card_lt octets hcard
  refine ⟨f, g, fun h => hne (lettered_injective h), fun hf hg => ?_⟩
  apply List.ext_getElem
  · rw [List.length_take, List.length_take]
    omega
  · intro i hi _
    rw [List.length_take] at hi
    have hoctet := UInt8.toFin_inj.1 (congrFun hsame ⟨i, by omega⟩)
    rw [List.getElem_take, List.getElem_take]
    rwa [List.getD_eq_getElem _ _ (by omega), List.getD_eq_getElem _ _ (by omega)] at hoctet

theorem exists_lostBehind_truncated {check size body : Bytes} (hcheck : check.length = 4)
    (hsize : size.length = 4) (hshort : body.length < Bytes.toNat size + 1) {l : Location}
    (hl : ShortNames l) :
    ∃ tag, (entry (probe l tag 0)).length ≤ shortLimit ∧
      LostBehind (check ++ (size ++ body)) (probe l tag 0) := by
  by_contra hnone
  push Not at hnone
  have hread : ∀ tag, (entry (probe l tag 0)).length ≤ shortLimit →
      Bytes.toNat size + 1 ≤ body.length + (entry (probe l tag 0)).length ∧
      Json.Reader.run Version.reader (body ++ (entry (probe l tag 0)).take
        (Bytes.toNat size - body.length)) = .ok (probe l tag 0) :=
    fun tag htag => run_of_not_lostBehind hcheck hsize hshort htag (hnone tag htag)
  -- what the torn entry still takes is no longer than the shortest probe
  have hempty : (entry (probe l "" 0)).length ≤ 60200 := length_entry_probe_le hl ""
  have hfew := (hread "" (hempty.trans (by decide))).1
  obtain ⟨f, g, hne, hsame⟩ := exists_same_prefix l (Bytes.toNat size - body.length)
  have hbound : ∀ bits : Fin (8 * (Bytes.toNat size - body.length) + 1) → Bool,
      (entry (probe l (lettered bits) 0)).length ≤ shortLimit := by
    intro bits
    have hentry := length_entry_probe_le hl (lettered bits)
    have htag := size_lettered_le bits
    rw [shortLimit]
    omega
  obtain ⟨hlongf, hf⟩ := hread (lettered f) (hbound f)
  obtain ⟨hlongg, hg⟩ := hread (lettered g) (hbound g)
  rw [hsame (by omega) (by omega), hg] at hf
  injection hf with hf
  exact hne (congrArg Version.tag hf).symm

/-! ## The result -/

/-- Behind whatever cannot be read, some version is not read back. -/
theorem exists_lostBehind {log : Bytes} (hne : log ≠ []) {e : Ending}
    (h : next log = .ending e) {l : Location} (hl : ShortNames l) :
    ∃ v : Version, v.location = l ∧ v.json.length < UInt32.size ∧ LostBehind log v := by
  have hlimit : shortLimit < UInt32.size := by decide
  rcases Nat.lt_or_ge log.length 8 with hshort | hlong
  · obtain ⟨tag, time, e, hlength, hends⟩ := exists_ending_short hne hshort hl
    refine ⟨probe l tag time, rfl, ?_, lostBehind_of_ending hends⟩
    rw [hlength]
    decide
  · have hempty : (entry (probe l "" 0)).length ≤ 60200 := length_entry_probe_le hl ""
    obtain ⟨check, size, body, hcheck, hsize, rfl⟩ := exists_header hlong
    have hheader := next_header hcheck hsize body
    rw [h] at hheader
    split_ifs at hheader with hbody hsum
    · obtain ⟨tag, htag, hlost⟩ := exists_lostBehind_truncated hcheck hsize hbody hl
      rw [length_entry] at htag
      exact ⟨probe l tag 0, rfl, by omega, hlost⟩
    · refine ⟨probe l "" 0, rfl, ?_, ?_⟩
      · rw [length_entry] at hempty
        rw [shortLimit] at hlimit
        omega
      · rw [hheader] at h
        exact lostBehind_of_ending (next_mismatch_append h _)

end SiblingStore.Log
