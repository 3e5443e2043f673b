import SiblingStore.Proofs.Json.Scalar

/-!
# Reading what was written: lists and objects

Lists and objects of values that can be read back are read back themselves, and
so is an object with named fields if each field in turn fills its part of the
draft.
-/

namespace SiblingStore.Json.Reader

variable {α σ : Type}

/-! ## Between the values -/

theorem endList_close (rest : Bytes) : endList (closeBracket :: rest) = .ok rest := by
  rw [endList, skipSpace_cons (by decide)]
  exact if_pos rfl

theorem endObject_close (rest : Bytes) : endObject (closeBrace :: rest) = .ok rest := by
  rw [endObject, skipSpace_cons (by decide)]
  exact if_pos rfl

theorem nextElement_close (first : Bool) (rest : Bytes) :
    nextElement first (closeBracket :: rest) = .ok (false, closeBracket :: rest) := by
  rw [nextElement, skipSpace_cons (by decide)]
  exact if_pos rfl

theorem nextElement_first {bs : Bytes} (h : Begins bs) :
    nextElement true bs = .ok (true, bs) := by
  obtain ⟨b, tail, rfl, hspace, hclose, -⟩ := h
  rw [nextElement, skipSpace_cons hspace]
  simp only [if_neg hclose, if_true]

theorem nextElement_comma {bs : Bytes} (h : Begins bs) :
    nextElement false (comma :: bs) = .ok (true, bs) := by
  obtain ⟨b, tail, rfl, hspace, hclose, -⟩ := h
  have hne : comma ≠ closeBracket := by decide
  rw [nextElement, skipSpace_cons (by decide)]
  simp only [if_neg hne, Bool.false_eq_true, if_false, if_true, skipSpace_cons hspace,
    if_neg hclose]

theorem nextKey_close (first : Bool) (rest : Bytes) :
    nextKey first (closeBrace :: rest) = .ok (none, closeBrace :: rest) := by
  rw [nextKey, skipSpace_cons (by decide)]
  exact if_pos rfl

theorem key_text (k : String) (rest : Bytes) :
    nextKey.key (Writer.text k ++ rest) = .ok (some k, rest) := by
  rw [text_append, nextKey.key, if_pos rfl, Reader.map, stringTail_text]
  rfl

theorem nextKey_first (k : String) (rest : Bytes) :
    nextKey true (Writer.text k ++ rest) = .ok (some k, rest) := by
  have hkey := key_text k rest
  have hne : quote ≠ closeBrace := by decide
  rw [text_append] at hkey ⊢
  rw [nextKey, skipSpace_cons (by decide)]
  simp only [if_neg hne, if_true]
  exact hkey

theorem nextKey_comma (k : String) (rest : Bytes) :
    nextKey false (comma :: (Writer.text k ++ rest)) = .ok (some k, rest) := by
  have hkey := key_text k rest
  have hne : quote ≠ closeBrace := by decide
  have hne' : comma ≠ closeBrace := by decide
  rw [text_append] at hkey ⊢
  rw [nextKey, skipSpace_cons (by decide)]
  simp only [if_neg hne', Bool.false_eq_true, if_false, if_true, skipSpace_cons (b := quote) rfl,
    if_neg hne]
  exact hkey

theorem colonNext_colon (rest : Bytes) : colonNext (colon :: rest) = .ok rest := by
  rw [colonNext, skipSpace_cons (by decide)]
  exact if_pos rfl

/-! ## Texts with commas between them -/

def continued (items : List Bytes) : Bytes := items.flatMap (comma :: ·)

@[simp] theorem continued_nil : continued [] = [] := rfl

theorem continued_cons_append (a : Bytes) (items : List Bytes) (rest : Bytes) :
    continued (a :: items) ++ rest = comma :: (a ++ (continued items ++ rest)) := by
  simp [continued]

theorem separated_cons (a : Bytes) (items : List Bytes) :
    Writer.separated (a :: items) = a ++ continued items := by
  induction items generalizing a with
  | nil => simp [Writer.separated, continued]
  | cons b items ih =>
      rw [Writer.separated, ih b]
      rfl

theorem length_le_continued (items : List Bytes) :
    items.length ≤ (continued items).length := by
  induction items with
  | nil => exact le_rfl
  | cons b items ih =>
      simp only [continued, List.flatMap_cons, List.length_append, List.length_cons] at ih ⊢
      omega

theorem delimited_continued (items : List Bytes) {b : UInt8}
    (hb : b = closeBracket ∨ b = closeBrace) (rest : Bytes) :
    Delimited (continued items ++ b :: rest) := by
  cases items with
  | nil => exact delimited_cons (Or.inr hb) rest
  | cons a items => exact delimited_cons (Or.inl rfl) _

/-! ## Lists -/

theorem elements_continued {r : Reader α} {write : α → Bytes} {as : List α}
    (h : ∀ a ∈ as, Reads r (write a) a) {fuel : Nat} (hfuel : as.length < fuel)
    (rest : Bytes) :
    elements r fuel false (continued (as.map write) ++ closeBracket :: rest) =
      .ok (as, closeBracket :: rest) := by
  induction as generalizing fuel with
  | nil =>
      obtain ⟨fuel, rfl⟩ := Nat.exists_eq_add_one_of_ne_zero (Nat.ne_zero_of_lt hfuel)
      rw [List.map_nil, continued_nil, List.nil_append, elements, nextElement_close]
  | cons a as ih =>
      obtain ⟨fuel, rfl⟩ := Nat.exists_eq_add_one_of_ne_zero (Nat.ne_zero_of_lt hfuel)
      have ha := h a (by simp)
      have hfuel' : as.length < fuel := by simp at hfuel; omega
      have hrest := ih (fun a' ha' => h a' (by simp [ha'])) hfuel'
      rw [List.map_cons, continued_cons_append, elements,
        nextElement_comma (ha.begins.append _)]
      dsimp only
      rw [ha.value _ (delimited_continued _ (Or.inl rfl) rest)]
      dsimp only
      rw [hrest]
      rfl

theorem elements_separated {r : Reader α} {write : α → Bytes} {as : List α}
    (h : ∀ a ∈ as, Reads r (write a) a) {fuel : Nat} (hfuel : as.length < fuel)
    (rest : Bytes) :
    elements r fuel true (Writer.separated (as.map write) ++ closeBracket :: rest) =
      .ok (as, closeBracket :: rest) := by
  obtain ⟨fuel, rfl⟩ := Nat.exists_eq_add_one_of_ne_zero (Nat.ne_zero_of_lt hfuel)
  cases as with
  | nil =>
      rw [List.map_nil, Writer.separated, List.nil_append, elements, nextElement_close]
  | cons a as =>
      have ha := h a (by simp)
      have hfuel' : as.length < fuel := by simp at hfuel; omega
      have hrest := elements_continued (fun a' ha' => h a' (by simp [ha'])) hfuel' rest
      rw [List.map_cons, separated_cons, List.append_assoc, elements,
        nextElement_first (ha.begins.append _)]
      dsimp only
      rw [ha.value _ (delimited_continued _ (Or.inl rfl) rest)]
      dsimp only
      rw [hrest]
      rfl

theorem length_le_separated {items : List Bytes} (h : ∀ bs ∈ items, bs ≠ []) :
    items.length ≤ (Writer.separated items).length := by
  cases items with
  | nil => exact le_rfl
  | cons a items =>
      have ha : 0 < a.length := List.length_pos_iff.2 (h a (by simp))
      have hitems := length_le_continued items
      rw [separated_cons, List.length_append, List.length_cons]
      omega

theorem Begins.ne_nil {bs : Bytes} (h : Begins bs) : bs ≠ [] := by
  obtain ⟨b, tail, rfl, -⟩ := h
  exact List.cons_ne_nil b tail

theorem reads_list {r : Reader α} {write : α → Bytes} {as : List α}
    (h : ∀ a ∈ as, Reads r (write a) a) :
    Reads (listOf r) (Writer.list (as.map write)) as := by
  refine ⟨⟨openBracket, _, rfl, by decide, by decide, by decide⟩, fun rest _ => ?_⟩
  have hlength : as.length ≤ (Writer.separated (as.map write)).length := by
    have hne : ∀ bs ∈ as.map write, bs ≠ [] := by
      intro bs hbs
      obtain ⟨a, ha, rfl⟩ := List.mem_map.1 hbs
      exact (h a ha).begins.ne_nil
    have hle := length_le_separated hne
    rwa [List.length_map] at hle
  have hform : Writer.list (as.map write) ++ rest =
      openBracket :: (Writer.separated (as.map write) ++ closeBracket :: rest) := by
    simp [Writer.list, openBracket, closeBracket]
  rw [hform, listOf, skipSpace_cons (by decide)]
  dsimp only
  rw [if_pos rfl, elements_separated h (by simp; omega)]
  dsimp only
  rw [endList_close]
  rfl

/-! ## Objects with free keys -/

theorem entry_append (k : String) (bs rest : Bytes) :
    Writer.entry (k, bs) ++ rest = Writer.text k ++ colon :: (bs ++ rest) := by
  simp [Writer.entry, colon]

theorem entries_continued {r : Reader α} {write : α → Bytes} {ps : List (String × α)}
    (h : ∀ p ∈ ps, Reads r (write p.2) p.2) {fuel : Nat} (hfuel : ps.length < fuel)
    (rest : Bytes) :
    entries r fuel false
        (continued (ps.map fun p => Writer.entry (p.1, write p.2)) ++ closeBrace :: rest) =
      .ok (ps, closeBrace :: rest) := by
  induction ps generalizing fuel with
  | nil =>
      obtain ⟨fuel, rfl⟩ := Nat.exists_eq_add_one_of_ne_zero (Nat.ne_zero_of_lt hfuel)
      rw [List.map_nil, continued_nil, List.nil_append, entries, nextKey_close]
  | cons p ps ih =>
      obtain ⟨fuel, rfl⟩ := Nat.exists_eq_add_one_of_ne_zero (Nat.ne_zero_of_lt hfuel)
      have hp := h p (by simp)
      have hfuel' : ps.length < fuel := by simp at hfuel; omega
      have hrest := ih (fun p' hp' => h p' (by simp [hp'])) hfuel'
      rw [List.map_cons, continued_cons_append, entry_append, entries, nextKey_comma]
      dsimp only
      rw [colonNext_colon]
      dsimp only
      rw [hp.value _ (delimited_continued _ (Or.inr rfl) rest)]
      dsimp only
      rw [hrest]
      rfl

theorem entries_separated {r : Reader α} {write : α → Bytes} {ps : List (String × α)}
    (h : ∀ p ∈ ps, Reads r (write p.2) p.2) {fuel : Nat} (hfuel : ps.length < fuel)
    (rest : Bytes) :
    entries r fuel true
        (Writer.separated (ps.map fun p => Writer.entry (p.1, write p.2)) ++
          closeBrace :: rest) =
      .ok (ps, closeBrace :: rest) := by
  obtain ⟨fuel, rfl⟩ := Nat.exists_eq_add_one_of_ne_zero (Nat.ne_zero_of_lt hfuel)
  cases ps with
  | nil =>
      rw [List.map_nil, Writer.separated, List.nil_append, entries, nextKey_close]
  | cons p ps =>
      have hp := h p (by simp)
      have hfuel' : ps.length < fuel := by simp at hfuel; omega
      have hrest := entries_continued (fun p' hp' => h p' (by simp [hp'])) hfuel' rest
      rw [List.map_cons, separated_cons, List.append_assoc, entry_append, entries,
        nextKey_first]
      dsimp only
      rw [colonNext_colon]
      dsimp only
      rw [hp.value _ (delimited_continued _ (Or.inr rfl) rest)]
      dsimp only
      rw [hrest]
      rfl

theorem object_append (ws : List (String × Bytes)) (rest : Bytes) :
    Writer.object ws ++ rest =
      openBrace :: (Writer.separated (ws.map Writer.entry) ++ closeBrace :: rest) := by
  simp [Writer.object, openBrace, closeBrace]

theorem begins_object (ws : List (String × Bytes)) : Begins (Writer.object ws) :=
  ⟨openBrace, _, rfl, by decide, by decide, by decide⟩

theorem length_le_separated_entry (ws : List (String × Bytes)) :
    ws.length ≤ (Writer.separated (ws.map Writer.entry)).length := by
  have hne : ∀ bs ∈ ws.map Writer.entry, bs ≠ [] := by
    intro bs hbs
    obtain ⟨w, -, rfl⟩ := List.mem_map.1 hbs
    exact List.cons_ne_nil _ _
  have hle := length_le_separated hne
  rwa [List.length_map] at hle

theorem reads_entries {r : Reader α} {write : α → Bytes} {ps : List (String × α)}
    (h : ∀ p ∈ ps, Reads r (write p.2) p.2) :
    Reads (entriesOf r) (Writer.object (ps.map fun p => (p.1, write p.2))) ps := by
  refine ⟨begins_object _, fun rest _ => ?_⟩
  have hlength := length_le_separated_entry (ps.map fun p => (p.1, write p.2))
  rw [List.length_map, List.map_map] at hlength
  rw [object_append, List.map_map, entriesOf, skipSpace_cons (by decide)]
  dsimp only
  rw [if_pos rfl]
  have hfuel : ps.length < (Writer.separated (ps.map (Writer.entry ∘ fun p => (p.1, write p.2))) ++
      closeBrace :: rest).length + 1 := by
    simp
    omega
  have hread := entries_separated h hfuel rest
  simp only [Function.comp_def] at hread ⊢
  rw [hread]
  dsimp only
  rw [endObject_close]
  rfl

/-! ## Objects with named fields -/

/-- The written fields `ws` turn one draft into another, each a field that is still unset. -/
inductive Fills (fields : List (Field σ)) : σ → List (String × Bytes) → σ → Prop where
  | nil (d : σ) : Fills fields d [] d
  | cons {d d' d'' : σ} {field : Field σ} {k : String} {bs : Bytes}
      {ws : List (String × Bytes)} (hfield : fields.find? (·.name = k) = some field)
      (hunset : field.isSet d = false) (hread : Reads (field.read d) bs d')
      (hrest : Fills fields d' ws d'') : Fills fields d ((k, bs) :: ws) d''

theorem Fills.field {γ : Type} {fields : List (Field σ)} {k name : String} {isSet : σ → Bool}
    {set : σ → γ → σ} {r : Reader γ} {d d' d'' : σ} {bs : Bytes} {a : γ}
    {ws : List (String × Bytes)}
    (hfield : fields.find? (·.name = k) = some ⟨name, isSet, fun d => r.map (set d)⟩)
    (hunset : isSet d = false) (hread : Reads r bs a) (hset : set d a = d')
    (hrest : Fills fields d' ws d'') : Fills fields d ((k, bs) :: ws) d'' :=
  .cons hfield hunset (hread.map hset) hrest

theorem named_continued {fields : List (Field σ)} {d d' : σ} {ws : List (String × Bytes)}
    (h : Fills fields d ws d') {fuel : Nat} (hfuel : ws.length < fuel) (rest : Bytes) :
    Shape.named fields fuel false d
        (continued (ws.map Writer.entry) ++ closeBrace :: rest) =
      .ok (.ok d', closeBrace :: rest) := by
  induction h generalizing fuel with
  | nil d =>
      obtain ⟨fuel, rfl⟩ := Nat.exists_eq_add_one_of_ne_zero (Nat.ne_zero_of_lt hfuel)
      rw [List.map_nil, continued_nil, List.nil_append, Shape.named, nextKey_close]
  | cons hfield hunset hread _ ih =>
      obtain ⟨fuel, rfl⟩ := Nat.exists_eq_add_one_of_ne_zero (Nat.ne_zero_of_lt hfuel)
      have hrest := @ih fuel (by simp at hfuel; omega)
      rw [List.map_cons, continued_cons_append, entry_append, Shape.named, nextKey_comma]
      simp only [hfield, hunset, Bool.false_eq_true, if_false, colonNext_colon,
        hread.value _ (delimited_continued _ (Or.inr rfl) rest), hrest]

theorem named_separated {fields : List (Field σ)} {d d' : σ} {ws : List (String × Bytes)}
    (h : Fills fields d ws d') {fuel : Nat} (hfuel : ws.length < fuel) (rest : Bytes) :
    Shape.named fields fuel true d
        (Writer.separated (ws.map Writer.entry) ++ closeBrace :: rest) =
      .ok (.ok d', closeBrace :: rest) := by
  obtain ⟨fuel, rfl⟩ := Nat.exists_eq_add_one_of_ne_zero (Nat.ne_zero_of_lt hfuel)
  cases h with
  | nil =>
      rw [List.map_nil, Writer.separated, List.nil_append, Shape.named, nextKey_close]
  | cons hfield hunset hread hrest =>
      have hnext := @named_continued _ _ _ _ _ hrest fuel (by simp at hfuel; omega) rest
      rw [List.map_cons, separated_cons, List.append_assoc, entry_append, Shape.named,
        nextKey_first]
      simp only [hfield, hunset, Bool.false_eq_true, if_false, colonNext_colon,
        hread.value _ (delimited_continued _ (Or.inr rfl) rest), hnext]

theorem reads_shape {s : Shape σ α} {ws : List (String × Bytes)} {d : σ} {a : α}
    (h : Fills s.fields s.start ws d) (hfinish : s.finish d = .ok a) :
    Reads s.reader (Writer.object ws) a := by
  refine ⟨begins_object ws, fun rest _ => ?_⟩
  have hlength := length_le_separated_entry ws
  rw [object_append, Shape.reader, skipSpace_cons (by decide)]
  dsimp only
  rw [if_pos rfl, named_separated h (by simp; omega) rest]
  simp only [Except.map, Except.bind, hfinish, closeObject, endObject_close]

end SiblingStore.Json.Reader
