import SiblingStore.Clock.Codec
import SiblingStore.Proofs.Json.Structure
import SiblingStore.Proofs.Ordered.Map

/-!
# Clocks survive their written form

A clock comes back from its JSON text and from the bytes that it is as a causal
context.
-/

namespace SiblingStore.Clock

open Json.Reader (Reads)

theorem reads_json (c : Clock) : Reads reader c.json c := by
  have hentries : Reads (Json.Reader.entriesOf Json.Reader.word64)
      (Json.Writer.object
        (c.entries.toList.map fun p => (p.1, Json.Writer.natural p.2.toNat)))
      c.entries.toList :=
    @Json.Reader.reads_entries _ _ (fun n => Json.Writer.natural n.toNat) _
      fun p _ => Json.Reader.reads_word64 p.2
  refine Json.Reader.reads_shape (d := { entries := some c.entries.toList }) ?_ ?_
  · exact .field rfl rfl hentries rfl (.nil _)
  · exact congrArg (fun m => Except.ok (Clock.mk m)) (Ordered.Map.ofList_toList c.entries)

theorem json_ne_nil (c : Clock) : c.json ≠ [] := (reads_json c).begins.ne_nil

theorem isEmpty_iff {c : Clock} : c.isEmpty = true ↔ c = empty := by
  obtain ⟨⟨l, sorted⟩⟩ := c
  cases l with
  | nil => exact iff_of_true rfl rfl
  | cons p l =>
      refine iff_of_false Bool.noConfusion fun h => ?_
      cases h

theorem toBytes_eq_nil_iff {c : Clock} : c.toBytes = [] ↔ c = empty := by
  rw [← isEmpty_iff, toBytes]
  split_ifs with hempty
  · exact iff_of_true rfl hempty
  · exact iff_of_false (json_ne_nil c) hempty

@[simp] theorem ofBytes_toBytes (c : Clock) : ofBytes c.toBytes = .ok c := by
  rw [ofBytes]
  split_ifs with hnil
  · rw [toBytes_eq_nil_iff.1 (List.isEmpty_iff.1 hnil)]
  · have hempty : ¬c.isEmpty = true := fun h =>
      hnil (List.isEmpty_iff.2 (toBytes_eq_nil_iff.2 (isEmpty_iff.1 h)))
    rw [toBytes, if_neg hempty]
    exact Json.Reader.run_of_reads (reads_json c)

end SiblingStore.Clock
