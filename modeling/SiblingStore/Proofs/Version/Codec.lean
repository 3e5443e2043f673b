import SiblingStore.Version.Codec
import SiblingStore.Proofs.Clock.Codec

/-!
# Versions survive their written form

The payload of a log entry is read back as the version that was logged, field for
field.
-/

namespace SiblingStore.Version

open Json.Reader (Reads)

theorem reads_json (v : Version) : Reads reader v.json v := by
  have hvalue : Reads (Json.Reader.listOf Json.Reader.octet)
      (Json.Writer.list (v.value.map fun b => Json.Writer.natural b.toNat)) v.value :=
    Json.Reader.reads_list fun b _ => Json.Reader.reads_octet b
  refine Json.Reader.reads_shape (d := ⟨some v.location.bucket, some v.location.key,
    some v.clock, some v.value, some v.tombstone, some v.tag, some v.time⟩) ?_ rfl
  refine .field rfl rfl (Json.Reader.reads_text v.location.bucket) rfl ?_
  refine .field rfl rfl (Json.Reader.reads_text v.location.key) rfl ?_
  refine .field rfl rfl (Clock.reads_json v.clock) rfl ?_
  refine .field rfl rfl hvalue rfl ?_
  refine .field rfl rfl (Json.Reader.reads_boolean v.tombstone) rfl ?_
  refine .field rfl rfl (Json.Reader.reads_text v.tag) rfl ?_
  exact .field rfl rfl (Json.Reader.reads_word64 v.time) rfl (.nil _)

theorem run_json (v : Version) : Json.Reader.run reader v.json = .ok v :=
  Json.Reader.run_of_reads (reads_json v)

end SiblingStore.Version
