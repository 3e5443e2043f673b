import SiblingStore.Decimal.Shortest
import SiblingStore.Metrics.Basic

/-!
# The text form of metrics

Families in the order of their names, each with a line of help, a line with its
type and a line for every series. A labelled family without series is left out.
-/

namespace SiblingStore.Metrics

/-- A value in the form of a label: quoted, with backslashes, quotes and line breaks escaped. -/
def label (s : String) : String :=
  "\"" ++ String.join (s.toList.map fun c =>
    if c = '\\' then "\\\\" else if c = '"' then "\\\"" else if c = '\n' then "\\n"
    else String.singleton c) ++ "\""

def number (n : Nat) : String := Decimal.plain (UInt64.ofNat n).toFloat

structure Series where
  name : String
  labels : List (String × String)
  value : String

def Series.key (s : Series) : String :=
  if s.labels.isEmpty then s.name
  else
    s.name ++ "\x7b" ++ ",".intercalate (s.labels.map fun p => p.1 ++ "=" ++ label p.2) ++ "\x7d"

structure Family where
  name : String
  help : String
  type : String
  series : List Series

def Family.text (f : Family) : String :=
  if f.series.isEmpty then ""
  else
    "# HELP " ++ f.name ++ " " ++ f.help ++ "\n# TYPE " ++ f.name ++ " " ++ f.type ++ "\n"
      ++ String.join (f.series.map fun s => s.key ++ " " ++ s.value ++ "\n")

def Counter.family : Counter → String × String
  | .fetches => ("siblingkv_fetches_total", "Fetch operations issued")
  | .stores => ("siblingkv_stores_total", "Store operations issued")
  | .deletes => ("siblingkv_deletes_total", "Delete operations issued")
  | .keyListings => ("siblingkv_key_listings_total", "List-keys operations issued")
  | .retries => ("siblingkv_retries_total", "Attempts scheduled after a transient failure")
  | .siblingsObserved =>
    ("siblingkv_siblings_observed_total", "Fetches that returned more than one version")
  | .conflictsResolved =>
    ("siblingkv_conflicts_resolved_total", "Sibling sets collapsed by a resolver")
  | .conflictsUnresolved =>
    ("siblingkv_conflicts_unresolved_total", "Sibling sets a resolver declined to merge")
  | .identityDisagreements =>
    ("siblingkv_identity_disagreements_total",
      "Union merges rejected because siblings disagreed on identity")

def plainFamily (m : Metrics) (c : Counter) : Family :=
  let (name, help) := Counter.family c
  ⟨name, help, "counter", [⟨name, [], number (m.get c)⟩]⟩

def labelledFamily (name help labelName : String) (counts : Ordered.Map String Nat) : Family :=
  ⟨name, help, "counter",
    counts.toList.map fun p => ⟨name, [(labelName, p.1)], number p.2⟩⟩

/-- The lines of a histogram: how many values lie up to each bound, their sum and number. -/
def histogramSeries (name labelName labelValue : String) (h : Histogram) : List Series :=
  let upTo := (h.counts.foldl (fun (acc : List Nat × Nat) n => (acc.1 ++ [acc.2 + n], acc.2 + n))
    ([], 0)).1
  let bounds := (latencyBounds.map Decimal.plain).zip upTo ++ [("+Inf", h.total)]
  bounds.map (fun p =>
      ⟨name ++ "_bucket", [(labelName, labelValue), ("le", p.1)], number p.2⟩)
    ++ [⟨name ++ "_sum", [(labelName, labelValue)], Decimal.plain h.sum⟩,
      ⟨name ++ "_count", [(labelName, labelValue)], number h.total⟩]

def latencyFamily (m : Metrics) : Family :=
  let name := "siblingkv_op_latency_seconds"
  ⟨name, "Operation latency in seconds, retries included", "histogram",
    m.latency.toList.flatMap fun p => histogramSeries name "op_type" p.1 p.2⟩

def families (m : Metrics) : List Family :=
  [labelledFamily "siblingkv_attempts_total" "Engine attempts, by operation" "op_type"
      m.attempts,
    m.plainFamily .conflictsResolved, m.plainFamily .conflictsUnresolved,
    m.plainFamily .deletes,
    labelledFamily "siblingkv_failed_attempts_total" "Failed engine attempts, by error class"
      "class" m.failedAttempts,
    m.plainFamily .fetches, m.plainFamily .identityDisagreements, m.plainFamily .keyListings,
    m.latencyFamily, m.plainFamily .retries, m.plainFamily .siblingsObserved,
    m.plainFamily .stores]

def text (m : Metrics) : String := String.join (m.families.map Family.text)

/-- The counts that are not zero, by series; of a histogram the number of values. -/
def nonzero (m : Metrics) : List (String × Nat) :=
  let plain := fun c => ((Counter.family c).1, m.get c)
  let labelled := fun (name labelName : String) (counts : List (String × Nat)) =>
    counts.map fun p => ((Series.mk name [(labelName, p.1)] "").key, p.2)
  (labelled "siblingkv_attempts_total" "op_type" m.attempts.toList
    ++ labelled "siblingkv_failed_attempts_total" "class" m.failedAttempts.toList
    ++ labelled "siblingkv_op_latency_seconds_count" "op_type"
      (m.latency.toList.map fun p => (p.1, p.2.total))
    ++ [.fetches, .stores, .deletes, .keyListings, .retries, .siblingsObserved,
        .conflictsResolved, .conflictsUnresolved, .identityDisagreements].map plain).filter
    (·.2 ≠ 0)

end SiblingStore.Metrics
