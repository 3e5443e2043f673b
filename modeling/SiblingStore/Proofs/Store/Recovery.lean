import SiblingStore.Proofs.Log.Torn
import SiblingStore.Proofs.Table.Versions
import SiblingStore.Proofs.Text.Split

/-!
# Opening a store again

A store that is opened over the log of another holds what the other held if the
log was read to its end when the other was opened. If it was not, new entries go
behind the bytes that ended the replay, and some that are written there are lost.
-/

namespace SiblingStore

theorem Log.length_versions_le {log : Bytes} {r : Replay} (h : replay log = .ok r) :
    r.versions.length ≤ log.length := by
  induction log using unread.induct generalizing r with
  | case1 log e hnext =>
      rw [replay_ending hnext] at h
      injection h with h
      rw [← h]
      exact Nat.zero_le _
  | case2 log octets rest hnext hshorter ih =>
      rw [replay_payload hnext] at h
      cases hv : Json.Reader.run Version.reader octets with
      | error fault => simp [hv] at h
      | ok v =>
          rw [hv] at h
          cases hrest : replay rest with
          | error cause => rw [hrest] at h; exact absurd h (by simp [Except.map])
          | ok r' =>
              rw [hrest] at h
              injection h with h
              have hle := ih hrest
              rw [← h, List.length_cons]
              omega

namespace Store

/-! ## Opening -/

/-- What a store holds that is opened over a log. -/
theorem openAt_file {directory : String} {content : Bytes} {s : Store} {events : List Event}
    (h : openAt directory (.file content) = .ok (s, events)) :
    Disk.fault? directory = none ∧ Disk.fault? (logPath directory) = none ∧
      ∃ r, Log.replay content = .ok r ∧ s = ⟨Table.empty.putAll r.versions, content⟩ := by
  unfold openAt at h
  dsimp only at h
  split at h
  · exact absurd h (by simp)
  · exact absurd h (by simp)
  · exact absurd h (by simp)
  · rename_i r hdirectory hpath hreplay
    injection h with h
    injection h with h _
    refine ⟨hdirectory, hpath, r, ?_, h.symm⟩
    unfold replayAt at hreplay
    cases hr : Log.replay content with
    | error cause => simp [Disk.Place.content, hr] at hreplay
    | ok r' =>
        simp only [Disk.Place.content, hr] at hreplay
        injection hreplay with hreplay
        rw [hreplay]

theorem openAt_place {directory : String} (hdirectory : Disk.fault? directory = none)
    (hpath : Disk.fault? (logPath directory) = none) {place : Disk.Place} {r : Log.Replay}
    (h : replayAt place = .ok r) :
    ∃ events, openAt directory place =
      .ok (⟨Table.empty.putAll r.versions, place.content⟩, events) := by
  unfold openAt
  simp only [hdirectory, hpath, h]
  exact ⟨_, rfl⟩

theorem openAt_replay {directory : String} (hdirectory : Disk.fault? directory = none)
    (hpath : Disk.fault? (logPath directory) = none) {log : Bytes} {r : Log.Replay}
    (h : Log.replay log = .ok r) :
    ∃ events, openAt directory (.file log) =
      .ok (⟨Table.empty.putAll r.versions, log⟩, events) := by
  have hreplay : replayAt (.file log) = .ok r := by
    simp only [replayAt, Disk.Place.content, h]
  exact openAt_place hdirectory hpath hreplay

theorem openAt_absent {directory : String} (hdirectory : Disk.fault? directory = none)
    (hpath : Disk.fault? (logPath directory) = none) :
    ∃ events, openAt directory .absent = .ok (.empty, events) := by
  have hnext : Log.next [] = .ending .complete := Log.next_short (by decide)
  have hreplay : replayAt .absent = .ok ⟨[], .complete⟩ := by
    simp only [replayAt, Disk.Place.content, Log.replay_ending hnext]
  exact openAt_place hdirectory hpath hreplay

/-- The store can be opened again over its log, and holds then of every location
what it holds now. -/
def Recovered (directory : String) (s : Store) : Prop :=
  ∃ s' events, openAt directory (.file s.log) = .ok (s', events) ∧
    ∀ l, s'.versions l = s.versions l

/-! ## After a log that was read to its end -/

theorem recovered_putAll {directory : String} {content : Bytes} {s : Store}
    {events : List Event} (h : openAt directory (.file content) = .ok (s, events))
    (hread : Log.unread content = []) {vs : List Version}
    (hsmall : ∀ v ∈ vs, v.json.length < UInt32.size) : Recovered directory (s.putAll vs) := by
  obtain ⟨hdirectory, hpath, r, hr, rfl⟩ := openAt_file h
  have hreplay : Log.replay (content ++ vs.flatMap Log.entry) =
      .ok ⟨r.versions ++ vs, .complete⟩ := by
    rw [Log.replay_append hr, hread, List.nil_append, Log.replay_entries hsmall]
    rfl
  obtain ⟨events', hopen⟩ := openAt_replay hdirectory hpath hreplay
  rw [putAll_eq]
  refine ⟨_, events', hopen, fun l => ?_⟩
  rw [Table.putAll_append]

/-! ## After a log that was not -/

/-- In a log that fits into a file there is a short name that no version has. -/
theorem exists_location_not_mem {log : Bytes} (hfile : log.length < UInt64.size)
    {r : Log.Replay} (h : Log.replay log = .ok r) :
    ∃ l, Log.ShortNames l ∧ ∀ v ∈ r.versions, v.location ≠ l := by
  by_contra hnone
  push Not at hnone
  let named (bits : Fin 64 → Bool) : Location := ⟨"b", Log.lettered bits⟩
  have hinjective : Function.Injective named := by
    intro f g hfg
    exact Log.lettered_injective (congrArg Location.key hfg)
  have hall : ∀ bits, named bits ∈ (r.versions.map (·.location)).toFinset := by
    intro bits
    have hshort : Log.ShortNames (named bits) := by
      have hsize := Log.size_lettered_le bits
      have hbucket : Text.Utf8.size "b" = 1 := rfl
      unfold Log.ShortNames
      simp only [named, hbucket]
      omega
    obtain ⟨v, hv, hlocation⟩ := hnone (named bits) hshort
    exact List.mem_toFinset.2 (List.mem_map.2 ⟨v, hv, hlocation⟩)
  have hcard := Finset.card_le_card_of_injOn (s := Finset.univ) named (fun bits _ => hall bits)
    hinjective.injOn
  have hlist := List.toFinset_card_le (r.versions.map (·.location))
  have hlength := Log.length_versions_le h
  have htotal : (Finset.univ : Finset (Fin 64 → Bool)).card = UInt64.size := by
    rw [Finset.card_univ, Fintype.card_fun, Fintype.card_bool, Fintype.card_fin]
    rfl
  rw [List.length_map] at hlist
  omega

theorem not_recovered_of_lostBehind {directory : String} {content : Bytes} {s : Store}
    {events : List Event} (h : openAt directory (.file content) = .ok (s, events))
    {v : Version} (hfree : s.versions v.location = [])
    (hlost : Log.LostBehind (Log.unread content) v) : ¬Recovered directory (s.put v).2 := by
  obtain ⟨-, -, r, hr, rfl⟩ := openAt_file h
  rintro ⟨s', events', hopen, hsame⟩
  obtain ⟨-, -, r', hr', rfl⟩ := openAt_file hopen
  have hheld : v ∈ (Table.empty.putAll r'.versions).versions v.location := by
    have hself : (Table.empty.putAll r'.versions).versions v.location =
        Version.settle [] v := by
      refine (hsame v.location).trans ?_
      have hput := Table.versions_put_self (Table.empty.putAll r.versions) v
      rw [show (Table.empty.putAll r.versions).versions v.location = [] from hfree] at hput
      exact hput
    rw [hself]
    simp [Version.settle]
  have hmem : v ∈ r'.versions := by
    rcases Table.mem_versions_putAll hheld with hempty | hmem
    · simp at hempty
    · exact hmem
  have hreplay : Log.replay (content ++ Log.entry v) = .ok r' := hr'
  rw [Log.replay_append hr] at hreplay
  cases hbehind : Log.replay (Log.unread content ++ Log.entry v) with
  | error cause => rw [hbehind] at hreplay; exact absurd hreplay (by simp [Except.map])
  | ok r'' =>
      rw [hbehind] at hreplay
      injection hreplay with hreplay
      rw [← hreplay] at hmem
      rcases List.mem_append.1 hmem with hmem | hmem
      · exact Table.versions_putAll_ne_nil hmem hfree
      · exact hlost r'' hbehind hmem

/-- A store recovers what is written to it exactly if the log it was opened over was
read to its end: behind unread bytes already one write can be lost. Writes are
meant whose length fits into the header of an entry. -/
theorem recovers_iff_unread_eq_nil {directory : String} {content : Bytes} {s : Store}
    {events : List Event} (h : openAt directory (.file content) = .ok (s, events))
    (hfile : content.length < UInt64.size) :
    (Log.unread content = [] → ∀ vs : List Version,
        (∀ v ∈ vs, v.json.length < UInt32.size) → Recovered directory (s.putAll vs)) ∧
      (Log.unread content ≠ [] →
        ∃ v : Version, v.json.length < UInt32.size ∧ ¬Recovered directory (s.put v).2) := by
  refine ⟨fun hread vs hsmall => recovered_putAll h hread hsmall, fun hunread => ?_⟩
  obtain ⟨-, -, r, hr, heq⟩ := openAt_file h
  obtain ⟨l, hshort, hfree⟩ := exists_location_not_mem hfile hr
  obtain ⟨e, hending⟩ := Log.next_unread content
  obtain ⟨v, rfl, hsmall, hlost⟩ := Log.exists_lostBehind hunread hending hshort
  refine ⟨v, hsmall, not_recovered_of_lostBehind h ?_ hlost⟩
  rw [heq]
  exact Table.versions_putAll_of_forall_ne hfree

/-! ## A log of one octet -/

theorem fault?_directory : Disk.fault? "d" = none := by
  have hnames : Disk.names "d" = ["d"] := by
    unfold Disk.names
    simp (disch := decide +kernel) only [Text.splitOn_eq, Text.splitOnAux_skip,
      Text.splitOnAux_end]
    decide +kernel
  unfold Disk.fault?
  rw [hnames]
  decide +kernel

theorem fault?_logPath : Disk.fault? (logPath "d") = none := by
  have hnames : Disk.names (logPath "d") = ["d", "wal.log"] := by
    unfold Disk.names
    simp (disch := decide +kernel) only [Text.splitOn_eq, Text.splitOnAux_skip,
      Text.splitOnAux_cut, Text.splitOnAux_end]
    decide +kernel
  unfold Disk.fault?
  rw [hnames]
  decide +kernel

theorem not_recovers_behind_octet :
    ∃ s events, openAt "d" (.file [0]) = .ok (s, events) ∧
      ∃ v : Version, v.json.length < UInt32.size ∧ ¬Recovered "d" (s.put v).2 := by
  have hnext : Log.next [0] = .ending .complete := Log.next_short (by decide)
  have hunread : Log.unread [0] ≠ [] := by
    rw [Log.unread_ending hnext]
    decide
  obtain ⟨events, hopen⟩ :=
    openAt_replay fault?_directory fault?_logPath (Log.replay_ending hnext)
  exact ⟨_, events, hopen, (recovers_iff_unread_eq_nil hopen (by decide)).2 hunread⟩

end Store

end SiblingStore
