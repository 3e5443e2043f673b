import SiblingStore.Proofs.Log.Tail
import SiblingStore.Proofs.Store.Recovery

/-!
# Opening a store over a damaged log

A store opens over what a crash has left of its log and holds what the entries that
are still whole make. Foreign bytes behind the entries are passed over with a warning
at most, unless they spoil the log; then the store does not open, whatever the
entries before them hold.
-/

namespace SiblingStore.Store

theorem replayAt_file {log : Bytes} {r : Log.Replay} (h : Log.replay log = .ok r) :
    replayAt (.file log) = .ok r := by
  simp only [replayAt, Disk.Place.content, h]

theorem replayAt_file_error {log : Bytes} {cause : Log.Unreadable}
    (h : Log.replay log = .error cause) :
    replayAt (.file log) = .error (.unreadable cause) := by
  simp only [replayAt, Disk.Place.content, h]

/-! ## Sessions -/

/-- A store is opened over a log, takes in versions and is dropped: what becomes of the log. -/
def session (directory : String) (place : Disk.Place) (vs : List Version) :
    Except OpenError Disk.Place :=
  (openAt directory place).map fun p => .file (p.1.putAll vs).log

def sessions (directory : String) (place : Disk.Place) (groups : List (List Version)) :
    Except OpenError Disk.Place :=
  groups.foldlM (session directory) place

section

variable {directory : String} (hdirectory : Disk.fault? directory = none)
  (hpath : Disk.fault? (logPath directory) = none)

include hdirectory hpath

theorem openAt_entries {place : Disk.Place} (hplace : place ≠ .directory) {vs : List Version}
    (hlog : place.content = vs.flatMap Log.entry)
    (hsmall : ∀ v ∈ vs, v.json.length < UInt32.size) :
    ∃ events, openAt directory place =
      .ok (⟨Table.empty.putAll vs, vs.flatMap Log.entry⟩, events) := by
  have hreplay : replayAt place = .ok ⟨vs, .complete⟩ := by
    have hentries := Log.replay_entries hsmall
    rw [← hlog] at hentries
    cases place with
    | directory => exact absurd rfl hplace
    | absent => simp only [replayAt, hentries]
    | file content => simp only [replayAt, hentries]
  unfold openAt
  simp only [hdirectory, hpath, hreplay, hlog]
  exact ⟨_, rfl⟩

theorem session_entries {place : Disk.Place} (hplace : place ≠ .directory)
    {vs ws : List Version} (hlog : place.content = vs.flatMap Log.entry)
    (hsmall : ∀ v ∈ vs, v.json.length < UInt32.size) :
    session directory place ws = .ok (.file ((vs ++ ws).flatMap Log.entry)) := by
  obtain ⟨events, hopen⟩ := openAt_entries hdirectory hpath hplace hlog hsmall
  rw [session, hopen, List.flatMap_append]
  change Except.ok (Disk.Place.file (putAll _ ws).log) = _
  rw [putAll_eq]

theorem sessions_entries {place : Disk.Place} (hplace : place ≠ .directory)
    {vs : List Version} (hlog : place.content = vs.flatMap Log.entry)
    (hsmall : ∀ v ∈ vs, v.json.length < UInt32.size) {groups : List (List Version)}
    (hgroups : ∀ ws ∈ groups, ∀ v ∈ ws, v.json.length < UInt32.size) :
    ∃ left, sessions directory place groups = .ok left ∧
      left.content = (vs ++ groups.flatten).flatMap Log.entry := by
  -- All that is known of the log is that it has the entries of what was taken in so far.
  induction groups generalizing place vs with
  | nil => exact ⟨place, rfl, by rw [hlog, List.flatten_nil, List.append_nil]⟩
  | cons ws groups ih =>
      have hsmall' : ∀ v ∈ vs ++ ws, v.json.length < UInt32.size := by
        intro v hv
        rcases List.mem_append.1 hv with hv | hv
        · exact hsmall v hv
        · exact hgroups ws (by simp) v hv
      have hfirst : session directory place ws = .ok (.file ((vs ++ ws).flatMap Log.entry)) :=
        session_entries hdirectory hpath hplace hlog hsmall
      have hfile : Disk.Place.file ((vs ++ ws).flatMap Log.entry) ≠ .directory := by simp
      obtain ⟨left, hleft, hcontent⟩ :=
        ih hfile rfl hsmall' fun us hus => hgroups us (by simp [hus])
      refine ⟨left, ?_, by rw [hcontent, List.flatten_cons, List.append_assoc]⟩
      rw [sessions, List.foldlM_cons, hfirst]
      exact hleft

theorem sessions_absent {groups : List (List Version)}
    (hgroups : ∀ ws ∈ groups, ∀ v ∈ ws, v.json.length < UInt32.size) :
    ∃ left, sessions directory .absent groups = .ok left ∧
      left.content = groups.flatten.flatMap Log.entry := by
  have habsent : Disk.Place.absent ≠ .directory := by simp
  have hempty : Disk.Place.absent.content = ([] : List Version).flatMap Log.entry := rfl
  have hleft := sessions_entries hdirectory hpath habsent hempty (by simp) hgroups
  rwa [List.nil_append] at hleft

/-- After any sessions that began without a log, and any cut of the log they left, the
versions whose entries are whole are read back, and the store opens as if only they
had been written. -/
theorem opens_cut_sessions {groups : List (List Version)}
    (hsmall : ∀ vs ∈ groups, ∀ v ∈ vs, v.json.length < UInt32.size) :
    ∃ left, sessions directory .absent groups = .ok left ∧
      ∀ n, let cut := left.content.take (left.content.length - n)
        let kept := groups.flatten.take (Log.wholeEntries groups.flatten cut.length)
        (∃ ending, replayAt (.file cut) = .ok ⟨kept, ending⟩) ∧
          ∃ events, openAt directory (.file cut) =
            .ok (⟨Table.empty.putAll kept, cut⟩, events) := by
  obtain ⟨left, hleft, hcontent⟩ := sessions_absent hdirectory hpath hsmall
  have hall : ∀ v ∈ groups.flatten, v.json.length < UInt32.size := by
    intro v hv
    obtain ⟨vs, hvs, hv⟩ := List.mem_flatten.1 hv
    exact hsmall vs hvs v hv
  refine ⟨left, hleft, fun n => ?_⟩
  intro cut kept
  have hlength : cut.length = left.content.length - n := by
    rw [List.length_take]
    omega
  obtain ⟨ending, hreplay⟩ : ∃ ending, Log.replay cut = .ok ⟨kept, ending⟩ := by
    have htake : left.content.take cut.length = cut := by rw [hlength]
    have hprefix := Log.replay_take_entries hall cut.length
    rwa [← hcontent, htake] at hprefix
  exact ⟨⟨ending, replayAt_file hreplay⟩, openAt_replay hdirectory hpath hreplay⟩

/-- Behind entries, any bytes leave what was written readable and the store can be
opened, unless they spoil the log; then it cannot. -/
theorem opens_iff_not_spoilt {vs : List Version}
    (hsmall : ∀ v ∈ vs, v.json.length < UInt32.size) (tail : Bytes) :
    let log := vs.flatMap Log.entry ++ tail
    (¬Log.Spoilt tail → (∃ r, replayAt (.file log) = .ok r ∧ vs <+: r.versions) ∧
        ∃ s events, openAt directory (.file log) = .ok (s, events)) ∧
      (Log.Spoilt tail → ∃ cause, replayAt (.file log) = .error (.unreadable cause) ∧
        openAt directory (.file log) = .error (.log (.unreadable cause))) := by
  intro log
  have hreplay : Log.replay log = (Log.replay tail).map fun r =>
      { r with versions := vs ++ r.versions } := Log.replay_entries_append hsmall tail
  constructor
  · intro hsound
    cases hr : Log.replay tail with
    | error cause => exact absurd (Log.exists_cause_iff_spoilt.1 ⟨cause, hr⟩) hsound
    | ok r =>
        rw [hr] at hreplay
        obtain ⟨events, hopen⟩ := openAt_replay hdirectory hpath hreplay
        exact ⟨⟨_, replayAt_file hreplay, List.prefix_append vs r.versions⟩, _, events, hopen⟩
  · intro hspoilt
    obtain ⟨cause, hcause⟩ := Log.exists_cause_iff_spoilt.2 hspoilt
    rw [hcause] at hreplay
    have herror : replayAt (.file log) = .error (.unreadable cause) :=
      replayAt_file_error hreplay
    refine ⟨cause, herror, ?_⟩
    unfold openAt
    simp only [hdirectory, hpath, herror]

end

def written (value : UInt8) : Version := .live ⟨"b", "k"⟩ [value] .empty ⟨"t", 0⟩

/-- Two sessions, whose log loses its last octet. -/
theorem opens_cut_two_sessions :
    ∃ left, sessions "d" .absent [[written 1], [written 2]] = .ok left ∧
      ∃ events, openAt "d" (.file (left.content.take (left.content.length - 1))) =
        .ok (⟨Table.empty.putAll [written 1],
          left.content.take (left.content.length - 1)⟩, events) := by
  have hsmall : ∀ vs ∈ [[written 1], [written 2]], ∀ v ∈ vs, v.json.length < UInt32.size := by
    decide +kernel
  obtain ⟨left, hleft, hcut⟩ := opens_cut_sessions fault?_directory fault?_logPath hsmall
  refine ⟨left, hleft, ?_⟩
  obtain ⟨left', hleft', hcontent⟩ := sessions_absent fault?_directory fault?_logPath hsmall
  rw [hleft] at hleft'
  injection hleft' with hleft'
  rw [← hleft'] at hcontent
  have hwhole : Log.wholeEntries [written 1, written 2]
      (left.content.take (left.content.length - 1)).length = 1 := by
    rw [hcontent]
    decide +kernel
  obtain ⟨-, hopen⟩ := hcut 1
  have hkept : [[written 1], [written 2]].flatten = [written 1, written 2] := rfl
  rw [hkept, hwhole] at hopen
  exact hopen

theorem not_opens_behind_zeros :
    ∃ cause, openAt "d" (.file ([written 1].flatMap Log.entry ++ List.replicate 9 0)) =
      .error (.log (.unreadable cause)) := by
  have hsmall : ∀ v ∈ [written 1], v.json.length < UInt32.size := by decide +kernel
  obtain ⟨cause, -, hopen⟩ :=
    (opens_iff_not_spoilt fault?_directory fault?_logPath hsmall (List.replicate 9 0)).2
      Log.spoilt_zeros
  exact ⟨cause, hopen⟩

end SiblingStore.Store
