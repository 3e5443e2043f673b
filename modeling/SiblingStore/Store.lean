import SiblingStore.Disk
import SiblingStore.Log
import SiblingStore.Table

/-!
# Stores

The storage of one replica: a table of versions and the log it can be rebuilt
from. A write is logged first and then applied, also one that the table
discards.
-/

namespace SiblingStore

structure Store where
  table : Table
  log : Bytes
  deriving DecidableEq

namespace Store

def empty : Store := ⟨.empty, []⟩

instance : Inhabited Store := ⟨empty⟩

def versions (s : Store) (l : Location) : List Version := s.table.versions l

def put (s : Store) (v : Version) : WriteEffect × Store :=
  let (effect, table) := s.table.put v
  (effect, ⟨table, s.log ++ Log.entry v⟩)

def putAll (s : Store) (vs : List Version) : Store := vs.foldl (fun s v => (s.put v).2) s

inductive LogError where
  | disk (fault : Disk.Fault)
  | unreadable (cause : Log.Unreadable)

def LogError.messageWith (detail : Json.Fault → Bytes → String) : LogError → String
  | .disk fault => "WAL I/O error: " ++ fault.message
  | .unreadable cause => "WAL serialization error: " ++ detail cause.fault cause.payload

inductive OpenError where
  | log (error : LogError)
  | disk (fault : Disk.Fault)

def OpenError.messageWith (detail : Json.Fault → Bytes → String) : OpenError → String
  | .log error => "WAL error: " ++ error.messageWith detail
  | .disk fault => "storage I/O error: " ++ fault.message

/-- Replays the log at a path, where no file is as good as an empty one. -/
def replayAt : Disk.Place → Except LogError Log.Replay
  | .directory => .error (.disk .isDirectory)
  | place =>
    match Log.replay place.content with
    | .error cause => .error (.unreadable cause)
    | .ok r => .ok r

def logPath (directory : String) : String := directory ++ "/wal.log"

def openAt (directory : String) (place : Disk.Place) : Except OpenError (Store × List Event) :=
  let path := logPath directory
  match Disk.fault? directory, Disk.fault? path, replayAt place with
  | some fault, _, _ => .error (.disk fault)
  | none, some fault, _ => .error (.log (.disk fault))
  | none, none, .error e => .error (.log e)
  | none, none, .ok r =>
    let table := Table.empty.putAll r.versions
    .ok (⟨table, place.content⟩, r.events ++
      [⟨.info, s!"storage engine opened: {table.keyCount} keys, {table.versionCount} versions "
        ++ "recovered from " ++ Text.Quoted.text path⟩])

end Store

end SiblingStore
