import PalmWebKit.Storage.DatabaseTracker

/-!
# Moving the databases of one tracker to another

`moveTrackerDatabases` copies the databases of the origins that a condition
matches.  When all copies succeed it deletes these origins from the source, and
when one fails it deletes them from the destination.
-/

namespace PalmWebKit
namespace Storage

structure Trackers where
  source : DatabaseTracker
  destination : DatabaseTracker

section Statements

variable (failure : Option Operation)

/-- `CopyFile`.  The destination has been created or truncated where the copy
fails after `creat`, and is then removed.  The directories of the two trackers
differ. -/
def copyFile (trackers : Trackers) (dbName : DatabaseName) (srcOrigin dstOrigin : SecurityOrigin)
    (src dst : FileName) : Trackers × Bool :=
  match trackers.source.fileContent srcOrigin src, dst with
  | some content, .numbered number =>
    let files := trackers.destination.files
    if failure = some (.copyFile srcOrigin dbName false) then
      (trackers, false)
    else if failure = some (.copyFile srcOrigin dbName true) then
      (⟨trackers.source, { trackers.destination with
          files := files.erase (dstOrigin, number) }⟩, false)
    else
      (⟨trackers.source, { trackers.destination with
          files := files.insert (dstOrigin, number) content }⟩, true)
  | _, _ => (trackers, false)

/-- Establish an origin that the tracker does not have. -/
def ensureOrigin (tracker : DatabaseTracker) (origin : SecurityOrigin) : DatabaseTracker :=
  match tracker.hasEntryForOrigin failure .destination origin with
  | (tracker, true) => tracker
  | (tracker, false) => tracker.setQuota failure .destination origin 1024

/-- Create an empty file for a database that has none and delete it. -/
def cleanUpDatabase (tracker : DatabaseTracker) (origin : SecurityOrigin) (dbName : DatabaseName)
    (srcFullPath : FileName) : DatabaseTracker :=
  let tracker := match srcFullPath with
    | .empty => tracker
    | .numbered number => { tracker with files := tracker.files.insert (origin, number) [] }
  tracker.deleteDatabase failure .source origin dbName

/-- A tracker that moves databases has no open ones. -/
def copyOriginDatabase (trackers : Trackers) (dbName : DatabaseName)
    (srcOrigin dstOrigin : SecurityOrigin) : Trackers × Bool :=
  match trackers.source.fullPathForDatabase failure .source .copying srcOrigin dbName
      false with
  | (source, none) => (⟨source, trackers.destination⟩, false)
  | (source, some srcFullPath) =>
    if source.fileExists srcOrigin srcFullPath then
      let destination := ensureOrigin failure trackers.destination dstOrigin
      match destination.fullPathForDatabase failure .destination .copying dstOrigin
          dbName true with
      | (destination, none) => (⟨source, destination⟩, false)
      | (destination, some dstFullPath) =>
        copyFile failure ⟨source, destination⟩ dbName srcOrigin dstOrigin
          srcFullPath dstFullPath
    else
      (⟨cleanUpDatabase failure source srcOrigin dbName srcFullPath, trackers.destination⟩, true)

/-- The loop over the names of an origin. -/
def copyDatabases (srcOrigin dstOrigin : SecurityOrigin) :
    List DatabaseName → Trackers → Trackers × Bool
  | [], trackers => (trackers, true)
  | dbName :: dbNames, trackers =>
    match copyOriginDatabase failure trackers dbName srcOrigin dstOrigin with
    | (trackers, false) => (trackers, false)
    | (trackers, true) => copyDatabases srcOrigin dstOrigin dbNames trackers

def copyOriginDatabases (trackers : Trackers)
    (srcOrigin dstOrigin : SecurityOrigin) : Trackers × Bool :=
  let source := trackers.source.openTrackerDatabase failure .source false
  match source.databaseNamesForOrigin failure .source .copying srcOrigin with
  | none => ({ trackers with source := source }, false)
  | some databaseNames =>
    copyDatabases failure srcOrigin dstOrigin databaseNames
      { trackers with source := source }

/-- The loop over the origins. -/
def copyOrigins : List SecurityOrigin → Trackers → Trackers × Bool
  | [], trackers => (trackers, true)
  | origin :: origins, trackers =>
    match copyOriginDatabases failure trackers origin origin with
    | (trackers, false) => (trackers, false)
    | (trackers, true) => copyOrigins origins trackers

/-- The trackers are two objects, and both of them can be opened. -/
def copyTrackerDatabases (trackers : Trackers) (origins : List SecurityOrigin) : Trackers × Bool :=
  copyOrigins failure origins
    { source := trackers.source.openTrackerDatabase failure .source true
      destination := trackers.destination.openTrackerDatabase failure .destination true }

/-- The move, and what it returns. -/
def moveTrackerDatabases (order : HashOrder) (srcCondition : Option (SecurityOrigin → Bool))
    (trackers : Trackers) : Trackers × Bool :=
  match trackers.source.origins failure .source order srcCondition with
  | (source, dbOrigins) =>
    match copyTrackerDatabases failure { trackers with source := source } dbOrigins with
    | (trackers, true) =>
      (⟨trackers.source.deleteOrigins failure .source dbOrigins, trackers.destination⟩, true)
    | (trackers, false) =>
      (⟨trackers.source, trackers.destination.deleteOrigins failure .destination dbOrigins⟩, false)

end Statements

end Storage
end PalmWebKit
