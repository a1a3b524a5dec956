/-
  `AssetManager` (`media.rs`), which keeps the file of an asset and its info file in a directory,
  and the asset of a media event. What a download asks of the asset and of the network is
  answered at once; the file system is the state.

  The download time, which nothing reads, is left out of the info.
-/
import GoudaMatrix.Lib.FileSystem
import GoudaMatrix.Messages

namespace GoudaMatrix.Media

open GoudaMatrix.Lib GoudaMatrix.Ruma

inductive MediaError where
  | notFound
  | removed
  | assetIdNotSpecified
  | io
  | matrixError
deriving DecidableEq, Repr

abbrev Result (α : Type) := Except MediaError α

structure AssetInfo where
  file : String
  upstreamUrl : String
deriving DecidableEq, Repr

structure Download (B : Type) where
  data : B
  fileExtension : Option String
  upstreamUrl : String

/-- What a download uses of the trait `Asset`. -/
structure Asset (B : Type) where
  assetId : Result String
  isUpToDate : AssetInfo → Result Bool
  wasRemoved : Bool
  download : Result (Download B)

/-- The JSON of an info file. -/
structure InfoFormat (B : Type) where
  serialize : AssetInfo → B
  deserialize : B → Option AssetInfo
  deserialize_serialize : ∀ info, deserialize (serialize info) = some info

/-! ## The asset manager -/

structure AssetManager (B : Type) where
  dataRootDir : Path
  assetDir : Path
  asset : Asset B

/-- The name of the info file of an asset id. -/
def infoFileName (assetId : String) : String := assetId ++ "_info" ++ ".json"

/-- The name of the downloaded file of an asset id. -/
def assetFileName (assetId : String) : Option String → String
  | some extension => assetId ++ "." ++ extension
  | none => assetId

theorem assetFileName_ne_infoFileName (id : String) (extension : Option String) :
    assetFileName id extension ≠ infoFileName id := by
  intro h
  have hchars := congrArg String.toList h
  cases extension with
  | none => simp [assetFileName, infoFileName] at hchars
  | some e => simp [assetFileName, infoFileName] at hchars

theorem infoFileName_ne_parent (id : String) : infoFileName id ≠ ".." := by
  intro h
  have hlength := congrArg (fun s => s.toList.length) h
  simp [infoFileName] at hlength

namespace AssetManager

variable {B : Type} (json : InfoFormat B) (manager : AssetManager B)

def getInfoFileName : Result String := manager.asset.assetId.map infoFileName

def getAssetFileName (extension : Option String) : Result String :=
  manager.asset.assetId.map fun assetId => assetFileName assetId extension

def getDownloadDirRelative : Path := manager.assetDir

def getDownloadDirAbsolute : Path := manager.dataRootDir ++ manager.getDownloadDirRelative

def getInfoPathAbsolute : Result Path :=
  manager.getInfoFileName.map fun fileName => Path.join manager.getDownloadDirAbsolute fileName

def getInfoPathRelative : Result Path :=
  manager.getInfoFileName.map fun fileName => Path.join manager.getDownloadDirRelative fileName

def getAssetPathAbsolute (fileName : String) : Result Path :=
  manager.getInfoPathAbsolute.map fun path => Path.setFileName path fileName

def getAssetPathRelative (fileName : String) : Result Path :=
  manager.getInfoPathRelative.map fun path => Path.setFileName path fileName

def readInfo (fs : FileSystem B) : Option AssetInfo :=
  match manager.getInfoPathAbsolute with
  | .error _ => none
  | .ok path => (fs.read path).bind json.deserialize

/-- An error of the check counts as up to date. -/
def isUpToDate (info : AssetInfo) : Bool :=
  match manager.asset.isUpToDate info with
  | .ok result => result
  | .error _ => true

def deleteAssetAndInfo (info : AssetInfo) (fs : FileSystem B) : FileSystem B :=
  match manager.getInfoPathAbsolute, manager.getAssetPathAbsolute info.file with
  | .ok infoPath, .ok assetPath => (fs.remove infoPath).remove assetPath
  | _, _ => fs

/-- The asset is written before its info. -/
def writeInfoAndAsset (info : AssetInfo) (data : B) (fs : FileSystem B) :
    Result Unit × FileSystem B :=
  match manager.getInfoPathAbsolute, manager.getAssetPathAbsolute info.file with
  | .error e, _ | _, .error e => (.error e, fs)
  | .ok infoPath, .ok assetPath =>
    match fs.write assetPath data with
    | none => (.error .io, fs)
    | some fs =>
      match fs.write infoPath (json.serialize info) with
      | none => (.error .io, fs)
      | some fs => (.ok (), fs)

/-- The deletion of the stored asset before a new one is written. -/
def deleteExisting (fs : FileSystem B) : FileSystem B :=
  match manager.readInfo json fs with
  | some existingInfo => manager.deleteAssetAndInfo existingInfo fs
  | none => fs

/-- The returned path is relative. -/
def downloadAsset (fs : FileSystem B) : Result Path × FileSystem B :=
  match manager.asset.download with
  | .error e => (.error e, fs)
  | .ok download =>
    let fs := manager.deleteExisting json fs
    match manager.getAssetFileName download.fileExtension with
    | .error e => (.error e, fs)
    | .ok dataFileName =>
      match manager.writeInfoAndAsset json
        ⟨dataFileName, download.upstreamUrl⟩ download.data fs with
      | (.error e, fs) => (.error e, fs)
      | (.ok _, fs) => (manager.getAssetPathRelative dataFileName, fs)

def hasBeenDownloadedBefore (fs : FileSystem B) : Option (Result Path) × FileSystem B :=
  match manager.readInfo json fs with
  | none => (none, fs)
  | some info =>
    if manager.isUpToDate info then (some (manager.getAssetPathRelative info.file), fs)
    else if manager.asset.wasRemoved then
      (some (.error .removed), manager.deleteAssetAndInfo info fs)
    else (none, fs)

def download (fs : FileSystem B) : Result Path × FileSystem B :=
  match manager.hasBeenDownloadedBefore json fs with
  | (some path, fs) => (path, fs)
  | (none, fs) => manager.downloadAsset json fs

end AssetManager

/-! ## Media events -/

/-- The media requests of the client, and the extension that is guessed from the data. -/
structure MediaClient (B : Type) where
  /-- `get_file`. -/
  getFile : MediaSource → Result B
  /-- `determine_file_extension_from_data`. -/
  infer : B → Option String
  infer_plain : ∀ {data extension}, infer data = some extension → '/' ∉ extension.toList

variable {B : Type} (client : MediaClient B)

def determineFileExtensionWithPath (data : B) (path : String) : Option String :=
  (Path.extension (Path.components path)).or (client.infer data)

structure MediaEventAsset where
  assetId : String
  content : MediaContent
  fileName : Option String

namespace MediaEventAsset

variable (asset : MediaEventAsset)

/-- The content of an audio, file, image or video message always has a source. -/
def getUpstreamUrl : String := asset.content.source.url

def fileExtension (data : B) : Option String :=
  match asset.fileName with
  | some fileName => determineFileExtensionWithPath client data fileName
  | none => client.infer data

def toAsset : Asset B where
  assetId := .ok asset.assetId
  isUpToDate info := .ok (asset.getUpstreamUrl = info.upstreamUrl)
  wasRemoved := false
  download :=
    (client.getFile asset.content.source).map fun data =>
      { data := data
        fileExtension := asset.fileExtension client data
        upstreamUrl := asset.getUpstreamUrl }

end MediaEventAsset

/-! ## The media manager -/

structure MediaManagerInner (B : Type) where
  client : MediaClient B
  json : InfoFormat B
  dataRootDir : Path
  attachmentsDir : Path

namespace MediaManagerInner

variable (inner : MediaManagerInner B)

def initDirRelative (dir : Path) (fs : FileSystem B) : FileSystem B :=
  fs.createDirAll (inner.dataRootDir ++ dir)

def downloadFromMediaEventContent (roomId eventId : String) (content : MediaContent)
    (fileName : Option String) (fs : FileSystem B) : Result Path × FileSystem B :=
  let attachmentsRoomDir := Path.join inner.attachmentsDir roomId
  let fs := inner.initDirRelative attachmentsRoomDir fs
  let manager : AssetManager B :=
    ⟨inner.dataRootDir, attachmentsRoomDir,
      MediaEventAsset.toAsset inner.client ⟨eventId, content, fileName⟩⟩
  manager.download inner.json fs

/-- The manager as the messages use it, with the text of the path. -/
def toMediaManager : MediaManager (FileSystem B) where
  downloadFromMediaEventContent roomId eventId content fileName fs :=
    match inner.downloadFromMediaEventContent roomId eventId content fileName fs with
    | (.ok path, fs) => (some (Path.display path), fs)
    | (.error _, fs) => (none, fs)

end MediaManagerInner

end GoudaMatrix.Media
