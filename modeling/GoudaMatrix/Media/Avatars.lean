/-
  The avatars of rooms and users (`media.rs`, and `fetch_avatar_uri` of `user.rs`): what an avatar
  asset answers the asset manager, and the calls of the media manager that return its path.

  The avatar URL of a room is known to the client. That of a user is asked of the homeserver, once
  when the asset is made and, without an answer, once more when it is used first: an asset that
  fails to get it then is not asked again, since every use of it ends with the error.

  `MediaError` has no case for `UnableToGetAvatarUri`; it is a `matrixError` here, and the calls
  return no path either way. The MIME type and the blurhash of an upload are left out.
-/
import GoudaMatrix.Media.AssetPaths
import GoudaMatrix.Media.Uploads
import Mathlib.Data.List.Infix

namespace GoudaMatrix.Media

open GoudaMatrix.Lib GoudaMatrix.Ruma

/-! ## Rooms -/

section Assets

variable {B : Type} (client : MediaClient B)

def downloadMxc (mxcUri : String) : Result B := client.getFile (.plain mxcUri)

def determineFileExtensionAndMime (data : B) (path : Path) : Option String :=
  (Path.extension path).or (client.infer data)

structure RoomAvatarAsset where
  id : String
  /-- `Room::avatar_url`. -/
  avatarUrl : Option String
deriving DecidableEq, Repr

/-- What the homeserver makes of an upload: the URL of the image, and whether it becomes the
    avatar of the room. -/
structure UploadAnswer where
  contentUri : Result String
  setAvatarUrl : Result Unit

namespace RoomAvatarAsset

variable (asset : RoomAvatarAsset)

def isUpToDate (info : AssetInfo) : Result Bool :=
  match asset.avatarUrl with
  | some url => .ok (url = info.upstreamUrl)
  | none => .ok false

def download : Result (Download B) :=
  match asset.avatarUrl with
  | none => .error .notFound
  | some avatarUrl =>
    (downloadMxc client avatarUrl).map fun content =>
      { data := content, fileExtension := client.infer content, upstreamUrl := avatarUrl }

def toAsset : Asset B where
  assetId := .ok asset.id
  isUpToDate := asset.isUpToDate
  wasRemoved := asset.avatarUrl.isNone
  download := asset.download client

/-- The source is read before the image is uploaded. -/
def upload (src : Path) (answer : UploadAnswer) (fs : FileSystem B) : Result Upload :=
  match fs.read src with
  | none => .error .io
  | some data =>
    match answer.contentUri, answer.setAvatarUrl with
    | .error e, _ | .ok _, .error e => .error e
    | .ok contentUri, .ok _ => .ok ⟨determineFileExtensionAndMime client data src, contentUri⟩

end RoomAvatarAsset

/-! ## Users -/

/-- What `fetch_profile_field_of` returns for the avatar URL of a user. -/
inductive ProfileAnswer where
  | avatarUrl (url : String)
  /-- A value of another field. -/
  | otherField
  | notSet
  | error (text : String)
deriving DecidableEq, Repr

def isProfileFieldExpectedError (text : String) : Bool :=
  "invalid type: null, expected a string".toList <:+: text.toList

/-- `none` inside is a user without an avatar. -/
def fetchAvatarUri : ProfileAnswer → Option (Option String)
  | .avatarUrl url => some (some url)
  | .otherField => none
  | .notSet => some none
  | .error text => if isProfileFieldExpectedError text then some none else none

structure UserAvatarAsset where
  userId : String
  /-- The avatar URI of the user, once there was an answer. -/
  avatarUri : Option (Option String)
deriving DecidableEq, Repr

namespace UserAvatarAsset

def new (userId : String) (answer : ProfileAnswer) : UserAvatarAsset :=
  ⟨userId, fetchAvatarUri answer⟩

variable (asset : UserAvatarAsset) (answer : ProfileAnswer)

/-- The answer is that to the request which is made if there was none before. -/
def getAvatarUri : Result (Option String) :=
  match asset.avatarUri with
  | some uri => .ok uri
  | none =>
    match fetchAvatarUri answer with
    | some uri => .ok uri
    | none => .error .matrixError

def isUpToDate (info : AssetInfo) : Result Bool :=
  (asset.getAvatarUri answer).map fun
    | some uri => uri = info.upstreamUrl
    | none => false

def wasRemoved : Bool :=
  match asset.getAvatarUri answer with
  | .ok uri => uri.isNone
  | .error _ => false

def download : Result (Download B) :=
  match asset.getAvatarUri answer with
  | .error e => .error e
  | .ok none => .error .notFound
  | .ok (some avatarUri) =>
    (downloadMxc client avatarUri).map fun content =>
      { data := content, fileExtension := client.infer content, upstreamUrl := avatarUri }

def toAsset : Asset B where
  assetId := .ok asset.userId
  isUpToDate := asset.isUpToDate answer
  wasRemoved := asset.wasRemoved answer
  download := asset.download client answer

end UserAvatarAsset

end Assets

/-! ## The media manager -/

/-- What the calls for avatars use of the media manager. -/
structure AvatarManager (B : Type) where
  client : MediaClient B
  json : InfoFormat B
  dirs : MediaDirs

namespace AvatarManager

variable {B : Type} (inner : AvatarManager B)

/-- `init_dirs`. -/
def initDirs (fs : FileSystem B) : FileSystem B :=
  let fs := fs.createDirAll (inner.dirs.dataRootDir ++ inner.dirs.roomAvatarsDir)
  let fs := fs.createDirAll (inner.dirs.dataRootDir ++ inner.dirs.userAvatarsDir)
  fs.createDirAll (inner.dirs.dataRootDir ++ inner.dirs.attachmentsDir)

def roomAssetManager (roomId : String) (avatarUrl : Option String) : AssetManager B where
  dataRootDir := inner.dirs.dataRootDir
  assetDir := inner.dirs.roomAvatarsDir
  asset := RoomAvatarAsset.toAsset inner.client ⟨roomId, avatarUrl⟩

def userAssetManager (userId : String) (first second : ProfileAnswer) : AssetManager B where
  dataRootDir := inner.dirs.dataRootDir
  assetDir := inner.dirs.userAvatarsDir
  asset := UserAvatarAsset.toAsset inner.client (.new userId first) second

/-- An error is logged. -/
def getRoomAvatarPath (roomId : String) (avatarUrl : Option String) (fs : FileSystem B) :
    Option Path × FileSystem B :=
  let (result, fs) := (inner.roomAssetManager roomId avatarUrl).download inner.json fs
  (result.toOption, fs)

def getUserAvatarPath (userId : String) (first second : ProfileAnswer) (fs : FileSystem B) :
    Option Path × FileSystem B :=
  let (result, fs) := (inner.userAssetManager userId first second).download inner.json fs
  (result.toOption, fs)

def uploadRoomAvatar (roomId : String) (avatarUrl : Option String) (avatarPath : Path)
    (answer : UploadAnswer) (fs : FileSystem B) : Result Path × FileSystem B :=
  let uploaded :=
    RoomAvatarAsset.upload inner.client (inner.dirs.dataRootDir ++ avatarPath) answer fs
  (inner.roomAssetManager roomId avatarUrl).upload inner.json uploaded avatarPath fs

end AvatarManager

end GoudaMatrix.Media
