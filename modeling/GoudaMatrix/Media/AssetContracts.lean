/-
  What a download and an upload of an asset do to the directory as a whole (`AssetManager::download`
  and `AssetManager::upload` in `media.rs`), when no file operation fails.

  `download_contract`: a download ends in exactly one of four ways, each with what is read at every
  path afterwards.

  `upload_keeps_source_iff`: an upload moves its source to the new file, unless the source is one of
  the two stored files of the asset, which are deleted before, or the info is written over the new
  file. Paths lead to the same file if they do so without their `..`. `own_avatar_is_lost` is a room
  whose stored avatar is uploaded again.
-/
import GoudaMatrix.Media.AssetNames
import GoudaMatrix.Media.Downloads

namespace GoudaMatrix.Media

open GoudaMatrix.Lib

/-- Nothing prevents that a file is written at the path. -/
def Writable {B : Type} (fs : FileSystem B) (p : Path) : Prop :=
  p.dropLast ∈ fs.dirs ∧ p ∉ fs.dirs

theorem write_of_writable {B : Type} {fs : FileSystem B} {p : Path} (h : Writable fs p)
    (contents : B) : ∃ fs', fs.write p contents = some fs' ∧ fs'.dirs = fs.dirs ∧
      ∀ q, fs'.read q = if q = p then some contents else fs.read q := by
  have hwrite : fs.write p contents = some { fs with files := fs.files.insert p contents } := by
    unfold FileSystem.write
    exact if_pos h
  exact ⟨_, hwrite, FileSystem.write_eq_some hwrite⟩

theorem rename_of_writable {B : Type} {fs : FileSystem B} {src dst : Path} {contents : B}
    (hsrc : fs.read src = some contents) (h : Writable fs dst) :
    ∃ fs', fs.rename src dst = some fs' ∧ fs'.dirs = fs.dirs ∧
      fs'.read dst = some contents := by
  have hdst : Writable (fs.remove src) dst := h
  obtain ⟨fs', hwrite, hdirs, hread⟩ := write_of_writable hdst contents
  refine ⟨fs', ?_, hdirs, (hread dst).trans (if_pos rfl)⟩
  unfold FileSystem.rename
  rw [hsrc]
  exact hwrite

/-! ## Downloads -/

/-- The ways in which a download ends. -/
inductive DownloadOutcome where
  /-- The stored file is returned. -/
  | current
  /-- The stored file is deleted. -/
  | removed
  /-- The error of upstream is returned. -/
  | failed
  /-- What has been downloaded is returned. -/
  | replaced
deriving DecidableEq, Repr

namespace AssetManager

variable {B : Type} (json : InfoFormat B) (manager : AssetManager B) (id : String)
  (fs : FileSystem B)

/-- The path of a file of the asset. -/
def filePath (fileName : String) : Path := Path.join manager.getDownloadDirAbsolute fileName

/-- The path of the info file. -/
def infoFilePath : Path := manager.getDownloadDirAbsolute ++ [infoFileName id]

/-- The stored info was written for the asset, and its file is there. -/
structure WellStored : Prop where
  written : ∀ info, manager.readInfo json fs = some info →
    ∃ extension, (∀ e ∈ extension, '/' ∉ e.toList) ∧ info.file = assetFileName id extension
  present : ∀ info, manager.readInfo json fs = some info →
    (fs.read (manager.filePath info.file)).isSome

/-- Nothing is stored, or it is not up to date and was not removed. -/
def NeedsDownload : Prop :=
  ∀ info, manager.readInfo json fs = some info →
    manager.asset.isUpToDate info = .ok false ∧ manager.asset.wasRemoved = false

/-- The download has ended in this way, with this result and this directory. -/
def Ended (result : Result Path) (fs' : FileSystem B) : DownloadOutcome → Prop
  | .current => ∃ info, manager.readInfo json fs = some info ∧
      (manager.asset.isUpToDate info = .ok true ∨
        ∃ e, manager.asset.isUpToDate info = .error e) ∧
      result = .ok (Path.join manager.assetDir info.file) ∧
      (fs.read (manager.filePath info.file)).isSome ∧ fs' = fs
  | .removed => ∃ info, manager.readInfo json fs = some info ∧
      manager.asset.isUpToDate info = .ok false ∧ manager.asset.wasRemoved = true ∧
      result = .error .removed ∧ fs'.dirs = fs.dirs ∧
      manager.filePath info.file ≠ manager.infoFilePath id ∧
      ∀ p, fs'.read p = if p = manager.infoFilePath id ∨ p = manager.filePath info.file then none
        else fs.read p
  | .failed => NeedsDownload json manager fs ∧
      ∃ e, manager.asset.download = .error e ∧ result = .error e ∧ fs' = fs
  | .replaced => NeedsDownload json manager fs ∧
      ∃ download, manager.asset.download = .ok download ∧
        let fileName := assetFileName id download.fileExtension
        result = .ok (Path.join manager.assetDir fileName) ∧ fs'.dirs = fs.dirs ∧
        manager.filePath fileName ≠ manager.infoFilePath id ∧
        fs'.read (manager.infoFilePath id)
          = some (json.serialize ⟨fileName, download.upstreamUrl⟩) ∧
        fs'.read (manager.filePath fileName) = some download.data ∧
        ∀ p, p ≠ manager.infoFilePath id → p ≠ manager.filePath fileName →
          ((∃ info, manager.readInfo json fs = some info ∧ p = manager.filePath info.file) →
            fs'.read p = none) ∧
          ((∀ info, manager.readInfo json fs = some info → p ≠ manager.filePath info.file) →
            fs'.read p = fs.read p)

/-- The one way in which the download can end. -/
def outcome : DownloadOutcome :=
  let downloaded := if manager.asset.download.isOk then .replaced else .failed
  match manager.readInfo json fs with
  | none => downloaded
  | some info =>
    match manager.asset.isUpToDate info with
    | .ok false => if manager.asset.wasRemoved then .removed else downloaded
    | .ok true | .error _ => .current

variable {json manager id fs}

variable (manager) in
/-- The file of an asset without separators in its id is not its info file. -/
theorem filePath_ne_infoFilePath (hplain : '/' ∉ id.toList) {extension : Option String}
    (hextension : ∀ e ∈ extension, '/' ∉ e.toList) :
    manager.filePath (assetFileName id extension) ≠ manager.infoFilePath id := by
  unfold filePath infoFilePath Path.join
  intro heq
  have hcomponents := List.append_cancel_left heq
  by_cases hname : Path.IsName (assetFileName id extension)
  · rw [Path.components_of_isName hname] at hcomponents
    exact assetFileName_ne_infoFileName id extension (List.singleton_inj.mp hcomponents)
  · rw [Path.components_of_not_isName
      (not_mem_assetFileName hplain hextension) hname] at hcomponents
    cases hcomponents

theorem setFileName_infoFilePath (fileName : String) :
    Path.setFileName (manager.infoFilePath id) fileName = manager.filePath fileName :=
  setFileName_concat _ (infoFileName_ne_parent _) fileName

section Known

variable {infoPath : Path} (h : manager.getInfoPathAbsolute = .ok infoPath)

include h

/-- The two files of the info are deleted. -/
theorem deleteAssetAndInfo_read (info : AssetInfo) (fs : FileSystem B) :
    (manager.deleteAssetAndInfo info fs).dirs = fs.dirs ∧
      ∀ p, (manager.deleteAssetAndInfo info fs).read p
        = if p = infoPath ∨ p = Path.setFileName infoPath info.file then none else fs.read p := by
  unfold deleteAssetAndInfo
  rw [h, getAssetPathAbsolute_of_ok h]
  refine ⟨rfl, fun p => ?_⟩
  dsimp only
  rw [FileSystem.read_remove, FileSystem.read_remove]
  by_cases hinfo : p = infoPath <;> by_cases hfile : p = Path.setFileName infoPath info.file <;>
    simp [hinfo, hfile]

variable (json) in
theorem dirs_deleteExisting (fs : FileSystem B) :
    (manager.deleteExisting json fs).dirs = fs.dirs := by
  unfold deleteExisting
  cases manager.readInfo json fs with
  | none => rfl
  | some info => exact (deleteAssetAndInfo_read h info fs).1

theorem read_deleteExisting_of_stored {info : AssetInfo}
    (hinfo : manager.readInfo json fs = some info) {p : Path}
    (hp : p = infoPath ∨ p = Path.setFileName infoPath info.file) :
    (manager.deleteExisting json fs).read p = none := by
  unfold deleteExisting
  rw [hinfo]
  exact ((deleteAssetAndInfo_read h info fs).2 p).trans (if_pos hp)

theorem read_deleteExisting_of_other {p : Path}
    (hp : ∀ info, manager.readInfo json fs = some info →
      p ≠ infoPath ∧ p ≠ Path.setFileName infoPath info.file) :
    (manager.deleteExisting json fs).read p = fs.read p := by
  unfold deleteExisting
  cases hinfo : manager.readInfo json fs with
  | none => rfl
  | some info =>
    refine ((deleteAssetAndInfo_read h info fs).2 p).trans (if_neg ?_)
    exact not_or.mpr (hp info hinfo)

variable (json) in
/-- Both files are written. -/
theorem writeInfoAndAsset_of_writable (info : AssetInfo) (hinfo : Writable fs infoPath)
    (hfile : Writable fs (Path.setFileName infoPath info.file)) (data : B) :
    ∃ fs', manager.writeInfoAndAsset json info data fs = (.ok (), fs') ∧ fs'.dirs = fs.dirs ∧
      ∀ p, fs'.read p = if p = infoPath then some (json.serialize info)
        else if p = Path.setFileName infoPath info.file then some data else fs.read p := by
  obtain ⟨fs₁, hasset, hdirs₁, hread₁⟩ := write_of_writable hfile data
  have hinfo₁ : Writable fs₁ infoPath := by
    unfold Writable
    rw [hdirs₁]
    exact hinfo
  obtain ⟨fs₂, hwritten, hdirs₂, hread₂⟩ := write_of_writable hinfo₁ (json.serialize info)
  refine ⟨fs₂, ?_, hdirs₂.trans hdirs₁, fun p => ?_⟩
  · unfold writeInfoAndAsset
    rw [h, getAssetPathAbsolute_of_ok h]
    dsimp only
    rw [hasset]
    dsimp only
    rw [hwritten]
  · rw [hread₂, hread₁]

end Known

section Plain

variable (hid : manager.asset.assetId = .ok id) (hplain : '/' ∉ id.toList)

include hid hplain

theorem getInfoPathAbsolute_eq : manager.getInfoPathAbsolute = .ok (manager.infoFilePath id) :=
  getInfoPathAbsolute_of_plain hid hplain

variable (json) in
/-- What `download_asset` does. -/
theorem downloadAsset_ended (hneeds : NeedsDownload json manager fs)
    (hextension : ∀ download, manager.asset.download = .ok download →
      ∀ e ∈ download.fileExtension, '/' ∉ e.toList)
    (hinfo : Writable fs (manager.infoFilePath id))
    (hfile : ∀ download, manager.asset.download = .ok download →
      Writable fs (manager.filePath (assetFileName id download.fileExtension))) :
    Ended json manager id fs (manager.downloadAsset json fs).1 (manager.downloadAsset json fs).2
      (if manager.asset.download.isOk then .replaced else .failed) := by
  have hpath := getInfoPathAbsolute_eq hid hplain
  unfold downloadAsset
  cases hdownload : manager.asset.download with
  | error e => exact ⟨hneeds, e, hdownload, rfl, rfl⟩
  | ok download =>
    have hname : manager.getAssetFileName download.fileExtension
        = .ok (assetFileName id download.fileExtension) := by
      simp [getAssetFileName, hid, Except.map]
    have hne := filePath_ne_infoFilePath manager hplain (hextension download hdownload)
    have hset : Path.setFileName (manager.infoFilePath id)
        (assetFileName id download.fileExtension)
          = manager.filePath (assetFileName id download.fileExtension) :=
      setFileName_infoFilePath _
    have hdirs := dirs_deleteExisting json hpath fs
    have hwritable : ∀ p, Writable fs p → Writable (manager.deleteExisting json fs) p := by
      intro p hp
      unfold Writable
      rw [hdirs]
      exact hp
    obtain ⟨fs', hwrite, hdirs', hread⟩ := writeInfoAndAsset_of_writable json hpath
      ⟨assetFileName id download.fileExtension, download.upstreamUrl⟩ (hwritable _ hinfo)
      (hset ▸ hwritable _ (hfile download hdownload)) download.data
    rw [hset] at hread
    dsimp only
    rw [hname]
    dsimp only
    rw [hwrite]
    dsimp only
    refine ⟨hneeds, download, hdownload, ?_, hdirs'.trans hdirs, hne, ?_, ?_, fun p hp hp' => ?_⟩
    · exact getAssetPathRelative_of_plain hid hplain _
    · rw [hread, if_pos rfl]
    · rw [hread, if_neg hne, if_pos rfl]
    · rw [hread, if_neg hp, if_neg hp']
      refine ⟨?_, fun hother => ?_⟩
      · rintro ⟨info, hstored, rfl⟩
        exact read_deleteExisting_of_stored hpath hstored
          (.inr (setFileName_infoFilePath info.file).symm)
      · refine read_deleteExisting_of_other hpath fun info hstored => ⟨hp, ?_⟩
        rw [setFileName_infoFilePath]
        exact hother info hstored

theorem download_ended (hstored : WellStored json manager id fs)
    (hextension : ∀ download, manager.asset.download = .ok download →
      ∀ e ∈ download.fileExtension, '/' ∉ e.toList)
    (hinfo : Writable fs (manager.infoFilePath id))
    (hfile : ∀ download, manager.asset.download = .ok download →
      Writable fs (manager.filePath (assetFileName id download.fileExtension))) :
    Ended json manager id fs (manager.download json fs).1 (manager.download json fs).2
      (outcome json manager fs) := by
  have hdownload := fun hneeds =>
    downloadAsset_ended json hid hplain hneeds hextension hinfo hfile
  unfold download hasBeenDownloadedBefore outcome
  cases hread : manager.readInfo json fs with
  | none => exact hdownload fun info h => by cases hread.symm.trans h
  | some info =>
    have hreturned : manager.getAssetPathRelative info.file
        = .ok (Path.join manager.assetDir info.file) := getAssetPathRelative_of_plain hid hplain _
    dsimp only
    unfold isUpToDate
    cases hcheck : manager.asset.isUpToDate info with
    | error e =>
      exact ⟨info, hread, .inr ⟨e, hcheck⟩, hreturned, hstored.present info hread, rfl⟩
    | ok upToDate =>
      cases upToDate with
      | true => exact ⟨info, hread, .inl hcheck, hreturned, hstored.present info hread, rfl⟩
      | false =>
        cases hremoved : manager.asset.wasRemoved with
        | true =>
          obtain ⟨extension, hsep, hname⟩ := hstored.written info hread
          obtain ⟨hdirs, hfiles⟩ :=
            deleteAssetAndInfo_read (getInfoPathAbsolute_eq hid hplain) info fs
          rw [setFileName_infoFilePath] at hfiles
          refine ⟨info, hread, hcheck, hremoved, rfl, hdirs, ?_, hfiles⟩
          rw [hname]
          exact filePath_ne_infoFilePath manager hplain hsep
        | false =>
          refine hdownload fun info' h => ?_
          obtain rfl := Option.some.inj (hread.symm.trans h)
          exact ⟨hcheck, hremoved⟩

end Plain

/-- The four ways exclude one another. -/
theorem Ended.unique {result : Result Path} {fs' : FileSystem B} {o : DownloadOutcome}
    (h : Ended json manager id fs result fs' o) : o = outcome json manager fs := by
  have hneeds : NeedsDownload json manager fs →
      outcome json manager fs = if manager.asset.download.isOk then .replaced else .failed := by
    intro hneeds
    unfold outcome
    cases hread : manager.readInfo json fs with
    | none => rfl
    | some info =>
      obtain ⟨hcheck, hremoved⟩ := hneeds info hread
      dsimp only
      rw [hcheck, hremoved]
      rfl
  cases o with
  | current =>
    obtain ⟨info, hread, hcheck, -⟩ := h
    unfold outcome
    rw [hread]
    rcases hcheck with hcheck | ⟨e, hcheck⟩
    · dsimp only
      rw [hcheck]
    · dsimp only
      rw [hcheck]
  | removed =>
    obtain ⟨info, hread, hcheck, hremoved, -⟩ := h
    unfold outcome
    rw [hread]
    dsimp only
    rw [hcheck, hremoved]
    rfl
  | failed =>
    obtain ⟨hstale, e, hdownload, -⟩ := h
    rw [hneeds hstale, hdownload]
    rfl
  | replaced =>
    obtain ⟨hstale, download, hdownload, -⟩ := h
    rw [hneeds hstale, hdownload]
    rfl

/-- A download of an asset whose id has no separator ends in exactly one of the four ways. -/
theorem download_contract (json : InfoFormat B) (manager : AssetManager B) {id : String}
    (hid : manager.asset.assetId = .ok id) (hplain : '/' ∉ id.toList) {fs : FileSystem B}
    (hstored : WellStored json manager id fs)
    (hextension : ∀ download, manager.asset.download = .ok download →
      ∀ e ∈ download.fileExtension, '/' ∉ e.toList)
    (hinfo : Writable fs (manager.infoFilePath id))
    (hfile : ∀ download, manager.asset.download = .ok download →
      Writable fs (manager.filePath (assetFileName id download.fileExtension))) :
    ∃! o, Ended json manager id fs (manager.download json fs).1 (manager.download json fs).2 o :=
  ⟨outcome json manager fs, download_ended hid hplain hstored hextension hinfo hfile,
    fun _ h => h.unique⟩

end AssetManager

/-- The new avatar is a jpg, the stored one a png. -/
theorem download_contract_avatar :
    let manager := managerFor avatarDirs avatarAsset (replacedBy "jpg" (by decide))
    ∃! o, AssetManager.Ended avatarFormat manager "!r:hs" storedAvatar
      (manager.download avatarFormat storedAvatar).1 (manager.download avatarFormat storedAvatar).2
        o := by
  intro manager
  have hread : manager.readInfo avatarFormat storedAvatar = some ⟨"!r:hs.png", "mxc://hs/old"⟩ := by
    decide +kernel
  have hfile : (storedAvatar.read (manager.filePath "!r:hs.png")).isSome = true := by decide +kernel
  refine AssetManager.download_contract avatarFormat manager rfl (by decide) ⟨?_, ?_⟩ ?_ ?_ ?_
  · intro info hinfo
    obtain rfl := Option.some.inj (hread.symm.trans hinfo)
    refine ⟨some "png", ?_, by decide⟩
    rintro _ ⟨⟩
    decide
  · intro info hinfo
    obtain rfl := Option.some.inj (hread.symm.trans hinfo)
    exact hfile
  · rintro _ ⟨⟩ _ ⟨⟩
    decide
  · exact ⟨by decide +kernel, by decide +kernel⟩
  · rintro _ ⟨⟩
    exact ⟨by decide +kernel, by decide +kernel⟩

/-! ## Uploads -/

namespace AssetManager

variable {B : Type} (json : InfoFormat B) (manager : AssetManager B)

/-! ### Paths with `..`

  `read_info`, `delete_asset_and_info` and `upload` once more, with file operations that follow the
  `..` of a path: two paths can lead to one file. -/

def readInfoAt (fs : FileSystem B) : Option AssetInfo :=
  match manager.getInfoPathAbsolute with
  | .error _ => none
  | .ok path => (fs.readAt path).bind json.deserialize

def deleteAssetAndInfoAt (info : AssetInfo) (fs : FileSystem B) : FileSystem B :=
  match manager.getInfoPathAbsolute, manager.getAssetPathAbsolute info.file with
  | .ok infoPath, .ok assetPath => (fs.removeAt infoPath).removeAt assetPath
  | _, _ => fs

def deleteExistingAt (fs : FileSystem B) : FileSystem B :=
  match manager.readInfoAt json fs with
  | some existingInfo => manager.deleteAssetAndInfoAt existingInfo fs
  | none => fs

def uploadAt (uploaded : Result Upload) (src : Path) (fs : FileSystem B) :
    Result Path × FileSystem B :=
  let src := manager.dataRootDir ++ src
  match uploaded with
  | .error e => (.error e, fs)
  | .ok upload =>
    let fs := manager.deleteExistingAt json fs
    match manager.getAssetFileName upload.fileExtension with
    | .error e => (.error e, fs)
    | .ok assetFileName =>
      match manager.getInfoPathAbsolute, manager.getAssetPathAbsolute assetFileName with
      | .error e, _ | _, .error e => (.error e, fs)
      | .ok infoPath, .ok assetPath =>
        match fs.renameAt src assetPath with
        | none => (.error .io, fs)
        | some fs =>
          match fs.writeAt infoPath (json.serialize ⟨assetFileName, upload.upstreamUrl⟩) with
          | none => (.error .io, fs)
          | some fs => (manager.getAssetPathRelative assetFileName, fs)

/-- The path has no `..` to follow. -/
def IsResolved (p : Path) : Prop := Path.resolve p = p

/-- Where no path has a `..`, both uploads are the same. -/
theorem uploadAt_eq_upload (uploaded : Result Upload) {src : Path} {fs : FileSystem B}
    (hsrc : IsResolved (manager.dataRootDir ++ src))
    (hinfo : ∀ path, manager.getInfoPathAbsolute = .ok path → IsResolved path)
    (hassets : ∀ fileName path, manager.getAssetPathAbsolute fileName = .ok path →
      (∃ info, manager.readInfo json fs = some info ∧ info.file = fileName) ∨
        (∃ upload, uploaded = .ok upload ∧
          manager.getAssetFileName upload.fileExtension = .ok fileName) → IsResolved path) :
    manager.uploadAt json uploaded src fs = manager.upload json uploaded src fs := by
  have hread : manager.readInfoAt json fs = manager.readInfo json fs := by
    unfold readInfoAt readInfo FileSystem.readAt
    cases hpath : manager.getInfoPathAbsolute with
    | error e => rfl
    | ok path =>
      dsimp only
      rw [hinfo path hpath]
  have hdeleted : manager.deleteExistingAt json fs = manager.deleteExisting json fs := by
    unfold deleteExistingAt deleteExisting
    rw [hread]
    cases hstored : manager.readInfo json fs with
    | none => rfl
    | some info =>
      dsimp only
      unfold deleteAssetAndInfoAt deleteAssetAndInfo FileSystem.removeAt
      cases hpath : manager.getInfoPathAbsolute with
      | error e => rfl
      | ok path =>
        cases hasset : manager.getAssetPathAbsolute info.file with
        | error e => rfl
        | ok assetPath =>
          dsimp only
          rw [hinfo path hpath, hassets _ assetPath hasset (.inl ⟨info, hstored, rfl⟩)]
  unfold uploadAt upload FileSystem.renameAt FileSystem.writeAt
  cases uploaded with
  | error e => rfl
  | ok upload =>
    dsimp only
    rw [hdeleted, hsrc]
    cases hname : manager.getAssetFileName upload.fileExtension with
    | error e => rfl
    | ok fileName =>
      dsimp only
      cases hpath : manager.getInfoPathAbsolute with
      | error e => rfl
      | ok path =>
        cases hasset : manager.getAssetPathAbsolute fileName with
        | error e => rfl
        | ok assetPath =>
          dsimp only
          rewrite [hinfo path hpath, hassets _ assetPath hasset (.inr ⟨upload, rfl, hname⟩)]
          rfl

section Known

variable {json manager} {infoPath : Path} (h : manager.getInfoPathAbsolute = .ok infoPath)

include h

/-- The two files of the info are deleted, by whatever paths they are named. -/
theorem deleteAssetAndInfoAt_read (info : AssetInfo) (fs : FileSystem B) :
    (manager.deleteAssetAndInfoAt info fs).dirs = fs.dirs ∧
      ∀ p, (manager.deleteAssetAndInfoAt info fs).readAt p
        = if SameFile p infoPath ∨ SameFile p (Path.setFileName infoPath info.file) then none
          else fs.readAt p := by
  unfold deleteAssetAndInfoAt
  rw [h, getAssetPathAbsolute_of_ok h]
  refine ⟨rfl, fun p => ?_⟩
  dsimp only
  unfold FileSystem.readAt FileSystem.removeAt SameFile
  rw [FileSystem.read_remove, FileSystem.read_remove]
  by_cases hinfo : p.resolve = infoPath.resolve <;>
    by_cases hfile : p.resolve = (Path.setFileName infoPath info.file).resolve <;>
      simp [hinfo, hfile]

variable (json) in
theorem dirs_deleteExistingAt (fs : FileSystem B) :
    (manager.deleteExistingAt json fs).dirs = fs.dirs := by
  unfold deleteExistingAt
  cases manager.readInfoAt json fs with
  | none => rfl
  | some info => exact (deleteAssetAndInfoAt_read h info fs).1

theorem readAt_deleteExistingAt_of_stored {fs : FileSystem B} {info : AssetInfo}
    (hinfo : manager.readInfoAt json fs = some info) {p : Path}
    (hp : SameFile p infoPath ∨ SameFile p (Path.setFileName infoPath info.file)) :
    (manager.deleteExistingAt json fs).readAt p = none := by
  unfold deleteExistingAt
  rw [hinfo]
  exact ((deleteAssetAndInfoAt_read h info fs).2 p).trans (if_pos hp)

theorem readAt_deleteExistingAt_of_other {fs : FileSystem B} {p : Path}
    (hp : ∀ info, manager.readInfoAt json fs = some info →
      ¬ SameFile p infoPath ∧ ¬ SameFile p (Path.setFileName infoPath info.file)) :
    (manager.deleteExistingAt json fs).readAt p = fs.readAt p := by
  unfold deleteExistingAt
  cases hinfo : manager.readInfoAt json fs with
  | none => rfl
  | some info =>
    refine ((deleteAssetAndInfoAt_read h info fs).2 p).trans (if_neg ?_)
    exact not_or.mpr (hp info hinfo)

end Known

end AssetManager

section Upload

variable {B : Type} (json : InfoFormat B) (dirs : MediaDirs) (asset : MediaAsset)
  (answers : Asset B) (upload : Upload) (src : Path) (fs : FileSystem B)

/-- The info that the upload writes. -/
def uploadedInfo : AssetInfo :=
  ⟨assetFileName asset.id.text upload.fileExtension, upload.upstreamUrl⟩

/-- The file that the upload makes of its source. -/
def uploadedPath : Path := dataPath dirs asset (uploadedInfo asset upload)

/-- The upload succeeds, the returned file has the contents of the source, the info names it, and
    the source is there until it is moved. -/
def KeepsSource (contents : B) : Prop :=
  let manager := asset.manager dirs answers
  let uploaded := manager.uploadAt json (.ok upload) src fs
  ∃ path, uploaded.1 = .ok path ∧ uploaded.2.readAt (dirs.dataRootDir ++ path) = some contents ∧
    (∃ info, manager.readInfoAt json uploaded.2 = some info ∧
      dataPath dirs asset info = dirs.dataRootDir ++ path) ∧
    (manager.deleteExistingAt json fs).readAt (dirs.dataRootDir ++ src) = some contents

/-- The source is neither the info file of the stored asset nor the file that it names, whatever the
    paths of them look like. -/
def SourceIsOther : Prop :=
  ∀ info, (asset.manager dirs answers).readInfoAt json fs = some info →
    ¬ SameFile (dirs.dataRootDir ++ src) (infoPath dirs asset) ∧
      ¬ SameFile (dirs.dataRootDir ++ src) (dataPath dirs asset info)

/-- The new file is not the info file, which is written over it, or it holds the info already. An
    id with `..` can make one file of the two. -/
def FileIsApart (contents : B) : Prop :=
  SameFile (uploadedPath dirs asset upload) (infoPath dirs asset) →
    contents = json.serialize (uploadedInfo asset upload)

variable {json dirs asset answers upload src fs}

/-- The source is still there once the stored asset has been deleted. -/
theorem readAt_source (h : SourceIsOther json dirs asset answers src fs) {contents : B}
    (hsrc : fs.readAt (dirs.dataRootDir ++ src) = some contents) :
    ((asset.manager dirs answers).deleteExistingAt json fs).readAt (dirs.dataRootDir ++ src)
      = some contents :=
  (AssetManager.readAt_deleteExistingAt_of_other (asset.infoPath_eq dirs answers) h).trans hsrc

/-- What an upload leaves that finds its source: the new file, and the info written last. -/
theorem uploadAt_of_source {contents : B}
    (hmoved : ((asset.manager dirs answers).deleteExistingAt json fs).readAt
      (dirs.dataRootDir ++ src) = some contents)
    (hinfo : Writable fs (infoPath dirs asset).resolve)
    (hfile : Writable fs (uploadedPath dirs asset upload).resolve) :
    ∃ path fs', (asset.manager dirs answers).uploadAt json (.ok upload) src fs = (.ok path, fs') ∧
      dirs.dataRootDir ++ path = uploadedPath dirs asset upload ∧
      fs'.readAt (infoPath dirs asset) = some (json.serialize (uploadedInfo asset upload)) ∧
      (¬ SameFile (uploadedPath dirs asset upload) (infoPath dirs asset) →
        fs'.readAt (uploadedPath dirs asset upload) = some contents) := by
  have hpath : (asset.manager dirs answers).getInfoPathAbsolute = .ok (infoPath dirs asset) :=
    asset.infoPath_eq dirs answers
  have hdirs := AssetManager.dirs_deleteExistingAt json hpath fs
  have hname : (asset.manager dirs answers).getAssetFileName upload.fileExtension
      = .ok (uploadedInfo asset upload).file := rfl
  have habsolute := AssetManager.getAssetPathAbsolute_of_ok hpath (uploadedInfo asset upload).file
  obtain ⟨path, hrelative, hreturned⟩ := AssetManager.getAssetPathRelative_of_ok hpath
    (uploadedInfo asset upload).file
  obtain ⟨fs₁, hrename, hdirs₁, hread₁⟩ := rename_of_writable hmoved
    (show Writable _ (uploadedPath dirs asset upload).resolve by
      unfold Writable
      rw [hdirs]
      exact hfile)
  obtain ⟨fs₂, hwrite, -, hread₂⟩ := write_of_writable
    (show Writable fs₁ (infoPath dirs asset).resolve by
      unfold Writable
      rw [hdirs₁, hdirs]
      exact hinfo)
    (json.serialize (uploadedInfo asset upload))
  refine ⟨path, fs₂, ?_, hreturned, ?_, fun hne => ?_⟩
  · unfold AssetManager.uploadAt FileSystem.renameAt FileSystem.writeAt
    dsimp only
    rw [hname]
    dsimp only
    rw [hpath, habsolute]
    dsimp only
    rw [show (asset.manager dirs answers).dataRootDir = dirs.dataRootDir from rfl]
    rw [show Path.setFileName (infoPath dirs asset) (uploadedInfo asset upload).file
      = uploadedPath dirs asset upload from rfl, hrename]
    dsimp only
    rw [show AssetInfo.mk (uploadedInfo asset upload).file upload.upstreamUrl
      = uploadedInfo asset upload from rfl, hwrite, hrelative]
  · exact (hread₂ _).trans (if_pos rfl)
  · exact (hread₂ _).trans ((if_neg hne).trans hread₁)

theorem keepsSource_of_other (h : SourceIsOther json dirs asset answers src fs) {contents : B}
    (hapart : FileIsApart json dirs asset upload contents)
    (hsrc : fs.readAt (dirs.dataRootDir ++ src) = some contents)
    (hinfo : Writable fs (infoPath dirs asset).resolve)
    (hfile : Writable fs (uploadedPath dirs asset upload).resolve) :
    KeepsSource json dirs asset answers upload src fs contents := by
  have hmoved := readAt_source h hsrc
  obtain ⟨path, fs', hupload, hplace, hwritten, hkept⟩ := uploadAt_of_source hmoved hinfo hfile
  have hpath : (asset.manager dirs answers).getInfoPathAbsolute = .ok (infoPath dirs asset) :=
    asset.infoPath_eq dirs answers
  unfold KeepsSource
  dsimp only
  rw [hupload]
  refine ⟨path, rfl, ?_, ⟨uploadedInfo asset upload, ?_, hplace.symm⟩, hmoved⟩
  · rw [hplace]
    by_cases hsame : SameFile (uploadedPath dirs asset upload) (infoPath dirs asset)
    · rw [hapart hsame, ← hwritten]
      exact congrArg fs'.read hsame
    · exact hkept hsame
  · unfold AssetManager.readInfoAt
    rw [hpath]
    dsimp only
    rw [hwritten, Option.bind_some, json.deserialize_serialize]

theorem fileIsApart_of_keepsSource {contents : B}
    (h : KeepsSource json dirs asset answers upload src fs contents)
    (hinfo : Writable fs (infoPath dirs asset).resolve)
    (hfile : Writable fs (uploadedPath dirs asset upload).resolve) :
    FileIsApart json dirs asset upload contents := by
  obtain ⟨path, hpath, hread, -, hmoved⟩ := h
  obtain ⟨path', fs', hupload, hplace, hwritten, -⟩ := uploadAt_of_source hmoved hinfo hfile
  intro hsame
  rw [hupload] at hpath hread
  obtain rfl := Except.ok.inj hpath
  rw [hplace] at hread
  have hover : fs'.readAt (uploadedPath dirs asset upload)
      = fs'.readAt (infoPath dirs asset) := congrArg fs'.read hsame
  exact Option.some.inj (hread.symm.trans (hover.trans hwritten))

/-- When the source of an upload is kept as the file of the asset. -/
theorem upload_keeps_source_iff (json : InfoFormat B) (dirs : MediaDirs) (asset : MediaAsset)
    (answers : Asset B) {upload : Upload} {src : Path} {fs : FileSystem B} {contents : B}
    (hsrc : fs.readAt (dirs.dataRootDir ++ src) = some contents)
    (hinfo : Writable fs (infoPath dirs asset).resolve)
    (hfile : Writable fs (uploadedPath dirs asset upload).resolve) :
    KeepsSource json dirs asset answers upload src fs contents ↔
      SourceIsOther json dirs asset answers src fs ∧
        FileIsApart json dirs asset upload contents := by
  constructor
  · intro hkeeps
    refine ⟨fun info hread => not_or.mp fun hown => ?_,
      fileIsApart_of_keepsSource hkeeps hinfo hfile⟩
    obtain ⟨-, -, -, -, hkept⟩ := hkeeps
    have hgone := AssetManager.readAt_deleteExistingAt_of_stored
      (asset.infoPath_eq dirs answers) hread hown
    rw [hkept] at hgone
    cases hgone
  · rintro ⟨hother, hapart⟩
    exact keepsSource_of_other hother hapart hsrc hinfo hfile

end Upload

/-! ## The avatar of a room -/

def newAvatar : Upload := ⟨some "png", "mxc://hs/new"⟩

/-- The stored avatar, with a new image in the data root. -/
def avatarAndImage : FileSystem AvatarFile where
  dirs := ["data"] :: storedAvatar.dirs
  files := storedAvatar.files.insert ["data", "new.png"] (.image "new")

/-- The new image is named by a path through the directory of the stored avatar. -/
theorem upload_keeps_source_avatar :
    KeepsSource avatarFormat avatarDirs avatarAsset
      ((replacedBy "png" (by decide)).toAsset "!r:hs") newAvatar
        ["media", "room_avatars", "..", "..", "new.png"] avatarAndImage (.image "new") := by
  have hread : (avatarAsset.manager avatarDirs
      ((replacedBy "png" (by decide)).toAsset "!r:hs")).readInfoAt avatarFormat avatarAndImage
        = some ⟨"!r:hs.png", "mxc://hs/old"⟩ := by decide +kernel
  refine (upload_keeps_source_iff avatarFormat avatarDirs avatarAsset _ (by decide +kernel)
    ⟨by decide +kernel, by decide +kernel⟩ ⟨by decide +kernel, by decide +kernel⟩).mpr ⟨?_, ?_⟩
  · intro info hinfo
    obtain rfl := Option.some.inj (hread.symm.trans hinfo)
    exact ⟨by decide +kernel, by decide +kernel⟩
  · exact fun hsame => absurd hsame (by decide +kernel)

/-- The stored avatar is uploaded as the new one, by any of its paths: it is deleted, the upload
    fails, and the image is nowhere any more. -/
theorem own_avatar_is_lost :
    let manager := avatarAsset.manager avatarDirs ((replacedBy "png" (by decide)).toAsset "!r:hs")
    ∀ src ∈ [["media", "room_avatars", "!r:hs.png"],
        ["media", "..", "media", "room_avatars", "!r:hs.png"]],
      storedAvatar.readAt (avatarDirs.dataRootDir ++ src) = some (.image "old") ∧
        ¬ KeepsSource avatarFormat avatarDirs avatarAsset
          ((replacedBy "png" (by decide)).toAsset "!r:hs") newAvatar src storedAvatar
            (.image "old") ∧
        (manager.uploadAt avatarFormat (.ok newAvatar) src storedAvatar).1 = .error .io ∧
        (manager.uploadAt avatarFormat (.ok newAvatar) src storedAvatar).2.files.entries = [] := by
  intro manager src hsrc
  have hrun : ∀ src ∈ [["media", "room_avatars", "!r:hs.png"],
      ["media", "..", "media", "room_avatars", "!r:hs.png"]],
      storedAvatar.readAt (avatarDirs.dataRootDir ++ src) = some (.image "old") ∧
        (manager.uploadAt avatarFormat (.ok newAvatar) src storedAvatar).1 = .error .io ∧
        (manager.uploadAt avatarFormat (.ok newAvatar) src storedAvatar).2.files.entries = [] := by
    decide +kernel
  obtain ⟨hthere, hfailed, hgone⟩ := hrun src hsrc
  refine ⟨hthere, ?_, hfailed, hgone⟩
  rintro ⟨path, hpath, -⟩
  cases hfailed.symm.trans hpath

end GoudaMatrix.Media
