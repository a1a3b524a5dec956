/-
  Downloads and uploads of any assets on one data root (`AssetManager::download` and
  `AssetManager::upload` in `media.rs`).

  A download that is up to date returns the file that the stored info names, without a look at
  it. An upload moves its source, which may be that file of another asset
  (`uploaded_file_missing`). `downloaded_file_exists`: a returned file exists if no step on another
  asset has written the info or removed the file (`Spares`).
-/
import GoudaMatrix.Lib.Run
import GoudaMatrix.Media.AssetManager

namespace GoudaMatrix.Media

open GoudaMatrix.Lib

/-- What `Asset::upload` returns. -/
structure Upload where
  fileExtension : Option String
  upstreamUrl : String

namespace AssetManager

variable {B : Type} (json : InfoFormat B) (manager : AssetManager B)

/-- `uploaded` is the answer of `Asset::upload`, and the asset of the manager the one after it, as
    an attachment has its id only then. -/
def upload (uploaded : Result Upload) (src : Path) (fs : FileSystem B) :
    Result Path × FileSystem B :=
  let src := manager.dataRootDir ++ src
  match uploaded with
  | .error e => (.error e, fs)
  | .ok upload =>
    let fs := manager.deleteExisting json fs
    match manager.getAssetFileName upload.fileExtension with
    | .error e => (.error e, fs)
    | .ok assetFileName =>
      match manager.getInfoPathAbsolute, manager.getAssetPathAbsolute assetFileName with
      | .error e, _ | _, .error e => (.error e, fs)
      | .ok infoPath, .ok assetPath =>
        match fs.rename src assetPath with
        | none => (.error .io, fs)
        | some fs =>
          match fs.write infoPath (json.serialize ⟨assetFileName, upload.upstreamUrl⟩) with
          | none => (.error .io, fs)
          | some fs => (manager.getAssetPathRelative assetFileName, fs)

/-! ## Paths of a manager -/

theorem getInfoPathAbsolute_cases :
    (∃ e, manager.asset.assetId = .error e ∧ manager.getInfoPathAbsolute = .error e) ∨
      ∃ id, manager.asset.assetId = .ok id ∧ manager.getInfoPathAbsolute
        = .ok (manager.dataRootDir ++ Path.join manager.assetDir (infoFileName id)) := by
  cases hid : manager.asset.assetId with
  | error e =>
    refine .inl ⟨e, rfl, ?_⟩
    simp [getInfoPathAbsolute, getInfoFileName, hid, Except.map]
  | ok id =>
    refine .inr ⟨id, rfl, ?_⟩
    simp [getInfoPathAbsolute, getInfoFileName, hid, Except.map, Path.join,
      getDownloadDirAbsolute, getDownloadDirRelative]

end AssetManager

/-- The path of an info ends with its file name. -/
theorem components_infoFileName (id : String) :
    Path.components (infoFileName id) = Path.parents id ++ [Path.base id ++ "_info.json"] := by
  have hname : infoFileName id = id ++ "_info.json" := by
    rw [infoFileName, String.append_assoc]
    rfl
  rw [hname]
  refine Path.components_append id (by decide) ⟨?_, ?_⟩
  · intro h
    have hlength := congrArg (fun s => s.toList.length) h
    simp at hlength
  · intro h
    have hlength := congrArg (fun s => s.toList.length) h
    simp at hlength

section Stored

variable {B : Type} (json : InfoFormat B)

/-- The file that the info at a path names. -/
def namedFile (fs : FileSystem B) (infoPath : Path) : Option Path :=
  ((fs.read infoPath).bind json.deserialize).map fun info => Path.setFileName infoPath info.file

/-- The file that a stored info names exists. -/
def Intact (fs : FileSystem B) (infoPath : Path) : Prop :=
  ∀ file, namedFile json fs infoPath = some file → (fs.read file).isSome

variable {json} {fs fs' : FileSystem B} {infoPath : Path}

theorem intact_of_none (h : namedFile json fs infoPath = none) : Intact json fs infoPath := by
  intro file hfile
  rw [h] at hfile
  cases hfile

/-- An info is written when its file is there. -/
theorem intact_of_write {info : AssetInfo}
    (hfile : (fs.read (Path.setFileName infoPath info.file)).isSome)
    (h : fs.write infoPath (json.serialize info) = some fs') :
    Intact json fs' infoPath ∧ (fs'.read (Path.setFileName infoPath info.file)).isSome := by
  have hread := (FileSystem.write_eq_some h).2
  have hstill : (fs'.read (Path.setFileName infoPath info.file)).isSome := by
    rw [hread]
    split
    · rfl
    · exact hfile
  refine ⟨fun file hnamed => ?_, hstill⟩
  have hinfo : fs'.read infoPath = some (json.serialize info) := (hread infoPath).trans (if_pos rfl)
  rw [namedFile, hinfo, Option.bind_some, json.deserialize_serialize] at hnamed
  exact Option.some.inj hnamed ▸ hstill

end Stored

namespace AssetManager

variable {B : Type} {json : InfoFormat B} {manager : AssetManager B} {infoPath : Path}
  {fs fs' : FileSystem B}

section Known

variable (h : manager.getInfoPathAbsolute = .ok infoPath)

include h

theorem readInfo_of_ok (fs : FileSystem B) :
    manager.readInfo json fs = (fs.read infoPath).bind json.deserialize := by
  unfold readInfo
  rw [h]

theorem getAssetPathAbsolute_of_ok (fileName : String) :
    manager.getAssetPathAbsolute fileName = .ok (Path.setFileName infoPath fileName) := by
  unfold getAssetPathAbsolute
  rw [h]
  rfl

/-- The relative path of a file leads to its absolute path. -/
theorem getAssetPathRelative_of_ok (fileName : String) :
    ∃ path, manager.getAssetPathRelative fileName = .ok path ∧
      manager.dataRootDir ++ path = Path.setFileName infoPath fileName := by
  obtain ⟨e, -, hinfo⟩ | ⟨id, hid, hinfo⟩ := manager.getInfoPathAbsolute_cases
  · rw [h] at hinfo
    cases hinfo
  · obtain rfl := Except.ok.inj (h.symm.trans hinfo)
    have hne : Path.join manager.assetDir (infoFileName id) ≠ [] := by
      unfold Path.join
      rw [components_infoFileName]
      simp
    refine ⟨Path.setFileName (Path.join manager.assetDir (infoFileName id)) fileName, ?_,
      (Path.setFileName_append manager.dataRootDir hne fileName).symm⟩
    simp [getAssetPathRelative, getInfoPathRelative, getInfoFileName, hid, Except.map,
      getDownloadDirRelative]

theorem namedFile_of_readInfo {info : AssetInfo} (hinfo : manager.readInfo json fs = some info) :
    namedFile json fs infoPath = some (Path.setFileName infoPath info.file) := by
  rw [readInfo_of_ok h] at hinfo
  rw [namedFile, hinfo, Option.map_some]

variable (json) in
/-- Nothing is stored after the deletion. -/
theorem namedFile_deleteExisting (fs : FileSystem B) :
    namedFile json (manager.deleteExisting json fs) infoPath = none := by
  unfold deleteExisting
  cases hinfo : manager.readInfo json fs with
  | none =>
    rw [readInfo_of_ok h] at hinfo
    rw [namedFile, hinfo, Option.map_none]
  | some info =>
    have hread : (manager.deleteAssetAndInfo info fs).read infoPath = none := by
      unfold deleteAssetAndInfo
      rw [h, getAssetPathAbsolute_of_ok h]
      simp [FileSystem.read_remove]
    rw [namedFile, hread]
    rfl

/-- An asset is written, and then its info. -/
theorem writeInfoAndAsset_intact {info : AssetInfo} {data : B} {result : Result Unit}
    (hnone : namedFile json fs infoPath = none)
    (hwrite : manager.writeInfoAndAsset json info data fs = (result, fs')) :
    Intact json fs' infoPath ∧
      (result = .ok () → (fs'.read (Path.setFileName infoPath info.file)).isSome) := by
  unfold writeInfoAndAsset at hwrite
  rw [h, getAssetPathAbsolute_of_ok h] at hwrite
  dsimp only at hwrite
  cases hasset : fs.write (Path.setFileName infoPath info.file) data with
  | none =>
    simp only [hasset, Prod.mk.injEq] at hwrite
    obtain ⟨rfl, rfl⟩ := hwrite
    exact ⟨intact_of_none hnone, nofun⟩
  | some fs₁ =>
    have hread := (FileSystem.write_eq_some hasset).2
    cases hinfo : fs₁.write infoPath (json.serialize info) with
    | none =>
      have hne : infoPath ≠ Path.setFileName infoPath info.file := by
        intro heq
        rw [← heq] at hasset
        exact FileSystem.write_again hasset _ hinfo
      simp only [hasset, hinfo, Prod.mk.injEq] at hwrite
      obtain ⟨rfl, rfl⟩ := hwrite
      refine ⟨intact_of_none ?_, nofun⟩
      rw [namedFile, hread, if_neg hne]
      exact hnone
    | some fs₂ =>
      simp only [hasset, hinfo, Prod.mk.injEq] at hwrite
      obtain ⟨rfl, rfl⟩ := hwrite
      have hstored := intact_of_write (by rw [hread, if_pos rfl]; rfl) hinfo
      exact ⟨hstored.1, fun _ => hstored.2⟩

theorem downloadAsset_intact (hintact : Intact json fs infoPath) {result : Result Path}
    (hdownload : manager.downloadAsset json fs = (result, fs')) :
    Intact json fs' infoPath ∧
      ∀ path, result = .ok path → (fs'.read (manager.dataRootDir ++ path)).isSome := by
  unfold downloadAsset at hdownload
  cases hanswer : manager.asset.download with
  | error e =>
    simp only [hanswer, Prod.mk.injEq] at hdownload
    obtain ⟨rfl, rfl⟩ := hdownload
    exact ⟨hintact, nofun⟩
  | ok download =>
    simp only [hanswer] at hdownload
    have hnone := namedFile_deleteExisting json h fs
    generalize manager.deleteExisting json fs = fs₁ at hdownload hnone
    cases hname : manager.getAssetFileName download.fileExtension with
    | error e =>
      simp only [hname, Prod.mk.injEq] at hdownload
      obtain ⟨rfl, rfl⟩ := hdownload
      exact ⟨intact_of_none hnone, nofun⟩
    | ok dataFileName =>
      simp only [hname] at hdownload
      obtain ⟨path, hpath, habsolute⟩ := getAssetPathRelative_of_ok h dataFileName
      cases hwrite : manager.writeInfoAndAsset json ⟨dataFileName, download.upstreamUrl⟩
        download.data fs₁ with
      | mk written fs₂ =>
        obtain ⟨hstored, hfile⟩ := writeInfoAndAsset_intact h hnone hwrite
        rw [hwrite] at hdownload
        cases written with
        | error e =>
          obtain ⟨rfl, rfl⟩ := Prod.mk.inj hdownload
          exact ⟨hstored, nofun⟩
        | ok _ =>
          obtain ⟨rfl, rfl⟩ := Prod.mk.inj hdownload
          refine ⟨hstored, fun path' hresult => ?_⟩
          obtain rfl := Except.ok.inj (hpath.symm.trans hresult)
          rw [habsolute]
          exact hfile rfl

/-- A download returns a file that exists, if the file of its info does. -/
theorem download_intact (hintact : Intact json fs infoPath) {result : Result Path}
    (hdownload : manager.download json fs = (result, fs')) :
    Intact json fs' infoPath ∧
      ∀ path, result = .ok path → (fs'.read (manager.dataRootDir ++ path)).isSome := by
  unfold download hasBeenDownloadedBefore at hdownload
  cases hinfo : manager.readInfo json fs with
  | none =>
    simp only [hinfo] at hdownload
    exact downloadAsset_intact h hintact hdownload
  | some info =>
    have hnamed := namedFile_of_readInfo h hinfo
    simp only [hinfo] at hdownload
    split at hdownload
    · next path _ hbefore =>
      split at hbefore
      · obtain ⟨hpath, rfl⟩ := Prod.mk.inj hbefore
        obtain ⟨rfl, rfl⟩ := Prod.mk.inj hdownload
        obtain ⟨relative, hrelative, habsolute⟩ := getAssetPathRelative_of_ok h info.file
        refine ⟨hintact, fun path' hresult => ?_⟩
        rw [hresult, hrelative] at hpath
        obtain rfl := Except.ok.inj (Option.some.inj hpath)
        rw [habsolute]
        exact hintact _ hnamed
      · split at hbefore
        · obtain ⟨hpath, rfl⟩ := Prod.mk.inj hbefore
          obtain ⟨rfl, rfl⟩ := Prod.mk.inj hdownload
          have hnone := namedFile_deleteExisting json h fs
          unfold deleteExisting at hnone
          rw [hinfo] at hnone
          refine ⟨intact_of_none hnone, fun path' hresult => ?_⟩
          rw [hresult] at hpath
          cases Option.some.inj hpath
        · cases hbefore
    · next fs₁ hbefore =>
      split at hbefore
      · cases hbefore
      · split at hbefore
        · cases hbefore
        · obtain ⟨-, rfl⟩ := Prod.mk.inj hbefore
          exact downloadAsset_intact h hintact hdownload

theorem upload_intact (hintact : Intact json fs infoPath) (uploaded : Result Upload) (src : Path) :
    Intact json (manager.upload json uploaded src fs).2 infoPath := by
  unfold upload
  cases uploaded with
  | error e => exact hintact
  | ok upload =>
    dsimp only
    have hnone := namedFile_deleteExisting json h fs
    generalize manager.deleteExisting json fs = fs₁ at hnone ⊢
    cases hname : manager.getAssetFileName upload.fileExtension with
    | error e => exact intact_of_none hnone
    | ok assetFileName =>
      simp only [h, getAssetPathAbsolute_of_ok h]
      cases hrename : fs₁.rename (manager.dataRootDir ++ src)
          (Path.setFileName infoPath assetFileName) with
      | none => exact intact_of_none hnone
      | some fs₂ =>
        obtain ⟨contents, -, hasset⟩ := Option.bind_eq_some_iff.mp hrename
        have hread := (FileSystem.write_eq_some hasset).2
        cases hinfo : fs₂.write infoPath
            (json.serialize ⟨assetFileName, upload.upstreamUrl⟩) with
        | some fs₃ =>
          simp only [hinfo]
          exact (intact_of_write (by rw [hread, if_pos rfl]; rfl) hinfo).1
        | none =>
          have hne : infoPath ≠ Path.setFileName infoPath assetFileName := by
            intro heq
            rw [← heq] at hasset
            exact FileSystem.write_again hasset _ hinfo
          simp only [hinfo]
          refine intact_of_none ?_
          rw [namedFile, hread, if_neg hne, FileSystem.read_remove]
          split
          · rfl
          · exact hnone

end Known

/-! ## What is changed -/

variable (manager) in
/-- The files of a stored asset. -/
def ownFiles (info : AssetInfo) : List Path :=
  match manager.getInfoPathAbsolute, manager.getAssetPathAbsolute info.file with
  | .ok infoPath, .ok assetPath => [infoPath, assetPath]
  | _, _ => []

variable (manager) in
/-- The files of an asset with the given extension. -/
def newFiles (extension : Option String) : List Path :=
  match manager.getAssetFileName extension with
  | .error _ => []
  | .ok fileName => manager.ownFiles ⟨fileName, ""⟩

theorem deleteAssetAndInfo_changes (info : AssetInfo) (written : List Path) (fs : FileSystem B) :
    FileSystem.Changes (manager.ownFiles info) written fs (manager.deleteAssetAndInfo info fs) := by
  unfold ownFiles deleteAssetAndInfo
  cases manager.getInfoPathAbsolute with
  | error e => exact .refl _ _ _
  | ok infoPath =>
    cases manager.getAssetPathAbsolute info.file with
    | error e => exact .refl _ _ _
    | ok assetPath =>
      exact (FileSystem.Changes.remove fs (List.mem_cons_self) written).trans
        (FileSystem.Changes.remove _ (List.mem_cons_of_mem _ List.mem_cons_self) written)

variable (json) in
theorem writeInfoAndAsset_changes {extension : Option String} {fileName : String}
    (hname : manager.getAssetFileName extension = .ok fileName) (upstreamUrl : String) (data : B)
    (removed : List Path) (fs : FileSystem B) :
    FileSystem.Changes removed (manager.newFiles extension) fs
      (manager.writeInfoAndAsset json ⟨fileName, upstreamUrl⟩ data fs).2 := by
  unfold newFiles ownFiles writeInfoAndAsset
  rw [hname]
  dsimp only
  cases manager.getInfoPathAbsolute with
  | error e => exact .refl _ _ _
  | ok infoPath =>
    cases manager.getAssetPathAbsolute fileName with
    | error e => exact .refl _ _ _
    | ok assetPath =>
      dsimp only
      cases hasset : fs.write assetPath data with
      | none => exact .refl _ _ _
      | some fs₁ =>
        have hfirst : FileSystem.Changes removed [infoPath, assetPath] fs fs₁ :=
          .write hasset (List.mem_cons_of_mem _ List.mem_cons_self) removed
        dsimp only
        cases hinfo : fs₁.write infoPath (json.serialize ⟨fileName, upstreamUrl⟩) with
        | none => exact hfirst
        | some fs₂ => exact hfirst.trans (.write hinfo List.mem_cons_self removed)

variable (json) (manager) in
/-- A download finds nothing that it can return, or a file that is outdated. -/
def isOutdated (fs : FileSystem B) : Bool :=
  (manager.readInfo json fs).all fun info => !manager.isUpToDate info

variable (json) (manager) in
/-- The stored files that are deleted when the asset is replaced. -/
def storedFiles (fs : FileSystem B) : List Path :=
  (manager.readInfo json fs).elim [] manager.ownFiles

variable (json) (manager) in
theorem deleteExisting_changes (written : List Path) (fs : FileSystem B) :
    FileSystem.Changes (manager.storedFiles json fs) written fs
      (manager.deleteExisting json fs) := by
  unfold storedFiles deleteExisting
  cases manager.readInfo json fs with
  | none => exact .refl _ _ _
  | some info => exact deleteAssetAndInfo_changes info written fs

variable (json) (manager) in
theorem downloadAsset_changes (fs : FileSystem B) :
    FileSystem.Changes (if manager.asset.download.isOk then manager.storedFiles json fs else [])
      (match manager.asset.download with
        | .error _ => []
        | .ok download => manager.newFiles download.fileExtension) fs
      (manager.downloadAsset json fs).2 := by
  unfold downloadAsset
  cases manager.asset.download with
  | error e => exact .refl _ _ _
  | ok download =>
    have hdeleted := deleteExisting_changes json manager
      (manager.newFiles download.fileExtension) fs
    dsimp only
    cases hname : manager.getAssetFileName download.fileExtension with
    | error e => exact hdeleted
    | ok dataFileName =>
      have hwritten := writeInfoAndAsset_changes json hname download.upstreamUrl download.data
        (manager.storedFiles json fs) (manager.deleteExisting json fs)
      dsimp only
      refine hdeleted.trans ?_
      generalize manager.writeInfoAndAsset json _ _ _ = written at hwritten ⊢
      obtain ⟨result, fs₁⟩ := written
      cases result <;> exact hwritten

variable (json) (manager) in
/-- What a download removes and writes. -/
theorem download_changes (fs : FileSystem B) :
    FileSystem.Changes
      (if manager.isOutdated json fs && (manager.asset.wasRemoved || manager.asset.download.isOk)
        then manager.storedFiles json fs else [])
      (if manager.isOutdated json fs then
        match manager.asset.download with
        | .error _ => []
        | .ok download => manager.newFiles download.fileExtension
      else []) fs (manager.download json fs).2 := by
  have hasset := downloadAsset_changes json manager fs
  unfold download hasBeenDownloadedBefore isOutdated
  cases hinfo : manager.readInfo json fs with
  | none =>
    have hstored : manager.storedFiles json fs = [] := by
      unfold storedFiles
      rw [hinfo]
      rfl
    rw [hstored] at hasset ⊢
    simpa using hasset
  | some info =>
    have hstored : manager.storedFiles json fs = manager.ownFiles info := by
      unfold storedFiles
      rw [hinfo]
      rfl
    dsimp only
    cases hupToDate : manager.isUpToDate info with
    | true => exact .refl _ _ _
    | false =>
      cases hremoved : manager.asset.wasRemoved with
      | true =>
        simp only [Option.all_some, hupToDate, Bool.not_false, Bool.true_or, Bool.and_self, if_true,
          Bool.false_eq_true, if_false, hstored]
        exact deleteAssetAndInfo_changes info _ fs
      | false => simpa [hupToDate] using hasset

variable (json) (manager) in
/-- What an upload removes and writes. -/
theorem upload_changes (uploaded : Result Upload) (src : Path) (fs : FileSystem B) :
    FileSystem.Changes
      (if uploaded.isOk then (manager.dataRootDir ++ src) :: manager.storedFiles json fs else [])
      (match uploaded with
        | .error _ => []
        | .ok upload => manager.newFiles upload.fileExtension) fs
      (manager.upload json uploaded src fs).2 := by
  unfold upload
  cases uploaded with
  | error e => exact .refl _ _ _
  | ok upload =>
    have hdeleted : FileSystem.Changes
        ((manager.dataRootDir ++ src) :: manager.storedFiles json fs)
        (manager.newFiles upload.fileExtension) fs (manager.deleteExisting json fs) :=
      (deleteExisting_changes json manager _ fs).mono (fun _ => List.mem_cons_of_mem _) fun _ => id
    dsimp only [Except.isOk, Except.toBool]
    cases hname : manager.getAssetFileName upload.fileExtension with
    | error e => exact hdeleted
    | ok assetFileName =>
      have hnew : manager.newFiles upload.fileExtension = manager.ownFiles ⟨assetFileName, ""⟩ := by
        unfold newFiles
        rw [hname]
      rw [hnew] at hdeleted ⊢
      unfold ownFiles at hdeleted ⊢
      dsimp only at hdeleted ⊢
      cases hinfoPath : manager.getInfoPathAbsolute with
      | error e => simpa [hinfoPath] using hdeleted
      | ok infoPath =>
        cases hassetPath : manager.getAssetPathAbsolute assetFileName with
        | error e => simpa [hinfoPath, hassetPath] using hdeleted
        | ok assetPath =>
          simp only [hinfoPath, hassetPath] at hdeleted ⊢
          cases hrename : (manager.deleteExisting json fs).rename (manager.dataRootDir ++ src)
              assetPath with
          | none => exact hdeleted
          | some fs₁ =>
            have hmoved := hdeleted.trans (FileSystem.Changes.rename hrename List.mem_cons_self
              (List.mem_cons_of_mem _ List.mem_cons_self))
            dsimp only
            cases hinfo : fs₁.write infoPath
                (json.serialize ⟨assetFileName, upload.upstreamUrl⟩) with
            | none => exact hmoved
            | some fs₂ => exact hmoved.trans (.write hinfo List.mem_cons_self _)

end AssetManager

/-! ## Runs -/

inductive AssetOp (B : Type) where
  | download (manager : AssetManager B)
  | upload (manager : AssetManager B) (uploaded : Result Upload) (src : Path)

/-- The paths lead to the same file. -/
def SameFile (p q : Path) : Prop := Path.resolve p = Path.resolve q

instance (p q : Path) : Decidable (SameFile p q) := inferInstanceAs (Decidable (_ = _))

namespace AssetOp

variable {B : Type} (json : InfoFormat B)

def manager : AssetOp B → AssetManager B
  | .download manager => manager
  | .upload manager _ _ => manager

def perform (fs : FileSystem B) : AssetOp B → Result Path × FileSystem B
  | .download manager => manager.download json fs
  | .upload manager uploaded src => manager.upload json uploaded src fs

/-- The files that the operation removes: those of the asset that it replaces, and its source. -/
def removes (fs : FileSystem B) : AssetOp B → List Path
  | .download manager =>
    if manager.isOutdated json fs && (manager.asset.wasRemoved || manager.asset.download.isOk)
      then manager.storedFiles json fs else []
  | .upload manager uploaded src =>
    if uploaded.isOk then (manager.dataRootDir ++ src) :: manager.storedFiles json fs else []

/-- The files that the operation writes: those of the new asset. -/
def writes (fs : FileSystem B) : AssetOp B → List Path
  | .download manager =>
    if manager.isOutdated json fs then
      match manager.asset.download with
      | .error _ => []
      | .ok answer => manager.newFiles answer.fileExtension
    else []
  | .upload manager uploaded _ =>
    match uploaded with
    | .error _ => []
    | .ok answer => manager.newFiles answer.fileExtension

theorem perform_changes (op : AssetOp B) (fs : FileSystem B) :
    FileSystem.Changes (op.removes json fs) (op.writes json fs) fs (op.perform json fs).2 := by
  cases op with
  | download manager => exact manager.download_changes json fs
  | upload manager uploaded src => exact manager.upload_changes json uploaded src fs

/-- The operation is one on the asset with the given info path, or it neither writes to the info
    nor removes the file that the info names. -/
def Spares (infoPath : Path) (fs : FileSystem B) (op : AssetOp B) : Prop :=
  op.manager.getInfoPathAbsolute = .ok infoPath ∨
    (∀ written ∈ op.writes json fs, ¬ SameFile written infoPath) ∧
      ∀ file ∈ (namedFile json fs infoPath).toList, ∀ removed ∈ op.removes json fs,
        ¬ SameFile removed file

instance (infoPath : Path) (fs : FileSystem B) (op : AssetOp B) :
    Decidable (op.Spares json infoPath fs) := inferInstanceAs (Decidable (_ ∨ _ ∧ _))

/-- One operation keeps the file of the asset, or its info is gone. -/
theorem intact_perform {infoPath : Path} {fs : FileSystem B} (hintact : Intact json fs infoPath)
    {op : AssetOp B} (hspares : op.Spares json infoPath fs) :
    Intact json (op.perform json fs).2 infoPath := by
  rcases hspares with hown | ⟨hinfo, hfile⟩
  · cases op with
    | download manager => exact (AssetManager.download_intact hown hintact rfl).1
    | upload manager uploaded src => exact AssetManager.upload_intact hown hintact uploaded src
  · have hchanges := op.perform_changes json fs
    intro file hnamed
    have hnot : infoPath ∉ op.writes json fs := fun hmem => hinfo infoPath hmem rfl
    rcases hchanges.read_of_not_written hnot with hsame | hnone
    · have hbefore : namedFile json fs infoPath = some file := by
        rw [namedFile, hsame] at hnamed
        exact hnamed
      refine hchanges.isSome_of_not_removed (fun hmem => ?_) (hintact file hbefore)
      exact hfile file (by simp [hbefore]) file hmem rfl
    · rw [namedFile, hnone] at hnamed
      cases hnamed

end AssetOp

/-- Downloads and uploads one after another. -/
def assetRuns {B : Type} (json : InfoFormat B) : System (FileSystem B) (AssetOp B) where
  step fs op := some (op.perform json fs).2

/-- A download returns a file that exists, in every run from a data root without the asset whose
    steps spare the asset. -/
theorem downloaded_file_exists {B : Type} (json : InfoFormat B) (manager : AssetManager B)
    {infoPath : Path} (hinfo : manager.getInfoPathAbsolute = .ok infoPath)
    {start fs : FileSystem B} (hstart : namedFile json start infoPath = none)
    {ops : List (AssetOp B)}
    (hspares : (assetRuns json).Meets (fun fs op => op.Spares json infoPath fs) start ops)
    (hrun : (assetRuns json).run start ops = some fs) {path : Path}
    (hdownload : (manager.download json fs).1 = .ok path) :
    ((manager.download json fs).2.read (manager.dataRootDir ++ path)).isSome := by
  have hstep : ∀ fs op fs', Intact json fs infoPath → AssetOp.Spares json infoPath fs op →
      (assetRuns json).step fs op = some fs' → Intact json fs' infoPath := by
    intro fs op fs' hfs hop hstep
    obtain rfl := Option.some.inj hstep
    exact AssetOp.intact_perform json hfs hop
  have hintact := (assetRuns json).inv_of_run hstep (intact_of_none hstart) hspares hrun
  exact (AssetManager.download_intact hinfo hintact rfl).2 path hdownload

/-! ## The avatars of two rooms -/

/-- The contents of the files here: an image, or an info. -/
inductive AvatarFile where
  | image (name : String)
  | info (info : AssetInfo)
deriving DecidableEq

def avatarFormat : InfoFormat AvatarFile where
  serialize := .info
  deserialize := fun
    | .info info => some info
    | .image _ => none
  deserialize_serialize := fun _ => rfl

/-- The avatar of a room, which is up to date once it is stored. -/
def avatarOf (roomId : String) : AssetManager AvatarFile where
  dataRootDir := ["data"]
  assetDir := ["media", "room_avatars"]
  asset :=
    { assetId := .ok roomId
      isUpToDate := fun _ => .ok true
      wasRemoved := false
      download := .ok ⟨.image roomId, some "png", "mxc://hs/" ++ roomId⟩ }

def avatarUploaded : Result Upload := .ok ⟨some "png", "mxc://hs/new"⟩

/-- A data root with a new image. -/
def avatarRoot : FileSystem AvatarFile where
  dirs := [["data"], ["data", "media", "room_avatars"]]
  files := AList.singleton ["data", "new.png"] (.image "new")

/-- The avatar of `!a` is downloaded, and its file uploaded as the avatar of `!b`: a second download
    of the first returns the path, at which there is no file any more. -/
theorem uploaded_file_missing :
    let avatar := ["media", "room_avatars", "!a.png"]
    let (first, fs) := (avatarOf "!a").download avatarFormat avatarRoot
    let (second, fs) := (avatarOf "!b").upload avatarFormat avatarUploaded avatar fs
    let (third, fs) := (avatarOf "!a").download avatarFormat fs
    first = .ok avatar ∧ second = .ok ["media", "room_avatars", "!b.png"] ∧ third = .ok avatar ∧
      fs.read ("data" :: avatar) = none := by
  decide +kernel

/-- An upload of another file leaves the avatar. -/
theorem downloaded_file_exists_avatar :
    ∃ fs, (assetRuns avatarFormat).run avatarRoot
        [.download (avatarOf "!a"), .upload (avatarOf "!b") avatarUploaded ["new.png"]] = some fs ∧
      (((avatarOf "!a").download avatarFormat fs).2.read
        ["data", "media", "room_avatars", "!a.png"]).isSome := by
  have hinfo : (avatarOf "!a").getInfoPathAbsolute
      = .ok ["data", "media", "room_avatars", "!a_info.json"] := by decide +kernel
  have hstart : namedFile avatarFormat avatarRoot
      ["data", "media", "room_avatars", "!a_info.json"] = none := by decide +kernel
  have hspares : (assetRuns avatarFormat).Meets (fun fs op =>
        op.Spares avatarFormat ["data", "media", "room_avatars", "!a_info.json"] fs) avatarRoot
      [.download (avatarOf "!a"), .upload (avatarOf "!b") avatarUploaded ["new.png"]] := by
    decide +kernel
  exact ⟨_, rfl, downloaded_file_exists avatarFormat (avatarOf "!a") hinfo hstart hspares rfl
    (by decide +kernel)⟩

end GoudaMatrix.Media
