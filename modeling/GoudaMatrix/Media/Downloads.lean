/-
  Concurrent downloads of one asset (`AssetManager::download` in `media.rs`), at the steps at which
  they touch the file system or ask upstream. There is no lock per asset: each download reads the
  info, deletes what the info names, writes its file and then its info.

  `next` is one step, and a download alone makes the steps of `AssetManager.download`
  (`download_alone`). `downloads_leave_file`: when all downloads have finished, the info names a
  file that exists, if no download deleted a file that another one had just written, unless the file
  was written again (`SparesFiles`). `deleted_file` is a run of two downloads in which one does.
-/
import GoudaMatrix.Lib.Run
import GoudaMatrix.Media.AssetPaths

namespace GoudaMatrix.Media

open GoudaMatrix.Lib

/-! ## One download -/

/-- What the asset and upstream answer at one moment. A file extension comes from a file name or
    is guessed from the data, and has no separator. -/
structure Upstream (B : Type) where
  isUpToDate : AssetInfo → Result Bool
  wasRemoved : Bool
  download : Result (Download B)
  plain : ∀ d, download = .ok d → ∀ e ∈ d.fileExtension, '/' ∉ e.toList

def Upstream.toAsset {B : Type} (upstream : Upstream B) (assetId : String) : Asset B where
  assetId := .ok assetId
  isUpToDate := upstream.isUpToDate
  wasRemoved := upstream.wasRemoved
  download := upstream.download

/-- What a download does next. What is deleted is deleted for good (`none`), or is replaced by
    what has been downloaded. -/
inductive Phase (B : Type) where
  /-- `has_been_downloaded_before`. -/
  | readInfo
  | checkUpToDate (info : AssetInfo)
  | checkRemoved (info : AssetInfo)
  /-- `download_asset`. -/
  | downloading
  | readExisting (download : Download B)
  | deleteInfo (info : AssetInfo) (replacement : Option (Download B))
  | deleteAsset (info : AssetInfo) (replacement : Option (Download B))
  | writeAsset (download : Download B)
  | writeInfo (info : AssetInfo)
  | finished (result : Result Path)
  /-- A file could not be written. -/
  | ioError

namespace Phase

variable {B : Type} (json : InfoFormat B) (manager : AssetManager B) (fs : FileSystem B)

/-- After `delete_asset_and_info`. -/
def afterDeletion : Option (Download B) → Phase B
  | none => .finished (.error .removed)
  | some download => .writeAsset download

/-- One step; `none` when the download is over. The test whether the info exists and its reading
    are one step, since an info that is gone when it is read counts as not there. -/
def next : Phase B → Option (Phase B × FileSystem B)
  | .readInfo =>
    match manager.readInfo json fs with
    | none => some (.downloading, fs)
    | some info => some (.checkUpToDate info, fs)
  | .checkUpToDate info =>
    if manager.isUpToDate info then some (.finished (manager.getAssetPathRelative info.file), fs)
    else some (.checkRemoved info, fs)
  | .checkRemoved info =>
    if manager.asset.wasRemoved then some (.deleteInfo info none, fs) else some (.downloading, fs)
  | .downloading =>
    match manager.asset.download with
    | .error e => some (.finished (.error e), fs)
    | .ok download => some (.readExisting download, fs)
  | .readExisting download =>
    match manager.readInfo json fs with
    | none => some (.writeAsset download, fs)
    | some info => some (.deleteInfo info (some download), fs)
  | .deleteInfo info replacement =>
    match manager.getInfoPathAbsolute, manager.getAssetPathAbsolute info.file with
    | .ok infoPath, .ok _ => some (.deleteAsset info replacement, fs.remove infoPath)
    | _, _ => some (afterDeletion replacement, fs)
  | .deleteAsset info replacement =>
    match manager.getAssetPathAbsolute info.file with
    | .ok assetPath => some (afterDeletion replacement, fs.remove assetPath)
    | .error _ => some (afterDeletion replacement, fs)
  | .writeAsset download =>
    match manager.getAssetFileName download.fileExtension with
    | .error e => some (.finished (.error e), fs)
    | .ok dataFileName =>
      match manager.getInfoPathAbsolute, manager.getAssetPathAbsolute dataFileName with
      | .error e, _ | _, .error e => some (.finished (.error e), fs)
      | .ok _, .ok assetPath =>
        match fs.write assetPath download.data with
        | none => some (.ioError, fs)
        | some fs => some (.writeInfo ⟨dataFileName, download.upstreamUrl⟩, fs)
  | .writeInfo info =>
    match manager.getInfoPathAbsolute with
    | .error e => some (.finished (.error e), fs)
    | .ok infoPath =>
      match fs.write infoPath (json.serialize info) with
      | none => some (.ioError, fs)
      | some fs => some (.finished (manager.getAssetPathRelative info.file), fs)
  | .finished _ | .ioError => none

def result : Phase B → Option (Result Path)
  | .finished result => some result
  | .ioError => some (.error .io)
  | _ => none

/-- The steps of a download that is alone. -/
def alone : Nat → Phase B → FileSystem B → Phase B × FileSystem B
  | 0, phase, fs => (phase, fs)
  | n + 1, phase, fs => ((phase.next json manager fs).map fun r => alone n r.1 r.2).getD (phase, fs)

/-- The download ends with this result when it is alone. -/
def Ends (phase : Phase B) (fs : FileSystem B) (result : Result Path) (fs' : FileSystem B) : Prop :=
  ∃ n ended, alone json manager n phase fs = (ended, fs') ∧ ended.result = some result

variable {json manager fs}

theorem ends_of_result {phase : Phase B} {result : Result Path} (h : phase.result = some result) :
    Ends json manager phase fs result fs := ⟨0, phase, rfl, h⟩

theorem ends_of_next {phase : Phase B} (phase' : Phase B) (fs' : FileSystem B)
    {fs'' : FileSystem B} {result : Result Path}
    (hnext : phase.next json manager fs = some (phase', fs'))
    (h : Ends json manager phase' fs' result fs'') : Ends json manager phase fs result fs'' := by
  obtain ⟨n, ended, hrun, hresult⟩ := h
  refine ⟨n + 1, ended, ?_, hresult⟩
  rw [alone, hnext]
  exact hrun

/-- What `download_asset` does once nothing is stored any more. -/
def store (json : InfoFormat B) (manager : AssetManager B) (download : Download B)
    (fs : FileSystem B) : Result Path × FileSystem B :=
  match manager.getAssetFileName download.fileExtension with
  | .error e => (.error e, fs)
  | .ok dataFileName =>
    match manager.writeInfoAndAsset json ⟨dataFileName, download.upstreamUrl⟩ download.data fs with
    | (.error e, fs) => (.error e, fs)
    | (.ok _, fs) => (manager.getAssetPathRelative dataFileName, fs)

theorem ends_writeAsset (download : Download B) :
    Ends json manager (.writeAsset download) fs (store json manager download fs).1
      (store json manager download fs).2 := by
  unfold store AssetManager.writeInfoAndAsset
  cases hname : manager.getAssetFileName download.fileExtension with
  | error e =>
    exact ends_of_next (.finished (.error e)) fs (by simp only [next, hname]) (ends_of_result rfl)
  | ok dataFileName =>
    dsimp only
    cases hinfo : manager.getInfoPathAbsolute with
    | error e =>
      refine ends_of_next (.finished (.error e)) fs ?_ (ends_of_result rfl)
      simp only [next, hname, hinfo]
    | ok infoPath =>
      cases hasset : manager.getAssetPathAbsolute dataFileName with
      | error e =>
        refine ends_of_next (.finished (.error e)) fs ?_ (ends_of_result rfl)
        simp only [next, hname, hinfo, hasset]
      | ok assetPath =>
        cases hwrite : fs.write assetPath download.data with
        | none =>
          simp only [hwrite]
          refine ends_of_next .ioError fs ?_ (ends_of_result rfl)
          simp only [next, hname, hinfo, hasset, hwrite]
        | some fs₁ =>
          refine ends_of_next (.writeInfo ⟨dataFileName, download.upstreamUrl⟩) fs₁ ?_ ?_
          · simp only [next, hname, hinfo, hasset, hwrite]
          · cases hwritten : fs₁.write infoPath
                (json.serialize ⟨dataFileName, download.upstreamUrl⟩) with
            | none =>
              simp only [hwrite, hwritten]
              refine ends_of_next .ioError fs₁ ?_ (ends_of_result rfl)
              simp only [next, hinfo, hwritten]
            | some fs₂ =>
              simp only [hwrite, hwritten]
              refine ends_of_next (.finished (manager.getAssetPathRelative dataFileName)) fs₂ ?_
                (ends_of_result rfl)
              simp only [next, hinfo, hwritten]

theorem ends_deletion (info : AssetInfo) (replacement : Option (Download B))
    {result : Result Path} {fs' : FileSystem B}
    (h : Ends json manager (afterDeletion replacement) (manager.deleteAssetAndInfo info fs) result
      fs') : Ends json manager (.deleteInfo info replacement) fs result fs' := by
  unfold AssetManager.deleteAssetAndInfo at h
  cases hinfo : manager.getInfoPathAbsolute with
  | error e =>
    rw [hinfo] at h
    exact ends_of_next (afterDeletion replacement) fs (by simp only [next, hinfo]) h
  | ok infoPath =>
    cases hasset : manager.getAssetPathAbsolute info.file with
    | error e =>
      rw [hinfo, hasset] at h
      exact ends_of_next (afterDeletion replacement) fs (by simp only [next, hinfo, hasset]) h
    | ok assetPath =>
      rw [hinfo, hasset] at h
      refine ends_of_next (.deleteAsset info replacement) (fs.remove infoPath) ?_ ?_
      · simp only [next, hinfo, hasset]
      · refine ends_of_next (afterDeletion replacement) ((fs.remove infoPath).remove assetPath) ?_ h
        simp only [next, hasset]

theorem ends_downloading :
    Ends json manager .downloading fs (manager.downloadAsset json fs).1
      (manager.downloadAsset json fs).2 := by
  unfold AssetManager.downloadAsset
  cases hdownload : manager.asset.download with
  | error e =>
    refine ends_of_next (.finished (.error e)) fs ?_ (ends_of_result rfl)
    simp only [next, hdownload]
  | ok download =>
    refine ends_of_next (.readExisting download) fs (by simp only [next, hdownload]) ?_
    unfold AssetManager.deleteExisting
    cases hexisting : manager.readInfo json fs with
    | none =>
      refine ends_of_next (.writeAsset download) fs ?_ (ends_writeAsset download)
      simp only [next, hexisting]
    | some info =>
      refine ends_of_next (.deleteInfo info (some download)) fs ?_ ?_
      · simp only [next, hexisting]
      · exact ends_deletion info (some download) (ends_writeAsset download)

/-- A download that is alone does what `AssetManager.download` does. -/
theorem download_alone (json : InfoFormat B) (manager : AssetManager B) (fs : FileSystem B) :
    Ends json manager .readInfo fs (manager.download json fs).1 (manager.download json fs).2 := by
  unfold AssetManager.download AssetManager.hasBeenDownloadedBefore
  cases hinfo : manager.readInfo json fs with
  | none => exact ends_of_next .downloading fs (by simp only [next, hinfo]) ends_downloading
  | some info =>
    refine ends_of_next (.checkUpToDate info) fs (by simp only [next, hinfo]) ?_
    dsimp only
    cases hcurrent : manager.isUpToDate info with
    | true =>
      refine ends_of_next (.finished (manager.getAssetPathRelative info.file)) fs ?_ ?_
      · simp only [next, hcurrent, if_true]
      · exact ends_of_result rfl
    | false =>
      refine ends_of_next (.checkRemoved info) fs (by simp [next, hcurrent]) ?_
      cases hremoved : manager.asset.wasRemoved with
      | true =>
        refine ends_of_next (.deleteInfo info none) fs (by simp [next, hremoved]) ?_
        exact ends_deletion info none (ends_of_result rfl)
      | false =>
        exact ends_of_next .downloading fs (by simp [next, hremoved]) ends_downloading

/-- What has been downloaded and is not written yet. -/
def downloaded : Phase B → Option (Download B)
  | .readExisting download | .writeAsset download => some download
  | .deleteInfo _ replacement | .deleteAsset _ replacement => replacement
  | _ => none

/-- The file that is deleted next is the one of this info. -/
def deletion : Phase B → Option AssetInfo
  | .deleteAsset info _ => some info
  | _ => none

/-- The info that is written next, whose file is written already. -/
def unwritten : Phase B → Option AssetInfo
  | .writeInfo info => some info
  | _ => none

/-- The download is over, and no file could not be written. -/
def isFinished : Phase B → Bool
  | .finished _ => true
  | _ => false

/-- The download still writes an info. -/
def isPending (phase : Phase B) : Bool := phase.downloaded.isSome || phase.unwritten.isSome

/-- The download has been told that the asset was removed. -/
def isRemoval : Phase B → Bool
  | .deleteInfo _ none | .deleteAsset _ none | .finished (.error .removed) => true
  | _ => false

/-- The download has a stored asset to return, or one to store, or has returned one. -/
def hasAsset : Phase B → Bool
  | .checkUpToDate _ | .finished (.ok _) => true
  | phase => phase.isPending

end Phase

/-! ## Downloads of one asset -/

structure DownloadsState (B : Type) where
  phases : List (Phase B)
  fs : FileSystem B

/-- The download that makes a step, and the answers it gets. -/
structure DownloadStep (B : Type) where
  who : Nat
  upstream : Upstream B

section Downloads

variable {B : Type} (json : InfoFormat B) (dirs : MediaDirs) (asset : MediaAsset)

/-- The manager of a download of the asset. -/
def managerFor (upstream : Upstream B) : AssetManager B :=
  asset.manager dirs (upstream.toAsset asset.id.text)

def downloads : System (DownloadsState B) (DownloadStep B) where
  step s a := (s.phases[a.who]?).bind fun phase =>
    (phase.next json (managerFor dirs asset a.upstream) s.fs).map fun r =>
      ⟨s.phases.set a.who r.1, r.2⟩

/-- Any number of downloads, of which none has begun. -/
def DownloadsState.start (count : Nat) (fs : FileSystem B) : DownloadsState B :=
  ⟨List.replicate count .readInfo, fs⟩

/-- The info file of the asset. -/
def infoPath : Path :=
  (dirs.dataRootDir ++ asset.dir dirs) ++ Path.components (infoFileName asset.id.text)

/-- The file that an info names. -/
def dataPath (info : AssetInfo) : Path := Path.setFileName (infoPath dirs asset) info.file

/-- The file that a download writes. -/
def newPath (download : Download B) : Path :=
  dataPath dirs asset ⟨assetFileName asset.id.text download.fileExtension, download.upstreamUrl⟩

/-- A step deletes a file that a download has written for an info that it is about to write only if
    a download in progress writes this file again, and a file that the info file names only if a
    download in progress writes another info. -/
def SparesFiles (s : DownloadsState B) (a : DownloadStep B) : Prop :=
  ∀ deleted ∈ ((s.phases[a.who]?).bind Phase.deletion).toList,
    ((∃ info ∈ s.phases.filterMap Phase.unwritten,
        dataPath dirs asset info = dataPath dirs asset deleted) →
      ∃ download ∈ s.phases.filterMap Phase.downloaded,
        newPath dirs asset download = dataPath dirs asset deleted) ∧
    (namedFile json s.fs (infoPath dirs asset) = some (dataPath dirs asset deleted) →
      s.phases.any Phase.isPending = true)

instance (s : DownloadsState B) (a : DownloadStep B) :
    Decidable (SparesFiles json dirs asset s a) :=
  inferInstanceAs (Decidable (∀ _ ∈ _, _ ∧ _))

/-! ## The invariant -/

/-- The extension has no separator. -/
def Download.IsPlain (download : Download B) : Prop :=
  ∀ e ∈ download.fileExtension, '/' ∉ e.toList

/-- A download in progress writes the file. -/
def Writes (file : Path) (phase : Phase B) : Prop :=
  ∃ download ∈ phase.downloaded, newPath dirs asset download = file

structure DownloadsState.Inv (s : DownloadsState B) : Prop where
  plain : ∀ phase ∈ s.phases, ∀ download ∈ phase.downloaded, download.IsPlain
  /-- The file of an info is there before the info is, or will be. -/
  written : ∀ info, .writeInfo info ∈ s.phases → dataPath dirs asset info ≠ infoPath dirs asset ∧
    ((s.fs.read (dataPath dirs asset info)).isSome ∨
      ∃ phase ∈ s.phases, Writes dirs asset (dataPath dirs asset info) phase)
  intact : Intact json s.fs (infoPath dirs asset) ∨ ∃ phase ∈ s.phases, phase.isPending = true

variable {json dirs asset}

theorem getInfoPathAbsolute_managerFor (upstream : Upstream B) :
    (managerFor dirs asset upstream).getInfoPathAbsolute = .ok (infoPath dirs asset) :=
  asset.infoPath_eq dirs _

theorem getAssetPathAbsolute_managerFor (upstream : Upstream B) (info : AssetInfo) :
    (managerFor dirs asset upstream).getAssetPathAbsolute info.file
      = .ok (dataPath dirs asset info) :=
  AssetManager.getAssetPathAbsolute_of_ok (getInfoPathAbsolute_managerFor upstream) _

theorem getAssetFileName_managerFor (upstream : Upstream B) (extension : Option String) :
    (managerFor dirs asset upstream).getAssetFileName extension
      = .ok (assetFileName asset.id.text extension) := rfl

/-- The file of a download is not the info file. -/
theorem newPath_ne_infoPath {download : Download B} (hplain : download.IsPlain) :
    newPath dirs asset download ≠ infoPath dirs asset := by
  have hfile := asset.filePath_eq dirs (B := Unit)
    ⟨.ok asset.id.text, fun _ => .ok true, false, .error .io⟩ download.fileExtension
  have hpath := AssetManager.getAssetPathAbsolute_of_ok (asset.infoPath_eq dirs (B := Unit)
    ⟨.ok asset.id.text, fun _ => .ok true, false, .error .io⟩)
    (assetFileName asset.id.text download.fileExtension)
  have hdata := Except.ok.inj (hpath.symm.trans hfile)
  rw [newPath, dataPath, infoPath, hdata]
  exact fun heq => asset.filePath_ne_infoPath hplain (List.append_cancel_left heq)

/-- A move between two phases that writes no file. -/
structure Phase.Quiet (phase phase' : Phase B) : Prop where
  downloaded : ∀ download ∈ phase.downloaded, download ∈ phase'.downloaded
  before : phase.unwritten = none
  after : phase'.unwritten = none

theorem Phase.Quiet.writes {phase phase' : Phase B} (h : phase.Quiet phase') {file : Path}
    (hwrites : Writes dirs asset file phase) : Writes dirs asset file phase' := by
  obtain ⟨download, hmem, hpath⟩ := hwrites
  exact ⟨download, h.downloaded download hmem, hpath⟩

theorem Phase.Quiet.isPending {phase phase' : Phase B} (h : phase.Quiet phase')
    (hpending : phase.isPending = true) : phase'.isPending = true := by
  rw [Phase.isPending, h.before, Bool.or_eq_true] at hpending
  rcases hpending with hsome | hsome
  · obtain ⟨download, hdownload⟩ := Option.isSome_iff_exists.mp hsome
    rw [Phase.isPending, h.downloaded download hdownload]
    rfl
  · cases hsome

/-- The moves of a download of the asset, with the directory after each. -/
inductive Phase.Moves (json : InfoFormat B) (dirs : MediaDirs) (asset : MediaAsset)
    (upstream : Upstream B) (fs : FileSystem B) : Phase B → Phase B → FileSystem B → Prop
  | missing (hread : (managerFor dirs asset upstream).readInfo json fs = none) :
    Moves json dirs asset upstream fs .readInfo .downloading fs
  | found {info : AssetInfo}
      (hread : (managerFor dirs asset upstream).readInfo json fs = some info) :
    Moves json dirs asset upstream fs .readInfo (.checkUpToDate info) fs
  | current {info : AssetInfo} {result : Result Path} :
    Moves json dirs asset upstream fs (.checkUpToDate info) (.finished result) fs
  | outdated {info : AssetInfo} :
    Moves json dirs asset upstream fs (.checkUpToDate info) (.checkRemoved info) fs
  | removed {info : AssetInfo} :
    Moves json dirs asset upstream fs (.checkRemoved info) (.deleteInfo info none) fs
  | replaced {info : AssetInfo} :
    Moves json dirs asset upstream fs (.checkRemoved info) .downloading fs
  | failed {e : MediaError} :
    Moves json dirs asset upstream fs .downloading (.finished (.error e)) fs
  | downloaded {download : Download B} (hdownload : upstream.download = .ok download) :
    Moves json dirs asset upstream fs .downloading (.readExisting download) fs
  | noneExisting {download : Download B}
      (hread : (managerFor dirs asset upstream).readInfo json fs = none) :
    Moves json dirs asset upstream fs (.readExisting download) (.writeAsset download) fs
  | existing {download : Download B} {info : AssetInfo}
      (hread : (managerFor dirs asset upstream).readInfo json fs = some info) :
    Moves json dirs asset upstream fs (.readExisting download) (.deleteInfo info (some download)) fs
  | infoDeleted {info : AssetInfo} {replacement : Option (Download B)} :
    Moves json dirs asset upstream fs (.deleteInfo info replacement) (.deleteAsset info replacement)
      (fs.remove (infoPath dirs asset))
  | assetDeleted {info : AssetInfo} {replacement : Option (Download B)} :
    Moves json dirs asset upstream fs (.deleteAsset info replacement)
      (Phase.afterDeletion replacement) (fs.remove (dataPath dirs asset info))
  | assetUnwritable {download : Download B} :
    Moves json dirs asset upstream fs (.writeAsset download) .ioError fs
  | assetWritten {download : Download B} {fs' : FileSystem B}
      (hwrite : fs.write (newPath dirs asset download) download.data = some fs') :
    Moves json dirs asset upstream fs (.writeAsset download)
      (.writeInfo ⟨assetFileName asset.id.text download.fileExtension, download.upstreamUrl⟩) fs'
  | infoUnwritable {info : AssetInfo} :
    Moves json dirs asset upstream fs (.writeInfo info) .ioError fs
  | infoWritten {info : AssetInfo} {result : Result Path} {fs' : FileSystem B}
      (hwrite : fs.write (infoPath dirs asset) (json.serialize info) = some fs') :
    Moves json dirs asset upstream fs (.writeInfo info) (.finished result) fs'

theorem moves_of_next {upstream : Upstream B} {fs fs' : FileSystem B} {phase phase' : Phase B}
    (h : phase.next json (managerFor dirs asset upstream) fs = some (phase', fs')) :
    phase.Moves json dirs asset upstream fs phase' fs' := by
  have hinfoPath : (managerFor dirs asset upstream).getInfoPathAbsolute
      = .ok (infoPath dirs asset) :=
    getInfoPathAbsolute_managerFor upstream
  have hdataPath (info : AssetInfo) :
      (managerFor dirs asset upstream).getAssetPathAbsolute info.file
        = .ok (dataPath dirs asset info) :=
    getAssetPathAbsolute_managerFor upstream info
  cases phase with
  | readInfo =>
    simp only [Phase.next] at h
    split at h
    · next hread =>
      cases h
      exact .missing hread
    · next info hread =>
      cases h
      exact .found hread
  | checkUpToDate info =>
    simp only [Phase.next] at h
    split at h <;> cases h
    · exact .current
    · exact .outdated
  | checkRemoved info =>
    simp only [Phase.next] at h
    split at h <;> cases h
    · exact .removed
    · exact .replaced
  | downloading =>
    simp only [Phase.next] at h
    split at h
    · cases h
      exact .failed
    · next download hdownload =>
      cases h
      exact .downloaded hdownload
  | readExisting download =>
    simp only [Phase.next] at h
    split at h
    · next hread =>
      cases h
      exact .noneExisting hread
    · next info hread =>
      cases h
      exact .existing hread
  | deleteInfo info replacement =>
    simp only [Phase.next, hinfoPath, hdataPath] at h
    cases h
    exact .infoDeleted
  | deleteAsset info replacement =>
    simp only [Phase.next, hdataPath] at h
    cases h
    exact .assetDeleted
  | writeAsset download =>
    have hdata := hdataPath ⟨assetFileName asset.id.text download.fileExtension,
      download.upstreamUrl⟩
    simp only [Phase.next, getAssetFileName_managerFor, hinfoPath, hdata] at h
    split at h
    · cases h
      exact .assetUnwritable
    · next fs₁ hwrite =>
      cases h
      exact .assetWritten hwrite
  | writeInfo info =>
    simp only [Phase.next, hinfoPath] at h
    split at h
    · cases h
      exact .infoUnwritable
    · next fs₁ hwrite =>
      cases h
      exact .infoWritten hwrite
  | finished result | ioError => cases h

/-- What a step does: a file cannot be written, or nothing happens to the files, or one of the four
    changes. -/
theorem next_cases {upstream : Upstream B} {fs fs' : FileSystem B} {phase phase' : Phase B}
    (h : phase.next json (managerFor dirs asset upstream) fs = some (phase', fs')) :
    phase' = .ioError ∨
    (fs' = fs ∧ phase.Quiet phase' ∧
      ∀ download ∈ phase'.downloaded, download ∈ phase.downloaded ∨ download.IsPlain) ∨
    (∃ info replacement, phase = .deleteInfo info replacement ∧
      phase' = .deleteAsset info replacement ∧ fs' = fs.remove (infoPath dirs asset)) ∨
    (∃ info replacement, phase = .deleteAsset info replacement ∧
      phase' = Phase.afterDeletion replacement ∧ fs' = fs.remove (dataPath dirs asset info)) ∨
    (∃ download info, phase = .writeAsset download ∧ phase' = .writeInfo info ∧
      dataPath dirs asset info = newPath dirs asset download ∧
      fs.write (dataPath dirs asset info) download.data = some fs') ∨
    ∃ info result, phase = .writeInfo info ∧ phase' = .finished result ∧
      fs.write (infoPath dirs asset) (json.serialize info) = some fs' := by
  cases moves_of_next h with
  | missing | found | current | outdated | removed | replaced | failed =>
    exact .inr (.inl ⟨rfl, ⟨fun _ hd => (by cases hd), rfl, rfl⟩, fun _ hd => (by cases hd)⟩)
  | downloaded hdownload =>
    refine .inr (.inl ⟨rfl, ⟨fun _ hd => (by cases hd), rfl, rfl⟩, fun d hd => .inr ?_⟩)
    obtain rfl := Option.some.inj hd
    exact upstream.plain _ hdownload
  | noneExisting | existing =>
    exact .inr (.inl ⟨rfl, ⟨fun _ hd => hd, rfl, rfl⟩, fun _ hd => .inl hd⟩)
  | infoDeleted => exact .inr (.inr (.inl ⟨_, _, rfl, rfl, rfl⟩))
  | assetDeleted => exact .inr (.inr (.inr (.inl ⟨_, _, rfl, rfl, rfl⟩)))
  | assetUnwritable | infoUnwritable => exact .inl rfl
  | assetWritten hwrite =>
    exact .inr (.inr (.inr (.inr (.inl ⟨_, _, rfl, rfl, rfl, hwrite⟩))))
  | infoWritten hwrite => exact .inr (.inr (.inr (.inr (.inr ⟨_, _, rfl, rfl, hwrite⟩))))

theorem intact_remove {fs : FileSystem B} {path file : Path} (h : Intact json fs path)
    (hfile : namedFile json fs path ≠ some file) : Intact json (fs.remove file) path := by
  intro named hnamed
  have hread : (fs.remove file).read path = fs.read path := by
    rw [FileSystem.read_remove]
    split
    · next hpath =>
      rw [namedFile, FileSystem.read_remove, if_pos hpath] at hnamed
      cases hnamed
    · rfl
  rw [namedFile, hread] at hnamed
  have hne : named ≠ file := by
    rintro rfl
    exact hfile hnamed
  rw [FileSystem.read_remove, if_neg hne]
  exact h named hnamed

theorem downloaded_afterDeletion (replacement : Option (Download B)) :
    (Phase.afterDeletion replacement).downloaded = replacement := by
  cases replacement <;> rfl

theorem unwritten_afterDeletion (replacement : Option (Download B)) :
    (Phase.afterDeletion replacement).unwritten = none := by
  cases replacement <;> rfl

/-- A deletion keeps what has been downloaded. -/
theorem quiet_afterDeletion (info : AssetInfo) (replacement : Option (Download B)) :
    (Phase.deleteAsset info replacement).Quiet (Phase.afterDeletion replacement) where
  downloaded _ hd := by rwa [downloaded_afterDeletion]
  before := rfl
  after := unwritten_afterDeletion replacement

theorem quiet_deleteInfo (info : AssetInfo) (replacement : Option (Download B)) :
    (Phase.deleteInfo info replacement).Quiet (.deleteAsset info replacement) :=
  ⟨fun _ hd => hd, rfl, rfl⟩

/-- An info that is about to be written after a quiet move was so before. -/
theorem mem_of_quiet {phases : List (Phase B)} {i : Nat} {phase phase' : Phase B}
    (hquiet : phase.Quiet phase') {info : AssetInfo}
    (hmem : .writeInfo info ∈ phases.set i phase') :
    .writeInfo info ∈ phases := by
  rcases List.mem_or_eq_of_mem_set hmem with hmem | rfl
  · exact hmem
  · cases hquiet.after

section Steps

variable {s : DownloadsState B} {i : Nat} {phase phase' : Phase B}

theorem plain_set (h : s.Inv json dirs asset) (hi : s.phases[i]? = some phase)
    (hplain : ∀ download ∈ phase'.downloaded, download ∈ phase.downloaded ∨ download.IsPlain) :
    ∀ p ∈ s.phases.set i phase', ∀ download ∈ p.downloaded, download.IsPlain := by
  intro p hp download hdownload
  rcases List.mem_or_eq_of_mem_set hp with hp | rfl
  · exact h.plain p hp download hdownload
  · rcases hplain download hdownload with hdownload | hplain
    · exact h.plain phase (List.mem_of_getElem? hi) download hdownload
    · exact hplain

/-- Nothing happens to the files. -/
theorem inv_quiet (h : s.Inv json dirs asset) (hi : s.phases[i]? = some phase)
    (hquiet : phase.Quiet phase')
    (hplain : ∀ download ∈ phase'.downloaded, download ∈ phase.downloaded ∨ download.IsPlain) :
    DownloadsState.Inv json dirs asset ⟨s.phases.set i phase', s.fs⟩ where
  plain := plain_set h hi hplain
  written info hmem := by
    obtain ⟨hpath, hfile⟩ := h.written info (mem_of_quiet hquiet hmem)
    exact ⟨hpath, hfile.imp_right (exists_mem_set hi hquiet.writes)⟩
  intact := h.intact.imp_right (exists_mem_set hi hquiet.isPending)

/-- The info file is deleted. -/
theorem inv_deleteInfo (h : s.Inv json dirs asset) {info : AssetInfo}
    {replacement : Option (Download B)} (hi : s.phases[i]? = some (.deleteInfo info replacement)) :
    DownloadsState.Inv json dirs asset
      ⟨s.phases.set i (.deleteAsset info replacement), s.fs.remove (infoPath dirs asset)⟩ where
  plain := plain_set h hi fun _ hd => .inl hd
  written info' hmem := by
    have hquiet := quiet_deleteInfo info replacement
    obtain ⟨hpath, hfile⟩ := h.written info' (mem_of_quiet hquiet hmem)
    refine ⟨hpath, hfile.imp (fun hfile => ?_) (exists_mem_set hi hquiet.writes)⟩
    rw [FileSystem.read_remove, if_neg hpath]
    exact hfile
  intact := by
    refine .inl (intact_of_none ?_)
    rw [namedFile, FileSystem.read_remove, if_pos rfl]
    rfl

/-- A file is deleted: it is written again if an info for it comes, and if the info file names it,
    another info comes. -/
theorem inv_deleteAsset (h : s.Inv json dirs asset) {info : AssetInfo}
    {replacement : Option (Download B)} (hi : s.phases[i]? = some (.deleteAsset info replacement))
    (hagain : (∃ info' ∈ s.phases.filterMap Phase.unwritten,
        dataPath dirs asset info' = dataPath dirs asset info) →
      ∃ download ∈ s.phases.filterMap Phase.downloaded,
        newPath dirs asset download = dataPath dirs asset info)
    (hnamed : namedFile json s.fs (infoPath dirs asset) = some (dataPath dirs asset info) →
      s.phases.any Phase.isPending = true) :
    DownloadsState.Inv json dirs asset
      ⟨s.phases.set i (Phase.afterDeletion replacement),
        s.fs.remove (dataPath dirs asset info)⟩ where
  plain := plain_set h hi fun _ hd => .inl (by rwa [downloaded_afterDeletion] at hd)
  written info' hmem := by
    have hquiet := quiet_afterDeletion info replacement
    have hmem := mem_of_quiet hquiet hmem
    obtain ⟨hpath, hfile⟩ := h.written info' hmem
    refine ⟨hpath, ?_⟩
    by_cases hsame : dataPath dirs asset info' = dataPath dirs asset info
    · obtain ⟨download, hdownload, hnew⟩ :=
        hagain ⟨info', List.mem_filterMap.mpr ⟨_, hmem, rfl⟩, hsame⟩
      obtain ⟨p, hp, hdownload⟩ := List.mem_filterMap.mp hdownload
      exact .inr (exists_mem_set hi hquiet.writes
        ⟨p, hp, download, hdownload, hnew.trans hsame.symm⟩)
    · refine hfile.imp (fun hfile => ?_) (exists_mem_set hi hquiet.writes)
      rw [FileSystem.read_remove, if_neg hsame]
      exact hfile
  intact := by
    have hpending : (∃ p ∈ s.phases, p.isPending = true) →
        ∃ p ∈ s.phases.set i (Phase.afterDeletion replacement), p.isPending = true :=
      exists_mem_set hi (quiet_afterDeletion info replacement).isPending
    by_cases hfile : namedFile json s.fs (infoPath dirs asset) = some (dataPath dirs asset info)
    · exact .inr (hpending (List.any_eq_true.mp (hnamed hfile)))
    · exact h.intact.imp (fun hintact => intact_remove hintact hfile) hpending

/-- A file is written. -/
theorem inv_writeAsset (h : s.Inv json dirs asset) {download : Download B}
    (hi : s.phases[i]? = some (.writeAsset download)) {info : AssetInfo}
    (hnew : dataPath dirs asset info = newPath dirs asset download) {data : B} {fs' : FileSystem B}
    (hwrite : s.fs.write (dataPath dirs asset info) data = some fs') :
    DownloadsState.Inv json dirs asset ⟨s.phases.set i (.writeInfo info), fs'⟩ where
  plain := plain_set h hi fun _ hd => by cases hd
  written info' hmem := by
    have hread := (FileSystem.write_eq_some hwrite).2
    by_cases hsame : dataPath dirs asset info' = dataPath dirs asset info
    · rw [hsame]
      refine ⟨?_, .inl (by rw [hread, if_pos rfl]; rfl)⟩
      rw [hnew]
      exact newPath_ne_infoPath (h.plain _ (List.mem_of_getElem? hi) download rfl)
    · have hmem : .writeInfo info' ∈ s.phases := by
        rcases List.mem_or_eq_of_mem_set hmem with hmem | heq
        · exact hmem
        · exact absurd (congrArg (dataPath dirs asset) (Phase.writeInfo.inj heq)) hsame
      obtain ⟨hpath, hfile⟩ := h.written info' hmem
      refine ⟨hpath, hfile.imp (fun hfile => ?_) (exists_mem_set hi ?_)⟩
      · rw [hread, if_neg hsame]
        exact hfile
      · -- the download writes another file
        rintro ⟨d, hd, hpath⟩
        obtain rfl := Option.some.inj hd
        exact absurd (hpath.symm.trans hnew.symm) hsame
  intact := .inr ⟨_, List.mem_set (List.getElem?_eq_some_iff.mp hi).1 _, rfl⟩

/-- An info is written. -/
theorem inv_writeInfo (h : s.Inv json dirs asset) {info : AssetInfo}
    (hi : s.phases[i]? = some (.writeInfo info)) {result : Result Path} {fs' : FileSystem B}
    (hwrite : s.fs.write (infoPath dirs asset) (json.serialize info) = some fs') :
    DownloadsState.Inv json dirs asset ⟨s.phases.set i (.finished result), fs'⟩ where
  plain := plain_set h hi fun _ hd => by cases hd
  written info' hmem := by
    have hmem : .writeInfo info' ∈ s.phases := by
      rcases List.mem_or_eq_of_mem_set hmem with hmem | heq
      · exact hmem
      · cases heq
    obtain ⟨hpath, hfile⟩ := h.written info' hmem
    refine ⟨hpath, hfile.imp (fun hfile => ?_) (exists_mem_set hi ?_)⟩
    · rw [(FileSystem.write_eq_some hwrite).2, if_neg hpath]
      exact hfile
    · rintro ⟨d, hd, -⟩
      cases hd
  intact := by
    rcases (h.written info (List.mem_of_getElem? hi)).2 with hfile | ⟨p, hp, d, hd, -⟩
    · exact .inl (intact_of_write hfile hwrite).1
    · -- the file has been deleted, and its writer writes an info later
      have hsome : ∃ p ∈ s.phases, p.downloaded.isSome = true := ⟨p, hp, by rw [hd]; rfl⟩
      obtain ⟨q, hq, hsome⟩ := exists_mem_set (b := .finished result) hi (fun h => by cases h) hsome
      exact .inr ⟨q, hq, by rw [Phase.isPending, hsome, Bool.true_or]⟩

theorem inv_step {t : DownloadsState B} {a : DownloadStep B}
    (h : .ioError ∈ s.phases ∨ s.Inv json dirs asset) (hok : SparesFiles json dirs asset s a)
    (hstep : (downloads json dirs asset).step s a = some t) :
    .ioError ∈ t.phases ∨ t.Inv json dirs asset := by
  obtain ⟨phase, hphase, hstep⟩ := Option.bind_eq_some_iff.mp hstep
  obtain ⟨⟨phase', fs'⟩, hnext, rfl⟩ := Option.map_eq_some_iff.mp hstep
  rcases h with herror | h
  · -- a download that could not write a file makes no more steps
    refine .inl ?_
    obtain ⟨p, hp, rfl⟩ := exists_mem_set (P := fun p => p = .ioError) (b := phase') hphase
      (fun heq => by subst heq; cases hnext) ⟨_, herror, rfl⟩
    exact hp
  · rcases next_cases hnext with rfl | ⟨rfl, hquiet, hplain⟩ | ⟨info, replacement, rfl, rfl, rfl⟩ |
      ⟨info, replacement, rfl, rfl, rfl⟩ | ⟨download, info, rfl, rfl, hnew, hwrite⟩ |
      ⟨info, result, rfl, rfl, hwrite⟩
    · exact .inl (List.mem_set (List.getElem?_eq_some_iff.mp hphase).1 _)
    · exact .inr (inv_quiet h hphase hquiet hplain)
    · exact .inr (inv_deleteInfo h hphase)
    · obtain ⟨hagain, hnamed⟩ := hok info (by simp [hphase, Phase.deletion])
      exact .inr (inv_deleteAsset h hphase hagain hnamed)
    · exact .inr (inv_writeAsset h hphase hnew hwrite)
    · exact .inr (inv_writeInfo h hphase hwrite)

end Steps

/-! ### The info is there -/

/-- A move that keeps an asset: one is stored or about to be, or it has been removed, or nothing
    has happened to it. -/
theorem moves_kept {upstream : Upstream B} {fs fs' : FileSystem B} {phase phase' : Phase B}
    (h : phase.Moves json dirs asset upstream fs phase' fs') :
    phase' = .ioError ∨ phase'.isRemoval = true ∨ phase'.isPending = true ∨
      (namedFile json fs' (infoPath dirs asset)).isSome ∨
      (fs' = fs ∧ phase.isRemoval = false ∧ phase.isPending = false ∧
        (phase'.hasAsset = true → phase.hasAsset = true)) := by
  cases h with
  | missing | outdated | replaced | failed =>
    exact .inr (.inr (.inr (.inr ⟨rfl, rfl, rfl, fun hasset => by cases hasset⟩)))
  | found hread =>
    refine .inr (.inr (.inr (.inl ?_)))
    rw [AssetManager.namedFile_of_readInfo (getInfoPathAbsolute_managerFor upstream) hread]
    rfl
  | current => exact .inr (.inr (.inr (.inr ⟨rfl, rfl, rfl, fun _ => rfl⟩)))
  | removed => exact .inr (.inl rfl)
  | downloaded | noneExisting | existing | assetWritten => exact .inr (.inr (.inl rfl))
  | infoDeleted | assetDeleted =>
    rename_i replacement
    cases replacement with
    | none => exact .inr (.inl rfl)
    | some download => exact .inr (.inr (.inl rfl))
  | assetUnwritable | infoUnwritable => exact .inl rfl
  | infoWritten hwrite =>
    refine .inr (.inr (.inr (.inl ?_)))
    rw [namedFile, (FileSystem.write_eq_some hwrite).2, if_pos rfl, Option.bind_some,
      json.deserialize_serialize]
    rfl

variable (json dirs asset) in
/-- A stored asset is still there, or another one is about to be, unless it has been removed. -/
def DownloadsState.Kept (s : DownloadsState B) : Prop :=
  (∃ phase ∈ s.phases, phase.isRemoval = true) ∨ (∃ phase ∈ s.phases, phase.isPending = true) ∨
    (namedFile json s.fs (infoPath dirs asset)).isSome

theorem kept_step {stored : Prop} {s t : DownloadsState B} {a : DownloadStep B}
    (h : .ioError ∈ s.phases ∨
      (stored ∨ (∃ phase ∈ s.phases, phase.hasAsset = true) → s.Kept json dirs asset))
    (hstep : (downloads json dirs asset).step s a = some t) :
    .ioError ∈ t.phases ∨
      (stored ∨ (∃ phase ∈ t.phases, phase.hasAsset = true) → t.Kept json dirs asset) := by
  obtain ⟨phase, hphase, hstep⟩ := Option.bind_eq_some_iff.mp hstep
  obtain ⟨⟨phase', fs'⟩, hnext, rfl⟩ := Option.map_eq_some_iff.mp hstep
  have hmem : phase' ∈ s.phases.set a.who phase' :=
    List.mem_set (List.getElem?_eq_some_iff.mp hphase).1 _
  rcases h with herror | h
  · refine .inl ?_
    obtain ⟨p, hp, rfl⟩ := exists_mem_set (P := fun p => p = .ioError) (b := phase') hphase
      (fun heq => by subst heq; cases hnext) ⟨_, herror, rfl⟩
    exact hp
  · rcases moves_kept (moves_of_next hnext) with rfl | hremoval | hpending | hnamed |
      ⟨rfl, hremoval, hpending, hasset⟩
    · exact .inl hmem
    · exact .inr fun _ => .inl ⟨phase', hmem, hremoval⟩
    · exact .inr fun _ => .inr (.inl ⟨phase', hmem, hpending⟩)
    · exact .inr fun _ => .inr (.inr hnamed)
    · refine .inr fun hbefore => ?_
      have hkept : s.Kept json dirs asset := by
        refine h (hbefore.imp_right ?_)
        rintro ⟨p, hp, hhas⟩
        rcases List.mem_or_eq_of_mem_set hp with hp | rfl
        · exact ⟨p, hp, hhas⟩
        · exact ⟨phase, List.mem_of_getElem? hphase, hasset hhas⟩
      exact hkept.imp (exists_mem_set hphase fun htrue => by rw [hremoval] at htrue; cases htrue)
        (Or.imp_left (exists_mem_set hphase fun htrue => by rw [hpending] at htrue; cases htrue))

theorem kept_start {count : Nat} {fs : FileSystem B}
    (h : (namedFile json fs (infoPath dirs asset)).isSome ∨
      ∃ phase ∈ (DownloadsState.start count fs).phases, phase.hasAsset = true) :
    (DownloadsState.start count fs).Kept json dirs asset := by
  rcases h with hstored | ⟨phase, hmem, hasset⟩
  · exact .inr (.inr hstored)
  · rw [List.eq_of_mem_replicate hmem] at hasset
    cases hasset

/-- When all downloads have finished, the info names a file that exists, in every run whose
    deletions spare the files of the others. The info is there if one was there before or a download
    has returned a file, unless the asset was removed. -/
theorem downloads_leave_file {count : Nat} {fs : FileSystem B} {as : List (DownloadStep B)}
    {t : DownloadsState B} (hstart : Intact json fs (infoPath dirs asset))
    (hspares : (downloads json dirs asset).Meets (SparesFiles json dirs asset)
      (DownloadsState.start count fs) as)
    (hrun : (downloads json dirs asset).run (DownloadsState.start count fs) as = some t)
    (hfinished : t.phases.all Phase.isFinished = true) :
    Intact json t.fs (infoPath dirs asset) ∧
      (.finished (.error .removed) ∉ t.phases →
        (namedFile json fs (infoPath dirs asset)).isSome ∨
          (∃ path, .finished (.ok path) ∈ t.phases) →
        ∃ file, namedFile json t.fs (infoPath dirs asset) = some file ∧
          (t.fs.read file).isSome) := by
  have hinv : (DownloadsState.start count fs).Inv json dirs asset := by
    have hphase : ∀ phase ∈ (DownloadsState.start count fs).phases, phase = .readInfo :=
      fun phase hphase => List.eq_of_mem_replicate hphase
    refine ⟨fun phase hmem download hdownload => ?_, fun info hmem => ?_, .inl hstart⟩
    · rw [hphase phase hmem] at hdownload
      cases hdownload
    · cases hphase _ hmem
  have hover : ∀ phase ∈ t.phases, ∃ result, phase = .finished result := by
    intro phase hmem
    have hfinished := List.all_eq_true.mp hfinished phase hmem
    cases phase with
    | finished result => exact ⟨result, rfl⟩
    | readInfo | checkUpToDate | checkRemoved | downloading | readExisting | deleteInfo
    | deleteAsset | writeAsset | writeInfo | ioError => cases hfinished
  have hintact : Intact json t.fs (infoPath dirs asset) := by
    rcases (downloads json dirs asset).inv_of_run (fun _ _ _ => inv_step) (.inr hinv) hspares hrun
      with herror | hend
    · obtain ⟨result, hresult⟩ := hover _ herror
      cases hresult
    · rcases hend.intact with hintact | ⟨phase, hmem, hpending⟩
      · exact hintact
      · obtain ⟨result, rfl⟩ := hover phase hmem
        cases hpending
  refine ⟨hintact, fun hremoved hstored => ?_⟩
  have hkept := (downloads json dirs asset).inv_of_run (fun _ _ _ h _ => kept_step h)
    (.inr kept_start) hspares hrun
  rcases hkept with herror | hkept
  · obtain ⟨result, hresult⟩ := hover _ herror
    cases hresult
  · have hasset : (namedFile json fs (infoPath dirs asset)).isSome ∨
        ∃ phase ∈ t.phases, phase.hasAsset = true :=
      hstored.imp_right fun ⟨path, hmem⟩ => ⟨_, hmem, rfl⟩
    rcases hkept hasset with ⟨phase, hmem, hremoval⟩ | ⟨phase, hmem, hpending⟩ | hnamed
    · obtain ⟨result, rfl⟩ := hover phase hmem
      match result, hremoval with
      | .error .removed, _ => exact absurd hmem hremoved
    · obtain ⟨result, rfl⟩ := hover phase hmem
      cases hpending
    · obtain ⟨file, hfile⟩ := Option.isSome_iff_exists.mp hnamed
      exact ⟨file, hfile, hintact file hfile⟩

end Downloads

/-! ## Two downloads of an avatar -/

def avatarDirs : MediaDirs := ⟨["data"], ["media"]⟩

def avatarAsset : MediaAsset := .roomAvatar plainRoom

/-- The avatar has been replaced upstream by one with this extension. -/
def replacedBy (extension : String) (h : '/' ∉ extension.toList) : Upstream AvatarFile where
  isUpToDate _ := .ok false
  wasRemoved := false
  download := .ok ⟨.image extension, some extension, "mxc://hs/" ++ extension⟩
  plain := by
    rintro _ ⟨⟩ _ ⟨⟩
    exact h

/-- A step of a download for which the new avatar is an image of this kind. -/
def asPng (who : Nat) : DownloadStep AvatarFile := ⟨who, replacedBy "png" (by decide)⟩

def asJpg (who : Nat) : DownloadStep AvatarFile := ⟨who, replacedBy "jpg" (by decide)⟩

/-- The directory with a stored avatar. -/
def storedAvatar : FileSystem AvatarFile where
  dirs := [["data", "media", "room_avatars"]]
  files := ((∅ : AList fun _ : Path => AvatarFile).insert
      ["data", "media", "room_avatars", "!r:hs.png"] (.image "old")).insert
    ["data", "media", "room_avatars", "!r:hs_info.json"] (.info ⟨"!r:hs.png", "mxc://hs/old"⟩)

theorem intact_storedAvatar :
    Intact avatarFormat storedAvatar (infoPath avatarDirs avatarAsset) := by
  have hnamed : namedFile avatarFormat storedAvatar (infoPath avatarDirs avatarAsset)
      = some ["data", "media", "room_avatars", "!r:hs.png"] := by decide +kernel
  intro file hfile
  rw [hnamed] at hfile
  obtain rfl := Option.some.inj hfile
  decide +kernel

/-- Two downloads replace the stored avatar, the first by a png. The second has read its info before
    the first, which finds none any more and writes its file; the second deletes this file as the
    old one, and the first writes its info last. -/
def interleaved (second : DownloadStep AvatarFile) : List (DownloadStep AvatarFile) :=
  List.replicate 4 (asPng 0) ++ List.replicate 6 second ++ List.replicate 2 (asPng 0)
    ++ List.replicate 3 second ++ [asPng 0]

/-- The second download writes a file of the same name. -/
theorem downloads_leave_file_same_name :
    ∃ t, (downloads avatarFormat avatarDirs avatarAsset).run (.start 2 storedAvatar)
        (interleaved (asPng 1)) = some t ∧
      ∃ file, namedFile avatarFormat t.fs (infoPath avatarDirs avatarAsset) = some file ∧
        (t.fs.read file).isSome := by
  have hspares : (downloads avatarFormat avatarDirs avatarAsset).Meets
      (SparesFiles avatarFormat avatarDirs avatarAsset) (.start 2 storedAvatar)
      (interleaved (asPng 1)) := by
    decide +kernel
  refine ⟨_, rfl, (downloads_leave_file intact_storedAvatar hspares rfl (by decide +kernel)).2 ?_
    (.inl (by decide +kernel))⟩
  exact fun hmem => absurd (List.mem_map_of_mem (f := Phase.isRemoval) hmem) (by decide +kernel)

/-- The second download writes a jpg: both have finished, and the file that the info names has been
    deleted. -/
theorem deleted_file :
    ((downloads avatarFormat avatarDirs avatarAsset).run (.start 2 storedAvatar)
        (interleaved (asJpg 1))).map
        (fun t => (t.phases.all Phase.isFinished,
          (namedFile avatarFormat t.fs (infoPath avatarDirs avatarAsset)).map t.fs.read))
      = some (true, some none) := by
  decide +kernel

end GoudaMatrix.Media
