/-
  The attachments of one room after any number of downloads.

  An asset id has at most one file in the directory. `fetch_slot` is one download, which the
  specification `slotFetch` describes by the stored asset alone, and `slots_fetchAll` all of them
  from an empty file system. Where downloads succeed, the stored asset is that of `written`, the
  last content whose URL differs from the one before. Ids with a separator are left out, as a file
  cannot be written in a directory that nobody creates.
-/
import GoudaMatrix.Media.AssetManager
import Mathlib.Data.List.Infix

namespace GoudaMatrix.Media

open GoudaMatrix.Lib GoudaMatrix.Ruma

/-! ## Names -/

/-- An id with a sigil and without a separator. -/
def PlainId (id : String) : Prop := id.toList.head? = some '$' ∧ '/' ∉ id.toList

theorem PlainId.append {id s : String} (hid : PlainId id) (hs : '/' ∉ s.toList) :
    PlainId (id ++ s) := by
  obtain ⟨hhead, hsep⟩ := hid
  refine ⟨?_, ?_⟩
  · rw [String.toList_append, List.head?_append, hhead]
    rfl
  · rw [String.toList_append, List.mem_append]
    exact fun h => h.elim hsep hs

theorem PlainId.isName {id : String} (hid : PlainId id) : Path.IsName id := by
  obtain ⟨hhead, hsep⟩ := hid
  refine ⟨?_, ?_, hsep⟩ <;> rintro rfl <;> simp at hhead

theorem plainId_infoFileName {id : String} (hid : PlainId id) : PlainId (infoFileName id) :=
  (hid.append (by decide)).append (by decide)

theorem plainId_assetFileName {id : String} {extension : Option String} (hid : PlainId id)
    (h : ∀ e, extension = some e → '/' ∉ e.toList) : PlainId (assetFileName id extension) := by
  cases extension with
  | none => exact hid
  | some e => exact (hid.append (by decide)).append (h e rfl)

/-! ## Stored assets -/

/-- An asset in the directory, with an extension that has no separator. -/
structure StoredAsset (B : Type) where
  fileExtension : Option String
  upstreamUrl : String
  data : B
  plain : ∀ e, fileExtension = some e → '/' ∉ e.toList

def StoredAsset.fileName {B : Type} (asset : StoredAsset B) (id : String) : String :=
  assetFileName id asset.fileExtension

theorem StoredAsset.plainId_fileName {B : Type} (asset : StoredAsset B) {id : String}
    (hid : PlainId id) : PlainId (asset.fileName id) :=
  plainId_assetFileName hid asset.plain

/-- A file name that an asset of the id uses. -/
def OwnName (id name : String) : Prop :=
  name = infoFileName id ∨
    ∃ extension, (∀ e, extension = some e → '/' ∉ e.toList) ∧ name = assetFileName id extension

theorem StoredAsset.ownName {B : Type} (asset : StoredAsset B) (id : String) :
    OwnName id (asset.fileName id) := .inr ⟨_, asset.plain, rfl⟩

/-- No file name belongs to both ids. -/
def NamesApart (a b : String) : Prop := ∀ name, OwnName a name → ¬ OwnName b name

section Fetched

variable {B : Type} (client : MediaClient B) (content : MediaContent)

/-- The extension of the content of a message, by its file name or its data. -/
def extensionOf (data : B) : Option String :=
  determineFileExtensionWithPath client data (content.filename.getD content.body)

theorem plain_extensionOf (data : B) (e : String) (h : extensionOf client content data = some e) :
    '/' ∉ e.toList := by
  unfold extensionOf determineFileExtensionWithPath at h
  cases hext : Path.extension (Path.components (content.filename.getD content.body)) with
  | none =>
    rw [hext, Option.none_or] at h
    exact client.infer_plain h
  | some e' =>
    rw [hext, Option.some_or] at h
    obtain rfl := Option.some.inj h
    exact Path.not_mem_extension (fun name => Path.isName_of_mem_components) hext

/-- The content once it is downloaded. -/
def toStored (data : B) : StoredAsset B :=
  ⟨extensionOf client content data, content.source.url, data, plain_extensionOf client content data⟩

theorem fileExtension_toStored (data : B) :
    (toStored client content data).fileExtension = extensionOf client content data := by
  rw [toStored]

/-- The asset that a download of the content returns, and the one that is stored then, if `slot`
    has been before. -/
def slotFetch (slot : Option (StoredAsset B)) : Result (StoredAsset B) × Option (StoredAsset B) :=
  match slot.filter fun stored => content.source.url = stored.upstreamUrl with
  | some stored => (.ok stored, slot)
  | none =>
    match client.getFile content.source with
    | .error e => (.error e, slot)
    | .ok data => (.ok (toStored client content data), some (toStored client content data))

end Fetched

/-! ## One download -/

variable {B : Type} (inner : MediaManagerInner B) (roomId : String)

/-- The path of a file in the attachments of the room, relative to the data root. -/
def roomPath (name : String) : Path := Path.join inner.attachmentsDir roomId ++ [name]

/-- The file of the given name in the attachments of the room. -/
def readFile (fs : FileSystem B) (name : String) : Option B :=
  fs.read (inner.dataRootDir ++ roomPath inner roomId name)

/-- The directory of the room has no directories in it. -/
def NoSubdirectory (fs : FileSystem B) : Prop :=
  ∀ name, inner.dataRootDir ++ roomPath inner roomId name ∉ fs.dirs

/-- A download of the manager with the file name of the content. -/
def fetch (id : String) (content : MediaContent) (fs : FileSystem B) : Result Path × FileSystem B :=
  inner.downloadFromMediaEventContent roomId id content
    (some (content.filename.getD content.body)) fs

/-- The files of an id whose stored asset is the given one. -/
structure Stored (fs : FileSystem B) (id : String) (asset : StoredAsset B) : Prop where
  info : readFile inner roomId fs (infoFileName id)
    = some (inner.json.serialize ⟨asset.fileName id, asset.upstreamUrl⟩)
  file : readFile inner roomId fs (asset.fileName id) = some asset.data
  others : ∀ name, OwnName id name → name ≠ infoFileName id → name ≠ asset.fileName id →
    readFile inner roomId fs name = none

/-- The files of an id of which the given asset is stored, if any. -/
def Slot (fs : FileSystem B) (id : String) : Option (StoredAsset B) → Prop
  | none => ∀ name, OwnName id name → readFile inner roomId fs name = none
  | some asset => Stored inner roomId fs id asset

section Files

variable {inner roomId} {fs fs' : FileSystem B} {name : String}

/-- The directory of the room is there, without directories in it. -/
def Ready (inner : MediaManagerInner B) (roomId : String) (fs : FileSystem B) : Prop :=
  inner.dataRootDir ++ Path.join inner.attachmentsDir roomId ∈ fs.dirs ∧
    NoSubdirectory inner roomId fs

theorem write_eq_some_of_ready (h : Ready inner roomId fs) (name : String) (contents : B) :
    ∃ fs', fs.write (inner.dataRootDir ++ roomPath inner roomId name) contents = some fs' := by
  obtain ⟨hdir, hsub⟩ := h
  have hparent : (inner.dataRootDir ++ roomPath inner roomId name).dropLast ∈ fs.dirs := by
    rw [roomPath, ← List.append_assoc, List.dropLast_concat]
    exact hdir
  exact ⟨_, if_pos ⟨hparent, hsub name⟩⟩

theorem readFile_write {contents : B}
    (h : fs.write (inner.dataRootDir ++ roomPath inner roomId name) contents = some fs') :
    fs'.dirs = fs.dirs ∧ ∀ n, readFile inner roomId fs' n
      = if n = name then some contents else readFile inner roomId fs n := by
  obtain ⟨hdirs, hread⟩ := FileSystem.write_eq_some h
  refine ⟨hdirs, fun n => ?_⟩
  unfold readFile
  rw [hread]
  simp [roomPath]

theorem readFile_remove (n : String) :
    readFile inner roomId (fs.remove (inner.dataRootDir ++ roomPath inner roomId name)) n
      = if n = name then none else readFile inner roomId fs n := by
  unfold readFile
  rw [FileSystem.read_remove]
  simp [roomPath]

end Files

section Manager

variable {inner roomId} {id : String} (content : MediaContent)

/-- The asset manager of a download. -/
def assetManager (inner : MediaManagerInner B) (roomId id : String) (content : MediaContent) :
    AssetManager B :=
  ⟨inner.dataRootDir, Path.join inner.attachmentsDir roomId,
    MediaEventAsset.toAsset inner.client ⟨id, content, some (content.filename.getD content.body)⟩⟩

theorem getInfoPathAbsolute_eq (hid : PlainId id) :
    (assetManager inner roomId id content).getInfoPathAbsolute
      = .ok (inner.dataRootDir ++ roomPath inner roomId (infoFileName id)) := by
  have hname := Path.components_of_isName (plainId_infoFileName hid).isName
  have hfile : (assetManager inner roomId id content).getInfoFileName = .ok (infoFileName id) := rfl
  unfold AssetManager.getInfoPathAbsolute
  rw [hfile]
  simp [Except.map, Path.join, hname, roomPath, AssetManager.getDownloadDirAbsolute,
    AssetManager.getDownloadDirRelative, assetManager]

theorem getAssetPathAbsolute_eq (hid : PlainId id) {name : String} (hname : PlainId name) :
    (assetManager inner roomId id content).getAssetPathAbsolute name
      = .ok (inner.dataRootDir ++ roomPath inner roomId name) := by
  unfold AssetManager.getAssetPathAbsolute
  rw [getInfoPathAbsolute_eq content hid]
  have hset := Path.setFileName_of_isName
    (inner.dataRootDir ++ Path.join inner.attachmentsDir roomId)
      (infoFileName_ne_parent id) hname.isName
  simpa [Except.map, roomPath] using hset

theorem getAssetPathRelative_eq (hid : PlainId id) {name : String} (hname : PlainId name) :
    (assetManager inner roomId id content).getAssetPathRelative name
      = .ok (roomPath inner roomId name) := by
  have hinfo := Path.components_of_isName (plainId_infoFileName hid).isName
  have hset := Path.setFileName_of_isName (Path.join inner.attachmentsDir roomId)
    (infoFileName_ne_parent id) hname.isName
  have hfile : (assetManager inner roomId id content).getInfoFileName = .ok (infoFileName id) := rfl
  unfold AssetManager.getAssetPathRelative AssetManager.getInfoPathRelative
  rw [hfile]
  simpa [Except.map, Path.join, hinfo, roomPath, AssetManager.getDownloadDirRelative, assetManager]
    using hset

theorem readInfo_eq (hid : PlainId id) (fs : FileSystem B) :
    (assetManager inner roomId id content).readInfo inner.json fs
      = (readFile inner roomId fs (infoFileName id)).bind inner.json.deserialize := by
  unfold AssetManager.readInfo
  rw [getInfoPathAbsolute_eq content hid]
  rfl

theorem deleteAssetAndInfo_spec (hid : PlainId id) (info : AssetInfo) (hfile : PlainId info.file)
    (fs : FileSystem B) :
    let fs' := (assetManager inner roomId id content).deleteAssetAndInfo info fs
    fs'.dirs = fs.dirs ∧ ∀ n, readFile inner roomId fs' n
      = if n = info.file ∨ n = infoFileName id then none else readFile inner roomId fs n := by
  unfold AssetManager.deleteAssetAndInfo
  rw [getInfoPathAbsolute_eq content hid, getAssetPathAbsolute_eq content hid hfile]
  refine ⟨rfl, fun n => ?_⟩
  dsimp only
  rw [readFile_remove, readFile_remove]
  grind

theorem writeInfoAndAsset_spec (hid : PlainId id) (info : AssetInfo) (hfile : PlainId info.file)
    (contents : B) {fs : FileSystem B} (hready : Ready inner roomId fs) :
    ∃ fs', (assetManager inner roomId id content).writeInfoAndAsset inner.json info contents fs
        = (.ok (), fs') ∧ fs'.dirs = fs.dirs ∧
      ∀ n, readFile inner roomId fs' n
        = if n = infoFileName id then some (inner.json.serialize info)
          else if n = info.file then some contents else readFile inner roomId fs n := by
  obtain ⟨fs₁, hwrite₁⟩ := write_eq_some_of_ready hready info.file contents
  obtain ⟨hdirs₁, hread₁⟩ := readFile_write hwrite₁
  have hready₁ : Ready inner roomId fs₁ := by
    unfold Ready NoSubdirectory
    rw [hdirs₁]
    exact hready
  obtain ⟨fs₂, hwrite₂⟩ := write_eq_some_of_ready hready₁ (infoFileName id)
    (inner.json.serialize info)
  obtain ⟨hdirs₂, hread₂⟩ := readFile_write hwrite₂
  refine ⟨fs₂, ?_, hdirs₂.trans hdirs₁, fun n => ?_⟩
  · unfold AssetManager.writeInfoAndAsset
    rw [getInfoPathAbsolute_eq content hid, getAssetPathAbsolute_eq content hid hfile]
    simp only [hwrite₁, hwrite₂]
  · rw [hread₂, hread₁]

theorem deleteExisting_spec (hid : PlainId id) {fs : FileSystem B}
    {slot : Option (StoredAsset B)} (hslot : Slot inner roomId fs id slot) :
    let fs' := (assetManager inner roomId id content).deleteExisting inner.json fs
    fs'.dirs = fs.dirs ∧ (∀ n, OwnName id n → readFile inner roomId fs' n = none) ∧
      ∀ n, ¬ OwnName id n → readFile inner roomId fs' n = readFile inner roomId fs n := by
  unfold AssetManager.deleteExisting
  rw [readInfo_eq content hid]
  cases slot with
  | none =>
    rw [hslot _ (.inl rfl)]
    exact ⟨rfl, hslot, fun _ _ => rfl⟩
  | some asset =>
    have hstored : Stored inner roomId fs id asset := hslot
    rw [hstored.info, Option.bind_some, inner.json.deserialize_serialize]
    obtain ⟨hdirs, hread⟩ := deleteAssetAndInfo_spec content hid
      ⟨asset.fileName id, asset.upstreamUrl⟩ (asset.plainId_fileName hid) fs
    refine ⟨hdirs, fun n hn => ?_, fun n hn => ?_⟩
    · rw [hread]
      split
      · rfl
      · next hne =>
        rw [not_or] at hne
        exact hstored.others n hn hne.2 hne.1
    · rw [hread, if_neg]
      rintro (rfl | rfl)
      · exact hn (asset.ownName id)
      · exact hn (.inl rfl)

theorem getAssetFileName_eq (extension : Option String) :
    (assetManager inner roomId id content).getAssetFileName extension
      = .ok (assetFileName id extension) := rfl

/-- An asset that is downloaded replaces the stored one of its id. -/
theorem downloadAsset_spec {data : B} (hdata : inner.client.getFile content.source = .ok data)
    (hid : PlainId id) {fs : FileSystem B} (hready : Ready inner roomId fs)
    {slot : Option (StoredAsset B)} (hslot : Slot inner roomId fs id slot) :
    let asset := toStored inner.client content data
    ∃ fs', (assetManager inner roomId id content).downloadAsset inner.json fs
        = (.ok (roomPath inner roomId (asset.fileName id)), fs') ∧
      fs'.dirs = fs.dirs ∧ Stored inner roomId fs' id asset ∧
      ∀ n, ¬ OwnName id n → readFile inner roomId fs' n = readFile inner roomId fs n := by
  intro asset
  have hextension : asset.fileExtension = extensionOf inner.client content data :=
    fileExtension_toStored inner.client content data
  have hurl : asset.upstreamUrl = content.source.url := rfl
  have hstored : asset.data = data := rfl
  clear_value asset
  have hplain := asset.plainId_fileName hid
  obtain ⟨hdirs₁, hnone, hframe₁⟩ := deleteExisting_spec content hid hslot
  have hready₁ : Ready inner roomId
      ((assetManager inner roomId id content).deleteExisting inner.json fs) := by
    unfold Ready NoSubdirectory
    rw [hdirs₁]
    exact hready
  obtain ⟨fs₂, hwrite, hdirs₂, hread₂⟩ := writeInfoAndAsset_spec content hid
    ⟨asset.fileName id, content.source.url⟩ hplain data hready₁
  have hne : asset.fileName id ≠ infoFileName id := assetFileName_ne_infoFileName id _
  refine ⟨fs₂, ?_, hdirs₂.trans hdirs₁, ⟨?_, ?_, fun n hn hinfo hname => ?_⟩, fun n hn => ?_⟩
  · have hdownload : (assetManager inner roomId id content).asset.download
        = .ok ⟨data, extensionOf inner.client content data, content.source.url⟩ := by
      simp only [assetManager, MediaEventAsset.toAsset, hdata]
      rfl
    have hname : (assetManager inner roomId id content).getAssetFileName
        (extensionOf inner.client content data) = .ok (asset.fileName id) := by
      rw [getAssetFileName_eq, ← hextension, StoredAsset.fileName]
    unfold AssetManager.downloadAsset
    simp only [hdownload, hname, hwrite, getAssetPathRelative_eq content hid hplain]
  · rw [hread₂, if_pos rfl, hurl]
  · rw [hread₂, if_neg hne, if_pos rfl, hstored]
  · rw [hread₂, if_neg hinfo, if_neg hname]
    exact hnone n hn
  · have hinfo : n ≠ infoFileName id := fun h => hn (.inl h)
    have hname : n ≠ asset.fileName id := fun h => hn (h ▸ asset.ownName id)
    rw [hread₂, if_neg hinfo, if_neg hname]
    exact hframe₁ n hn

theorem downloadAsset_error {e : MediaError}
    (hdata : inner.client.getFile content.source = .error e) (fs : FileSystem B) :
    (assetManager inner roomId id content).downloadAsset inner.json fs = (.error e, fs) := by
  have hdownload : (assetManager inner roomId id content).asset.download = .error e := by
    simp only [assetManager, MediaEventAsset.toAsset, hdata]
    rfl
  unfold AssetManager.downloadAsset
  rw [hdownload]

/-- The directory of the room is there before a download. -/
theorem ready_initDirRelative {fs : FileSystem B} (hsub : NoSubdirectory inner roomId fs) :
    Ready inner roomId (inner.initDirRelative (Path.join inner.attachmentsDir roomId) fs) := by
  refine ⟨List.mem_append_left _ ((List.mem_inits _ _).mpr (List.prefix_refl _)),
    fun name hmem => ?_⟩
  rcases List.mem_append.mp hmem with hmem | hmem
  · have hlength := ((List.mem_inits _ _).mp hmem).length_le
    rw [roomPath, ← List.append_assoc, List.length_append, List.length_singleton] at hlength
    omega
  · exact hsub name hmem

/-- A download that is not up to date. -/
theorem downloadAsset_slot (hid : PlainId id) {fs : FileSystem B} (hready : Ready inner roomId fs)
    {slot : Option (StoredAsset B)} (hslot : Slot inner roomId fs id slot) :
    ∃ fs', (assetManager inner roomId id content).downloadAsset inner.json fs
        = ((match inner.client.getFile content.source with
            | .error e => .error e
            | .ok data =>
              .ok (roomPath inner roomId ((toStored inner.client content data).fileName id))),
          fs') ∧
      NoSubdirectory inner roomId fs' ∧
      Slot inner roomId fs' id (match inner.client.getFile content.source with
        | .error _ => slot
        | .ok data => some (toStored inner.client content data)) ∧
      ∀ n, ¬ OwnName id n → readFile inner roomId fs' n = readFile inner roomId fs n := by
  cases hdata : inner.client.getFile content.source with
  | error e => exact ⟨fs, downloadAsset_error content hdata fs, hready.2, hslot, fun _ _ => rfl⟩
  | ok data =>
    obtain ⟨fs', hdownload, hdirs, hstored, hframe⟩ :=
      downloadAsset_spec content hdata hid hready hslot
    refine ⟨fs', hdownload, ?_, hstored, hframe⟩
    unfold NoSubdirectory
    rw [hdirs]
    exact hready.2

/-- A download returns the path of the asset of `slotFetch`, and leaves the one that is stored. -/
theorem fetch_slot (hid : PlainId id) {fs : FileSystem B} (hsub : NoSubdirectory inner roomId fs)
    {slot : Option (StoredAsset B)} (hslot : Slot inner roomId fs id slot) :
    ∃ fs', fetch inner roomId id content fs
        = ((slotFetch inner.client content slot).1.map fun asset =>
            roomPath inner roomId (asset.fileName id), fs') ∧
      NoSubdirectory inner roomId fs' ∧
      Slot inner roomId fs' id (slotFetch inner.client content slot).2 ∧
      ∀ n, ¬ OwnName id n → readFile inner roomId fs' n = readFile inner roomId fs n := by
  let fs₀ := inner.initDirRelative (Path.join inner.attachmentsDir roomId) fs
  have hready : Ready inner roomId fs₀ := ready_initDirRelative hsub
  have hslot₀ : Slot inner roomId fs₀ id slot := by
    cases slot with
    | none => exact hslot
    | some asset =>
      have hstored : Stored inner roomId fs id asset := hslot
      exact ⟨hstored.info, hstored.file, hstored.others⟩
  have hfetch : fetch inner roomId id content fs
      = (assetManager inner roomId id content).download inner.json fs₀ := rfl
  have hfresh := downloadAsset_slot content hid hready hslot₀
  rw [hfetch]
  unfold AssetManager.download AssetManager.hasBeenDownloadedBefore
  rw [readInfo_eq content hid]
  obtain ⟨fs', hdownload, hrest⟩ := hfresh
  have hkept : ∀ n, readFile inner roomId fs₀ n = readFile inner roomId fs n := fun _ => rfl
  simp only [hkept] at hrest
  cases slot with
  | none =>
    rw [hslot₀ _ (.inl rfl)]
    refine ⟨fs', ?_, ?_⟩
    · simp only [Option.bind_none, hdownload, slotFetch, Option.filter_none]
      cases inner.client.getFile content.source <;> rfl
    · simp only [slotFetch, Option.filter_none]
      cases hdata : inner.client.getFile content.source <;> simpa [hdata] using hrest
  | some asset =>
    have hold : Stored inner roomId fs₀ id asset := hslot₀
    rw [hold.info, Option.bind_some, inner.json.deserialize_serialize]
    have hcheck : (assetManager inner roomId id content).isUpToDate
        ⟨asset.fileName id, asset.upstreamUrl⟩
          = decide (content.source.url = asset.upstreamUrl) := rfl
    have hremoved : (assetManager inner roomId id content).asset.wasRemoved = false := rfl
    simp only [hcheck, hremoved]
    by_cases hurl : content.source.url = asset.upstreamUrl
    · have hspec : slotFetch inner.client content (some asset) = (.ok asset, some asset) := by
        simp [slotFetch, Option.filter, hurl]
      rw [hspec]
      refine ⟨fs₀, ?_, hready.2, hold, fun _ _ => rfl⟩
      simp only [hurl, decide_true, if_true]
      rw [getAssetPathRelative_eq content hid (asset.plainId_fileName hid)]
      rfl
    · refine ⟨fs', ?_, ?_⟩
      · simp only [hurl, decide_false, Bool.false_eq_true, if_false, hdownload, slotFetch,
          Option.filter]
        cases inner.client.getFile content.source <;> rfl
      · simp only [slotFetch, Option.filter, hurl, decide_false, Bool.false_eq_true, if_false]
        cases hdata : inner.client.getFile content.source <;> simpa [hdata] using hrest

end Manager

/-! ## Many downloads -/

/-- The downloads, each with its id, one after another. -/
def fetchAll (downloads : List (String × MediaContent)) (fs : FileSystem B) : FileSystem B :=
  downloads.foldl (fun fs d => (fetch inner roomId d.1 d.2 fs).2) fs

/-- The contents that are downloaded under the id. -/
def contentsOf (id : String) (downloads : List (String × MediaContent)) : List MediaContent :=
  (downloads.filter fun d => d.1 = id).map Prod.snd

theorem contentsOf_append (id : String) (ds ds' : List (String × MediaContent)) :
    contentsOf id (ds ++ ds') = contentsOf id ds ++ contentsOf id ds' := by
  simp [contentsOf]

/-- Ids whose files are told apart by their names. -/
structure AssetIds (ids : List String) : Prop where
  plain : ∀ id ∈ ids, PlainId id
  apart : ∀ a ∈ ids, ∀ b ∈ ids, a ≠ b → NamesApart a b

/-- The stored asset of every id. -/
structure Slots (ids : List String) (slots : String → Option (StoredAsset B)) (fs : FileSystem B) :
    Prop where
  noSubdirectory : NoSubdirectory inner roomId fs
  slot : ∀ id ∈ ids, Slot inner roomId fs id (slots id)

section Slots

variable {inner roomId} {ids : List String}

theorem slots_empty : Slots inner roomId ids (fun _ => none) FileSystem.empty where
  noSubdirectory := fun _ => List.not_mem_nil
  slot := fun _ _ _ _ => rfl

theorem Slot.congr {fs fs' : FileSystem B} {id : String} {slot : Option (StoredAsset B)}
    (h : Slot inner roomId fs id slot)
    (hread : ∀ n, OwnName id n → readFile inner roomId fs' n = readFile inner roomId fs n) :
    Slot inner roomId fs' id slot := by
  cases slot with
  | none => exact fun n hn => (hread n hn).trans (h n hn)
  | some asset =>
    have hstored : Stored inner roomId fs id asset := h
    exact
      { info := (hread _ (.inl rfl)).trans hstored.info
        file := (hread _ (asset.ownName id)).trans hstored.file
        others := fun n hn hi hs => (hread n hn).trans (hstored.others n hn hi hs) }

/-- A download changes the stored asset of its own id only. -/
theorem Slots.fetch (hids : AssetIds ids) {slots : String → Option (StoredAsset B)}
    {fs : FileSystem B} (h : Slots inner roomId ids slots fs) {id : String} (hid : id ∈ ids)
    (content : MediaContent) :
    ∃ fs', fetch inner roomId id content fs
        = ((slotFetch inner.client content (slots id)).1.map fun asset =>
            roomPath inner roomId (asset.fileName id), fs') ∧
      Slots inner roomId ids
        (Function.update slots id (slotFetch inner.client content (slots id)).2) fs' := by
  obtain ⟨fs', hfetch, hsub, hslot, hframe⟩ :=
    fetch_slot content (hids.plain id hid) h.noSubdirectory (h.slot id hid)
  refine ⟨fs', hfetch, hsub, fun other hother => ?_⟩
  by_cases heq : other = id
  · subst heq
    rwa [Function.update_self]
  · rw [Function.update_of_ne heq]
    exact (h.slot other hother).congr fun n hn => hframe n (hids.apart other hother id hid heq n hn)

end Slots

/-! ## Downloads that succeed -/

/-- The content whose file is stored after a download, if that of `stored` has been before. -/
def next (stored : Option MediaContent) (content : MediaContent) : MediaContent :=
  match stored with
  | none => content
  | some stored => if content.source.url = stored.source.url then stored else content

/-- The last content whose URL differs from the one before it. -/
def written (contents : List MediaContent) : Option MediaContent :=
  contents.foldl (fun stored content => some (next stored content)) none

theorem written_append_singleton (contents : List MediaContent) (content : MediaContent) :
    written (contents ++ [content]) = some (next (written contents) content) := by
  simp [written]

section Successful

variable {inner roomId} {ids : List String} {downloads : List (String × MediaContent)}
  {data : MediaSource → B}

/-- The stored asset of a content with its own data. -/
def storedAsset (inner : MediaManagerInner B) (data : MediaSource → B) (content : MediaContent) :
    StoredAsset B := toStored inner.client content (data content.source)

theorem slotFetch_eq (hdata : ∀ source, inner.client.getFile source = .ok (data source))
    (content : MediaContent) (stored : Option MediaContent) :
    slotFetch inner.client content (stored.map (storedAsset inner data))
      = (.ok (storedAsset inner data (next stored content)),
          some (storedAsset inner data (next stored content))) := by
  cases stored with
  | none => simp [slotFetch, next, hdata, storedAsset]
  | some stored =>
    have hurl : (storedAsset inner data stored).upstreamUrl = stored.source.url := rfl
    by_cases h : content.source.url = stored.source.url
    · simp [slotFetch, next, h, hurl, Option.filter]
    · simp only [slotFetch, next, Option.map_some, Option.filter, hurl, h, decide_false,
        Bool.false_eq_true, if_false, hdata]
      rfl

/-- Of every id the content that has been written by the downloads is stored. -/
abbrev WrittenSlots (inner : MediaManagerInner B) (roomId : String) (data : MediaSource → B)
    (ids : List String) (downloads : List (String × MediaContent)) (fs : FileSystem B) : Prop :=
  Slots inner roomId ids
    (fun id => (written (contentsOf id downloads)).map (storedAsset inner data)) fs

/-- A download in the room: its path is that of the content that is written then. -/
theorem writtenSlots_fetch (hids : AssetIds ids)
    (hdata : ∀ source, inner.client.getFile source = .ok (data source)) {fs : FileSystem B}
    (h : WrittenSlots inner roomId data ids downloads fs) {id : String} (hid : id ∈ ids)
    (content : MediaContent) :
    ∃ fs', fetch inner roomId id content fs
        = (.ok (roomPath inner roomId ((storedAsset inner data
            (next (written (contentsOf id downloads)) content)).fileName id)), fs') ∧
      WrittenSlots inner roomId data ids (downloads ++ [(id, content)]) fs' := by
  obtain ⟨fs', hfetch, hslots⟩ := Slots.fetch hids h hid content
  rw [slotFetch_eq hdata] at hfetch hslots
  refine ⟨fs', hfetch, hslots.noSubdirectory, fun other hother => ?_⟩
  have hslot := hslots.slot other hother
  rw [contentsOf_append]
  by_cases heq : other = id
  · subst heq
    have hone : contentsOf other [(other, content)] = [content] := by simp [contentsOf]
    rw [Function.update_self] at hslot
    rwa [hone, written_append_singleton, Option.map_some]
  · have hnone : contentsOf other [(id, content)] = [] := by simp [contentsOf, Ne.symm heq]
    rw [Function.update_of_ne heq] at hslot
    rwa [hnone, List.append_nil]

theorem slots_fetchAll (hids : AssetIds ids)
    (hdata : ∀ source, inner.client.getFile source = .ok (data source))
    (hdownloads : ∀ d ∈ downloads, d.1 ∈ ids) :
    WrittenSlots inner roomId data ids downloads
      (fetchAll inner roomId downloads FileSystem.empty) := by
  induction downloads using List.reverseRecOn with
  | nil => exact slots_empty
  | append_singleton downloads d ih =>
    have hrest := ih fun d' hd' => hdownloads d' (List.mem_append_left _ hd')
    have hid := hdownloads d (List.mem_append_right _ List.mem_cons_self)
    obtain ⟨fs', hfetch, hslots⟩ := writtenSlots_fetch hids hdata hrest hid d.2
    unfold fetchAll at hfetch ⊢
    rw [List.foldl_append, List.foldl_cons, List.foldl_nil, hfetch]
    exact hslots

end Successful

end GoudaMatrix.Media
