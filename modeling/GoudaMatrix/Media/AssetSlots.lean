/-
  The directory of an asset manager by its assets: of an asset whose id is a name, at most one file
  is stored (`SlotAt`), and a download (`download_slot`) or an upload (`upload_slot`) changes no
  file that does not belong to the asset, apart from the source of the upload.
-/
import GoudaMatrix.Media.AssetContracts
import GoudaMatrix.Media.Attachments

namespace GoudaMatrix.Media

open GoudaMatrix.Lib

theorem isName_ownName {id : String} (hid : Path.IsName id) {name : String}
    (h : OwnName id name) : Path.IsName name := by
  rcases h with rfl | ⟨extension, hextension, rfl⟩
  · exact isName_infoFileName hid.2.2
  · have hsep := not_mem_assetFileName hid.2.2 hextension
    cases extension with
    | none => exact hid
    | some e =>
      have hpos : 0 < id.toList.length :=
        List.length_pos_iff.mpr fun hnil => hid.1 (String.toList_inj.mp hnil)
      refine ⟨fun hempty => ?_, fun hdot => ?_, hsep⟩
      · have hlength := congrArg (fun s => s.toList.length) hempty
        simp [toList_assetFileName] at hlength
      · have hlength : (assetFileName id (some e)).toList.length = 1 := by
          rw [hdot]
          rfl
        rw [toList_assetFileName, List.length_append, List.length_cons] at hlength
        omega

/-! ## Slots -/

/-- What the info file says of a stored asset. -/
def StoredAsset.info {B : Type} (asset : StoredAsset B) (id : String) : AssetInfo :=
  ⟨asset.fileName id, asset.upstreamUrl⟩

section Slots

variable {B : Type} (json : InfoFormat B) (dir : Path) (id : String) (fs : FileSystem B)

/-- The asset is stored in the directory, and nothing else under its id. -/
structure StoredAt (asset : StoredAsset B) : Prop where
  info : fs.read (dir ++ [infoFileName id]) = some (json.serialize (asset.info id))
  file : fs.read (dir ++ [asset.fileName id]) = some asset.data
  others : ∀ name, OwnName id name → name ≠ infoFileName id → name ≠ asset.fileName id →
    fs.read (dir ++ [name]) = none

/-- What is stored in the directory under the id. -/
def SlotAt : Option (StoredAsset B) → Prop
  | none => ∀ name, OwnName id name → fs.read (dir ++ [name]) = none
  | some asset => StoredAt json dir id fs asset

/-- Files can be written under the id. -/
structure ReadyAt : Prop where
  isDir : dir ∈ fs.dirs
  noSubdirectory : ∀ name, OwnName id name → dir ++ [name] ∉ fs.dirs

variable {json dir id fs}

theorem ReadyAt.writable (h : ReadyAt dir id fs) {name : String} (hname : OwnName id name) :
    Writable fs (dir ++ [name]) := by
  refine ⟨?_, h.noSubdirectory name hname⟩
  rw [List.dropLast_concat]
  exact h.isDir

theorem ReadyAt.congr {fs' : FileSystem B} (h : ReadyAt dir id fs) (hdirs : fs'.dirs = fs.dirs) :
    ReadyAt dir id fs' := ⟨hdirs ▸ h.isDir, fun name hname => hdirs ▸ h.noSubdirectory name hname⟩

theorem SlotAt.congr {fs' : FileSystem B} {slot : Option (StoredAsset B)}
    (h : SlotAt json dir id fs slot)
    (hread : ∀ name, OwnName id name → fs'.read (dir ++ [name]) = fs.read (dir ++ [name])) :
    SlotAt json dir id fs' slot := by
  cases slot with
  | none => exact fun name hname => (hread name hname).trans (h name hname)
  | some asset =>
    have hstored : StoredAt json dir id fs asset := h
    exact
      { info := (hread _ (.inl rfl)).trans hstored.info
        file := (hread _ (asset.ownName id)).trans hstored.file
        others := fun name hname hinfo hfile =>
          (hread name hname).trans (hstored.others name hname hinfo hfile) }

end Slots

/-! ## Downloads -/

/-- How a download ends, by what the asset answers, with the asset that is returned and what is
    stored then, if `slot` has been before. -/
inductive SlotDownload {B : Type} (asset : Asset B) (id : String) (slot : Option (StoredAsset B)) :
    Result (StoredAsset B) → Option (StoredAsset B) → Prop where
  | current {stored : StoredAsset B} (hslot : slot = some stored)
      (hcheck : asset.isUpToDate (stored.info id) ≠ .ok false) :
      SlotDownload asset id slot (.ok stored) slot
  | removed {stored : StoredAsset B} (hslot : slot = some stored)
      (hcheck : asset.isUpToDate (stored.info id) = .ok false)
      (hremoved : asset.wasRemoved = true) :
      SlotDownload asset id slot (.error .removed) none
  | failed {e : MediaError} (hstale : ∀ stored, slot = some stored →
        asset.isUpToDate (stored.info id) = .ok false ∧ asset.wasRemoved = false)
      (hdownload : asset.download = .error e) : SlotDownload asset id slot (.error e) slot
  | replaced {stored : StoredAsset B} (hstale : ∀ stored, slot = some stored →
        asset.isUpToDate (stored.info id) = .ok false ∧ asset.wasRemoved = false)
      (hdownload : asset.download = .ok ⟨stored.data, stored.fileExtension, stored.upstreamUrl⟩) :
      SlotDownload asset id slot (.ok stored) (some stored)

namespace AssetManager

variable {B : Type} {json : InfoFormat B} {manager : AssetManager B} {id : String}
  {fs : FileSystem B} {slot : Option (StoredAsset B)}

theorem filePath_ownName (hid : Path.IsName id) {name : String} (h : OwnName id name) :
    manager.filePath name = manager.getDownloadDirAbsolute ++ [name] := by
  rw [filePath, Path.join, Path.components_of_isName (isName_ownName hid h)]

theorem readInfo_slot (hid : manager.asset.assetId = .ok id) (hname : Path.IsName id)
    (hslot : SlotAt json manager.getDownloadDirAbsolute id fs slot) :
    manager.readInfo json fs = slot.map fun stored => stored.info id := by
  rw [readInfo_of_ok (getInfoPathAbsolute_of_plain hid hname.2.2)]
  cases slot with
  | none => rw [hslot _ (.inl rfl), Option.bind_none, Option.map_none]
  | some stored => rw [hslot.info, Option.bind_some, json.deserialize_serialize, Option.map_some]

theorem wellStored_slot (hid : manager.asset.assetId = .ok id) (hname : Path.IsName id)
    (hslot : SlotAt json manager.getDownloadDirAbsolute id fs slot) :
    WellStored json manager id fs := by
  have hstored : ∀ info, manager.readInfo json fs = some info →
      ∃ stored, slot = some stored ∧ stored.info id = info := by
    intro info hinfo
    rw [readInfo_slot hid hname hslot] at hinfo
    exact Option.map_eq_some_iff.mp hinfo
  constructor
  · intro info hinfo
    obtain ⟨stored, -, rfl⟩ := hstored info hinfo
    exact ⟨stored.fileExtension, stored.plain, rfl⟩
  · intro info hinfo
    obtain ⟨stored, rfl, rfl⟩ := hstored info hinfo
    have hfile : fs.read (manager.filePath (stored.fileName id)) = some stored.data := by
      rw [filePath_ownName hname (stored.ownName id)]
      exact hslot.file
    exact Option.isSome_of_eq_some hfile

/-- What a download does to the directory, as far as it concerns one asset and all other paths. -/
structure Downloaded (json : InfoFormat B) (manager : AssetManager B) (id : String)
    (fs fs' : FileSystem B) (slot : Option (StoredAsset B)) : Prop where
  slot : SlotAt json manager.getDownloadDirAbsolute id fs' slot
  dirs : fs'.dirs = fs.dirs
  others : ∀ p, (∀ name, OwnName id name → p ≠ manager.getDownloadDirAbsolute ++ [name]) →
    fs'.read p = fs.read p

/-- What `needs` says of the stored asset. -/
theorem stale_of_needsDownload (hid : manager.asset.assetId = .ok id) (hname : Path.IsName id)
    (hslot : SlotAt json manager.getDownloadDirAbsolute id fs slot)
    (hneeds : NeedsDownload json manager fs) (stored : StoredAsset B) (h : slot = some stored) :
    manager.asset.isUpToDate (stored.info id) = .ok false ∧ manager.asset.wasRemoved = false := by
  refine hneeds _ ?_
  rw [readInfo_slot hid hname hslot, h, Option.map_some]

/-- A file of the id that is neither of the two new ones nor that of the stored asset is missing. -/
theorem read_other_of_slot (hslot : SlotAt json manager.getDownloadDirAbsolute id fs slot)
    {name : String} (hown : OwnName id name) (hinfo : name ≠ infoFileName id)
    (hfile : ∀ stored, slot = some stored → name ≠ stored.fileName id) :
    fs.read (manager.getDownloadDirAbsolute ++ [name]) = none := by
  cases slot with
  | none => exact hslot name hown
  | some stored => exact hslot.others name hown hinfo (hfile stored rfl)

theorem download_slot (hid : manager.asset.assetId = .ok id) (hname : Path.IsName id)
    (hslot : SlotAt json manager.getDownloadDirAbsolute id fs slot)
    (hready : ReadyAt manager.getDownloadDirAbsolute id fs)
    (hextension : ∀ download, manager.asset.download = .ok download →
      ∀ e ∈ download.fileExtension, '/' ∉ e.toList) :
    ∃ result slot', SlotDownload manager.asset id slot result slot' ∧
      (manager.download json fs).1
        = result.map (fun stored => manager.assetDir ++ [stored.fileName id]) ∧
      Downloaded json manager id fs (manager.download json fs).2 slot' := by
  have hfile : ∀ download, manager.asset.download = .ok download →
      OwnName id (assetFileName id download.fileExtension) :=
    fun download h => .inr ⟨_, hextension download h, rfl⟩
  have hended := download_ended hid hname.2.2 (wellStored_slot hid hname hslot) hextension
    (hready.writable (.inl rfl)) fun download h => by
      rw [filePath_ownName hname (hfile download h)]
      exact hready.writable (hfile download h)
  have hread := readInfo_slot hid hname hslot
  have hreturned : ∀ stored : StoredAsset B,
      Path.join manager.assetDir (stored.fileName id) = manager.assetDir ++ [stored.fileName id] :=
    fun stored => by
      rw [Path.join, Path.components_of_isName (isName_ownName hname (stored.ownName id))]
  generalize (manager.download json fs).1 = result at hended ⊢
  generalize (manager.download json fs).2 = fs' at hended ⊢
  generalize outcome json manager fs = o at hended
  cases o with
  | current =>
    obtain ⟨info, hinfo, hcheck, rfl, -, rfl⟩ := hended
    obtain ⟨stored, rfl, rfl⟩ := Option.map_eq_some_iff.mp (hread.symm.trans hinfo)
    refine ⟨_, _, .current rfl fun hfalse => ?_, congrArg Except.ok (hreturned stored), hslot, rfl,
      fun p _ => rfl⟩
    rw [hfalse] at hcheck
    simp at hcheck
  | removed =>
    obtain ⟨info, hinfo, hcheck, hremoved, rfl, hdirs, -, hfiles⟩ := hended
    obtain ⟨stored, rfl, rfl⟩ := Option.map_eq_some_iff.mp (hread.symm.trans hinfo)
    refine ⟨_, _, .removed rfl hcheck hremoved, rfl, fun name hown => ?_, hdirs, fun p hp => ?_⟩
    · rw [hfiles]
      split
      · rfl
      · next hother =>
        obtain ⟨hinfo', hfile'⟩ := not_or.mp hother
        refine hslot.others name hown (fun heq => hinfo' (heq ▸ rfl)) (fun heq => hfile' ?_)
        rw [heq]
        exact (filePath_ownName hname (stored.ownName id)).symm
    · rw [hfiles, if_neg]
      rintro (rfl | rfl)
      · exact hp _ (.inl rfl) rfl
      · exact hp _ (stored.ownName id) (filePath_ownName hname (stored.ownName id))
  | failed =>
    obtain ⟨hneeds, e, hdownload, rfl, rfl⟩ := hended
    exact ⟨_, _, .failed (stale_of_needsDownload hid hname hslot hneeds) hdownload, rfl, hslot, rfl,
      fun p _ => rfl⟩
  | replaced =>
    obtain ⟨hneeds, download, hdownload, rfl, hdirs, hne, hinfo, hdata, hfiles⟩ := hended
    have hstale := stale_of_needsDownload hid hname hslot hneeds
    let stored : StoredAsset B :=
      ⟨download.fileExtension, download.upstreamUrl, download.data, hextension download hdownload⟩
    have hpath : manager.filePath (stored.fileName id)
        = manager.getDownloadDirAbsolute ++ [stored.fileName id] :=
      filePath_ownName hname (stored.ownName id)
    refine ⟨.ok stored, some stored, .replaced hstale hdownload,
      congrArg Except.ok (hreturned stored), ⟨hinfo, ?_, fun name hown hinfo' hfile' => ?_⟩, hdirs,
      fun p hp => ?_⟩
    · rw [← hpath]
      exact hdata
    · obtain ⟨hgone, hkept⟩ := hfiles (manager.getDownloadDirAbsolute ++ [name])
        (fun heq => hinfo' (List.singleton_inj.mp (List.append_cancel_left heq)))
        (fun heq => hfile' (List.singleton_inj.mp (List.append_cancel_left (heq.trans hpath))))
      by_cases hold : ∃ old, manager.readInfo json fs = some old ∧
          manager.getDownloadDirAbsolute ++ [name] = manager.filePath old.file
      · exact hgone hold
      · rw [hkept fun old hold' heq => hold ⟨old, hold', heq⟩]
        refine read_other_of_slot hslot hown hinfo' fun old hslot' heq => hold ⟨old.info id, ?_, ?_⟩
        · rw [hread, hslot', Option.map_some]
        · rw [heq]
          exact (filePath_ownName hname (old.ownName id)).symm
    · refine (hfiles p (hp _ (.inl rfl)) fun heq => hp _ (stored.ownName id) (heq.trans hpath)).2
        fun old hold heq => ?_
      obtain ⟨oldStored, -, rfl⟩ := Option.map_eq_some_iff.mp (hread.symm.trans hold)
      exact hp _ (oldStored.ownName id) (heq.trans (filePath_ownName hname (oldStored.ownName id)))

/-! ## Uploads -/

/-- What is stored is deleted before something new is written. -/
theorem deleteExisting_slot (hid : manager.asset.assetId = .ok id) (hname : Path.IsName id)
    (hslot : SlotAt json manager.getDownloadDirAbsolute id fs slot) :
    Downloaded json manager id fs (manager.deleteExisting json fs) none := by
  have hpath := getInfoPathAbsolute_of_plain hid hname.2.2
  have hread := readInfo_slot hid hname hslot
  have hset : ∀ stored : StoredAsset B,
      Path.setFileName (manager.getDownloadDirAbsolute ++ [infoFileName id]) (stored.fileName id)
        = manager.getDownloadDirAbsolute ++ [stored.fileName id] := fun stored => by
    rw [setFileName_concat _ (infoFileName_ne_parent _), Path.join,
      Path.components_of_isName (isName_ownName hname (stored.ownName id))]
  refine ⟨fun name hown => ?_, dirs_deleteExisting json hpath fs, fun p hp => ?_⟩
  · by_cases hgone : name = infoFileName id ∨
        ∃ stored, slot = some stored ∧ name = stored.fileName id
    · cases hstored : slot with
      | none =>
        rw [read_deleteExisting_of_other hpath fun info hinfo => ?_]
        · rw [hstored] at hslot
          exact hslot name hown
        · rw [hread, hstored] at hinfo
          cases hinfo
      | some stored =>
        refine read_deleteExisting_of_stored hpath (hread.trans (congrArg _ hstored)) ?_
        rcases hgone with rfl | ⟨stored', hstored', rfl⟩
        · exact .inl rfl
        · obtain rfl := Option.some.inj (hstored.symm.trans hstored')
          exact .inr (hset stored).symm
    · obtain ⟨hinfo, hfile⟩ := not_or.mp hgone
      refine (read_deleteExisting_of_other hpath fun info hstored => ⟨?_, ?_⟩).trans
        (read_other_of_slot hslot hown hinfo fun stored h heq => hfile ⟨stored, h, heq⟩)
      · exact fun heq => hinfo (List.singleton_inj.mp (List.append_cancel_left heq))
      · obtain ⟨stored, h, rfl⟩ := Option.map_eq_some_iff.mp (hread.symm.trans hstored)
        refine fun heq => hfile ⟨stored, h, ?_⟩
        exact List.singleton_inj.mp (List.append_cancel_left (heq.trans (hset stored)))
  · refine read_deleteExisting_of_other hpath fun info hinfo => ⟨hp _ (.inl rfl), ?_⟩
    obtain ⟨stored, -, rfl⟩ := Option.map_eq_some_iff.mp (hread.symm.trans hinfo)
    exact fun heq => hp _ (stored.ownName id) (heq.trans (hset stored))

/-- The source becomes the file of the asset. -/
theorem upload_slot (hid : manager.asset.assetId = .ok id) (hname : Path.IsName id)
    (hslot : SlotAt json manager.getDownloadDirAbsolute id fs slot)
    (hready : ReadyAt manager.getDownloadDirAbsolute id fs) (stored : StoredAsset B) {src : Path}
    (hsrc : fs.read (manager.dataRootDir ++ src) = some stored.data)
    (hother : ∀ name, OwnName id name →
      manager.dataRootDir ++ src ≠ manager.getDownloadDirAbsolute ++ [name]) :
    ∃ fs', manager.upload json (.ok ⟨stored.fileExtension, stored.upstreamUrl⟩) src fs
        = (.ok (manager.assetDir ++ [stored.fileName id]), fs') ∧
      Downloaded json manager id (fs.remove (manager.dataRootDir ++ src)) fs' (some stored) := by
  have hdeleted := deleteExisting_slot hid hname hslot
  have hready' := hready.congr hdeleted.dirs
  have hown := stored.ownName id
  have hisName := isName_ownName hname hown
  have hne : manager.getDownloadDirAbsolute ++ [infoFileName id]
      ≠ manager.getDownloadDirAbsolute ++ [stored.fileName id] := fun heq =>
    assetFileName_ne_infoFileName id stored.fileExtension
      (List.singleton_inj.mp (List.append_cancel_left heq)).symm
  have hfileName : manager.getAssetFileName stored.fileExtension = .ok (stored.fileName id) := by
    simp [getAssetFileName, hid, Except.map, StoredAsset.fileName]
  have habsolute : manager.getAssetPathAbsolute (stored.fileName id)
      = .ok (manager.getDownloadDirAbsolute ++ [stored.fileName id]) := by
    rw [getAssetPathAbsolute_of_plain hid hname.2.2, Path.join, Path.components_of_isName hisName]
  have hrelative : manager.getAssetPathRelative (stored.fileName id)
      = .ok (manager.assetDir ++ [stored.fileName id]) := by
    rw [getAssetPathRelative_of_plain hid hname.2.2, Path.join, Path.components_of_isName hisName]
  have hmoved : (manager.deleteExisting json fs).read (manager.dataRootDir ++ src)
      = some stored.data := (hdeleted.others _ hother).trans hsrc
  have hwritable : Writable ((manager.deleteExisting json fs).remove (manager.dataRootDir ++ src))
      (manager.getDownloadDirAbsolute ++ [stored.fileName id]) := hready'.writable hown
  obtain ⟨fs₁, hwrite₁, hdirs₁, hread₁⟩ := write_of_writable hwritable stored.data
  have hrename : (manager.deleteExisting json fs).rename (manager.dataRootDir ++ src)
      (manager.getDownloadDirAbsolute ++ [stored.fileName id]) = some fs₁ := by
    rw [FileSystem.rename, hmoved]
    exact hwrite₁
  obtain ⟨fs₂, hwrite₂, hdirs₂, hread₂⟩ := write_of_writable
    ((hready'.congr hdirs₁).writable (.inl rfl)) (json.serialize (stored.info id))
  refine ⟨fs₂, ?_, ⟨?_, ?_, fun name hown' hinfo hfile => ?_⟩, ?_, fun p hp => ?_⟩
  · unfold AssetManager.upload
    dsimp only
    rw [hfileName, getInfoPathAbsolute_of_plain hid hname.2.2]
    dsimp only
    rw [habsolute]
    dsimp only
    rw [hrename]
    dsimp only
    rw [show (⟨stored.fileName id, stored.upstreamUrl⟩ : AssetInfo) = stored.info id from rfl,
      hwrite₂]
    dsimp only
    rw [hrelative]
  · rw [hread₂, if_pos rfl]
  · rw [hread₂, if_neg (Ne.symm hne), hread₁, if_pos rfl]
  · rw [hread₂, if_neg fun heq => hinfo (List.singleton_inj.mp (List.append_cancel_left heq)),
      hread₁, if_neg fun heq => hfile (List.singleton_inj.mp (List.append_cancel_left heq)),
      FileSystem.read_remove]
    split
    · rfl
    · exact hdeleted.slot name hown'
  · exact hdirs₂.trans (hdirs₁.trans hdeleted.dirs)
  · rw [hread₂, if_neg (hp _ (.inl rfl)), hread₁, if_neg (hp _ hown), FileSystem.read_remove,
      FileSystem.read_remove, hdeleted.others p hp]

end AssetManager

end GoudaMatrix.Media
