/-
  A download that is stopped (`AssetManager::download` in `media.rs`): between two steps, or while a
  file is written that has been truncated and has got some of its contents. The contents of a file
  are a list, of which any strict prefix may have been written.

  The info is deleted before the file that it names, and written after it, and a part of an info is
  not parsed. `PhaseInv` says what holds at each step, and `interrupted_download_settled` what is
  found afterwards: nothing, the asset that was stored before, or the one that was downloaded, each
  with its whole file. `infoJson` is a JSON of infos of which no part is parsed.
-/
import GoudaMatrix.Lib.TextReader
import GoudaMatrix.Media.Downloads

namespace GoudaMatrix.Media

open GoudaMatrix.Lib

/-! ## Stopped downloads -/

section Stopped

variable {B : Type} (json : InfoFormat B) (manager : AssetManager B)

/-- The file that the next step writes, and its contents. -/
def Phase.writing : Phase B → Option (Path × B)
  | .writeAsset download =>
    match manager.getAssetFileName download.fileExtension with
    | .error _ => none
    | .ok dataFileName =>
      match manager.getAssetPathAbsolute dataFileName with
      | .error _ => none
      | .ok assetPath => some (assetPath, download.data)
  | .writeInfo info =>
    match manager.getInfoPathAbsolute with
    | .error _ => none
    | .ok infoPath => some (infoPath, json.serialize info)
  | _ => none

end Stopped

section Interrupted

variable {C : Type} (json : InfoFormat (List C)) (dirs : MediaDirs) (asset : MediaAsset)
  (upstream : Upstream (List C)) (fs : FileSystem (List C))

/-- The directory when a download has been stopped. -/
inductive Stopped : FileSystem (List C) → Prop
  | between (n : Nat) :
    Stopped (Phase.alone json (managerFor dirs asset upstream) n .readInfo fs).2
  | within (n : Nat) {path : Path} {contents part : List C} {fs' : FileSystem (List C)}
      (hwriting : (Phase.alone json (managerFor dirs asset upstream) n .readInfo fs).1.writing json
        (managerFor dirs asset upstream) = some (path, contents))
      (hpart : IsPart part contents)
      (hwrite : (Phase.alone json (managerFor dirs asset upstream) n .readInfo fs).2.write path part
        = some fs') :
    Stopped fs'

/-- The info that is found. -/
def storedInfo (fs : FileSystem (List C)) : Option AssetInfo :=
  (fs.read (infoPath dirs asset)).bind json.deserialize

/-- The info that is found was written for the asset, and its file is there. -/
structure IsStored (fs : FileSystem (List C)) : Prop where
  written : ∀ info, storedInfo json dirs asset fs = some info →
    ∃ extension, (∀ e ∈ extension, '/' ∉ e.toList) ∧
      info.file = assetFileName asset.id.text extension
  present : ∀ info, storedInfo json dirs asset fs = some info →
    (fs.read (dataPath dirs asset info)).isSome

/-- The info of what has been downloaded. -/
def newInfo (download : Download (List C)) : AssetInfo :=
  ⟨assetFileName asset.id.text download.fileExtension, download.upstreamUrl⟩

/-- Nothing is stored, or what was stored before, or what has been downloaded. -/
def Settled (fs' : FileSystem (List C)) : Prop :=
  storedInfo json dirs asset fs' = none ∨
  (∃ info, storedInfo json dirs asset fs' = some info ∧ storedInfo json dirs asset fs = some info ∧
    fs'.read (dataPath dirs asset info) = fs.read (dataPath dirs asset info)) ∨
  ∃ download, upstream.download = .ok download ∧
    storedInfo json dirs asset fs' = some (newInfo asset download) ∧
    fs'.read (newPath dirs asset download) = some download.data

/-! ## The steps -/

/-- What holds before each step of a download that has found `fs`. -/
def PhaseInv (fs' : FileSystem (List C)) : Phase (List C) → Prop
  | .readInfo | .checkUpToDate _ | .checkRemoved _ | .downloading => fs' = fs
  | .readExisting download => fs' = fs ∧ upstream.download = .ok download
  | .deleteInfo _ replacement =>
    fs' = fs ∧ ∀ download ∈ replacement, upstream.download = .ok download
  | .deleteAsset _ replacement => storedInfo json dirs asset fs' = none ∧
    ∀ download ∈ replacement, upstream.download = .ok download
  | .writeAsset download =>
    storedInfo json dirs asset fs' = none ∧ upstream.download = .ok download
  | .writeInfo info => storedInfo json dirs asset fs' = none ∧
    ∃ download, upstream.download = .ok download ∧ info = newInfo asset download ∧
      fs'.read (newPath dirs asset download) = some download.data
  | .finished _ | .ioError => Settled json dirs asset upstream fs fs'

variable {json dirs asset upstream fs}

theorem settled_refl : Settled json dirs asset upstream fs fs := by
  cases hinfo : storedInfo json dirs asset fs with
  | none => exact .inl hinfo
  | some info => exact .inr (.inl ⟨info, hinfo, hinfo, rfl⟩)

theorem PhaseInv.settled {fs' : FileSystem (List C)} {phase : Phase (List C)}
    (h : PhaseInv json dirs asset upstream fs fs' phase) :
    Settled json dirs asset upstream fs fs' := by
  cases phase with
  | readInfo | checkUpToDate | checkRemoved | downloading =>
    obtain rfl := h
    exact settled_refl
  | readExisting | deleteInfo =>
    obtain ⟨rfl, -⟩ := h
    exact settled_refl
  | deleteAsset | writeAsset | writeInfo => exact .inl h.1
  | finished | ioError => exact h

theorem storedInfo_remove (fs : FileSystem (List C)) (path : Path)
    (h : storedInfo json dirs asset fs = none) :
    storedInfo json dirs asset (fs.remove path) = none := by
  unfold storedInfo
  rw [FileSystem.read_remove]
  split
  · rfl
  · exact h

/-- Another file is written. -/
theorem storedInfo_write {fs fs' : FileSystem (List C)} {path : Path} {contents : List C}
    (hwrite : fs.write path contents = some fs') (hne : path ≠ infoPath dirs asset) :
    storedInfo json dirs asset fs' = storedInfo json dirs asset fs := by
  unfold storedInfo
  rw [(FileSystem.write_eq_some hwrite).2, if_neg (Ne.symm hne)]

/-- The info file is written. -/
theorem storedInfo_write_info {fs fs' : FileSystem (List C)} {contents : List C}
    (hwrite : fs.write (infoPath dirs asset) contents = some fs') :
    storedInfo json dirs asset fs' = json.deserialize contents := by
  unfold storedInfo
  rw [(FileSystem.write_eq_some hwrite).2, if_pos rfl, Option.bind_some]

theorem newPath_ne (upstream : Upstream (List C)) {download : Download (List C)}
    (h : upstream.download = .ok download) :
    newPath dirs asset download ≠ infoPath dirs asset :=
  newPath_ne_infoPath (upstream.plain download h)

variable (json) in
theorem readInfo_managerFor (fs : FileSystem (List C)) :
    (managerFor dirs asset upstream).readInfo json fs = storedInfo json dirs asset fs :=
  AssetManager.readInfo_of_ok (getInfoPathAbsolute_managerFor upstream) fs

theorem phaseInv_next {fs₁ fs₂ : FileSystem (List C)} {phase phase' : Phase (List C)}
    (h : PhaseInv json dirs asset upstream fs fs₁ phase)
    (hnext : phase.next json (managerFor dirs asset upstream) fs₁ = some (phase', fs₂)) :
    PhaseInv json dirs asset upstream fs fs₂ phase' := by
  cases moves_of_next hnext with
  | missing | found | outdated | replaced => exact h
  | current | failed =>
    obtain rfl := h
    exact settled_refl
  | removed => exact ⟨h, fun _ hd => by cases hd⟩
  | downloaded hdownload => exact ⟨h, hdownload⟩
  | noneExisting hread =>
    rw [readInfo_managerFor] at hread
    exact ⟨hread, h.2⟩
  | existing =>
    refine ⟨h.1, fun d hd => ?_⟩
    obtain rfl := Option.some.inj hd
    exact h.2
  | infoDeleted =>
    refine ⟨?_, h.2⟩
    unfold storedInfo
    rw [FileSystem.read_remove, if_pos rfl]
    rfl
  | @assetDeleted info replacement =>
    have hremoved := storedInfo_remove fs₁ (dataPath dirs asset info) h.1
    cases replacement with
    | none => exact .inl hremoved
    | some download => exact ⟨hremoved, h.2 download rfl⟩
  | assetUnwritable | infoUnwritable => exact .inl h.1
  | @assetWritten download _ hwrite =>
    obtain ⟨hnone, hdownload⟩ := h
    refine ⟨?_, download, hdownload, rfl, ?_⟩
    · rw [storedInfo_write hwrite (newPath_ne upstream hdownload)]
      exact hnone
    · exact ((FileSystem.write_eq_some hwrite).2 _).trans (if_pos rfl)
  | infoWritten hwrite =>
    obtain ⟨hnone, download, hdownload, rfl, hfile⟩ := h
    refine .inr (.inr ⟨download, hdownload, ?_, ?_⟩)
    · rw [storedInfo_write_info hwrite, json.deserialize_serialize]
    · rw [(FileSystem.write_eq_some hwrite).2, if_neg (newPath_ne upstream hdownload)]
      exact hfile

theorem phaseInv_alone (n : Nat) {phase : Phase (List C)} {fs₁ : FileSystem (List C)}
    (h : PhaseInv json dirs asset upstream fs fs₁ phase) :
    PhaseInv json dirs asset upstream fs
      (Phase.alone json (managerFor dirs asset upstream) n phase fs₁).2
      (Phase.alone json (managerFor dirs asset upstream) n phase fs₁).1 := by
  induction n generalizing phase fs₁ with
  | zero => exact h
  | succ n ih =>
    unfold Phase.alone
    cases hnext : phase.next json (managerFor dirs asset upstream) fs₁ with
    | none => exact h
    | some next =>
      obtain ⟨phase', fs₂⟩ := next
      exact ih (phaseInv_next h hnext)

variable (json dirs asset upstream fs) in
/-- A download begins by reading the info. -/
theorem phaseInv_run (n : Nat) :
    PhaseInv json dirs asset upstream fs
      (Phase.alone json (managerFor dirs asset upstream) n .readInfo fs).2
      (Phase.alone json (managerFor dirs asset upstream) n .readInfo fs).1 :=
  phaseInv_alone n rfl

theorem settled_stopped
    (htruncated : ∀ info part, IsPart part (json.serialize info) → json.deserialize part = none)
    {fs' : FileSystem (List C)} (h : Stopped json dirs asset upstream fs fs') :
    Settled json dirs asset upstream fs fs' := by
  cases h with
  | between n => exact (phaseInv_run json dirs asset upstream fs n).settled
  | @within n path contents part _ hwriting hpart hwrite =>
    have hinv := phaseInv_run json dirs asset upstream fs n
    generalize Phase.alone json (managerFor dirs asset upstream) n .readInfo fs = reached at *
    obtain ⟨phase, fs₁⟩ := reached
    cases phase with
    | writeAsset download =>
      -- the file that is cut off is named by no info
      obtain ⟨hnone, hdownload⟩ := hinv
      have hpath : path = newPath dirs asset download := by
        have hdata : (managerFor dirs asset upstream).getAssetPathAbsolute
            (assetFileName asset.id.text download.fileExtension)
              = .ok (newPath dirs asset download) :=
          getAssetPathAbsolute_managerFor upstream (newInfo asset download)
        simp only [Phase.writing, getAssetFileName_managerFor, hdata] at hwriting
        cases hwriting
        rfl
      refine .inl ?_
      rw [storedInfo_write hwrite (hpath ▸ newPath_ne upstream hdownload)]
      exact hnone
    | writeInfo info =>
      have hinfo : path = infoPath dirs asset ∧ contents = json.serialize info := by
        simp only [Phase.writing, getInfoPathAbsolute_managerFor] at hwriting
        cases hwriting
        exact ⟨rfl, rfl⟩
      obtain ⟨rfl, rfl⟩ := hinfo
      refine .inl ?_
      rw [storedInfo_write_info hwrite]
      exact htruncated info part hpart
    | readInfo | checkUpToDate | checkRemoved | downloading | readExisting | deleteInfo
    | deleteAsset | finished | ioError => cases hwriting

theorem Settled.isStored {fs' : FileSystem (List C)} (hstored : IsStored json dirs asset fs)
    (h : Settled json dirs asset upstream fs fs') : IsStored json dirs asset fs' := by
  rcases h with hnone | ⟨info, hinfo, hold, hfile⟩ | ⟨download, hdownload, hinfo, hfile⟩
  · refine ⟨fun info hinfo => ?_, fun info hinfo => ?_⟩
    all_goals
      rw [hnone] at hinfo
      cases hinfo
  · refine ⟨fun info' hinfo' => ?_, fun info' hinfo' => ?_⟩
    all_goals
      obtain rfl := Option.some.inj (hinfo.symm.trans hinfo')
    · exact hstored.written info hold
    · rw [hfile]
      exact hstored.present info hold
  · refine ⟨fun info' hinfo' => ?_, fun info' hinfo' => ?_⟩
    all_goals
      obtain rfl := Option.some.inj (hinfo.symm.trans hinfo')
    · exact ⟨download.fileExtension, upstream.plain download hdownload, rfl⟩
    · exact Option.isSome_iff_exists.mpr ⟨download.data, hfile⟩

/-- A stopped download leaves nothing that is found, or the asset with its whole file, as it was
    stored before or as it was downloaded. This is what the next download of the asset reads. -/
theorem interrupted_download_settled
    (htruncated : ∀ info part, IsPart part (json.serialize info) → json.deserialize part = none)
    (hstored : IsStored json dirs asset fs) {fs' : FileSystem (List C)}
    (hstopped : Stopped json dirs asset upstream fs fs') :
    IsStored json dirs asset fs' ∧ Settled json dirs asset upstream fs fs' ∧
      ∀ later : Upstream (List C),
        (managerFor dirs asset later).readInfo json fs' = storedInfo json dirs asset fs' := by
  have hsettled := settled_stopped htruncated hstopped
  exact ⟨hsettled.isStored hstored, hsettled, fun _ => readInfo_managerFor json fs'⟩

end Interrupted

/-! ## An info that is cut off -/

/-- The text of an info. -/
def infoText (info : AssetInfo) : List Char :=
  "\x7b\n  \"file\": ".toList ++ (Reader.quote info.file.toList ++
    (",\n  \"upstream_url\": ".toList ++ (Reader.quote info.upstreamUrl.toList ++ "\n\x7d".toList)))

def infoReader : Reader (Unit × (Unit × List Char) × Unit × (Unit × List Char) × Unit) :=
  (Reader.literal "\x7b\n  \"file\": ".toList).seq <| Reader.string.seq <|
    (Reader.literal ",\n  \"upstream_url\": ".toList).seq <| Reader.string.seq <|
      Reader.literal "\n\x7d".toList

theorem infoReader_reads (info : AssetInfo) :
    infoReader.Reads (infoText info)
      ((), ((), info.file.toList), (), ((), info.upstreamUrl.toList), ()) :=
  (Reader.literal_reads _).seq <| (Reader.string_reads _).seq <| (Reader.literal_reads _).seq <|
    (Reader.string_reads _).seq <| Reader.literal_reads _

/-- Infos as JSON. The names and addresses have no control characters. -/
def infoJson : InfoFormat (List Char) where
  serialize := infoText
  deserialize text := (infoReader.all text).map fun r =>
    ⟨String.ofList r.2.1.2, String.ofList r.2.2.2.1.2⟩
  deserialize_serialize info := by
    rw [(infoReader_reads info).all]
    simp

/-- A part of an info is not parsed. -/
theorem deserialize_part (info : AssetInfo) (part : List Char)
    (hpart : IsPart part (infoJson.serialize info)) : infoJson.deserialize part = none := by
  have hnone := (infoReader_reads info).all_part hpart
  unfold infoJson
  dsimp only
  rw [hnone]
  rfl

/-- A stored avatar, which has been replaced upstream by a jpg. -/
def storedPng : AssetInfo := ⟨"!r:hs.png", "mxc://hs/old"⟩

def replacedByJpg : Upstream (List Char) where
  isUpToDate _ := .ok false
  wasRemoved := false
  download := .ok ⟨"new".toList, some "jpg", "mxc://hs/new"⟩
  plain := by
    rintro _ ⟨⟩ _ ⟨⟩
    decide

def avatarDir (files : List (Path × List Char)) : FileSystem (List Char) where
  dirs := [["data", "media", "room_avatars"]]
  files := (files.map fun file => ⟨file.1, file.2⟩).toAList

def pngDir : FileSystem (List Char) :=
  avatarDir [(["data", "media", "room_avatars", "!r:hs.png"], "old".toList),
    (["data", "media", "room_avatars", "!r:hs_info.json"], infoText storedPng)]

/-- The first characters of the new info have been written. -/
def cutOff : FileSystem (List Char) :=
  avatarDir
    [(["data", "media", "room_avatars", "!r:hs_info.json"], "\x7b\n  \"file\": \"!r:hs.j".toList),
      (["data", "media", "room_avatars", "!r:hs.jpg"], "new".toList)]

theorem storedInfo_pngDir : storedInfo infoJson avatarDirs avatarAsset pngDir = some storedPng := by
  decide +kernel

theorem isStored_pngDir : IsStored infoJson avatarDirs avatarAsset pngDir := by
  refine ⟨fun info hinfo => ?_, fun info hinfo => ?_⟩
  all_goals
    obtain rfl := Option.some.inj (storedInfo_pngDir.symm.trans hinfo)
  · refine ⟨some "png", ?_, by decide⟩
    rintro _ ⟨⟩
    decide
  · decide +kernel

theorem interrupted_download_settled_cut_off :
    IsStored infoJson avatarDirs avatarAsset cutOff ∧
      Settled infoJson avatarDirs avatarAsset replacedByJpg pngDir cutOff ∧
      ∀ later : Upstream (List Char),
        (managerFor avatarDirs avatarAsset later).readInfo infoJson cutOff
          = storedInfo infoJson avatarDirs avatarAsset cutOff := by
  have hwriting : (Phase.alone infoJson (managerFor avatarDirs avatarAsset replacedByJpg) 8
      .readInfo pngDir).1.writing infoJson (managerFor avatarDirs avatarAsset replacedByJpg)
        = some (infoPath avatarDirs avatarAsset, infoText ⟨"!r:hs.jpg", "mxc://hs/new"⟩) := by
    decide +kernel
  have hpart : IsPart "\x7b\n  \"file\": \"!r:hs.j".toList
      (infoText ⟨"!r:hs.jpg", "mxc://hs/new"⟩) := ⟨by decide +kernel, by decide +kernel⟩
  exact interrupted_download_settled deserialize_part isStored_pngDir
    (.within 8 hwriting hpart rfl)

end GoudaMatrix.Media
