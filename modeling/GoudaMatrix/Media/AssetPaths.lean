/-
  The paths that an `AssetManager` uses (`media.rs`) for the ids that the parsers of the SDK accept.
  Such an id has a sigil and at most 255 bytes; it can have separators and `..`, and its text
  becomes part of a path without a check. `event_id_leaves_data_root` is an event whose info file is
  outside of the data root.

  `paths_stay_iff`: the files are direct children of the directory of the asset, below the media
  directory, exactly if the route of each path comes back to that directory (`RoutesComeBack`), as
  it does for ids without a separator (`routesComeBack_of_plain`).
-/
import GoudaMatrix.Lib.Paths
import GoudaMatrix.Media.Uploads

namespace GoudaMatrix.Media

open GoudaMatrix.Lib

/-! ## Assets and their directories -/

/-- An id as the parsers accept it. -/
structure MatrixId where
  text : String
  sigil : ∃ c ∈ ['!', '@', '$'], text.toList.head? = some c
  length : text.utf8ByteSize ≤ 255

/-- The directories of `MediaManager::new`. -/
structure MediaDirs where
  dataRootDir : Path
  mediaDir : Path

namespace MediaDirs

variable (dirs : MediaDirs)

def roomAvatarsDir : Path := Path.join dirs.mediaDir "room_avatars"

def userAvatarsDir : Path := Path.join dirs.mediaDir "user_avatars"

def attachmentsDir : Path := Path.join dirs.mediaDir "attachments"

/-- The media directory, without `..`. -/
def media : Path := Path.resolve (dirs.dataRootDir ++ dirs.mediaDir)

end MediaDirs

inductive MediaAsset where
  | roomAvatar (roomId : MatrixId)
  | userAvatar (userId : MatrixId)
  | attachment (roomId eventId : MatrixId)

namespace MediaAsset

variable (dirs : MediaDirs) (asset : MediaAsset)

def id : MediaAsset → MatrixId
  | .roomAvatar roomId => roomId
  | .userAvatar userId => userId
  | .attachment _ eventId => eventId

/-- The directory of the manager, relative to the data root. -/
def dir : MediaAsset → Path
  | .roomAvatar _ => dirs.roomAvatarsDir
  | .userAvatar _ => dirs.userAvatarsDir
  | .attachment roomId _ => Path.join dirs.attachmentsDir roomId.text

/-- The directory of the asset, without `..`. -/
def ownDir : Path := Path.resolve (dirs.dataRootDir ++ asset.dir dirs)

/-- The manager of the asset, with anything that the asset answers. -/
def manager {B : Type} (answers : Asset B) : AssetManager B where
  dataRootDir := dirs.dataRootDir
  assetDir := asset.dir dirs
  asset := { answers with assetId := .ok asset.id.text }

/-! ## Paths -/

/-- The path of the info file, relative to the directory of the asset. -/
def infoRoute : Route := Path.route (Path.components (infoFileName asset.id.text))

/-- The path of the file of the asset: its name replaces the last component of the info path, so
    that the directories in the id come twice. -/
def fileRoute (extension : Option String) : Route :=
  Path.route (Path.parents asset.id.text
    ++ Path.components (assetFileName asset.id.text extension))

theorem infoPath_eq {B : Type} (answers : Asset B) :
    (asset.manager dirs answers).getInfoPathAbsolute
      = .ok ((dirs.dataRootDir ++ asset.dir dirs)
          ++ Path.components (infoFileName asset.id.text)) := by
  simp [manager, AssetManager.getInfoPathAbsolute, AssetManager.getInfoFileName, Except.map,
    AssetManager.getDownloadDirAbsolute, AssetManager.getDownloadDirRelative, Path.join]

theorem base_infoFileName_ne_parent (id : String) : Path.base id ++ "_info.json" ≠ ".." := by
  intro h
  have hlength := congrArg (fun s => s.toList.length) h
  simp at hlength

theorem filePath_eq {B : Type} (answers : Asset B) (extension : Option String) :
    ((asset.manager dirs answers).getAssetFileName extension).bind
        (asset.manager dirs answers).getAssetPathAbsolute
      = .ok ((dirs.dataRootDir ++ asset.dir dirs) ++ (Path.parents asset.id.text
          ++ Path.components (assetFileName asset.id.text extension))) := by
  have hname : (asset.manager dirs answers).getAssetFileName extension
      = .ok (assetFileName asset.id.text extension) := rfl
  rw [hname]
  refine (AssetManager.getAssetPathAbsolute_of_ok (asset.infoPath_eq dirs answers) _).trans ?_
  have hfile : Path.fileName ((dirs.dataRootDir ++ asset.dir dirs)
      ++ Path.components (infoFileName asset.id.text))
        = some (Path.base asset.id.text ++ "_info.json") := by
    rw [components_infoFileName, ← List.append_assoc, Path.fileName, List.getLast?_concat]
    exact Option.filter_some_pos (decide_eq_true (base_infoFileName_ne_parent _))
  unfold Path.setFileName Path.join
  rw [hfile, components_infoFileName, Option.isSome_some, if_pos rfl, ← List.append_assoc,
    List.dropLast_concat, List.append_assoc _ (Path.parents _)]

/-- The directories in an id begin with its sigil. -/
theorem head_parents (id : MatrixId) {first : String} {rest : Path}
    (h : Path.parents id.text = first :: rest) :
    ∃ c ∈ ['!', '@', '$'], first.toList.head? = some c := by
  obtain ⟨c, hc, hhead⟩ := id.sigil
  obtain ⟨chars, hchars⟩ := List.head?_eq_some_iff.mp hhead
  have hplain : c ≠ '/' ∧ c ≠ '.' := by
    rcases List.mem_cons.mp hc with rfl | hc
    · decide
    · rcases List.mem_cons.mp hc with rfl | hc
      · decide
      · obtain rfl := List.mem_singleton.mp hc
        decide
  unfold Path.parents at h
  rw [hchars, List.splitOn_cons_eq_if_modifyHead, if_neg (by simpa using hplain.1)] at h
  cases hsplit : chars.splitOn '/' with
  | nil => exact absurd hsplit (List.splitOn_ne_nil _ _)
  | cons part parts =>
    rw [hsplit, List.modifyHead_cons] at h
    cases parts with
    | nil => cases h
    | cons part' parts =>
      have hname : String.ofList (c :: part) ≠ "" ∧ String.ofList (c :: part) ≠ "." := by
        refine ⟨fun heq => ?_, fun heq => ?_⟩
        · have hlist := congrArg String.toList heq
          simp at hlist
        · have hlist := congrArg String.toList heq
          simp only [String.toList_ofList] at hlist
          exact hplain.2 (List.cons.inj hlist).1
      have hkept : (String.ofList (c :: part) ≠ "" && String.ofList (c :: part) ≠ ".") = true := by
        rw [decide_eq_true hname.1, decide_eq_true hname.2]
        rfl
      rw [List.dropLast_cons_cons, List.map_cons, List.filter_cons, if_pos hkept] at h
      obtain rfl := (List.cons.inj h).1
      exact ⟨c, hc, by rw [String.toList_ofList]; rfl⟩

/-- The file of an asset is not its info file. -/
theorem filePath_ne_infoPath {extension : Option String}
    (hextension : ∀ e ∈ extension, '/' ∉ e.toList) :
    Path.parents asset.id.text ++ Path.components (assetFileName asset.id.text extension)
      ≠ Path.components (infoFileName asset.id.text) := by
  obtain ⟨t, hname, hsep, hdot⟩ : ∃ t, assetFileName asset.id.text extension = asset.id.text ++ t ∧
      '/' ∉ t.toList ∧ (t = "" ∨ t.toList.head? = some '.') := by
    cases extension with
    | none => exact ⟨"", (String.append_empty).symm, by simp, .inl rfl⟩
    | some e =>
      refine ⟨"." ++ e, String.append_assoc.symm ▸ rfl, ?_, .inr (by simp)⟩
      rw [String.toList_append, List.mem_append, not_or]
      exact ⟨by decide, hextension e rfl⟩
  rw [hname, components_infoFileName, Path.components_append_eq _ hsep]
  intro heq
  have heq := List.append_cancel_left heq
  by_cases hnamed : Path.base asset.id.text ++ t ≠ "" ∧ Path.base asset.id.text ++ t ≠ "."
  · -- the only name would be the one of the info file
    rw [List.filter_singleton, decide_eq_true hnamed.1, decide_eq_true hnamed.2] at heq
    have hnil : Path.parents asset.id.text = [] := by
      have hlength := congrArg List.length heq
      rw [List.length_append] at hlength
      exact List.eq_nil_of_length_eq_zero (by simpa using hlength)
    rw [hnil] at heq
    have hlist := congrArg String.toList (List.cons.inj heq).1
    rw [String.toList_append, String.toList_append] at hlist
    have ht : t.toList = "_info.json".toList := List.append_cancel_left hlist
    rcases hdot with rfl | hdot
    · exact absurd ht (by decide)
    · rw [ht] at hdot
      exact absurd hdot (by decide)
  · -- no name is left behind the directories, which do not begin like the info file
    have hbase : Path.base asset.id.text = "" ∨ Path.base asset.id.text = "." := by
      have hlist : ∀ {s s' : String}, s.toList = s'.toList → s = s' := String.toList_inj.mp
      rcases not_and_or.mp hnamed with h | h
      · have h := congrArg String.toList (not_not.mp h)
        rw [String.toList_append] at h
        exact .inl (hlist (List.append_eq_nil_iff.mp h).1)
      · have h := congrArg String.toList (not_not.mp h)
        rw [String.toList_append] at h
        rcases List.append_eq_singleton_iff.mp h with ⟨hnil, -⟩ | ⟨hdot, -⟩
        · exact .inl (hlist hnil)
        · exact .inr (hlist hdot)
    have hfilter : List.filter (fun name => decide (name ≠ "") && decide (name ≠ "."))
        [Path.base asset.id.text ++ t] = [] := by
      rw [List.filter_singleton]
      rcases not_and_or.mp hnamed with h | h
      · simp [not_not.mp h]
      · simp [not_not.mp h]
    rw [hfilter, List.append_nil] at heq
    obtain ⟨c, hc, hhead⟩ := head_parents asset.id heq
    rcases hbase with hbase | hbase
    · rw [hbase] at hhead
      obtain rfl := Option.some.inj hhead
      exact absurd hc (by decide)
    · rw [hbase] at hhead
      obtain rfl := Option.some.inj hhead
      exact absurd hc (by decide)

/-! ## Paths that stay in the directory -/

/-- The asset has a directory below the media directory, and the two files of the asset are direct
    children of it. -/
def PathsStay {B : Type} (manager : AssetManager B) (extension : Option String) : Prop :=
  (∃ names, names ≠ [] ∧ asset.ownDir dirs = dirs.media ++ names) ∧
    ∀ path, manager.getInfoPathAbsolute = .ok path ∨
      (manager.getAssetFileName extension).bind manager.getAssetPathAbsolute = .ok path →
        ∃ name, Path.resolve path = asset.ownDir dirs ++ [name]

/-- The route comes down by the names that it went up, and by one more. -/
def ComesBack (route : Route) (dir : Path) : Prop :=
  ∃ name, route.down = dir.drop (dir.length - route.up) ++ [name]

/-- The routes of both files come back to the directory of the asset, and the one of the room id of
    an attachment does not leave the media directory. -/
structure RoutesComeBack (extension : Option String) : Prop where
  info : ComesBack asset.infoRoute (asset.ownDir dirs)
  file : ComesBack (asset.fileRoute extension) (asset.ownDir dirs)
  room : ∀ roomId eventId, asset = .attachment roomId eventId →
    let route := Path.route (Path.components roomId.text)
    route.up = 0 ∨ ∃ names, names ≠ [] ∧
      route.down = dirs.media.drop (dirs.media.length + 1 - route.up) ++ names

theorem resolve_child (name : String) (h : Path.IsName name) (hparent : name ≠ "..") :
    Path.resolve (dirs.dataRootDir ++ Path.join dirs.mediaDir name) = dirs.media ++ [name] := by
  unfold Path.join MediaDirs.media Path.resolve
  rw [Path.components_of_isName h, ← List.append_assoc, List.foldl_append]
  exact if_neg hparent

theorem isChild_iff (p : Path) :
    (∃ name, Path.resolve ((dirs.dataRootDir ++ asset.dir dirs) ++ p)
        = asset.ownDir dirs ++ [name]) ↔ ComesBack (Path.route p) (asset.ownDir dirs) := by
  rw [Path.resolve_append]
  exact exists_congr fun name => Route.isChild_follow_iff _ _ _

/-- The directory of an asset is below the media directory unless a room id leads elsewhere. -/
theorem ownDir_below_iff :
    (∃ names, names ≠ [] ∧ asset.ownDir dirs = dirs.media ++ names) ↔
      ∀ roomId eventId, asset = .attachment roomId eventId →
        let route := Path.route (Path.components roomId.text)
        route.up = 0 ∨ ∃ names, names ≠ [] ∧
          route.down = dirs.media.drop (dirs.media.length + 1 - route.up) ++ names := by
  have hchild := fun name h => resolve_child dirs name h
  cases asset with
  | roomAvatar roomId =>
    refine ⟨fun _ => nofun, fun _ => ⟨["room_avatars"], by simp, ?_⟩⟩
    exact hchild "room_avatars" ⟨by decide, by decide, by decide⟩ (by decide)
  | userAvatar userId =>
    refine ⟨fun _ => nofun, fun _ => ⟨["user_avatars"], by simp, ?_⟩⟩
    exact hchild "user_avatars" ⟨by decide, by decide, by decide⟩ (by decide)
  | attachment roomId eventId =>
    have hattachments := hchild "attachments" ⟨by decide, by decide, by decide⟩ (by decide)
    have hown : ownDir dirs (.attachment roomId eventId)
        = (Path.route (Path.components roomId.text)).follow (dirs.media ++ ["attachments"]) := by
      show Path.resolve (dirs.dataRootDir
        ++ (dirs.attachmentsDir ++ Path.components roomId.text)) = _
      rw [← List.append_assoc, Path.resolve_append]
      exact congrArg (Route.follow _) hattachments
    rw [hown, Route.isBelow_follow_iff]
    refine ⟨fun hroute room event heq => ?_, fun hroute => hroute roomId eventId rfl⟩
    obtain ⟨rfl, rfl⟩ := MediaAsset.attachment.inj heq
    exact hroute

/-- The files of an asset are direct children of its own directory below the media directory
    exactly if the routes of its ids come back to it. -/
theorem paths_stay_iff {B : Type} (answers : Asset B) (extension : Option String) :
    asset.PathsStay dirs (asset.manager dirs answers) extension
      ↔ asset.RoutesComeBack dirs extension := by
  unfold PathsStay
  rw [asset.ownDir_below_iff dirs, asset.infoPath_eq dirs answers,
    asset.filePath_eq dirs answers extension]
  constructor
  · rintro ⟨hroom, hpaths⟩
    exact
      { info := (asset.isChild_iff dirs _).mp (hpaths _ (.inl rfl))
        file := (asset.isChild_iff dirs _).mp (hpaths _ (.inr rfl))
        room := hroom }
  · rintro ⟨hinfo, hfile, hroom⟩
    refine ⟨hroom, fun path hpath => ?_⟩
    rcases hpath with hpath | hpath
    · obtain rfl := Except.ok.inj hpath
      exact (asset.isChild_iff dirs _).mpr hinfo
    · obtain rfl := Except.ok.inj hpath
      exact (asset.isChild_iff dirs _).mpr hfile

/-! ## Ids without separators -/

theorem comesBack_of_name {name : String} (h : name ≠ "..") (dir : Path) :
    ComesBack (Path.route [name]) dir := by
  refine ⟨name, ?_⟩
  rw [Path.route_of_names (by simpa using Ne.symm h), Nat.sub_zero, List.drop_length]
  rfl

theorem parents_of_plain {id : String} (h : '/' ∉ id.toList) : Path.parents id = [] := by
  unfold Path.parents
  rw [List.splitOn_eq_singleton h]
  rfl

/-- A text that starts with a sigil and has no separator is a name. -/
theorem isName_append (id : MatrixId) (h : '/' ∉ id.text.toList) {t : String}
    (ht : '/' ∉ t.toList) : Path.IsName (id.text ++ t) ∧ id.text ++ t ≠ ".." := by
  obtain ⟨c, hc, hhead⟩ := id.sigil
  have hstart : (id.text ++ t).toList.head? = some c := by
    rw [String.toList_append, List.head?_append, hhead]
    rfl
  refine ⟨⟨?_, ?_, ?_⟩, ?_⟩
  · intro heq
    simp [heq] at hstart
  · intro heq
    rw [heq] at hstart
    obtain rfl : '.' = c := Option.some.inj hstart
    simp at hc
  · rw [String.toList_append, List.mem_append]
    exact fun hmem => hmem.elim h ht
  · intro heq
    rw [heq] at hstart
    obtain rfl : '.' = c := Option.some.inj hstart
    simp at hc

/-- The files of ids without a separator stay in their directory. -/
theorem routesComeBack_of_plain (hid : '/' ∉ asset.id.text.toList) {extension : Option String}
    (hextension : ∀ e, extension = some e → '/' ∉ e.toList)
    (hroom : ∀ roomId eventId, asset = .attachment roomId eventId → '/' ∉ roomId.text.toList) :
    asset.RoutesComeBack dirs extension where
  info := by
    have hname : infoFileName asset.id.text = asset.id.text ++ "_info.json" := by
      rw [infoFileName, String.append_assoc]
      rfl
    obtain ⟨hisName, hparent⟩ := isName_append asset.id hid
      (show '/' ∉ "_info.json".toList by decide)
    unfold infoRoute
    rw [hname, Path.components_of_isName hisName]
    exact comesBack_of_name hparent _
  file := by
    unfold fileRoute
    rw [parents_of_plain hid, List.nil_append]
    cases hext : extension with
    | none =>
      obtain ⟨hisName, hparent⟩ := isName_append asset.id hid (show '/' ∉ "".toList by decide)
      rw [String.append_empty] at hisName hparent
      rw [assetFileName, Path.components_of_isName hisName]
      exact comesBack_of_name hparent _
    | some e =>
      have ht : '/' ∉ ("." ++ e).toList := by
        rw [String.toList_append, List.mem_append]
        exact fun hmem => hmem.elim (by decide) (hextension e hext)
      obtain ⟨hisName, hparent⟩ := isName_append asset.id hid ht
      rw [assetFileName, String.append_assoc, Path.components_of_isName hisName]
      exact comesBack_of_name hparent _
  room := by
    intro roomId eventId heq
    refine .inl ?_
    obtain ⟨hisName, hparent⟩ := isName_append roomId (hroom roomId eventId heq)
      (show '/' ∉ "".toList by decide)
    rw [String.append_empty] at hisName hparent
    rw [Path.components_of_isName hisName, Path.route_of_names (by simpa using Ne.symm hparent)]

end MediaAsset

/-! ## An event id with parents -/

def plainRoom : MatrixId := ⟨"!r:hs", ⟨'!', by decide, by decide⟩, by decide⟩

def climbingEvent : MatrixId := ⟨"$/../../../../../evil", ⟨'$', by decide, by decide⟩, by decide⟩

/-- The info file of the event is in the root directory. -/
theorem event_id_leaves_data_root :
    let asset := MediaAsset.attachment plainRoom climbingEvent
    let dirs : MediaDirs := ⟨["data"], ["media"]⟩
    asset.ownDir dirs = ["data", "media", "attachments", "!r:hs"] ∧
      (Path.components (infoFileName climbingEvent.text)
        = ["$", "..", "..", "..", "..", "..", "evil_info.json"]) ∧
      Path.resolve (dirs.dataRootDir ++ asset.dir dirs
          ++ Path.components (infoFileName climbingEvent.text)) = ["evil_info.json"] ∧
      ∀ (answers : Asset Unit), ¬ asset.PathsStay dirs (asset.manager dirs answers) none := by
  have hown : MediaAsset.ownDir ⟨["data"], ["media"]⟩ (.attachment plainRoom climbingEvent)
      = ["data", "media", "attachments", "!r:hs"] := by decide +kernel
  have hcomponents : Path.components (infoFileName climbingEvent.text)
      = ["$", "..", "..", "..", "..", "..", "evil_info.json"] := by decide +kernel
  have hpath : Path.resolve ((["data"] ++ MediaAsset.dir ⟨["data"], ["media"]⟩
      (.attachment plainRoom climbingEvent)) ++ Path.components (infoFileName climbingEvent.text))
        = ["evil_info.json"] := by decide +kernel
  refine ⟨hown, hcomponents, hpath, fun answers hstay => ?_⟩
  obtain ⟨name, hname⟩ := hstay.2 _ (.inl (MediaAsset.infoPath_eq _ _ answers))
  rw [hown] at hname
  exact absurd (congrArg List.length (hpath.symm.trans hname)) (by simp)

end GoudaMatrix.Media
