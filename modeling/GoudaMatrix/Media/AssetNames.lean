/-
  The file names of assets in one directory (`get_info_file_name` and `get_asset_file_name` in
  `media.rs`). A name is the id with a text behind it, and nothing is escaped, so that the name of
  one asset may be that of another with a longer id.

  `names_apart_iff` says which ids and extensions clash: the one asset has no extension, and its id
  is a name of the other, or its extension is `json`, and its id is that of the other with `_info`.
  Operations on one of two assets that do not clash leave the files of the other. `avatars_clash`
  are two rooms whose avatars have the same file.
-/
import GoudaMatrix.Media.Uploads

namespace GoudaMatrix.Media

open GoudaMatrix.Lib

/-! ## Names -/

/-- The names of the two files of an asset. -/
def assetNames (id : String) (extension : Option String) : List String :=
  [infoFileName id, assetFileName id extension]

/-- The assets have no file name in common. -/
def Apart (a : String) (e : Option String) (b : String) (f : Option String) : Prop :=
  ∀ name ∈ assetNames a e, name ∉ assetNames b f

/-- A file extension is not empty and has neither a dot nor a separator. -/
def IsExtension (extension : Option String) : Prop :=
  ∀ e ∈ extension, e ≠ "" ∧ '.' ∉ e.toList ∧ '/' ∉ e.toList

/-- The data file of the first asset is no file of the second. -/
structure NoClash (a : String) (e : Option String) (b : String) (f : Option String) : Prop where
  data : e = none → ∀ y, f = some y → a ≠ b ++ "." ++ y
  info : e = none → a ≠ b ++ "_info.json"
  json : e = some "json" → a ≠ b ++ "_info"

theorem toList_infoFileName (id : String) :
    (infoFileName id).toList = (id ++ "_info").toList ++ '.' :: "json".toList := by
  rw [infoFileName, String.toList_append]
  rfl

theorem toList_assetFileName (id e : String) :
    (assetFileName id (some e)).toList = id.toList ++ '.' :: e.toList := by
  rw [assetFileName, String.toList_append, String.toList_append, List.append_assoc]
  rfl

theorem not_mem_assetFileName {id : String} (hid : '/' ∉ id.toList) {extension : Option String}
    (hextension : ∀ e ∈ extension, '/' ∉ e.toList) :
    '/' ∉ (assetFileName id extension).toList := by
  cases extension with
  | none => exact hid
  | some e =>
    rw [toList_assetFileName, List.mem_append, List.mem_cons]
    rintro (hmem | hmem | hmem)
    · exact hid hmem
    · exact absurd hmem (by decide)
    · exact hextension e rfl hmem

/-- What is before and behind the first dot is determined. -/
theorem dot_append_inj {e f xs ys : List Char} (he : '.' ∉ e) (hf : '.' ∉ f)
    (h : e ++ '.' :: xs = f ++ '.' :: ys) : e = f ∧ xs = ys := by
  induction e generalizing f with
  | nil =>
    cases f with
    | nil => exact ⟨rfl, (List.cons.inj h).2⟩
    | cons c f => exact absurd (List.mem_cons.mpr (.inl (List.cons.inj h).1)) hf
  | cons c e ih =>
    cases f with
    | nil => exact absurd (List.mem_cons.mpr (.inl (List.cons.inj h).1.symm)) he
    | cons d f =>
      obtain ⟨rfl, hrest⟩ := List.cons.inj h
      obtain ⟨rfl, hxs⟩ := ih (fun hmem => he (List.mem_cons_of_mem _ hmem))
        (fun hmem => hf (List.mem_cons_of_mem _ hmem)) hrest
      exact ⟨rfl, hxs⟩

/-- What is before and behind the last dot is determined. -/
theorem append_dot_inj {xs ys e f : List Char} (he : '.' ∉ e) (hf : '.' ∉ f)
    (h : xs ++ '.' :: e = ys ++ '.' :: f) : xs = ys ∧ e = f := by
  have hreverse := congrArg List.reverse h
  simp only [List.reverse_append, List.reverse_cons, List.append_assoc, List.singleton_append]
    at hreverse
  obtain ⟨hext, hrest⟩ := dot_append_inj (by simpa using he) (by simpa using hf) hreverse
  exact ⟨List.reverse_injective hrest, List.reverse_injective hext⟩

theorem infoFileName_injective {a b : String} (h : infoFileName a = infoFileName b) : a = b := by
  have hlist := congrArg String.toList h
  rw [toList_infoFileName, toList_infoFileName, String.toList_append, String.toList_append] at hlist
  exact String.toList_inj.mp (List.append_cancel_right (List.append_cancel_right hlist))

/-- When a data file is the info file of another asset. -/
theorem assetFileName_eq_infoFileName {a b : String} {e : Option String} (he : IsExtension e) :
    assetFileName a e = infoFileName b ↔
      e = none ∧ a = b ++ "_info.json" ∨ e = some "json" ∧ a = b ++ "_info" := by
  have hinfo : infoFileName b = b ++ "_info.json" := by
    rw [infoFileName, String.append_assoc]
    rfl
  cases e with
  | none => simp [assetFileName, hinfo]
  | some e =>
    have hdot := (he e rfl).2.1
    simp only [reduceCtorEq, false_and, false_or, Option.some.injEq]
    constructor
    · intro h
      have hlist := congrArg String.toList h
      rw [toList_assetFileName, toList_infoFileName] at hlist
      obtain ⟨hid, hext⟩ := append_dot_inj hdot (by decide) hlist
      exact ⟨String.toList_inj.mp hext, String.toList_inj.mp hid⟩
    · rintro ⟨rfl, rfl⟩
      refine String.toList_inj.mp ?_
      rw [toList_assetFileName, toList_infoFileName]

/-- When two assets have the same data file. -/
theorem assetFileName_eq_assetFileName {a b : String} (hne : a ≠ b) {e f : Option String}
    (he : IsExtension e) (hf : IsExtension f) :
    assetFileName a e = assetFileName b f ↔
      (e = none ∧ ∃ y, f = some y ∧ a = b ++ "." ++ y) ∨
        f = none ∧ ∃ x, e = some x ∧ b = a ++ "." ++ x := by
  cases e with
  | none =>
    cases f with
    | none => simp [assetFileName, hne]
    | some y => simp [assetFileName]
  | some x =>
    cases f with
    | none => simp [assetFileName, eq_comm]
    | some y =>
      simp only [reduceCtorEq, false_and, or_self, iff_false]
      intro h
      have hlist := congrArg String.toList h
      rw [toList_assetFileName, toList_assetFileName] at hlist
      exact hne (String.toList_inj.mp
        (append_dot_inj (he x rfl).2.1 (hf y rfl).2.1 hlist).1)

theorem apart_iff {a b : String} (hne : a ≠ b) {e f : Option String} (he : IsExtension e)
    (hf : IsExtension f) : Apart a e b f ↔ NoClash a e b f ∧ NoClash b f a e := by
  have hinfo : infoFileName a ≠ infoFileName b := fun h => hne (infoFileName_injective h)
  have hnames : Apart a e b f ↔ assetFileName b f ≠ infoFileName a ∧
      assetFileName a e ≠ infoFileName b ∧ assetFileName a e ≠ assetFileName b f := by
    simp [Apart, assetNames, hinfo, eq_comm]
  rw [hnames, Ne, Ne, Ne, assetFileName_eq_infoFileName he, assetFileName_eq_infoFileName hf,
    assetFileName_eq_assetFileName hne he hf]
  constructor
  · rintro ⟨hb, ha, hdata⟩
    refine ⟨⟨fun h y hy heq => hdata (.inl ⟨h, y, hy, heq⟩), fun h heq => ha (.inl ⟨h, heq⟩),
      fun h heq => ha (.inr ⟨h, heq⟩)⟩, fun h y hy heq => hdata (.inr ⟨h, y, hy, heq⟩),
      fun h heq => hb (.inl ⟨h, heq⟩), fun h heq => hb (.inr ⟨h, heq⟩)⟩
  · rintro ⟨ha, hb⟩
    refine ⟨?_, ?_, ?_⟩
    · rintro (⟨h, heq⟩ | ⟨h, heq⟩)
      · exact hb.info h heq
      · exact hb.json h heq
    · rintro (⟨h, heq⟩ | ⟨h, heq⟩)
      · exact ha.info h heq
      · exact ha.json h heq
    · rintro (⟨h, y, hy, heq⟩ | ⟨h, x, hx, heq⟩)
      · exact ha.data h y hy heq
      · exact hb.data h x hx heq

/-! ## Files -/

/-- The paths of the two files. -/
def assetFiles (dir : Path) (id : String) (extension : Option String) : List Path :=
  (assetNames id extension).map (Path.join dir)

theorem isName_infoFileName {id : String} (h : '/' ∉ id.toList) :
    Path.IsName (infoFileName id) := by
  have hlength : 10 ≤ (infoFileName id).toList.length := by
    rw [toList_infoFileName, String.toList_append, List.length_append, List.length_append]
    show 10 ≤ _ + 5 + 5
    omega
  refine ⟨fun heq => ?_, fun heq => ?_, ?_⟩
  · rw [heq] at hlength
    exact absurd hlength (by decide)
  · rw [heq] at hlength
    exact absurd hlength (by decide)
  · rw [toList_infoFileName, String.toList_append, List.mem_append, List.mem_append]
    rintro ((hmem | hmem) | hmem)
    · exact h hmem
    · exact absurd hmem (by decide)
    · exact absurd hmem (by decide)

theorem isName_assetFileName {id : String} (h : Path.IsName id) {extension : Option String}
    (hextension : IsExtension extension) : Path.IsName (assetFileName id extension) := by
  have hsep := not_mem_assetFileName h.2.2 fun e he => (hextension e he).2.2
  cases extension with
  | none => exact h
  | some e =>
    have hid : id.toList ≠ [] := fun heq => h.1 (String.toList_inj.mp heq)
    refine ⟨fun heq => ?_, fun heq => ?_, hsep⟩
    · have hlist := congrArg String.toList heq
      rw [toList_assetFileName] at hlist
      simp at hlist
    · have hlist := congrArg (fun s => s.toList.length) heq
      simp only [toList_assetFileName, List.length_append, List.length_cons] at hlist
      have hpos := List.length_pos_iff.mpr hid
      have hone : ".".toList.length = 1 := rfl
      omega

theorem setFileName_concat (dir : Path) {old : String} (hold : old ≠ "..") (name : String) :
    Path.setFileName (dir ++ [old]) name = Path.join dir name := by
  have hfile : Path.fileName (dir ++ [old]) = some old := by simp [Path.fileName, hold]
  unfold Path.setFileName
  rw [hfile, Option.isSome_some, if_pos rfl, List.dropLast_concat]

/-- Assets that are apart have no file in common. -/
theorem assetFiles_apart {a b : String} {e f : Option String} (h : Apart a e b f)
    (ha : Path.IsName a) (hb : Path.IsName b) (he : IsExtension e) (hf : IsExtension f)
    (dir : Path) : ∀ p ∈ assetFiles dir a e, p ∉ assetFiles dir b f := by
  have hjoin : ∀ {id extension}, Path.IsName id → IsExtension extension →
      ∀ name ∈ assetNames id extension, Path.join dir name = dir ++ [name] := by
    intro id extension hid hextension name hname
    have hisName : Path.IsName name := by
      rcases List.mem_pair.mp hname with rfl | rfl
      · exact isName_infoFileName hid.2.2
      · exact isName_assetFileName hid hextension
    rw [Path.join, Path.components_of_isName hisName]
  intro p hp hp'
  obtain ⟨name, hname, rfl⟩ := List.mem_map.mp hp
  obtain ⟨name', hname', heq⟩ := List.mem_map.mp hp'
  rw [hjoin ha he name hname, hjoin hb hf name' hname'] at heq
  obtain rfl := List.singleton_inj.mp (List.append_cancel_left heq)
  exact h name' hname hname'

section Manager

variable {B : Type} {manager : AssetManager B} {id : String}
  (hid : manager.asset.assetId = .ok id) (hplain : '/' ∉ id.toList)

include hid hplain

theorem AssetManager.getInfoPathAbsolute_of_plain :
    manager.getInfoPathAbsolute = .ok (manager.getDownloadDirAbsolute ++ [infoFileName id]) := by
  simp [getInfoPathAbsolute, getInfoFileName, hid, Except.map, Path.join,
    Path.components_of_isName (isName_infoFileName hplain)]

theorem AssetManager.getAssetPathAbsolute_of_plain (fileName : String) :
    manager.getAssetPathAbsolute fileName
      = .ok (Path.join manager.getDownloadDirAbsolute fileName) := by
  rw [getAssetPathAbsolute_of_ok (getInfoPathAbsolute_of_plain hid hplain),
    setFileName_concat _ (infoFileName_ne_parent _)]

theorem AssetManager.getAssetPathRelative_of_plain (fileName : String) :
    manager.getAssetPathRelative fileName = .ok (Path.join manager.assetDir fileName) := by
  have hinfo : manager.getInfoPathRelative = .ok (manager.assetDir ++ [infoFileName id]) := by
    simp [getInfoPathRelative, getInfoFileName, hid, Except.map, Path.join,
      getDownloadDirRelative, Path.components_of_isName (isName_infoFileName hplain)]
  rw [getAssetPathRelative, hinfo]
  exact congrArg Except.ok (setFileName_concat _ (infoFileName_ne_parent _) fileName)

/-- The files of a stored asset whose file name has the extension. -/
theorem AssetManager.ownFiles_of_plain (extension : Option String) (upstreamUrl : String) :
    manager.ownFiles ⟨assetFileName id extension, upstreamUrl⟩
      = assetFiles manager.getDownloadDirAbsolute id extension := by
  unfold ownFiles assetFiles assetNames
  rw [getInfoPathAbsolute_of_plain hid hplain, getAssetPathAbsolute_of_plain hid hplain]
  simp [Path.join, Path.components_of_isName (isName_infoFileName hplain)]

end Manager

/-! ## Operations -/

namespace AssetOp

variable {B : Type} (json : InfoFormat B)

/-- The extension that a download or an upload brings. -/
def newExtension : AssetOp B → Option (Option String)
  | .download manager => manager.asset.download.toOption.map Download.fileExtension
  | .upload _ uploaded _ => uploaded.toOption.map Upload.fileExtension

/-- The file that an upload moves. -/
def source : AssetOp B → Option Path
  | .download _ => none
  | .upload manager _ src => some (manager.dataRootDir ++ src)

/-- The operation is one on the asset in the directory, and the extensions of the stored and of the
    new file are allowed. -/
structure IsOn (op : AssetOp B) (fs : FileSystem B) (dir : Path) (id : String)
    (allowed : Option String → Prop) : Prop where
  assetId : op.manager.asset.assetId = .ok id
  dir : op.manager.getDownloadDirAbsolute = dir
  stored : ∀ info, op.manager.readInfo json fs = some info →
    ∃ e, allowed e ∧ info.file = assetFileName id e
  new : ∀ e, op.newExtension = some e → allowed e

variable {json}

theorem storedFiles_of_isOn {op : AssetOp B} {fs : FileSystem B} {dir : Path} {id : String}
    {allowed : Option String → Prop} (h : op.IsOn json fs dir id allowed)
    (hplain : '/' ∉ id.toList) :
    ∀ p ∈ op.manager.storedFiles json fs, ∃ e, allowed e ∧ p ∈ assetFiles dir id e := by
  intro p hp
  unfold AssetManager.storedFiles at hp
  cases hinfo : op.manager.readInfo json fs with
  | none =>
    rw [hinfo] at hp
    cases hp
  | some info =>
    obtain ⟨e, he, hfile⟩ := h.stored info hinfo
    rw [hinfo] at hp
    obtain ⟨file, upstreamUrl⟩ := info
    obtain rfl := hfile
    rw [← h.dir]
    exact ⟨e, he, AssetManager.ownFiles_of_plain h.assetId hplain e upstreamUrl ▸ hp⟩

theorem newFiles_of_plain {manager : AssetManager B} {id : String}
    (hid : manager.asset.assetId = .ok id) (hplain : '/' ∉ id.toList)
    (extension : Option String) :
    manager.newFiles extension = assetFiles manager.getDownloadDirAbsolute id extension := by
  have hname : manager.getAssetFileName extension = .ok (assetFileName id extension) := by
    simp [AssetManager.getAssetFileName, hid, Except.map]
  unfold AssetManager.newFiles
  rw [hname]
  exact AssetManager.ownFiles_of_plain hid hplain extension ""

/-- An operation handles the files of its asset, and its source. -/
theorem files_of_isOn {op : AssetOp B} {fs : FileSystem B} {dir : Path} {id : String}
    {allowed : Option String → Prop} (h : op.IsOn json fs dir id allowed)
    (hplain : '/' ∉ id.toList) :
    (∀ p ∈ op.removes json fs, p ∈ op.source ∨ ∃ e, allowed e ∧ p ∈ assetFiles dir id e) ∧
      ∀ p ∈ op.writes json fs, ∃ e, allowed e ∧ p ∈ assetFiles dir id e := by
  have hstored := storedFiles_of_isOn h hplain
  have hfiles : ∀ extension, op.manager.newFiles extension = assetFiles dir id extension := by
    intro extension
    rw [newFiles_of_plain h.assetId hplain, h.dir]
  cases op with
  | download manager =>
    refine ⟨fun p hp => .inr (hstored p ?_), fun p hp => ?_⟩
    · unfold removes at hp
      dsimp only at hp
      split at hp
      · exact hp
      · cases hp
    · unfold writes at hp
      dsimp only at hp
      split at hp
      · cases hdownload : manager.asset.download with
        | error e =>
          rw [hdownload] at hp
          cases hp
        | ok answer =>
          rw [hdownload] at hp
          refine ⟨answer.fileExtension, h.new _ ?_, hfiles _ ▸ hp⟩
          simp [newExtension, hdownload, Except.toOption]
      · cases hp
  | upload manager uploaded src =>
    refine ⟨fun p hp => ?_, fun p hp => ?_⟩
    · unfold removes at hp
      dsimp only at hp
      split at hp
      · rcases List.mem_cons.mp hp with rfl | hp
        · exact .inl rfl
        · exact .inr (hstored p hp)
      · cases hp
    · unfold writes at hp
      cases uploaded with
      | error e => cases hp
      | ok answer => exact ⟨answer.fileExtension, h.new _ rfl, hfiles _ ▸ hp⟩

end AssetOp

/-- Which assets have no file name in common; an operation on the one then leaves the files of the
    other. -/
theorem names_apart_iff {B : Type} (json : InfoFormat B) {a b : String} (hne : a ≠ b) :
    (∀ e f, IsExtension e → IsExtension f →
      (Apart a e b f ↔ NoClash a e b f ∧ NoClash b f a e)) ∧
    ∀ (op : AssetOp B) fs dir f, Path.IsName a → Path.IsName b → IsExtension f →
      op.IsOn json fs dir a (fun e => IsExtension e ∧ NoClash a e b f ∧ NoClash b f a e) →
      (∀ src ∈ op.source, src ∉ assetFiles dir b f) →
      ∀ p ∈ assetFiles dir b f, (op.perform json fs).2.read p = fs.read p := by
  refine ⟨fun e f he hf => apart_iff hne he hf, ?_⟩
  intro op fs dir f ha hb hf hop hsource p hp
  obtain ⟨hremoves, hwrites⟩ := AssetOp.files_of_isOn hop ha.2.2
  have hforeign : ∀ e, (IsExtension e ∧ NoClash a e b f ∧ NoClash b f a e) →
      p ∉ assetFiles dir a e := fun e ⟨he, hclash⟩ hmem =>
    assetFiles_apart ((apart_iff hne he hf).mpr hclash) ha hb he hf dir p hmem hp
  rcases op.perform_changes json fs p with hsame | ⟨hmem, -⟩ | ⟨hmem, -⟩
  · exact hsame
  · rcases hremoves p hmem with hsrc | ⟨e, he, hmem⟩
    · exact absurd hp (hsource p hsrc)
    · exact absurd hmem (hforeign e he)
  · obtain ⟨e, he, hmem⟩ := hwrites p hmem
    exact absurd hmem (hforeign e he)

/-! ## Two rooms -/

/-- A room and one with a longer server name, each with an avatar of this extension. -/
def avatarWith (roomId : String) (extension : Option String) : AssetManager AvatarFile :=
  { avatarOf roomId with
    asset := { (avatarOf roomId).asset with
      download := .ok ⟨.image roomId, extension, "mxc://hs/" ++ roomId⟩ } }

theorem isExtension_png : IsExtension (some "png") := by
  rintro _ ⟨⟩
  exact ⟨by decide, by decide, by decide⟩

theorem names_apart_iff_avatars :
    Apart "!x:hs" (some "png") "!y:hs" (some "png") ∧
      ∀ p ∈ assetFiles ["data", "media", "room_avatars"] "!y:hs" (some "png"),
        ((AssetOp.download (avatarWith "!x:hs" (some "png"))).perform avatarFormat
          avatarRoot).2.read p = avatarRoot.read p := by
  have hne : "!x:hs" ≠ "!y:hs" := by decide
  have hclash : ∀ a b : String, NoClash a (some "png") b (some "png") := fun a b =>
    ⟨fun h => (by cases h), fun h => (by cases h), fun h => absurd h (by decide)⟩
  have hop : (AssetOp.download (avatarWith "!x:hs" (some "png"))).IsOn avatarFormat avatarRoot
      ["data", "media", "room_avatars"] "!x:hs" fun e =>
        IsExtension e ∧ NoClash "!x:hs" e "!y:hs" (some "png") ∧
          NoClash "!y:hs" (some "png") "!x:hs" e := by
    refine ⟨rfl, rfl, fun info hinfo => ?_, fun e he => ?_⟩
    · have hnone : (avatarWith "!x:hs" (some "png")).readInfo avatarFormat avatarRoot = none := by
        decide +kernel
      cases hnone.symm.trans hinfo
    · obtain rfl := Option.some.inj he
      exact ⟨isExtension_png, hclash _ _, hclash _ _⟩
  have hmain := names_apart_iff avatarFormat hne
  refine ⟨(hmain.1 _ _ isExtension_png isExtension_png).mpr ⟨hclash _ _, hclash _ _⟩, ?_⟩
  exact hmain.2 _ avatarRoot _ (some "png") ⟨by decide, by decide, by decide⟩
    ⟨by decide, by decide, by decide⟩ isExtension_png hop fun _ h => by cases h

/-- The avatar of the second room has no extension that is known, and its file is that of the
    first: the first room now has the avatar of the second. -/
theorem avatars_clash :
    ¬ Apart "!x:hs" (some "png") "!x:hs.png" none ∧
      (((avatarWith "!x:hs.png" none).download avatarFormat
        ((avatarWith "!x:hs" (some "png")).download avatarFormat avatarRoot).2).2.read
          ["data", "media", "room_avatars", "!x:hs.png"]) = some (.image "!x:hs.png") := by
  refine ⟨fun h => h "!x:hs.png" ?_ ?_, by decide +kernel⟩
  · decide
  · decide

end GoudaMatrix.Media
