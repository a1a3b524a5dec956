/-
  The stored avatars of all rooms and users, over any sequence of calls of the media manager, of
  changes of the avatars and of uploads. The calls come one at a time.

  The data of a media URL never changes, and the ids are told apart by the names of their files. An
  upload moves its source, so that the results are about runs in which the application keeps off the
  files of the avatars (`Respects`).

  `avatars_served`: a returned path names the whole data of a medium, that of the current avatar
  unless the homeserver does not tell which it is; a call that learns that there is no avatar
  leaves no file behind. `avatars_kept`: an avatar that has been returned is returned again, from
  the directory alone, until it changes or another image is uploaded.
-/
import GoudaMatrix.Lib.Run
import GoudaMatrix.Media.AssetSlots
import GoudaMatrix.Media.Avatars

namespace GoudaMatrix.Media

open GoudaMatrix.Lib GoudaMatrix.Ruma

/-- An avatar, by the id of its room or user. -/
inductive Avatar where
  | room (roomId : String)
  | user (userId : String)
deriving DecidableEq, Repr

namespace Avatar

def id : Avatar → String
  | .room roomId => roomId
  | .user userId => userId

def dir (dirs : MediaDirs) : Avatar → Path
  | .room _ => dirs.roomAvatarsDir
  | .user _ => dirs.userAvatarsDir

def absoluteDir (dirs : MediaDirs) (avatar : Avatar) : Path :=
  dirs.dataRootDir ++ avatar.dir dirs

end Avatar

/-! ## The assets -/

namespace UserAvatarAsset

variable {B : Type} (client : MediaClient B)

/-- What the homeserver says of the avatar, if it answers at all. -/
def asked (asset : UserAvatarAsset) (answer : ProfileAnswer) : Option (Option String) :=
  asset.avatarUri.or (fetchAvatarUri answer)

theorem getAvatarUri_eq (asset : UserAvatarAsset) (answer : ProfileAnswer) :
    asset.getAvatarUri answer = match asset.asked answer with
      | some uri => .ok uri
      | none => .error .matrixError := by
  unfold getAvatarUri asked
  cases asset.avatarUri with
  | none => rfl
  | some uri => rfl

theorem plain_of_download {client : MediaClient B} {asset : UserAvatarAsset}
    {answer : ProfileAnswer} {download : Download B}
    (h : (asset.toAsset client answer).download = .ok download) :
    ∀ e ∈ download.fileExtension, '/' ∉ e.toList := by
  have hget : asset.download client answer = .ok download := h
  unfold UserAvatarAsset.download at hget
  split at hget
  · cases hget
  · cases hget
  · next url _ =>
    cases hdata : downloadMxc client url with
    | error e =>
      rw [hdata] at hget
      cases hget
    | ok data =>
      rw [hdata] at hget
      obtain rfl := Except.ok.inj hget
      exact fun e he => client.infer_plain he

/-- The asset of a room is that of a user whose avatar is known. -/
theorem toAsset_of_room (roomId : String) (avatarUrl : Option String) (answer : ProfileAnswer) :
    RoomAvatarAsset.toAsset client ⟨roomId, avatarUrl⟩
      = toAsset client ⟨roomId, some avatarUrl⟩ answer := by
  cases avatarUrl with
  | none => rfl
  | some url => rfl

end UserAvatarAsset

/-! ## One call -/

/-- What a call makes of the stored avatar, by what the homeserver says of it and of its data. -/
structure Served {B : Type} (asked : Option (Option String)) (getFile : String → Result B)
    (slot : Option (StoredAsset B)) (result : Result (StoredAsset B))
    (slot' : Option (StoredAsset B)) : Prop where
  returned : ∀ stored, result = .ok stored →
    slot' = some stored ∧ ∀ uri, asked = some uri → uri = some stored.upstreamUrl
  found : ∀ url data, asked = some (some url) → getFile url = .ok data →
    ∃ stored, result = .ok stored
  removed : asked = some none → slot' = none
  origin : ∀ stored, slot' = some stored →
    slot = some stored ∨ getFile stored.upstreamUrl = .ok stored.data
  again : ∀ stored, slot = some stored → (∀ uri, asked = some uri → uri = some stored.upstreamUrl) →
    result = .ok stored ∧ slot' = some stored

namespace UserAvatarAsset

variable {B : Type} {client : MediaClient B} {asset : UserAvatarAsset} {answer : ProfileAnswer}
  {id : String} {slot slot' : Option (StoredAsset B)} {result : Result (StoredAsset B)}

theorem served_of_no_answer (hasked : asset.asked answer = none)
    (h : SlotDownload (asset.toAsset client answer) id slot result slot') :
    Served (asset.asked answer) (downloadMxc client) slot result slot' := by
  have huri : asset.getAvatarUri answer = .error .matrixError := by rw [getAvatarUri_eq, hasked]
  have hcheck : ∀ info, (asset.toAsset client answer).isUpToDate info = .error .matrixError :=
    fun info => by
      show asset.isUpToDate answer info = _
      rw [isUpToDate, huri]
      rfl
  have hdownload : (asset.toAsset client answer).download = .error .matrixError := by
    rw [toAsset, download, huri]
  rw [hasked]
  cases h with
  | current hslot =>
    subst hslot
    exact ⟨fun stored' heq => by cases heq; exact ⟨rfl, nofun⟩, nofun, nofun,
      fun stored' heq => .inl heq, fun stored' heq _ => by cases heq; exact ⟨rfl, rfl⟩⟩
  | removed hslot hfalse => rw [hcheck] at hfalse; cases hfalse
  | failed hstale herror =>
    refine ⟨nofun, nofun, nofun, fun stored heq => .inl heq, fun stored hslot _ => ?_⟩
    have hfalse := (hstale stored hslot).1
    rw [hcheck] at hfalse
    cases hfalse
  | replaced hstale hok => rw [hdownload] at hok; cases hok

theorem served_of_removed (hasked : asset.asked answer = some none)
    (h : SlotDownload (asset.toAsset client answer) id slot result slot') :
    Served (asset.asked answer) (downloadMxc client) slot result slot' := by
  have huri : asset.getAvatarUri answer = .ok none := by rw [getAvatarUri_eq, hasked]
  have hcheck : ∀ info, (asset.toAsset client answer).isUpToDate info = .ok false :=
    fun info => by
      show asset.isUpToDate answer info = _
      rw [isUpToDate, huri]
      rfl
  have hremoved : (asset.toAsset client answer).wasRemoved = true := by
    rw [toAsset, wasRemoved, huri]
    rfl
  have hdownload : (asset.toAsset client answer).download = .error .notFound := by
    rw [toAsset, download, huri]
  rw [hasked]
  cases h with
  | current hslot hfresh => exact absurd (hcheck _) hfresh
  | removed hslot =>
    exact ⟨nofun, nofun, fun _ => rfl, nofun, fun _ _ hurl => nomatch hurl none rfl⟩
  | failed hstale herror =>
    have hnone : slot = none := by
      cases hslot : slot with
      | none => rfl
      | some stored =>
        have hkept := (hstale stored hslot).2
        rw [hremoved] at hkept
        cases hkept
    exact ⟨nofun, nofun, fun _ => hnone, fun stored heq => .inl heq,
      fun _ _ hurl => nomatch hurl none rfl⟩
  | replaced hstale hok => rw [hdownload] at hok; cases hok

theorem served_of_url {url : String} (hasked : asset.asked answer = some (some url))
    (h : SlotDownload (asset.toAsset client answer) id slot result slot') :
    Served (asset.asked answer) (downloadMxc client) slot result slot' := by
  have huri : asset.getAvatarUri answer = .ok (some url) := by rw [getAvatarUri_eq, hasked]
  have hcheck : ∀ info, (asset.toAsset client answer).isUpToDate info
      = .ok (decide (url = info.upstreamUrl)) := fun info => by
    show asset.isUpToDate answer info = _
    rw [isUpToDate, huri]
    rfl
  have hremoved : (asset.toAsset client answer).wasRemoved = false := by
    rw [toAsset, wasRemoved, huri]
    rfl
  have hdownload : (asset.toAsset client answer).download
      = (downloadMxc client url).map fun content => ⟨content, client.infer content, url⟩ := by
    rw [toAsset, download, huri]
  have hfresh : ∀ stored : StoredAsset B, (asset.toAsset client answer).isUpToDate (stored.info id)
      = .ok false → url ≠ stored.upstreamUrl := fun stored hfalse heq => by
    rw [hcheck, Except.ok.injEq, decide_eq_false_iff_not] at hfalse
    exact hfalse heq
  rw [hasked]
  cases h with
  | @current stored hslot hok =>
    have hurl : url = stored.upstreamUrl := by
      by_contra hne
      have hother : ¬ url = (stored.info id).upstreamUrl := hne
      exact hok (by rw [hcheck, decide_eq_false hother])
    subst hslot
    refine ⟨fun stored' heq => ?_, fun _ _ _ _ => ⟨stored, rfl⟩, nofun, fun _ heq => .inl heq, ?_⟩
    · cases heq
      exact ⟨rfl, fun uri huri => by cases huri; rw [hurl]⟩
    · rintro stored' ⟨⟩ -
      exact ⟨rfl, rfl⟩
  | removed hslot hfalse htrue => rw [hremoved] at htrue; cases htrue
  | failed hstale herror =>
    refine ⟨nofun, fun url' data heq hdata => ?_, nofun, fun _ heq => .inl heq, ?_⟩
    · cases heq
      rw [hdownload, hdata] at herror
      cases herror
    · intro stored hslot hurl
      exact absurd (Option.some.inj (hurl _ rfl)) (hfresh stored (hstale stored hslot).1)
  | @replaced stored hstale hok =>
    have hdata : downloadMxc client url = .ok stored.data ∧ stored.upstreamUrl = url := by
      rw [hdownload] at hok
      cases hget : downloadMxc client url with
      | error e => rw [hget] at hok; cases hok
      | ok data =>
        rw [hget] at hok
        obtain ⟨rfl, -, rfl⟩ := (Download.mk.injEq ..).mp (Except.ok.inj hok)
        exact ⟨rfl, rfl⟩
    refine ⟨fun stored' heq => ?_, fun _ _ _ _ => ⟨stored, rfl⟩, nofun, fun stored' heq => ?_, ?_⟩
    · cases heq
      exact ⟨rfl, fun uri huri => by cases huri; rw [hdata.2]⟩
    · obtain rfl := Option.some.inj heq
      exact .inr (hdata.2 ▸ hdata.1)
    · intro stored' hslot hurl
      exact absurd (Option.some.inj (hurl _ rfl)) (hfresh stored' (hstale stored' hslot).1)

theorem served (h : SlotDownload (asset.toAsset client answer) id slot result slot') :
    Served (asset.asked answer) (downloadMxc client) slot result slot' :=
  match hasked : asset.asked answer with
  | none => hasked ▸ served_of_no_answer hasked h
  | some none => hasked ▸ served_of_removed hasked h
  | some (some _) => hasked ▸ served_of_url hasked h

end UserAvatarAsset

/-! ## The system -/

structure AvatarState (B : Type) where
  fs : FileSystem B
  /-- The data of the media URLs that the homeserver has given out. -/
  repository : String → Option B
  /-- The avatars as the homeserver tells them. -/
  avatars : Avatar → Option String

/-- A call for the path of an avatar, with the answers of the homeserver to its requests. -/
inductive AvatarCall where
  | getRoomAvatarPath (roomId : String)
  | getUserAvatarPath (userId : String) (first second : ProfileAnswer)
deriving DecidableEq, Repr

inductive AvatarStep (B : Type) where
  /-- Anyone uploads a medium. -/
  | publish (url : String) (data : B)
  /-- An avatar is set or removed. -/
  | change (avatar : Avatar) (url : Option String)
  /-- The application writes a file. -/
  | provide (path : String) (data : B)
  /-- A medium can be downloaded if the homeserver is reachable. -/
  | call (call : AvatarCall) (reachable : Bool)
  | uploadRoomAvatar (roomId avatarPath : String) (answer : UploadAnswer)

/-- A step that leaves an avatar and its stored file alone. -/
def AvatarStep.Spares {B : Type} (avatar : Avatar) : AvatarStep B → Prop
  | .change other _ => other ≠ avatar
  | .uploadRoomAvatar roomId _ _ => .room roomId ≠ avatar
  | .publish _ _ | .provide _ _ | .call _ _ => True

/-- A request that is answered is answered with the avatar of the user. -/
def ProfileAnswer.Fits (avatar : Option String) (answer : ProfileAnswer) : Prop :=
  ∀ uri, fetchAvatarUri answer = some uri → uri = avatar

instance (avatar : Option String) (answer : ProfileAnswer) : Decidable (answer.Fits avatar) := by
  unfold ProfileAnswer.Fits
  exact decidable_of_iff (∀ uri ∈ fetchAvatarUri answer, uri = avatar) Iff.rfl

namespace AvatarCall

def avatar : AvatarCall → Avatar
  | getRoomAvatarPath roomId => .room roomId
  | getUserAvatarPath userId _ _ => .user userId

/-- The call learns whether there is an avatar. -/
def answered : AvatarCall → Bool
  | getRoomAvatarPath _ => true
  | getUserAvatarPath _ first second => ((fetchAvatarUri first).or (fetchAvatarUri second)).isSome

def Fits (avatars : Avatar → Option String) : AvatarCall → Prop
  | getRoomAvatarPath _ => True
  | getUserAvatarPath userId first second =>
    first.Fits (avatars (.user userId)) ∧ second.Fits (avatars (.user userId))

instance (avatars : Avatar → Option String) (call : AvatarCall) :
    Decidable (call.Fits avatars) := by
  cases call <;> unfold Fits <;> infer_instance

end AvatarCall

section Avatars

variable {B : Type} (inner : AvatarManager B) (known : List Avatar)

/-- A path of the application without `..`, to a file in neither directory of avatars. -/
def Outside (path : String) : Prop :=
  Path.components path ≠ [] ∧ ".." ∉ Path.components path ∧
    ∀ dir ∈ [inner.dirs.roomAvatarsDir, inner.dirs.userAvatarsDir],
      (Path.resolve (inner.dirs.dataRootDir ++ Path.components path)).dropLast
        ≠ Path.resolve (inner.dirs.dataRootDir ++ dir)

instance (path : String) : Decidable (Outside inner path) := by
  unfold Outside
  infer_instance

namespace AvatarState

variable (s : AvatarState B)

def start : AvatarState B := ⟨inner.initDirs FileSystem.empty, fun _ => none, fun _ => none⟩

def getFile (reachable : Bool) (source : MediaSource) : Result B :=
  match reachable, s.repository source.url with
  | true, some data => .ok data
  | true, none | false, _ => .error .matrixError

/-- The manager with what the homeserver answers now. -/
def manager (reachable : Bool) : AvatarManager B :=
  { inner with client := { inner.client with getFile := s.getFile reachable } }

/-- The path that a call returns, and the files after it. -/
def perform (reachable : Bool) : AvatarCall → Option Path × FileSystem B
  | .getRoomAvatarPath roomId =>
    (s.manager inner reachable).getRoomAvatarPath roomId (s.avatars (.room roomId)) s.fs
  | .getUserAvatarPath userId first second =>
    (s.manager inner reachable).getUserAvatarPath userId first second s.fs

def uploadRoomAvatar (roomId avatarPath : String) (answer : UploadAnswer) :
    Result Path × FileSystem B :=
  (s.manager inner true).uploadRoomAvatar roomId (s.avatars (.room roomId))
    (Path.components avatarPath) answer s.fs

/-- The uploaded image gets its URL also if it does not become the avatar. -/
def uploadedTo (avatarPath : String) (answer : UploadAnswer) : String → Option B :=
  match answer.contentUri, s.fs.read (inner.dirs.dataRootDir ++ Path.components avatarPath) with
  | .ok contentUri, some data => Function.update s.repository contentUri (some data)
  | .ok _, none | .error _, _ => s.repository

/-- The URL of an upload is new. -/
def IsFresh (answer : UploadAnswer) : Bool :=
  match answer.contentUri with
  | .ok contentUri => (s.repository contentUri).isNone
  | .error _ => true

def step : AvatarStep B → Option (AvatarState B)
  | .publish url data =>
    if (s.repository url).isNone then
      some { s with repository := Function.update s.repository url (some data) }
    else none
  | .change avatar url => some { s with avatars := Function.update s.avatars avatar url }
  | .provide path data =>
    (s.fs.write (inner.dirs.dataRootDir ++ Path.components path) data).map fun fs =>
      { s with fs := fs }
  | .call call reachable =>
    if call.Fits s.avatars then some { s with fs := (s.perform inner reachable call).2 } else none
  | .uploadRoomAvatar roomId avatarPath answer =>
    if s.IsFresh answer then
      some { s with
        fs := (s.uploadRoomAvatar inner roomId avatarPath answer).2
        repository := s.uploadedTo inner avatarPath answer }
    else none

end AvatarState

def avatarSystem : System (AvatarState B) (AvatarStep B) where
  step s a := s.step inner a

/-- The step is about one of the avatars, and no file of an avatar is written by the application or
    given to an upload, which moves it. -/
def AvatarStep.Respects : AvatarStep B → Prop
  | .publish _ _ | .change _ _ => True
  | .provide path _ => Outside inner path
  | .call served _ => served.avatar ∈ known
  | .uploadRoomAvatar roomId avatarPath _ => .room roomId ∈ known ∧ Outside inner avatarPath

instance (a : AvatarStep B) : Decidable (a.Respects inner known) := by
  cases a <;> unfold AvatarStep.Respects <;> infer_instance

end Avatars

/-! ## What is stored -/

/-- Avatars whose ids are names, and whose files are told apart by their names. -/
structure KnownAvatars (dirs : MediaDirs) (known : List Avatar) : Prop where
  name : ∀ a ∈ known, Path.IsName a.id
  apart : ∀ a ∈ known, ∀ b ∈ known, a ≠ b → a.dir dirs = b.dir dirs → NamesApart a.id b.id

theorem KnownAvatars.path_ne {dirs : MediaDirs} {known : List Avatar} (h : KnownAvatars dirs known)
    {a b : Avatar} (ha : a ∈ known) (hb : b ∈ known) (hne : a ≠ b) {name name' : String}
    (hname : OwnName a.id name) (hname' : OwnName b.id name') :
    a.absoluteDir dirs ++ [name] ≠ b.absoluteDir dirs ++ [name'] := by
  intro heq
  obtain ⟨hdir, hnames⟩ := List.append_inj' heq rfl
  obtain rfl := List.singleton_inj.mp hnames
  exact h.apart a ha b hb hne (List.append_cancel_left hdir) name hname hname'

section Avatars

variable {B : Type} {inner : AvatarManager B} {known : List Avatar}

theorem eq_ok_of_toOption {α : Type} {result : Result α} {a : α} (h : result.toOption = some a) :
    result = .ok a := by
  cases result with
  | error e => cases h
  | ok b => exact congrArg Except.ok (Option.some.inj h)

theorem resolve_concat (dir : Path) {name : String} (h : name ≠ "..") :
    Path.resolve (dir ++ [name]) = Path.resolve dir ++ [name] := by
  unfold Path.resolve
  rw [List.foldl_concat]
  exact if_neg h

theorem Outside.path_ne {path : String} (h : Outside inner path) (a : Avatar) (name : String) :
    inner.dirs.dataRootDir ++ Path.components path ≠ a.absoluteDir inner.dirs ++ [name] := by
  obtain ⟨-, hplain, hdirs⟩ := h
  intro heq
  have hcomponents : Path.components path = a.dir inner.dirs ++ [name] := by
    rw [Avatar.absoluteDir, List.append_assoc] at heq
    exact List.append_cancel_left heq
  have hname : name ≠ ".." := by
    rintro rfl
    exact hplain (hcomponents ▸ List.mem_append_right _ List.mem_cons_self)
  have hdir := congrArg (fun p => (Path.resolve p).dropLast) heq
  rw [resolve_concat _ hname, List.dropLast_concat] at hdir
  cases a with
  | room roomId => exact hdirs _ List.mem_cons_self hdir
  | user userId => exact hdirs _ (List.mem_cons_of_mem _ List.mem_cons_self) hdir

namespace AvatarState

variable {s t : AvatarState B} {slots : Avatar → Option (StoredAsset B)}

variable (inner known) in
/-- The stored avatar of everyone is one of the media, with all its data. -/
structure Holds (s : AvatarState B) (slots : Avatar → Option (StoredAsset B)) : Prop where
  slot : ∀ a ∈ known, SlotAt inner.json (a.absoluteDir inner.dirs) a.id s.fs (slots a)
  ready : ∀ a ∈ known, ReadyAt (a.absoluteDir inner.dirs) a.id s.fs
  whole : ∀ a ∈ known, ∀ stored, slots a = some stored →
    s.repository stored.upstreamUrl = some stored.data

theorem holds_start : (start inner).Holds inner known fun _ => none := by
  have hdirs : ∀ p, p ∈ (start inner).fs.dirs →
      p.length ≤ inner.dirs.dataRootDir.length + inner.dirs.mediaDir.length + 1 := by
    intro p hp
    simp only [start, AvatarManager.initDirs, FileSystem.createDirAll, List.mem_append,
      List.mem_inits] at hp
    have hroom : (Path.components "room_avatars").length = 1 := by decide
    have huser : (Path.components "user_avatars").length = 1 := by decide
    have hattachments : (Path.components "attachments").length = 1 := by decide
    simp only [MediaDirs.roomAvatarsDir, MediaDirs.userAvatarsDir, MediaDirs.attachmentsDir,
      Path.join] at hp
    rcases hp with hp | hp | hp | hp
    · have hle := hp.length_le
      simp only [List.length_append] at hle
      omega
    · have hle := hp.length_le
      simp only [List.length_append] at hle
      omega
    · have hle := hp.length_le
      simp only [List.length_append] at hle
      omega
    · cases hp
  have hlength : ∀ a : Avatar, (a.absoluteDir inner.dirs).length
      = inner.dirs.dataRootDir.length + inner.dirs.mediaDir.length + 1 := by
    intro a
    have hroom : (Path.components "room_avatars").length = 1 := by decide
    have huser : (Path.components "user_avatars").length = 1 := by decide
    cases a <;> simp only [Avatar.absoluteDir, Avatar.dir, MediaDirs.roomAvatarsDir,
      MediaDirs.userAvatarsDir, Path.join, List.length_append] <;> omega
  refine ⟨fun a _ name _ => AList.lookup_empty _, fun a _ => ⟨?_, fun name _ hmem => ?_⟩,
    fun _ _ _ hstored => by cases hstored⟩
  · simp only [start, AvatarManager.initDirs, FileSystem.createDirAll, List.mem_append,
      List.mem_inits]
    cases a with
    | room roomId => exact .inr (.inr (.inl (List.prefix_refl _)))
    | user userId => exact .inr (.inl (List.prefix_refl _))
  · have hle := hdirs _ hmem
    rw [List.length_append, hlength a, List.length_singleton] at hle
    omega

/-- What is stored is held as long as no file of an avatar changes, and no medium is lost. -/
theorem Holds.mono (h : s.Holds inner known slots)
    (hread : ∀ a ∈ known, ∀ name, OwnName a.id name →
      t.fs.read (a.absoluteDir inner.dirs ++ [name])
        = s.fs.read (a.absoluteDir inner.dirs ++ [name]))
    (hdirs : t.fs.dirs = s.fs.dirs)
    (hmedia : ∀ url data, s.repository url = some data → t.repository url = some data) :
    t.Holds inner known slots where
  slot a ha := (h.slot a ha).congr (hread a ha)
  ready a ha := (h.ready a ha).congr hdirs
  whole a ha stored hstored := hmedia _ _ (h.whole a ha stored hstored)

/-- A call or an upload changes what is stored of its avatar. -/
theorem Holds.update (hknown : KnownAvatars inner.dirs known) (h : s.Holds inner known slots)
    {a : Avatar} (ha : a ∈ known) {manager : AssetManager B}
    (hdir : manager.getDownloadDirAbsolute = a.absoluteDir inner.dirs)
    {slot : Option (StoredAsset B)}
    (hdownloaded : AssetManager.Downloaded inner.json manager a.id s.fs t.fs slot)
    (hmedia : ∀ url data, s.repository url = some data → t.repository url = some data)
    (hwhole : ∀ stored, slot = some stored →
      t.repository stored.upstreamUrl = some stored.data) :
    t.Holds inner known (Function.update slots a slot) := by
  have hother : ∀ b ∈ known, b ≠ a → ∀ name, OwnName b.id name →
      t.fs.read (b.absoluteDir inner.dirs ++ [name])
        = s.fs.read (b.absoluteDir inner.dirs ++ [name]) := by
    intro b hb hne name hname
    refine hdownloaded.others _ fun name' hname' => ?_
    rw [hdir]
    exact hknown.path_ne hb ha hne hname hname'
  refine ⟨fun b hb => ?_, fun b hb => (h.ready b hb).congr hdownloaded.dirs,
    fun b hb stored hb' => ?_⟩
  · by_cases hne : b = a
    · subst hne
      rw [Function.update_self, ← hdir]
      exact hdownloaded.slot
    · rw [Function.update_of_ne hne]
      exact (h.slot b hb).congr (hother b hb hne)
  · by_cases hne : b = a
    · subst hne
      rw [Function.update_self] at hb'
      exact hwhole stored hb'
    · rw [Function.update_of_ne hne] at hb'
      exact hmedia _ _ (h.whole b hb stored hb')

/-! ## Calls -/

variable (inner) in
/-- The asset manager of a call. -/
def callManager (s : AvatarState B) (reachable : Bool) : AvatarCall → AssetManager B
  | .getRoomAvatarPath roomId =>
    (s.manager inner reachable).roomAssetManager roomId (s.avatars (.room roomId))
  | .getUserAvatarPath userId first second =>
    (s.manager inner reachable).userAssetManager userId first second

/-- What a call learns of its avatar. -/
def asked (s : AvatarState B) (call : AvatarCall) : Option (Option String) :=
  if call.answered then some (s.avatars call.avatar) else none

theorem eq_of_asked {call : AvatarCall} {uri : Option String} (h : s.asked call = some uri) :
    uri = s.avatars call.avatar := by
  unfold asked at h
  split at h
  · exact (Option.some.inj h).symm
  · cases h

theorem perform_eq (s : AvatarState B) (reachable : Bool) (call : AvatarCall) :
    s.perform inner reachable call
      = ((((s.callManager inner reachable call).download inner.json s.fs).1).toOption,
        ((s.callManager inner reachable call).download inner.json s.fs).2) := by
  cases call <;> rfl

variable (inner) in
theorem callManager_dir (s : AvatarState B) (reachable : Bool) (call : AvatarCall) :
    (s.callManager inner reachable call).getDownloadDirAbsolute
      = call.avatar.absoluteDir inner.dirs := by
  cases call <;> rfl

theorem callManager_assetDir (s : AvatarState B) (reachable : Bool) (call : AvatarCall) :
    (s.callManager inner reachable call).assetDir = call.avatar.dir inner.dirs := by
  cases call <;> rfl

theorem eq_of_answers {first second : Option (Option String)} {avatar : Option String}
    (hfirst : ∀ uri, first = some uri → uri = avatar)
    (hsecond : ∀ uri, second = some uri → uri = avatar) :
    first.or second = if (first.or second).isSome then some avatar else none := by
  cases first with
  | some uri => rw [Option.some_or, Option.isSome_some, if_pos rfl, hfirst uri rfl]
  | none =>
    rw [Option.none_or]
    cases second with
    | none => rfl
    | some uri => rw [Option.isSome_some, if_pos rfl, hsecond uri rfl]

variable (inner) in
/-- The asset of a call is that of a user who has been asked for. -/
theorem callManager_asset (reachable : Bool) {call : AvatarCall} (hfits : call.Fits s.avatars) :
    ∃ asset answer, (s.callManager inner reachable call).asset
        = UserAvatarAsset.toAsset (s.manager inner reachable).client asset answer ∧
      asset.userId = call.avatar.id ∧ asset.asked answer = s.asked call := by
  cases call with
  | getRoomAvatarPath roomId =>
    exact ⟨_, .notSet, UserAvatarAsset.toAsset_of_room _ roomId _ _, rfl, rfl⟩
  | getUserAvatarPath userId first second =>
    exact ⟨.new userId first, second, rfl, rfl, eq_of_answers hfits.1 hfits.2⟩

theorem downloadMxc_eq_ok (s : AvatarState B) (reachable : Bool) (url : String) (data : B) :
    downloadMxc (s.manager inner reachable).client url = .ok data ↔
      reachable = true ∧ s.repository url = some data := by
  show s.getFile reachable (.plain url) = .ok data ↔ _
  cases reachable <;> cases h : s.repository url <;> simp [getFile, MediaSource.url, h]

theorem extension_plain (s : AvatarState B) (reachable : Bool) {call : AvatarCall}
    (hfits : call.Fits s.avatars) (download : Download B)
    (h : (s.callManager inner reachable call).asset.download = .ok download) :
    ∀ e ∈ download.fileExtension, '/' ∉ e.toList := by
  obtain ⟨asset, answer, hasset, -⟩ := callManager_asset inner reachable hfits
  rw [hasset] at h
  exact UserAvatarAsset.plain_of_download h

/-- What a call returns and stores. -/
theorem call_served (hknown : KnownAvatars inner.dirs known) (h : s.Holds inner known slots)
    (reachable : Bool) {call : AvatarCall} (hcall : call.avatar ∈ known)
    (hfits : call.Fits s.avatars) :
    ∃ result slot', Served (s.asked call) (downloadMxc (s.manager inner reachable).client)
        (slots call.avatar) result slot' ∧
      (s.perform inner reachable call).1 = result.toOption.map (fun stored =>
        call.avatar.dir inner.dirs ++ [stored.fileName call.avatar.id]) ∧
      AssetManager.Downloaded inner.json (s.callManager inner reachable call) call.avatar.id s.fs
        (s.perform inner reachable call).2 slot' ∧
      ∀ stored, slot' = some stored → s.repository stored.upstreamUrl = some stored.data := by
  obtain ⟨asset, answer, hasset, huser, hasked⟩ :=
    callManager_asset inner reachable hfits
  have hid : (s.callManager inner reachable call).asset.assetId = .ok call.avatar.id := by
    rw [hasset, ← huser]
    rfl
  have hdir := s.callManager_dir inner reachable call
  obtain ⟨result, slot', hslot', hresult, hdownloaded⟩ :=
    AssetManager.download_slot hid (hknown.name _ hcall)
      (hdir ▸ h.slot call.avatar hcall) (hdir ▸ h.ready call.avatar hcall)
      (s.extension_plain reachable hfits)
  rw [hasset] at hslot'
  have hserved := UserAvatarAsset.served hslot'
  refine ⟨result, slot', hasked ▸ hserved, ?_, ?_, fun stored hstored => ?_⟩
  · rw [perform_eq, hresult, callManager_assetDir]
    cases result <;> rfl
  · rw [perform_eq]
    exact hdownloaded
  · rcases hserved.origin stored hstored with hold | hnew
    · exact h.whole _ hcall stored hold
    · exact ((s.downloadMxc_eq_ok reachable _ _).mp hnew).2

/-! ## Uploads -/

/-- A new URL takes no data from the others. -/
theorem repository_update {url : String} (hfresh : s.repository url = none) (data : B) :
    ∀ url' data', s.repository url' = some data' →
      Function.update s.repository url (some data) url' = some data' := by
  intro url' data' h
  have hne : url' ≠ url := by
    rintro rfl
    rw [hfresh] at h
    cases h
  rw [Function.update_of_ne hne]
  exact h

theorem extension_append (dir : Path) {p : Path} (hp : p ≠ []) :
    Path.extension (dir ++ p) = Path.extension p := by
  have hname : Path.fileName (dir ++ p) = Path.fileName p := by
    unfold Path.fileName
    rw [List.getLast?_append_of_ne_nil dir hp]
  unfold Path.extension
  rw [hname]

theorem plain_of_upload (client : MediaClient B) (data : B) {path : String}
    (houtside : Outside inner path) :
    ∀ e, determineFileExtensionAndMime client data
        (inner.dirs.dataRootDir ++ Path.components path) = some e → '/' ∉ e.toList := by
  intro e he
  unfold determineFileExtensionAndMime at he
  rw [extension_append _ houtside.1] at he
  cases hext : Path.extension (Path.components path) with
  | none =>
    rw [hext, Option.none_or] at he
    exact client.infer_plain he
  | some e' =>
    rw [hext, Option.some_or] at he
    obtain rfl := Option.some.inj he
    exact Path.not_mem_extension (fun name => Path.isName_of_mem_components) hext

/-- An upload that fails has not touched the files. -/
theorem uploadRoomAvatar_error {roomId avatarPath : String} {answer : UploadAnswer} {e : MediaError}
    (h : RoomAvatarAsset.upload (s.manager inner true).client
      (inner.dirs.dataRootDir ++ Path.components avatarPath) answer s.fs = .error e) :
    s.uploadRoomAvatar inner roomId avatarPath answer = (.error e, s.fs) := by
  show AssetManager.upload inner.json
    ((s.manager inner true).roomAssetManager roomId (s.avatars (.room roomId)))
    (RoomAvatarAsset.upload (s.manager inner true).client
      (inner.dirs.dataRootDir ++ Path.components avatarPath) answer s.fs)
    (Path.components avatarPath) s.fs = _
  rw [h]
  rfl

/-- The image that is uploaded becomes the stored file. -/
theorem holds_uploaded (hknown : KnownAvatars inner.dirs known) (h : s.Holds inner known slots)
    {roomId avatarPath : String} {answer : UploadAnswer} (hroom : .room roomId ∈ known)
    (houtside : Outside inner avatarPath) {stored : StoredAsset B}
    (hread : s.fs.read (inner.dirs.dataRootDir ++ Path.components avatarPath) = some stored.data)
    (hupload : RoomAvatarAsset.upload (s.manager inner true).client
      (inner.dirs.dataRootDir ++ Path.components avatarPath) answer s.fs
        = .ok ⟨stored.fileExtension, stored.upstreamUrl⟩)
    (hmedia : ∀ url data, s.repository url = some data →
      s.uploadedTo inner avatarPath answer url = some data)
    (hnew : s.uploadedTo inner avatarPath answer stored.upstreamUrl = some stored.data) :
    Holds inner known { s with
        fs := (s.uploadRoomAvatar inner roomId avatarPath answer).2
        repository := s.uploadedTo inner avatarPath answer }
      (Function.update slots (.room roomId) (some stored)) := by
  let manager := (s.manager inner true).roomAssetManager roomId (s.avatars (.room roomId))
  obtain ⟨fs', hfs', hdownloaded⟩ := AssetManager.upload_slot
    (show manager.asset.assetId = .ok roomId from rfl) (hknown.name _ hroom) (h.slot _ hroom)
    (h.ready _ hroom) stored hread fun name _ => houtside.path_ne (.room roomId) name
  have hresult : s.uploadRoomAvatar inner roomId avatarPath answer
      = (.ok (manager.assetDir ++ [stored.fileName roomId]), fs') := by
    show AssetManager.upload inner.json manager (RoomAvatarAsset.upload _ _ answer s.fs) _ s.fs = _
    rw [show (s.manager inner true).dirs = inner.dirs from rfl, hupload]
    exact hfs'
  have hmoved : Holds inner known
      { s with fs := s.fs.remove (inner.dirs.dataRootDir ++ Path.components avatarPath) }
      slots := by
    refine h.mono (fun a ha name hname => ?_) rfl fun _ _ => id
    rw [FileSystem.read_remove, if_neg fun heq => houtside.path_ne a name heq.symm]
  rw [hresult]
  refine hmoved.update hknown hroom rfl hdownloaded hmedia fun stored' hstored' => ?_
  obtain rfl := Option.some.inj hstored'
  exact hnew

theorem holds_upload (hknown : KnownAvatars inner.dirs known) (h : s.Holds inner known slots)
    {roomId avatarPath : String} {answer : UploadAnswer} (hroom : .room roomId ∈ known)
    (houtside : Outside inner avatarPath) (hfresh : s.IsFresh answer = true) :
    ∃ slot, Holds inner known { s with
        fs := (s.uploadRoomAvatar inner roomId avatarPath answer).2
        repository := s.uploadedTo inner avatarPath answer }
      (Function.update slots (.room roomId) slot) := by
  have hfailed : ∀ e, RoomAvatarAsset.upload (s.manager inner true).client
        (inner.dirs.dataRootDir ++ Path.components avatarPath) answer s.fs = .error e →
      (∀ url data, s.repository url = some data →
        s.uploadedTo inner avatarPath answer url = some data) →
      ∃ slot, Holds inner known { s with
          fs := (s.uploadRoomAvatar inner roomId avatarPath answer).2
          repository := s.uploadedTo inner avatarPath answer }
        (Function.update slots (.room roomId) slot) := by
    intro e herror hmedia
    refine ⟨slots (.room roomId), ?_⟩
    rw [Function.update_eq_self, uploadRoomAvatar_error herror]
    exact h.mono (fun a ha name hname => rfl) rfl hmedia
  cases hread : s.fs.read (inner.dirs.dataRootDir ++ Path.components avatarPath) with
  | none =>
    refine hfailed .io (by rw [RoomAvatarAsset.upload, hread]) fun url data hdata => ?_
    unfold uploadedTo
    rw [hread]
    cases answer.contentUri <;> exact hdata
  | some data =>
    cases huri : answer.contentUri with
    | error e =>
      refine hfailed e (by rw [RoomAvatarAsset.upload, hread]; simp [huri]) fun url data hdata => ?_
      unfold uploadedTo
      rw [huri]
      exact hdata
    | ok contentUri =>
      have hnew : s.repository contentUri = none := by
        unfold IsFresh at hfresh
        rw [huri] at hfresh
        exact Option.isNone_iff_eq_none.mp hfresh
      have huploaded : s.uploadedTo inner avatarPath answer
          = Function.update s.repository contentUri (some data) := by
        unfold uploadedTo
        rw [huri, hread]
      have hmedia : ∀ url data', s.repository url = some data' →
          s.uploadedTo inner avatarPath answer url = some data' := by
        rw [huploaded]
        exact repository_update hnew data
      cases hset : answer.setAvatarUrl with
      | error e =>
        exact hfailed e (by rw [RoomAvatarAsset.upload, hread]; simp [huri, hset]) hmedia
      | ok _ =>
        let stored : StoredAsset B :=
          ⟨determineFileExtensionAndMime (s.manager inner true).client data
            (inner.dirs.dataRootDir ++ Path.components avatarPath), contentUri, data,
            plain_of_upload _ data houtside⟩
        have hupload : RoomAvatarAsset.upload (s.manager inner true).client
            (inner.dirs.dataRootDir ++ Path.components avatarPath) answer s.fs
              = .ok ⟨stored.fileExtension, stored.upstreamUrl⟩ := by
          rw [RoomAvatarAsset.upload, hread]
          simp [huri, hset, stored]
        refine ⟨some stored, holds_uploaded hknown h hroom houtside hread hupload hmedia ?_⟩
        rw [huploaded]
        exact Function.update_self ..

/-! ## Steps -/

theorem holds_call (hknown : KnownAvatars inner.dirs known) (h : s.Holds inner known slots)
    (reachable : Bool) {call : AvatarCall} (hcall : call.avatar ∈ known)
    (hfits : call.Fits s.avatars) :
    ∃ slot, Holds inner known { s with fs := (s.perform inner reachable call).2 }
        (Function.update slots call.avatar slot) ∧
      ∀ stored, slots call.avatar = some stored →
        s.avatars call.avatar = some stored.upstreamUrl → slot = some stored := by
  obtain ⟨result, slot, hserved, -, hdownloaded, hwhole⟩ :=
    call_served hknown h reachable hcall hfits
  refine ⟨slot, h.update hknown hcall (s.callManager_dir inner reachable call) hdownloaded
    (fun _ _ => id) hwhole, fun stored hstored hurl =>
      (hserved.again stored hstored fun uri huri => ?_).2⟩
  exact (eq_of_asked huri).trans hurl

theorem holds_step (hknown : KnownAvatars inner.dirs known) (h : s.Holds inner known slots)
    {a : AvatarStep B} (hrespects : a.Respects inner known) (hstep : s.step inner a = some t) :
    ∃ slots', t.Holds inner known slots' ∧ ∀ avatar, a.Spares avatar → ∀ stored,
      slots avatar = some stored → s.avatars avatar = some stored.upstreamUrl →
        slots' avatar = some stored ∧ t.avatars avatar = some stored.upstreamUrl := by
  cases a with
  | publish url data =>
    obtain ⟨hfresh, hnext⟩ := Option.ite_none_right_eq_some.mp hstep
    obtain rfl := Option.some.inj hnext
    exact ⟨slots, h.mono (fun _ _ _ _ => rfl) rfl
      (repository_update (Option.isNone_iff_eq_none.mp hfresh) data), fun _ _ _ => And.intro⟩
  | change other url =>
    obtain rfl := Option.some.inj hstep
    refine ⟨slots, h.mono (fun _ _ _ _ => rfl) rfl fun _ _ => id,
      fun avatar hspares stored hslot hurl => ⟨hslot, ?_⟩⟩
    exact (Function.update_of_ne (Ne.symm hspares) ..).trans hurl
  | provide path data =>
    have houtside : Outside inner path := hrespects
    obtain ⟨fs, hfs, rfl⟩ := Option.map_eq_some_iff.mp hstep
    obtain ⟨hdirs, hread⟩ := FileSystem.write_eq_some hfs
    refine ⟨slots, h.mono (fun a ha name hname => ?_) hdirs fun _ _ => id, fun _ _ _ => And.intro⟩
    rw [hread, if_neg (houtside.path_ne a name).symm]
  | call call reachable =>
    obtain ⟨hfits, hnext⟩ := Option.ite_none_right_eq_some.mp hstep
    obtain rfl := Option.some.inj hnext
    obtain ⟨slot, hholds, hkept⟩ := holds_call hknown h reachable hrespects hfits
    refine ⟨_, hholds, fun avatar _ stored hslot hurl => ⟨?_, hurl⟩⟩
    by_cases hself : avatar = call.avatar
    · subst hself
      rw [Function.update_self]
      exact hkept stored hslot hurl
    · rw [Function.update_of_ne hself]
      exact hslot
  | uploadRoomAvatar roomId avatarPath answer =>
    obtain ⟨hroom, houtside⟩ := hrespects
    obtain ⟨hfresh, hnext⟩ := Option.ite_none_right_eq_some.mp hstep
    obtain rfl := Option.some.inj hnext
    obtain ⟨slot, hholds⟩ := holds_upload hknown h hroom houtside hfresh
    refine ⟨_, hholds, fun avatar hspares stored hslot hurl => ⟨?_, hurl⟩⟩
    rw [Function.update_of_ne (Ne.symm hspares)]
    exact hslot

variable (inner known) in
/-- The current avatar is stored. -/
def Keeps (s : AvatarState B) (avatar : Avatar) (stored : StoredAsset B) : Prop :=
  ∃ slots, s.Holds inner known slots ∧ slots avatar = some stored ∧
    s.avatars avatar = some stored.upstreamUrl

theorem keeps_step (hknown : KnownAvatars inner.dirs known) {avatar : Avatar}
    {stored : StoredAsset B} (h : s.Keeps inner known avatar stored) {a : AvatarStep B}
    (hrespects : a.Respects inner known) (hspares : a.Spares avatar)
    (hstep : s.step inner a = some t) : t.Keeps inner known avatar stored := by
  obtain ⟨slots, hholds, hslot, hurl⟩ := h
  obtain ⟨slots', hholds', hkept⟩ := holds_step hknown hholds hrespects hstep
  exact ⟨slots', hholds', hkept avatar hspares stored hslot hurl⟩

theorem exists_holds (hknown : KnownAvatars inner.dirs known) {as : List (AvatarStep B)}
    (hrespects : ∀ a ∈ as, a.Respects inner known)
    (hrun : (avatarSystem inner).run (start inner) as = some s) :
    ∃ slots, s.Holds inner known slots := by
  have hstep : ∀ s a t, (∃ slots, Holds inner known s slots) → a.Respects inner known →
      (avatarSystem inner).step s a = some t → ∃ slots, Holds inner known t slots := by
    rintro s a t ⟨slots, hslots⟩ ha hstep
    exact (holds_step hknown hslots ha hstep).imp fun _ => And.left
  exact (avatarSystem inner).inv_of_run hstep ⟨_, holds_start⟩
    ((avatarSystem inner).meets_of_forall hrespects _) hrun

variable (inner) in
/-- What a call does, if `path` is returned and `fs` are the files after it. -/
structure Serves (s : AvatarState B) (call : AvatarCall) (reachable : Bool) (path : Option Path)
    (fs : FileSystem B) : Prop where
  /-- A returned path names all the data of a medium, of the current avatar if the call has learned
      which it is. -/
  whole : ∀ p, path = some p → ∃ url data, s.repository url = some data ∧
    fs.read (inner.dirs.dataRootDir ++ p) = some data ∧
    (call.answered = true → s.avatars call.avatar = some url)
  found : call.answered = true → reachable = true → ∀ url, s.avatars call.avatar = some url →
    (s.repository url).isSome → path.isSome
  removed : call.answered = true → s.avatars call.avatar = none →
    path = none ∧ ∀ name, OwnName call.avatar.id name →
      fs.read (call.avatar.absoluteDir inner.dirs ++ [name]) = none
  /-- The files of others stay as they are. -/
  others : ∀ p, (∀ name, OwnName call.avatar.id name →
    p ≠ call.avatar.absoluteDir inner.dirs ++ [name]) → fs.read p = s.fs.read p

end AvatarState

/-- Every call, in every state that is reached. -/
theorem avatars_served (hknown : KnownAvatars inner.dirs known) {as : List (AvatarStep B)}
    (hrespects : ∀ a ∈ as, a.Respects inner known) {s : AvatarState B}
    (hrun : (avatarSystem inner).run (.start inner) as = some s)
    {call : AvatarCall} (hcall : call.avatar ∈ known) (hfits : call.Fits s.avatars)
    (reachable : Bool) :
    s.Serves inner call reachable (s.perform inner reachable call).1
      (s.perform inner reachable call).2 := by
  obtain ⟨slots, h⟩ := AvatarState.exists_holds hknown hrespects hrun
  obtain ⟨result, slot, hserved, hpath, hdownloaded, hwhole⟩ :=
    AvatarState.call_served hknown h reachable hcall hfits
  have hasked : call.answered = true → s.asked call = some (s.avatars call.avatar) :=
    fun hanswered => if_pos hanswered
  have hdir := s.callManager_dir inner reachable call
  have hslot : SlotAt inner.json (call.avatar.absoluteDir inner.dirs) call.avatar.id
      (s.perform inner reachable call).2 slot := hdir ▸ hdownloaded.slot
  refine ⟨fun p hp => ?_, fun hanswered hreachable url hurl hdata => ?_, fun hanswered hnone => ?_,
    fun p hp => hdownloaded.others p (hdir ▸ hp)⟩
  · rw [hpath] at hp
    obtain ⟨stored, hstored, rfl⟩ := Option.map_eq_some_iff.mp hp
    obtain ⟨rfl, hcurrent⟩ := hserved.returned stored (eq_ok_of_toOption hstored)
    refine ⟨stored.upstreamUrl, stored.data, hwhole stored rfl, ?_, fun hanswered => ?_⟩
    · rw [← List.append_assoc]
      exact hslot.file
    · exact hcurrent _ (hasked hanswered)
  · obtain ⟨data, hdata⟩ := Option.isSome_iff_exists.mp hdata
    obtain ⟨stored, hstored⟩ := hserved.found url data
      ((hasked hanswered).trans (congrArg some hurl))
        ((s.downloadMxc_eq_ok reachable url data).mpr ⟨hreachable, hdata⟩)
    rw [hpath, hstored]
    rfl
  · have hremoved := (hasked hanswered).trans (congrArg some hnone)
    obtain rfl := hserved.removed hremoved
    refine ⟨?_, fun name hname => hslot name hname⟩
    rw [hpath]
    cases hresult : result with
    | error e => rfl
    | ok stored => cases (hserved.returned stored hresult).1

/-- A path that has been returned is returned again by every call for the avatar, reachable or not,
    as long as every step spares the avatar. -/
theorem avatars_kept (hknown : KnownAvatars inner.dirs known) {as bs : List (AvatarStep B)}
    (hrespects : ∀ a ∈ as ++ bs, a.Respects inner known) {s t : AvatarState B}
    (hrun : (avatarSystem inner).run (.start inner) as = some s)
    {call : AvatarCall} (hcall : call.avatar ∈ known) (hfits : call.Fits s.avatars)
    {reachable : Bool} {p : Path} (hpath : (s.perform inner reachable call).1 = some p)
    (hanswered : call.answered = true)
    (hlater : (avatarSystem inner).run
      { s with fs := (s.perform inner reachable call).2 } bs = some t)
    (hspares : ∀ b ∈ bs, b.Spares call.avatar) {call' : AvatarCall}
    (hsame : call'.avatar = call.avatar) (hfits' : call'.Fits t.avatars) (reachable' : Bool) :
    (t.perform inner reachable' call').1 = some p := by
  obtain ⟨slots, h⟩ := AvatarState.exists_holds hknown
    (fun a ha => hrespects a (List.mem_append_left _ ha)) hrun
  obtain ⟨result, slot, hserved, hreturned, hdownloaded, hwhole⟩ :=
    AvatarState.call_served hknown h reachable hcall hfits
  rw [hreturned] at hpath
  obtain ⟨stored, hstored, rfl⟩ := Option.map_eq_some_iff.mp hpath
  obtain ⟨rfl, hcurrent⟩ := hserved.returned stored (eq_ok_of_toOption hstored)
  have hholds := h.update (t := { s with fs := (s.perform inner reachable call).2 }) hknown hcall
    (s.callManager_dir inner reachable call) hdownloaded (fun _ _ => id) hwhole
  have hkeeps : AvatarState.Keeps inner known { s with fs := (s.perform inner reachable call).2 }
      call.avatar stored :=
    ⟨_, hholds, Function.update_self .., hcurrent _ (if_pos hanswered)⟩
  have hlaterOk : ∀ b ∈ bs, b.Respects inner known ∧ b.Spares call.avatar :=
    fun b hb => ⟨hrespects b (List.mem_append_right _ hb), hspares b hb⟩
  have hkept : t.Keeps inner known call.avatar stored :=
    (avatarSystem inner).inv_of_run
      (fun _ _ _ hu hb hstep => AvatarState.keeps_step hknown hu hb.1 hb.2 hstep) hkeeps
      ((avatarSystem inner).meets_of_forall hlaterOk _) hlater
  obtain ⟨slots', hslots', hslot', hurl'⟩ := hkept
  obtain ⟨result', slot'', hserved', hreturned', -, -⟩ :=
    AvatarState.call_served hknown hslots' reachable' (hsame ▸ hcall) hfits'
  rw [hsame] at hserved' hreturned'
  have hagain := (hserved'.again stored hslot' fun uri huri => ?_).1
  · rw [hreturned', hagain]
    rfl
  · rw [AvatarState.eq_of_asked huri, hsame, hurl']

end Avatars

/-! ## Two rooms and a user -/

theorem prefix_of_ownName {id name : String} (h : OwnName id name) : id.toList <+: name.toList := by
  rcases h with rfl | ⟨extension, -, rfl⟩
  · rw [infoFileName, String.append_assoc, String.toList_append]
    exact List.prefix_append _ _
  · cases extension with
    | none => exact List.prefix_refl _
    | some e =>
      rw [toList_assetFileName]
      exact List.prefix_append _ _

def pngManager : AvatarManager AvatarFile where
  client :=
    { getFile := fun _ => .error .notFound
      infer := fun
        | .image _ => some "png"
        | .info _ => none
      infer_plain := by
        rintro (_ | _) _ ⟨⟩
        decide }
  json := avatarFormat
  dirs := avatarDirs

def twoRooms : List Avatar := [.room "!r:hs", .room "!s:hs", .user "@a:hs"]

theorem knownAvatars_twoRooms : KnownAvatars pngManager.dirs twoRooms := by
  have hrooms : NamesApart "!r:hs" "!s:hs" := fun name hr hs => by
    have hprefix := List.prefix_of_prefix_length_le (prefix_of_ownName hr) (prefix_of_ownName hs)
      (by decide)
    exact absurd hprefix (by decide)
  constructor
  · intro a ha
    simp only [twoRooms, List.mem_cons, List.not_mem_nil, or_false] at ha
    rcases ha with rfl | rfl | rfl <;> exact ⟨by decide, by decide, by decide⟩
  · intro a ha b hb hne hdir
    simp only [twoRooms, List.mem_cons, List.not_mem_nil, or_false] at ha hb
    rcases ha with rfl | rfl | rfl <;> rcases hb with rfl | rfl | rfl
    · exact absurd rfl hne
    · exact hrooms
    · exact absurd hdir (by decide)
    · exact fun name hs hr => hrooms name hr hs
    · exact absurd rfl hne
    · exact absurd hdir (by decide)
    · exact absurd hdir (by decide)
    · exact absurd hdir (by decide)
    · exact absurd rfl hne

/-- The avatar of a room is uploaded, replaced by another one and asked for in between. -/
def replacedAvatar : List (AvatarStep AvatarFile) :=
  [.provide "new.png" (.image "first"),
    .uploadRoomAvatar "!r:hs" "new.png" ⟨.ok "mxc://hs/1", .ok ()⟩,
    .change (.room "!r:hs") (some "mxc://hs/1"), .call (.getRoomAvatarPath "!r:hs") false,
    .publish "mxc://hs/2" (.image "second"), .change (.room "!r:hs") (some "mxc://hs/2"),
    .call (.getUserAvatarPath "@a:hs" .notSet .notSet) true]

theorem avatars_served_replaced :
    ∃ s, (avatarSystem pngManager).run (.start pngManager) replacedAvatar = some s ∧
      (s.perform pngManager true (.getRoomAvatarPath "!r:hs")).1
        = some ["media", "room_avatars", "!r:hs.png"] ∧
      s.Serves pngManager (.getRoomAvatarPath "!r:hs") true
        (s.perform pngManager true (.getRoomAvatarPath "!r:hs")).1
        (s.perform pngManager true (.getRoomAvatarPath "!r:hs")).2 := by
  have hpath : ((avatarSystem pngManager).run (.start pngManager) replacedAvatar).map
      (fun s => (s.perform pngManager true (.getRoomAvatarPath "!r:hs")).1)
        = some (some ["media", "room_avatars", "!r:hs.png"]) := by decide +kernel
  obtain ⟨s, hrun, hpath⟩ := Option.map_eq_some_iff.mp hpath
  have hfits : (AvatarCall.getRoomAvatarPath "!r:hs").Fits s.avatars := trivial
  exact ⟨s, hrun, hpath, avatars_served knownAvatars_twoRooms (by decide) hrun
      (by decide) hfits true⟩

/-- Others change then, and the homeserver is not reachable. -/
def othersChange : List (AvatarStep AvatarFile) :=
  [.change (.room "!s:hs") (some "mxc://hs/1"), .call (.getRoomAvatarPath "!s:hs") false,
    .change (.user "@a:hs") none]

theorem avatars_kept_replaced :
    ∃ s t, (avatarSystem pngManager).run (.start pngManager) replacedAvatar = some s ∧
      (avatarSystem pngManager).run
        { s with fs := (s.perform pngManager true (.getRoomAvatarPath "!r:hs")).2 } othersChange
          = some t ∧
      (t.perform pngManager false (.getRoomAvatarPath "!r:hs")).1
        = some ["media", "room_avatars", "!r:hs.png"] := by
  have hpath : ((avatarSystem pngManager).run (.start pngManager) replacedAvatar).map
      (fun s => ((s.perform pngManager true (.getRoomAvatarPath "!r:hs")).1,
        ((avatarSystem pngManager).run
          { s with fs := (s.perform pngManager true (.getRoomAvatarPath "!r:hs")).2 }
          othersChange).isSome))
        = some (some ["media", "room_avatars", "!r:hs.png"], true) := by decide +kernel
  obtain ⟨s, hrun, hboth⟩ := Option.map_eq_some_iff.mp hpath
  obtain ⟨hreturned, hlater⟩ := Prod.mk.inj hboth
  obtain ⟨t, hlater⟩ := Option.isSome_iff_exists.mp hlater
  have hspares : ∀ b ∈ othersChange, b.Spares (.room "!r:hs") := by
    intro b hb
    simp only [othersChange, List.mem_cons, List.not_mem_nil, or_false] at hb
    rcases hb with rfl | rfl | rfl
    · exact fun heq => absurd heq (by decide)
    · trivial
    · exact fun heq => absurd heq (by decide)
  have hfits : ∀ u : AvatarState AvatarFile,
      (AvatarCall.getRoomAvatarPath "!r:hs").Fits u.avatars := fun _ => trivial
  exact ⟨s, t, hrun, hlater, avatars_kept knownAvatars_twoRooms (by decide) hrun (by decide)
      (hfits s) hreturned
    rfl hlater hspares rfl (hfits t) false⟩

end GoudaMatrix.Media
