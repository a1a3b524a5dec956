/-
  Edits of a media message, whose files the asset manager keeps under the id of the message.

  `shown_file_iff`: the delivered message names a file with the data of the content that it shows
  exactly if the download that wrote the stored file last has the extension under which the shown
  content was stored, and its data. `edit_file_deleted` is the download of the original, which
  deletes the file of the edit.
-/
import GoudaMatrix.Media.Content
import GoudaMatrix.MemoryCache.Effect
import GoudaMatrix.MemoryCache.Retry

namespace GoudaMatrix.MemoryCache

open GoudaMatrix.Lib GoudaMatrix.Ruma GoudaMatrix.Media

/-! ## Downloads of events -/

/-- The download of a room message, with its asset id. -/
def downloadOfRoomMessage (event : OriginalEvent RoomMessageEventContent) :
    Option (String × MediaContent) :=
  match event.content.relatesTo with
  | some (.replacement messageId newContent) =>
    (mediaOf newContent.msgtype).map fun content => (messageId, content)
  | _ => (mediaOf event.content.msgtype).map fun content => (event.eventId, content)

def downloadOf (event : TimelineEvent) : Option (String × MediaContent) :=
  match readable event with
  | some (.messageLike (.roomMessage (.original event))) => downloadOfRoomMessage event
  | _ => none

theorem downloadOf_of_readable {event : TimelineEvent}
    {original : OriginalEvent RoomMessageEventContent}
    (hread : readable event = some (.messageLike (.roomMessage (.original original)))) :
    downloadOf event = downloadOfRoomMessage original := by
  unfold downloadOf
  rw [hread]

theorem effectOf_media {M : Type} (env : RoomEnv M) (event : TimelineEvent) (media : M) :
    (effectOf env event media).2
      = match downloadOf event with
        | none => media
        | some d => (Messages.downloadFile env.mediaManager env.roomId d.1 d.2 media).2 := by
  by_cases hroom : ∃ original,
      readable event = some (.messageLike (.roomMessage (.original original)))
  · obtain ⟨original, hread⟩ := hroom
    rw [effectOf_of_readable env hread, downloadOf_of_readable hread]
    obtain ⟨eventId, sender, ts, roomId, msgtype, relatesTo, mentions⟩ := original
    match relatesTo with
    | none | some (.reply _) | some (.thread _) | some .other => cases msgtype <;> rfl
    | some (.replacement messageId newContent) =>
      obtain ⟨msgtype, mentions⟩ := newContent
      cases msgtype <;> rfl
  · have hnone : downloadOf event = none := by
      unfold downloadOf
      split
      · next original hread => exact absurd ⟨original, hread⟩ hroom
      · rfl
    rw [hnone]
    exact (effectOf_static env (fun original hread => hroom ⟨original, hread⟩) media media).2

/-! ## Runs of events -/

/-- An event with another id leaves a cached replacement. -/
theorem lookup_replacements_of_ne {M : Type} (env : RoomEnv M) (room : CachedRoom M)
    {event : TimelineEvent} {key : String} (h : event.eventId ≠ some key) (id : String) :
    ((room.processTimelineEvent env event).2.cachedAt id).replacements.lookup key
      = (room.cachedAt id).replacements.lookup key := by
  have hreplaced : ∀ messageId replacementId replacement,
      (effectOf env event room.media).1 = .replaced messageId replacementId replacement →
      key ≠ replacementId := by
    rintro messageId replacementId replacement heffect rfl
    obtain ⟨newContent, original, ⟨hread, -⟩, rfl, -⟩ := replaces_of_effectOf env heffect
    exact h (eventId_of_readable hread)
  rw [CachedRoom.cachedAt_processTimelineEvent]
  generalize (effectOf env event room.media).1 = effect at hreplaced ⊢
  cases effect with
  | replaced messageId replacementId replacement =>
    simp only [Effect.on]
    split
    · exact AList.lookup_insert_ne (hreplaced _ _ _ rfl)
    · rfl
  | ignored | failed | undecryptable => rfl
  | assembled | redacted | reacted | pollReplaced | pollAnswered | pollEnded =>
    simp only [Effect.on]
    split <;> rfl

theorem lookup_replacements_afterEvents {M : Type} (env : RoomEnv M) (room : CachedRoom M)
    {events : List TimelineEvent} {key : String} (h : ∀ event ∈ events, event.eventId ≠ some key)
    (id : String) :
    ((afterEvents env room events).cachedAt id).replacements.lookup key
      = (room.cachedAt id).replacements.lookup key := by
  induction events generalizing room with
  | nil => rfl
  | cons event events ih =>
    have hrest := ih (room.processTimelineEvent env event).2
      fun e he => h e (List.mem_cons_of_mem _ he)
    exact hrest.trans (lookup_replacements_of_ne env room (h event List.mem_cons_self) id)

/-! ## The replacement that is shown -/

/-- The id of the replacement that `apply_replacements` shows, one with the newest timestamp. -/
def shownReplacement (o : IterationOrder) (cached : CachedMessage) : Option String :=
  (sortByKey (fun entry => entry.2.timestamp)
    (o.order cached.replacements.entries)).getLast?.map Sigma.fst

theorem applyReplacements_of_none {o : IterationOrder} {cached : CachedMessage}
    (h : shownReplacement o cached = none) (msg : Message) :
    cached.applyReplacements o msg = msg := by
  have hnil := getLast?_sortByKey_eq_none.mp (Option.map_eq_none_iff.mp h)
  unfold CachedMessage.applyReplacements HashMap.values
  rw [hnil]
  rfl

theorem applyReplacements_of_some {o : IterationOrder} {cached : CachedMessage} {key : String}
    {replacement : CachedReplacement} (h : shownReplacement o cached = some key)
    (hlookup : cached.replacements.lookup key = some replacement) (msg : Message) :
    cached.applyReplacements o msg
      = { msg with content := some replacement.newContent, edited := true } := by
  obtain ⟨⟨k, shown⟩, hlast, rfl⟩ := Option.map_eq_some_iff.mp h
  have hshown := HashMap.mem_order.mp (getLast?_sortByKey hlast).1
  obtain rfl : shown = replacement := Option.some.inj (hshown.symm.trans hlookup)
  have hsorted : sortByKey CachedReplacement.timestamp (cached.replacements.values o)
      = (sortByKey (fun entry => entry.2.timestamp)
          (o.order cached.replacements.entries)).map Sigma.snd :=
    (map_sortByKey _ _ _).symm
  unfold CachedMessage.applyReplacements
  rw [hsorted, List.getLast?_map, hlast]
  rfl

/-! ## Attachments -/

variable {B : Type} (inner : MediaManagerInner B) (data : MediaSource → B)

/-- A room whose attachments are kept by the media manager. -/
def attachmentsEnv (env : RoomEnv (FileSystem B)) : RoomEnv (FileSystem B) :=
  { env with mediaManager := inner.toMediaManager }

variable (env : RoomEnv (FileSystem B))

theorem media_afterEvents (room : CachedRoom (FileSystem B)) (events : List TimelineEvent) :
    (afterEvents (attachmentsEnv inner env) room events).media
      = fetchAll inner env.roomId (events.filterMap downloadOf) room.media := by
  induction events generalizing room with
  | nil => rfl
  | cons event events ih =>
    have hmedia := CachedRoom.media_processTimelineEvent (attachmentsEnv inner env) room event
    rw [effectOf_media] at hmedia
    refine (ih _).trans ?_
    rw [hmedia, List.filterMap_cons]
    cases downloadOf event with
    | none => rfl
    | some d =>
      have hdownload := downloadFile_eq inner env.roomId d.1 d.2 room.media
      simp only [attachmentsEnv, hdownload]
      rfl

/-- The event is an edit of the message with new media. -/
def EditsMedia (event : TimelineEvent) (messageId : String) (content : MediaContent) : Prop :=
  ∃ newContent original, Replaces event messageId newContent original ∧
    mediaOf newContent.msgtype = some content

/-- The content names a file with the given data. -/
def ShowsFile (fs : FileSystem B) (message : Message) (contents : B) : Prop :=
  ∃ path name, message.content = some (.file path name) ∧
    fs.read (Path.join inner.dataRootDir path) = some contents

section Shown

variable {inner data} {env} {ids : List String} {prior : List (String × MediaContent)}

/-- The attachments and the downloads of a room whose events are processed from the start. -/
theorem slots_afterEvents (hids : AssetIds ids)
    (hdata : ∀ source, inner.client.getFile source = .ok (data source))
    {events : List TimelineEvent}
    (hdownloads : ∀ d ∈ prior ++ events.filterMap downloadOf, d.1 ∈ ids) :
    WrittenSlots inner env.roomId data ids (prior ++ events.filterMap downloadOf)
      (afterEvents (attachmentsEnv inner env)
        (CachedRoom.new (fetchAll inner env.roomId prior FileSystem.empty)) events).media := by
  rw [media_afterEvents]
  have hall : WrittenSlots inner env.roomId data ids _ _ := slots_fetchAll hids hdata hdownloads
  unfold fetchAll at hall ⊢
  rw [List.foldl_append] at hall
  exact hall

/-- The file of a message is found at the path that its content names. -/
theorem read_display (hdir : ∀ name ∈ inner.attachmentsDir, Path.IsName name) {roomId name : String}
    (hname : Path.IsName name) (fs : FileSystem B) :
    fs.read (Path.join inner.dataRootDir (Path.display (roomPath inner roomId name)))
      = readFile inner roomId fs name := by
  have hcomponents : Path.components (Path.display (roomPath inner roomId name))
      = roomPath inner roomId name := by
    refine Path.components_display fun component hmem => ?_
    simp only [roomPath, Path.join, List.mem_append, List.mem_singleton] at hmem
    rcases hmem with (hmem | hmem) | rfl
    · exact hdir component hmem
    · exact Path.isName_of_mem_components hmem
    · exact hname
  unfold Path.join readFile
  rw [hcomponents]

/-- The path of the stored file of an id, once the contents have been downloaded. -/
def storedPath (inner : MediaManagerInner B) (data : MediaSource → B) (roomId id : String)
    (contents : List MediaContent) (content : MediaContent) : String :=
  Path.display (roomPath inner roomId
    ((storedAsset inner data (next (written contents) content)).fileName id))

/-- The content of a downloaded file. -/
theorem generateMessageContent_eq (hids : AssetIds ids)
    (hdata : ∀ source, inner.client.getFile source = .ok (data source))
    {downloads : List (String × MediaContent)} {fs : FileSystem B}
    (hslots : WrittenSlots inner env.roomId data ids downloads fs) {id : String} (hid : id ∈ ids)
    {msgtype : MessageType} {content : MediaContent} (hmedia : mediaOf msgtype = some content) :
    ∃ fs', Messages.generateMessageContent inner.toMediaManager env.roomId id msgtype fs
        = (some (.file (storedPath inner data env.roomId id (contentsOf id downloads) content)
            (some (content.filename.getD content.body))), fs') ∧
      WrittenSlots inner env.roomId data ids (downloads ++ [(id, content)]) fs' := by
  obtain ⟨fs', hfetch, hslots'⟩ := writtenSlots_fetch hids hdata hslots hid content
  refine ⟨fs', ?_, hslots'⟩
  rw [generateMessageContent_of_mediaOf _ _ _ hmedia, downloadFile_eq, hfetch]
  rfl

variable (env) in
/-- The cached content of an edit that is not processed again. -/
theorem lookup_edit (hids : AssetIds ids)
    (hdata : ∀ source, inner.client.getFile source = .ok (data source))
    {later earlier : List TimelineEvent} {shown : TimelineEvent}
    (hdownloads : ∀ d ∈ prior ++ later.filterMap downloadOf, d.1 ∈ ids) {id : String}
    (hid : id ∈ ids)
    {newContent : NewContent} {original : OriginalEvent RoomMessageEventContent}
    {content : MediaContent} (hreplaces : Replaces shown id newContent original)
    (hmedia : mediaOf newContent.msgtype = some content)
    (hlast : ∀ event ∈ earlier, event.eventId ≠ shown.eventId) :
    ((afterEvents (attachmentsEnv inner env)
        (CachedRoom.new (fetchAll inner env.roomId prior FileSystem.empty))
        (later ++ shown :: earlier)).cachedAt id).replacements.lookup original.eventId
      = some ⟨original.originServerTs,
          .file (storedPath inner data env.roomId id
              (contentsOf id (prior ++ later.filterMap downloadOf)) content)
            (some (content.filename.getD content.body))⟩ := by
  have hkey : shown.eventId = some original.eventId := eventId_of_readable hreplaces.1
  have hslots : WrittenSlots inner env.roomId data ids _ _ :=
    slots_afterEvents hids hdata hdownloads
  obtain ⟨fs', hcontent, -⟩ := generateMessageContent_eq hids hdata hslots hid hmedia
  rw [afterEvents_append]
  generalize afterEvents (attachmentsEnv inner env) (CachedRoom.new
    (fetchAll inner env.roomId prior FileSystem.empty)) later = room at hcontent ⊢
  have hstep : afterEvents (attachmentsEnv inner env) room (shown :: earlier)
      = afterEvents (attachmentsEnv inner env)
          (room.processTimelineEvent (attachmentsEnv inner env) shown).2 earlier := rfl
  rw [hstep, lookup_replacements_afterEvents _ _ (fun event h => hkey ▸ hlast event h),
    CachedRoom.cachedAt_processTimelineEvent, effectOf_of_replaces _ hreplaces]
  simp only [attachmentsEnv, hcontent, effectOfReplacement, Effect.on, if_true]
  exact AList.lookup_insert _

/-- The event is a media message that is not an edit. -/
def IsMediaMessage (event : TimelineEvent) (original : OriginalEvent RoomMessageEventContent)
    (content : MediaContent) : Prop :=
  readable event = some (.messageLike (.roomMessage (.original original))) ∧
    mediaOf original.content.msgtype = some content ∧
    ∀ messageId newContent, original.content.relatesTo ≠ some (.replacement messageId newContent)

/-- What is delivered for a media message: its own content, or that of the shown replacement. -/
theorem deliver_media (hids : AssetIds ids)
    (hdata : ∀ source, inner.client.getFile source = .ok (data source))
    {downloads : List (String × MediaContent)} {room : CachedRoom (FileSystem B)}
    (hslots : WrittenSlots inner env.roomId data ids downloads room.media) {event : TimelineEvent}
    {original : OriginalEvent RoomMessageEventContent} {content : MediaContent}
    (hid : original.eventId ∈ ids) (hevent : IsMediaMessage event original content) :
    ∃ message final, room.processTimelineEvent (attachmentsEnv inner env) event
        = (.ok (some (.message message)), final) ∧
      WrittenSlots inner env.roomId data ids
        (downloads ++ [(original.eventId, content)]) final.media ∧
      (shownReplacement env.order (room.cachedAt original.eventId) = none →
        message.content = some (.file (storedPath inner data env.roomId original.eventId
          (contentsOf original.eventId downloads) content)
          (some (content.filename.getD content.body)))) ∧
      ∀ key replacement,
        shownReplacement env.order (room.cachedAt original.eventId) = some key →
        (room.cachedAt original.eventId).replacements.lookup key = some replacement →
        message.content = some replacement.newContent := by
  obtain ⟨hread, hmedia, hrelation⟩ := hevent
  obtain ⟨fs', hcontent, hslots'⟩ := generateMessageContent_eq hids hdata hslots hid hmedia
  let built : Message :=
    (Messages.messageFromEvent inner.toMediaManager env.roomId original room.media).1
  have hbuilt : built.content = some (.file (storedPath inner data env.roomId original.eventId
      (contentsOf original.eventId downloads) content)
        (some (content.filename.getD content.body))) := by
    simp only [built, Messages.messageFromEvent, hcontent]
  have heffect : effectOf (attachmentsEnv inner env) event room.media
    = (.assembled built, fs') := by
    rw [effectOf_of_message _ hread hrelation]
    refine Prod.ext rfl ?_
    simp only [Messages.messageFromEvent, attachmentsEnv, hcontent]
  have hmessage : built.messageId = original.eventId := rfl
  have hother : ((room.cachedAt original.eventId).buildFromOriginal env.order built).1
      = (room.cachedAt original.eventId).buildOther env.order built := by
    unfold CachedMessage.buildFromOriginal
    rw [hbuilt]
  refine ⟨((room.cachedAt original.eventId).buildFromOriginal env.order built).1,
    (room.processTimelineEvent (attachmentsEnv inner env) event).2, Prod.ext ?_ rfl, ?_,
    fun hnone => ?_, fun key replacement hkey hlookup => ?_⟩
  · rw [CachedRoom.processTimelineEvent_eq, heffect]
    simp only [CachedRoom.perform, CachedRoom.assembleMessage_message, hmessage]
    exact congrArg (fun cached => Except.ok (some (CachedRoomAction.message
      (CachedMessage.buildFromOriginal env.order cached built).1)))
      (CachedRoom.cachedAt_prepare (attachmentsEnv inner env) room event original.eventId)
  · rw [CachedRoom.media_processTimelineEvent, heffect]
    exact hslots'
  · rw [hother, CachedMessage.buildOther, applyReplacements_of_none hnone]
    exact hbuilt
  · rw [hother, CachedMessage.buildOther, applyReplacements_of_some hkey hlookup]

/-- Whether the stored file is the one of a path that has been returned for the same id. -/
theorem showsFile_iff (hids : AssetIds ids)
    (hdir : ∀ name ∈ inner.attachmentsDir, Path.IsName name)
    {downloads : List (String × MediaContent)} {fs : FileSystem B}
    (hslots : WrittenSlots inner env.roomId data ids downloads fs) {id : String} (hid : id ∈ ids)
    {last : MediaContent} (hlast : written (contentsOf id downloads) = some last)
    {contents : List MediaContent} {content : MediaContent} {message : Message}
    {name : Option String}
    (hmessage : message.content
      = some (.file (storedPath inner data env.roomId id contents content) name)) :
    ShowsFile inner fs message (data content.source) ↔
      (storedAsset inner data last).fileName id
          = (storedAsset inner data (next (written contents) content)).fileName id ∧
        data last.source = data content.source := by
  have hstored : Stored inner env.roomId fs id (storedAsset inner data last) := by
    have hslot := hslots.slot id hid
    rw [hlast] at hslot
    exact hslot
  let path := storedAsset inner data (next (written contents) content)
  have hshows : ShowsFile inner fs message (data content.source) ↔
      readFile inner env.roomId fs (path.fileName id) = some (data content.source) := by
    have hname := (path.plainId_fileName (hids.plain id hid)).isName
    unfold ShowsFile
    rw [hmessage]
    constructor
    · rintro ⟨text, name', htext, hread⟩
      obtain ⟨rfl, -⟩ := Content.file.inj (Option.some.inj htext)
      rwa [storedPath, read_display hdir hname] at hread
    · intro hread
      exact ⟨_, _, rfl, by rwa [storedPath, read_display hdir hname]⟩
  rw [hshows]
  by_cases hname : (storedAsset inner data last).fileName id = path.fileName id
  · rw [← hname, hstored.file]
    simp [storedAsset, toStored]
  · -- Every other file of the id has been deleted.
    rw [hstored.others _ (path.ownName id) (assetFileName_ne_infoFileName id _) (Ne.symm hname)]
    simp [hname, path]

variable (env prior) in
/-- The delivered media message shows its own file exactly if the file that has been written last
    under its id holds the data, and the file of an edit exactly if moreover that file has the name
    under which the edit was stored. -/
theorem shown_file_iff (hids : AssetIds ids)
    (hdata : ∀ source, inner.client.getFile source = .ok (data source))
    (hdir : ∀ name ∈ inner.attachmentsDir, Path.IsName name) (history : List TimelineEvent)
    (event : TimelineEvent) {original : OriginalEvent RoomMessageEventContent}
    {content : MediaContent} (hid : original.eventId ∈ ids)
    (hdownloads : ∀ d ∈ prior ++ history.filterMap downloadOf, d.1 ∈ ids)
    (hevent : IsMediaMessage event original content) {room : CachedRoom (FileSystem B)}
    {actions : List CachedRoomAction}
    (hroom : (CachedRoom.new (fetchAll inner env.roomId prior FileSystem.empty)).processEvents
      (attachmentsEnv inner env) history = (.ok (), room, actions)) :
    ∃ message final last, room.processTimelineEvent (attachmentsEnv inner env) event
        = (.ok (some (.message message)), final) ∧
      written (contentsOf original.eventId (prior ++ history.filterMap downloadOf) ++ [content])
        = some last ∧
      (shownReplacement env.order (room.cachedAt original.eventId) = none →
        (ShowsFile inner final.media message (data content.source) ↔
          data last.source = data content.source)) ∧
      ∀ later shown earlier edit, history = later ++ shown :: earlier →
        (∀ event ∈ earlier, event.eventId ≠ shown.eventId) →
        EditsMedia shown original.eventId edit →
        shownReplacement env.order (room.cachedAt original.eventId) = shown.eventId →
        (ShowsFile inner final.media message (data edit.source) ↔
          (storedAsset inner data last).fileName original.eventId
            = (storedAsset inner data (next (written (contentsOf original.eventId
                (prior ++ later.filterMap downloadOf))) edit)).fileName original.eventId ∧
          data last.source = data edit.source) := by
  have hafter : room = afterEvents (attachmentsEnv inner env)
      (CachedRoom.new (fetchAll inner env.roomId prior FileSystem.empty)) history := by
    have hok := processEvents_ok (congrArg Prod.fst hroom)
    rw [hroom] at hok
    exact hok
  have hslots : WrittenSlots inner env.roomId data ids
    (prior ++ history.filterMap downloadOf) room.media := by
    rw [hafter]
    exact slots_afterEvents hids hdata hdownloads
  obtain ⟨message, final, hprocess, hfinal, hown, hedit⟩ :=
    deliver_media hids hdata hslots hid hevent
  have hlast := written_append_singleton
    (contentsOf original.eventId (prior ++ history.filterMap downloadOf)) content
  have hall : written (contentsOf original.eventId
      (prior ++ history.filterMap downloadOf ++ [(original.eventId, content)]))
        = some (next (written (contentsOf original.eventId
            (prior ++ history.filterMap downloadOf))) content) := by
    rw [contentsOf_append, ← hlast]
    simp [contentsOf]
  refine ⟨message, final, _, hprocess, hlast, fun hnone => ?_, ?_⟩
  · rw [showsFile_iff hids hdir hfinal hid hall (hown hnone)]
    simp
  · rintro later shown earlier edit rfl honce ⟨newContent, e, hreplaces, hmedia⟩ hkey
    have hlater : ∀ d ∈ prior ++ later.filterMap downloadOf, d.1 ∈ ids := by
      intro d hd
      refine hdownloads d ?_
      rw [List.filterMap_append, ← List.append_assoc]
      exact List.mem_append_left _ hd
    have hcached := lookup_edit env hids hdata hlater hid hreplaces hmedia honce
    rw [← hafter] at hcached
    rw [eventId_of_readable hreplaces.1] at hkey
    exact showsFile_iff hids hdir hfinal hid hall (hedit _ _ hkey hcached)

end Shown

/-! ## A photo and its edits -/

/-- The contents of the files here: the data of a source, or an info. -/
inductive PhotoFile where
  | data (source : MediaSource)
  | info (info : AssetInfo)
deriving DecidableEq

/-- A manager whose downloads succeed, and which guesses no extension. -/
def photoManager : MediaManagerInner PhotoFile where
  client :=
    { getFile := fun source => .ok (.data source)
      infer := fun _ => none
      infer_plain := fun h => nomatch h }
  json :=
    { serialize := .info
      deserialize := fun
        | .info info => some info
        | .data _ => none
      deserialize_serialize := fun _ => rfl }
  dataRootDir := ["data"]
  attachmentsDir := ["media", "attachments"]

def photoEnv : RoomEnv (FileSystem PhotoFile) where
  roomId := "!r"
  order := .entries
  mediaManager := photoManager.toMediaManager
  mainReceipts := fun _ => []
  unthreadedReceipts := fun _ => []
  decryptEvent := fun _ => none

def photoMessage (eventId : String) (ts : Nat) (content : RoomMessageEventContent) :
    TimelineEvent :=
  ⟨.plainText (.ok (.messageLike
      (.roomMessage (.original ⟨eventId, "@alice", ts, "!r", content⟩)))),
    some ts⟩

/-- The photo of a cat. -/
def photo : TimelineEvent :=
  photoMessage "$photo" 10 ⟨.image ⟨some "cat.png", "A cat", .plain "mxc://hs/cat"⟩, none, none⟩

def photoEdit (name url : String) : TimelineEvent :=
  photoMessage "$edit" 20 ⟨.text "* An edit",
    some (.replacement "$photo" ⟨.image ⟨some name, "An edit", .plain url⟩, none⟩), none⟩

/-- The room after the edit, without attachments at first. -/
def editedRoom (name url : String) : CachedRoom (FileSystem PhotoFile) :=
  ((CachedRoom.new (fetchAll photoManager "!r" [] FileSystem.empty)).processEvents
    (attachmentsEnv photoManager photoEnv) [photoEdit name url]).2.1

/-- An edit of the caption keeps the file. -/
theorem shown_file_iff_caption :
    ∃ message final, (editedRoom "cat.jpg" "mxc://hs/cat").processTimelineEvent
        (attachmentsEnv photoManager photoEnv) photo = (.ok (some (.message message)), final) ∧
      ShowsFile photoManager final.media message (.data (.plain "mxc://hs/cat")) := by
  have hids : AssetIds ["$photo"] :=
    { plain := by
        intro id hid
        obtain rfl := List.mem_singleton.mp hid
        exact ⟨by decide, by decide⟩
      apart := by
        intro a ha b hb hne
        exact absurd ((List.mem_singleton.mp ha).trans (List.mem_singleton.mp hb).symm) hne }
  have hdir : ∀ name ∈ photoManager.attachmentsDir, Path.IsName name := by
    intro name hname
    have hcases : name = "media" ∨ name = "attachments" := by
      simpa [photoManager] using hname
    rcases hcases with rfl | rfl <;> exact ⟨by decide, by decide, by decide⟩
  obtain ⟨message, final, last, hprocess, hlast, -, hedit⟩ := shown_file_iff photoEnv []
    hids (fun _ => rfl) hdir [photoEdit "cat.jpg" "mxc://hs/cat"] photo (by decide) (by decide)
    ⟨rfl, rfl, fun _ _ h => nomatch h⟩ (Prod.ext (by decide +kernel) rfl)
  refine ⟨message, final, hprocess, ?_⟩
  have hshown := hedit [] _ [] _ rfl (by simp) ⟨_, _, ⟨rfl, rfl⟩, rfl⟩ (by decide +kernel)
  refine hshown.mpr ?_
  obtain rfl := Option.some.inj hlast
  decide +kernel

/-- The download of the photo of a cat deletes the photo of a dog that the edit shows. -/
theorem edit_file_deleted :
    let (result, room) := (editedRoom "dog.jpg" "mxc://hs/dog").processTimelineEvent
      (attachmentsEnv photoManager photoEnv) photo
    (result.map fun action => action.map fun action => match action with
      | .message message => message.content
      | .reaction _ => none)
        = .ok (some (some (.file "media/attachments/!r/$photo.jpg" (some "dog.jpg")))) ∧
      room.media.read (Path.join ["data"] "media/attachments/!r/$photo.jpg") = none := by
  decide +kernel

end GoudaMatrix.MemoryCache
