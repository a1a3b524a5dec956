/-
  The edits of a text message on the live path (`events.rs`: `process_replacement_message`) and
  in a history that is fetched later (`memory_cache.rs`: `apply_replacements`).

  The change that the live path sends has the mentions of the edit; a fetched message has those
  of the original, whatever its edits are (`edit_mentions_lost`). `edits_agree_iff` says when the
  two paths end with the same content, mentions and edited flag.
-/
import GoudaMatrix.Events.Messages
import GoudaMatrix.MemoryCache.View

namespace GoudaMatrix.Events

open GoudaMatrix.Lib GoudaMatrix.Ruma GoudaMatrix.Media GoudaMatrix.MemoryCache

/-! ## Edited messages -/

/-- The new content of an edit. -/
def newContentOf (event : LiveMessage) : NewContent :=
  match event.content.relatesTo with
  | some (.replacement _ newContent) => newContent
  | _ => ⟨.other, none⟩

/-- A text message and its edits, in the order of their timestamps. -/
structure EditedText where
  original : LiveMessage
  body : String
  edits : List LiveMessage
  text : original.content.msgtype = .text body
  notEdit : ∀ messageId newContent,
    original.content.relatesTo ≠ some (.replacement messageId newContent)
  editsOf : ∀ edit ∈ edits,
    edit.content.relatesTo = some (.replacement original.eventId (newContentOf edit))
  increasing : edits.Pairwise fun a b => a.originServerTs < b.originServerTs
  ids : (edits.map OriginalEvent.eventId).Nodup

/-- A fetch of an edited message: all edits in some order, and the original at the end. -/
structure Fetch (h : EditedText) where
  order : List LiveMessage
  perm : order.Perm h.edits
  encrypted : LiveMessage → Bool

/-- The message event of a timeline. -/
def timelineEvent (encrypted : LiveMessage → Bool) (event : LiveMessage) : TimelineEvent where
  kind :=
    if encrypted event then .decrypted (.ok (.messageLike (.roomMessage (.original event))))
    else .plainText (.ok (.messageLike (.roomMessage (.original event))))
  timestamp := some event.originServerTs

theorem readable_timelineEvent (encrypted : LiveMessage → Bool) (event : LiveMessage) :
    readable (timelineEvent encrypted event)
      = some (.messageLike (.roomMessage (.original event))) := by
  unfold readable timelineEvent
  cases encrypted event <;> rfl

theorem startsUnknownPoll_timelineEvent (encrypted : LiveMessage → Bool) (event : LiveMessage) :
    startsUnknownPoll (timelineEvent encrypted event) = false := by
  unfold startsUnknownPoll timelineEvent
  cases encrypted event <;> rfl

section Edits

variable {M : Type}

/-- The edits whose content can be obtained, one after another, with their contents. -/
def editContents (mediaManager : MediaManager M) (roomId messageId : String) :
    List LiveMessage → M → List (LiveMessage × Content)
  | [], _ => []
  | edit :: edits, media =>
    let (content, media) := Messages.generateMessageContent mediaManager roomId messageId
      (newContentOf edit).msgtype media
    (content.map fun content => (edit, content)).toList
      ++ editContents mediaManager roomId messageId edits media

/-- The type is one that `generate_message_content` knows. -/
def isKnownType : MessageType → Bool
  | .other => false
  | _ => true

/-- The new content of the edit is one that can be shown. -/
def hasContent (edit : LiveMessage) : Bool := isKnownType (newContentOf edit).msgtype

/-- The edit with the newest timestamp. -/
def newestEdit (contents : List (LiveMessage × Content)) : Option (LiveMessage × Content) :=
  (sortByKey (fun edit => edit.1.originServerTs) contents).getLast?

theorem editContents_sublist (mediaManager : MediaManager M) (roomId messageId : String)
    (edits : List LiveMessage) (media : M) :
    ((editContents mediaManager roomId messageId edits media).map Prod.fst).Sublist edits := by
  induction edits generalizing media with
  | nil => exact .slnil
  | cons edit edits ih =>
    simp only [editContents, List.map_append]
    cases (Messages.generateMessageContent mediaManager roomId messageId
      (newContentOf edit).msgtype media).1 with
    | none => exact (ih _).cons edit
    | some content => exact (ih _).cons_cons edit

/-! ## The live path -/

/-- The message with the change of an edit. -/
def editedMessage (message : Message) (edit : LiveMessage × Content) : Message :=
  { message with
    content := some edit.2
    mentionedUserIds := Messages.matrixMentionsToProtoMentions (newContentOf edit.1).mentions
    edited := true }

/-- The application ends with the last edit that has been sent. -/
theorem applyAll_edits (mediaManager : MediaManager M) (roomId : String) {messageId : String}
    {edits : List LiveMessage} (hedits : ∀ edit ∈ edits,
      edit.content.relatesTo = some (.replacement messageId (newContentOf edit)))
    (room : LiveRoom M) (view : View) :
    view.applyAll (execRoomMessageEvents mediaManager roomId (edits.map fun edit => (true, edit))
        room).1 messageId
      = (view messageId).map fun message =>
          (editContents mediaManager roomId messageId edits room.media).getLast?.elim message
            (editedMessage message) := by
  induction edits generalizing room view with
  | nil =>
    show view messageId = _
    cases view messageId <;> rfl
  | cons edit edits ih =>
    have hrest := fun room view =>
      ih (fun e he => hedits e (List.mem_cons_of_mem _ he)) room view
    have hexec : execRoomMessageEvent mediaManager roomId true edit room
        = processReplacementMessage mediaManager roomId messageId (newContentOf edit) room := by
      simp only [execRoomMessageEvent, if_true, hedits edit List.mem_cons_self]
    simp only [List.map_cons, execRoomMessageEvents, hexec, View.applyAll_append, hrest,
      processReplacementMessage, editContents]
    rcases Messages.generateMessageContent mediaManager roomId messageId
      (newContentOf edit).msgtype room.media with ⟨content, media⟩
    cases content with
    | none => rfl
    | some content =>
      have hset : (view.applyAll [.changed (editChange roomId messageId (newContentOf edit)
          content)]) messageId
            = (view messageId).map fun message => editedMessage message (edit, content) := by
        show (view.set messageId _) messageId = _
        rw [View.set_self]
        rfl
      dsimp only
      rw [hset, Option.map_map, Option.map_some, Option.toList_some, List.singleton_append,
        List.getLast?_cons]
      refine congrArg (fun f => Option.map f (view messageId)) (funext fun message => ?_)
      show (List.getLast? _).elim (editedMessage message (edit, content)) _ = _
      cases (editContents mediaManager roomId messageId edits media).getLast? <;> rfl

/-! ## A fetched history -/

/-- The cached replacement of an edit. -/
def replacementEntry (edit : LiveMessage × Content) : Sigma fun _ : String => CachedReplacement :=
  ⟨edit.1.eventId, ⟨edit.1.originServerTs, edit.2⟩⟩

theorem replacements_afterEvents (env : RoomEnv M) (encrypted : LiveMessage → Bool)
    {messageId : String} {edits : List LiveMessage} (hedits : ∀ edit ∈ edits,
      edit.content.relatesTo = some (.replacement messageId (newContentOf edit)))
    (hids : (edits.map OriginalEvent.eventId).Nodup) (room : CachedRoom M)
    (hfresh : ∀ edit ∈ edits, edit.eventId ∉ (room.cachedAt messageId).replacements) :
    ((afterEvents env room (edits.map (timelineEvent encrypted))).cachedAt messageId
        ).replacements.entries.Perm
      ((editContents env.mediaManager env.roomId messageId edits room.media).map replacementEntry
        ++ (room.cachedAt messageId).replacements.entries) := by
  induction edits generalizing room with
  | nil => exact List.Perm.refl _
  | cons edit edits ih =>
    rw [List.map_cons, List.nodup_cons] at hids
    have hrest := ih (fun e he => hedits e (List.mem_cons_of_mem _ he)) hids.2
      (room.processTimelineEvent env (timelineEvent encrypted edit)).2
    have hreplaces : Replaces (timelineEvent encrypted edit) messageId (newContentOf edit) edit :=
      ⟨readable_timelineEvent encrypted edit, hedits edit List.mem_cons_self⟩
    have hmedia := CachedRoom.media_processTimelineEvent env room (timelineEvent encrypted edit)
    have hcached := CachedRoom.cachedAt_processTimelineEvent env room (timelineEvent encrypted edit)
      messageId
    have hnew := hfresh edit List.mem_cons_self
    rw [effectOf_of_replaces env hreplaces] at hmedia hcached
    rw [hmedia, hcached] at hrest
    simp only [editContents]
    generalize Messages.generateMessageContent env.mediaManager env.roomId messageId
      (newContentOf edit).msgtype room.media = generated at hrest
    obtain ⟨content, media⟩ := generated
    cases content with
    | none => exact hrest fun e he => hfresh e (List.mem_cons_of_mem _ he)
    | some content =>
      simp only [effectOfReplacement, Effect.on, if_true] at hrest
      rw [AList.entries_insert_of_notMem hnew] at hrest
      refine (hrest fun e he => ?_).trans List.perm_middle
      rw [AList.mem_insert]
      rintro (heq | hmem)
      · exact hids.1 (List.mem_map.mpr ⟨e, he, heq⟩)
      · exact hfresh e (List.mem_cons_of_mem _ he) hmem

theorem messageFromEvent_text (mediaManager : MediaManager M) (roomId : String)
    (event : LiveMessage) {body : String} (htext : event.content.msgtype = .text body) (media : M) :
    (Messages.messageFromEvent mediaManager roomId event media).2 = media ∧
      (Messages.messageFromEvent mediaManager roomId event media).1.content
        = some (.text body) := by
  simp only [Messages.messageFromEvent, htext, Messages.generateMessageContent, and_self]

/-! ## Both paths -/

variable (env : RoomEnv M) (h : EditedText)

/-- What the application has after the live path. -/
def liveView (room : LiveRoom M) : View :=
  View.empty.applyAll (execRoomMessageEvents env.mediaManager env.roomId
    ((h.original :: h.edits).map fun event => (true, event)) room).1

/-- What the application has after a later fetch. -/
def fetchedView (fetch : Fetch h) (media : M) : View :=
  View.empty.applyAll ((CachedRoom.new media).fetchHistory env
    (fetch.order.map (timelineEvent fetch.encrypted)
      ++ [timelineEvent fetch.encrypted h.original])).2

/-- The edits that have a content on the live path. -/
def liveEdits (room : LiveRoom M) : List (LiveMessage × Content) :=
  editContents env.mediaManager env.roomId h.original.eventId h.edits room.media

/-- The edits that have a content when they are fetched. -/
def fetchedEdits (fetch : Fetch h) (media : M) : List (LiveMessage × Content) :=
  editContents env.mediaManager env.roomId h.original.eventId fetch.order media

/-- The newest edit on the live path is the last one. -/
theorem newestEdit_live (room : LiveRoom M) :
    newestEdit (liveEdits env h room) = (liveEdits env h room).getLast? := by
  have hsorted : ((liveEdits env h room).map Prod.fst).Pairwise
      fun a b => a.originServerTs < b.originServerTs :=
    h.increasing.sublist (editContents_sublist _ _ _ _ _)
  unfold newestEdit
  rw [sortByKey_of_pairwise ((List.pairwise_map.mp hsorted).imp Nat.le_of_lt)]

/-- The message without its edits. -/
def unedited (event : LiveMessage) (media : M) : Message :=
  (Messages.messageFromEvent env.mediaManager env.roomId event media).1

theorem exec_original (room : LiveRoom M) :
    (execRoomMessageEvent env.mediaManager env.roomId true h.original room).1
        = [.received (unedited env { h.original with roomId := env.roomId } room.media)] ∧
      (execRoomMessageEvent env.mediaManager env.roomId true h.original room).2.media
        = room.media := by
  have hnew : execRoomMessageEvent env.mediaManager env.roomId true h.original room
      = processNewMessage env.mediaManager env.roomId h.original room := by
    simp only [execRoomMessageEvent, if_true]
    split
    · next messageId newContent heq => exact absurd heq (h.notEdit messageId newContent)
    · rfl
  have hmedia := (messageFromEvent_text env.mediaManager env.roomId
    { h.original with roomId := env.roomId } h.text room.media).1
  rw [hnew]
  exact ⟨rfl, (media_maybeMarkRoomAsUnread _ _).trans hmedia⟩

theorem liveView_eq (room : LiveRoom M) :
    liveView env h room h.original.eventId
      = some ((newestEdit (liveEdits env h room)).elim
          (unedited env { h.original with roomId := env.roomId } room.media)
          (editedMessage
            (unedited env { h.original with roomId := env.roomId } room.media))) := by
  obtain ⟨hsent, hmedia⟩ := exec_original env h room
  have hreceived : (View.empty.applyAll [.received (unedited env
      { h.original with roomId := env.roomId } room.media)]) h.original.eventId
        = some (unedited env { h.original with roomId := env.roomId } room.media) :=
    View.set_self _ _ _
  unfold liveView
  simp only [List.map_cons, execRoomMessageEvents, hsent, View.applyAll_append]
  rw [applyAll_edits env.mediaManager env.roomId h.editsOf, hmedia, newestEdit_live, hreceived]
  rfl

/-- The cached replacements when the original is fetched. -/
theorem replacements_fetched (fetch : Fetch h) (media : M) :
    ((afterEvents env (CachedRoom.new media) (fetch.order.map (timelineEvent fetch.encrypted))
      ).cachedAt h.original.eventId).replacements.entries.Perm
        ((fetchedEdits env h fetch media).map replacementEntry) := by
  have hperm := replacements_afterEvents env fetch.encrypted
    (fun edit hmem => h.editsOf edit (fetch.perm.mem_iff.mp hmem))
    ((fetch.perm.map OriginalEvent.eventId).nodup_iff.mpr h.ids) (CachedRoom.new media)
    fun edit _ => AList.notMem_empty edit.eventId
  have hempty : ((CachedRoom.new media : CachedRoom M).cachedAt h.original.eventId
      ).replacements.entries = [] := rfl
  rw [hempty, List.append_nil] at hperm
  exact hperm

/-- Edits have different timestamps. -/
theorem fetchedEdits_ts (fetch : Fetch h) (media : M) :
    ((fetchedEdits env h fetch media).map fun edit => edit.1.originServerTs).Nodup := by
  have hsub : ((fetchedEdits env h fetch media).map fun edit => edit.1.originServerTs).Sublist
      (fetch.order.map OriginalEvent.originServerTs) := by
    have := (editContents_sublist env.mediaManager env.roomId h.original.eventId fetch.order
      media).map OriginalEvent.originServerTs
    rwa [List.map_map] at this
  have hedits : (h.edits.map OriginalEvent.originServerTs).Nodup :=
    List.pairwise_map.mpr (h.increasing.imp Nat.ne_of_lt)
  exact ((fetch.perm.map _).nodup_iff.mpr hedits).sublist hsub

/-- The newest edit is the replacement that is shown. -/
theorem shown_fetched (fetch : Fetch h) (media : M) :
    let cached := (afterEvents env (CachedRoom.new media)
      (fetch.order.map (timelineEvent fetch.encrypted))).cachedAt h.original.eventId
    (sortByKey CachedReplacement.timestamp (cached.replacements.values env.order)).getLast?
        = (newestEdit (fetchedEdits env h fetch media)).map
            (fun edit => ⟨edit.1.originServerTs, edit.2⟩) ∧
      cached.replacements.entries.isEmpty
        = (newestEdit (fetchedEdits env h fetch media)).isNone := by
  intro cached
  have hentries := replacements_fetched env h fetch media
  have hts := fetchedEdits_ts env h fetch media
  generalize fetchedEdits env h fetch media = edits at hentries hts
  refine ⟨?_, ?_⟩
  · have hvalues : (cached.replacements.values env.order).Perm
        (edits.map fun edit => (⟨edit.1.originServerTs, edit.2⟩ : CachedReplacement)) := by
      refine (HashMap.values_perm env.order cached.replacements).trans ?_
      have := hentries.map Sigma.snd
      rwa [List.map_map] at this
    have hkey : ∀ a ∈ edits.map fun edit => (⟨edit.1.originServerTs, edit.2⟩ : CachedReplacement),
        ∀ b ∈ edits.map fun edit => (⟨edit.1.originServerTs, edit.2⟩ : CachedReplacement),
        a.timestamp = b.timestamp → a = b := by
      intro a ha b hb heq
      obtain ⟨edit, hmem, rfl⟩ := List.mem_map.mp ha
      obtain ⟨edit', hmem', rfl⟩ := List.mem_map.mp hb
      rw [List.inj_on_of_nodup_map hts hmem hmem' heq]
    rw [← sortByKey_eq_of_perm hvalues.symm hkey, newestEdit, ← List.getLast?_map]
    exact congrArg List.getLast? (map_sortByKey CachedReplacement.timestamp
      (fun edit : LiveMessage × Content => ⟨edit.1.originServerTs, edit.2⟩) edits).symm
  · have hempty : cached.replacements.entries = [] ↔ edits = [] := by
      rw [← List.map_eq_nil_iff (f := replacementEntry)]
      exact ⟨fun h => (h ▸ hentries).nil_eq.symm, fun h => (h ▸ hentries).eq_nil⟩
    have hnone : newestEdit edits = none ↔ edits = [] := getLast?_sortByKey_eq_none
    rw [Bool.eq_iff_iff, List.isEmpty_iff, Option.isNone_iff_eq_none, hempty, hnone]

theorem messageOf_original (encrypted : LiveMessage → Bool) (room : CachedRoom M) :
    ∃ message, messageOf env room (timelineEvent encrypted h.original) = some message ∧
      message.messageId = h.original.eventId ∧
      message.content = (room.cachedAt h.original.eventId).shownContent env.order
        (some (.text h.body)) ∧
      message.mentionedUserIds
        = Messages.matrixMentionsToProtoMentions h.original.content.mentions ∧
      message.edited = (room.cachedAt h.original.eventId).showsEdit (some (.text h.body)) := by
  have hmessage := messageOf_eq env room (timelineEvent encrypted h.original)
  rw [effectOf_of_message env (readable_timelineEvent _ _) h.notEdit] at hmessage
  have htext := (messageFromEvent_text env.mediaManager env.roomId h.original h.text room.media).2
  refine ⟨_, hmessage, ?_⟩
  rw [CachedMessage.buildFromOriginal_eq]
  dsimp only
  rw [htext]
  exact ⟨rfl, rfl, rfl, Bool.false_or _⟩

/-- The fetched message: the newest edit with the mentions of the original. -/
theorem fetchedView_eq (fetch : Fetch h) (media : M) :
    ∃ message, fetchedView env h fetch media h.original.eventId = some message ∧
      message.content = (newestEdit (fetchedEdits env h fetch media)).elim
        (some (.text h.body)) (fun edit => some edit.2) ∧
      message.mentionedUserIds
        = Messages.matrixMentionsToProtoMentions h.original.content.mentions ∧
      message.edited = (newestEdit (fetchedEdits env h fetch media)).isSome := by
  obtain ⟨hshown, hempty⟩ := shown_fetched env h fetch media
  have hknown : ∀ event ∈ fetch.order.map (timelineEvent fetch.encrypted)
      ++ [timelineEvent fetch.encrypted h.original], startsUnknownPoll event = false := by
    intro event hmem
    rcases List.mem_append.mp hmem with hmem | hmem
    · obtain ⟨edit, -, rfl⟩ := List.mem_map.mp hmem
      exact startsUnknownPoll_timelineEvent fetch.encrypted edit
    · rw [List.mem_singleton.mp hmem]
      exact startsUnknownPoll_timelineEvent fetch.encrypted h.original
  unfold fetchedView
  rw [fetchHistory_eq, upToFirst_of_false hknown, messagesOf_append, List.map_append,
    View.applyAll_append]
  generalize afterEvents env (CachedRoom.new media)
    (fetch.order.map (timelineEvent fetch.encrypted)) = room at hshown hempty
  obtain ⟨message, hmessage, hid, hcontent, hmentions, hedited⟩ :=
    messageOf_original env h fetch.encrypted room
  refine ⟨message, ?_, ?_, hmentions, ?_⟩
  · rw [messagesOf, hmessage, ← hid]
    exact View.set_self _ _ _
  · rw [hcontent]
    simp only [CachedMessage.shownContent, hshown]
    cases newestEdit (fetchedEdits env h fetch media) <;> rfl
  · rw [hedited]
    simp only [CachedMessage.showsEdit, hempty]
    cases newestEdit (fetchedEdits env h fetch media) <;> rfl

/-- Edits without a file have the same content on both paths. -/
theorem newestEdit_of_no_media (fetch : Fetch h) (room : LiveRoom M) (media : M)
    (hmedia : ∀ edit ∈ h.edits, mediaOf (newContentOf edit).msgtype = none) :
    newestEdit (liveEdits env h room) = newestEdit (fetchedEdits env h fetch media) := by
  let content (edit : LiveMessage) : Option (LiveMessage × Content) :=
    (Messages.generateMessageContent env.mediaManager env.roomId h.original.eventId
      (newContentOf edit).msgtype media).1.map fun content => (edit, content)
  have hcontents : ∀ edits : List LiveMessage,
      (∀ edit ∈ edits, mediaOf (newContentOf edit).msgtype = none) → ∀ media' : M,
      editContents env.mediaManager env.roomId h.original.eventId edits media'
        = edits.filterMap content := by
    intro edits hedits media'
    induction edits generalizing media' with
    | nil => rfl
    | cons edit edits ih =>
      have hstatic := generateMessageContent_of_no_media env.mediaManager env.roomId
        h.original.eventId (hedits edit List.mem_cons_self) media' media
      have hcontent : content edit = (Messages.generateMessageContent env.mediaManager env.roomId
          h.original.eventId (newContentOf edit).msgtype media').1.map
            fun content => (edit, content) := by
        rw [hstatic.1]
      simp only [editContents, ih fun e he => hedits e (List.mem_cons_of_mem _ he)]
      rw [← hcontent]
      cases hedit : content edit with
      | none => rw [List.filterMap_cons_none hedit, Option.toList_none, List.nil_append]
      | some answer =>
        rw [List.filterMap_cons_some hedit, Option.toList_some, List.singleton_append]
  have hfetched := hcontents fetch.order
    (fun edit hmem => hmedia edit (fetch.perm.mem_iff.mp hmem)) media
  have hts := fetchedEdits_ts env h fetch media
  unfold newestEdit liveEdits
  unfold fetchedEdits at hts ⊢
  rw [hfetched] at hts ⊢
  rw [hcontents h.edits hmedia]
  refine congrArg List.getLast? (sortByKey_eq_of_perm (fetch.perm.filterMap content) ?_).symm
  exact fun a ha b hb heq => List.inj_on_of_nodup_map hts ha hb heq

theorem isSome_generateMessageContent {msgtype : MessageType} (h : mediaOf msgtype = none)
    (messageId : String) (media : M) :
    (Messages.generateMessageContent env.mediaManager env.roomId messageId msgtype media).1.isSome
      = isKnownType msgtype := by
  cases msgtype <;> cases h <;> rfl

/-- Without a file, the content can be obtained of every edit of a known type. -/
theorem edits_of_no_media {edits : List LiveMessage}
    (hmedia : ∀ edit ∈ edits, mediaOf (newContentOf edit).msgtype = none) (messageId : String)
    (media : M) :
    (editContents env.mediaManager env.roomId messageId edits media).map Prod.fst
      = edits.filter hasContent := by
  induction edits generalizing media with
  | nil => rfl
  | cons edit edits ih =>
    have hedit := hmedia edit List.mem_cons_self
    have hrest := ih (fun e he => hmedia e (List.mem_cons_of_mem _ he))
    have hknown := isSome_generateMessageContent env hedit messageId media
    simp only [editContents, List.map_append, hrest, List.filter_cons, hasContent, ← hknown]
    cases (Messages.generateMessageContent env.mediaManager env.roomId messageId
      (newContentOf edit).msgtype media).1 <;> rfl

end Edits

/-- The messages are the same as far as an edit changes them. -/
structure SameEdit (live fetched : Message) : Prop where
  content : live.content = fetched.content
  mentionedUserIds : live.mentionedUserIds = fetched.mentionedUserIds
  edited : live.edited = fetched.edited

/-- The edit mentions the users that the original mentions. -/
def SameMentions (h : EditedText) (edit : LiveMessage) : Prop :=
  Messages.matrixMentionsToProtoMentions (newContentOf edit).mentions
    = Messages.matrixMentionsToProtoMentions h.original.content.mentions

theorem sameEdit_iff {M : Type} (env : RoomEnv M) (h : EditedText) (fetch : Fetch h)
    (room : LiveRoom M) (media : M) :
    ∃ live fetched, liveView env h room h.original.eventId = some live ∧
      fetchedView env h fetch media h.original.eventId = some fetched ∧
      (SameEdit live fetched ↔
        (newestEdit (liveEdits env h room)).map Prod.snd
          = (newestEdit (fetchedEdits env h fetch media)).map Prod.snd ∧
        ∀ edit ∈ newestEdit (liveEdits env h room), SameMentions h edit.1) := by
  obtain ⟨fetched, hfetched, hcontent, hmentions, hedited⟩ := fetchedView_eq env h fetch media
  refine ⟨_, fetched, liveView_eq env h room, hfetched, ?_⟩
  have htext : (unedited env { h.original with roomId := env.roomId } room.media).content
      = some (.text h.body) :=
    (messageFromEvent_text env.mediaManager env.roomId { h.original with roomId := env.roomId }
      h.text room.media).2
  have hlive : (unedited env { h.original with roomId := env.roomId } room.media).edited = false ∧
      (unedited env { h.original with roomId := env.roomId } room.media).mentionedUserIds
        = Messages.matrixMentionsToProtoMentions h.original.content.mentions := ⟨rfl, rfl⟩
  generalize unedited env { h.original with roomId := env.roomId } room.media = message
    at htext hlive
  have hiff : ∀ live : Message, SameEdit live fetched ↔
      live.content = fetched.content ∧ live.mentionedUserIds = fetched.mentionedUserIds ∧
        live.edited = fetched.edited :=
    fun live => ⟨fun h => ⟨h.1, h.2, h.3⟩, fun h => ⟨h.1, h.2.1, h.2.2⟩⟩
  rw [hiff, hcontent, hmentions, hedited]
  cases newestEdit (liveEdits env h room) with
  | none =>
    cases newestEdit (fetchedEdits env h fetch media) with
    | none => simp [hlive, htext]
    | some edit => simp [hlive]
  | some edit =>
    cases newestEdit (fetchedEdits env h fetch media) with
    | none => simp [editedMessage]
    | some edit' => simp [editedMessage, SameMentions]

/-- Both paths end with the same message exactly if the newest edit that has a content mentions
    the users of the original, and the media manager gives it the same file in both, if it has
    one. Where no edit has a file, only the mentions decide. -/
theorem edits_agree_iff {M : Type} (env : RoomEnv M) (h : EditedText) (fetch : Fetch h)
    (room : LiveRoom M) (media : M) :
    ∃ live fetched, liveView env h room h.original.eventId = some live ∧
      fetchedView env h fetch media h.original.eventId = some fetched ∧
      (SameEdit live fetched ↔
        (newestEdit (liveEdits env h room)).map Prod.snd
          = (newestEdit (fetchedEdits env h fetch media)).map Prod.snd ∧
        ∀ edit ∈ newestEdit (liveEdits env h room), SameMentions h edit.1) ∧
      ((∀ edit ∈ h.edits, mediaOf (newContentOf edit).msgtype = none) →
        (SameEdit live fetched ↔ ∀ edit ∈ (h.edits.filter hasContent).getLast?,
          SameMentions h edit)) := by
  obtain ⟨live, fetched, hlive, hfetched, hiff⟩ := sameEdit_iff env h fetch room media
  refine ⟨live, fetched, hlive, hfetched, hiff, fun hmedia => ?_⟩
  have hlast : (h.edits.filter hasContent).getLast?
      = (newestEdit (liveEdits env h room)).map Prod.fst := by
    rw [newestEdit_live, ← List.getLast?_map]
    exact congrArg List.getLast? (edits_of_no_media env hmedia h.original.eventId room.media).symm
  rw [hiff, newestEdit_of_no_media env h fetch room media hmedia, hlast,
    newestEdit_of_no_media env h fetch room media hmedia]
  simp only [true_and, Option.mem_map, forall_exists_index, and_imp, forall_apply_eq_imp_iff₂]

/-- An edit that mentions a user. -/
def mentioningEdit : EditedText where
  original := ⟨"$hello", "@alice:hs", 1, "!r", ⟨.text "Hello", none, none⟩⟩
  body := "Hello"
  edits := [⟨"$edit", "@alice:hs", 2, "!r", ⟨.text "* Hello Bob",
    some (.replacement "$hello" ⟨.text "Hello Bob", some ⟨["@bob:hs"], false⟩⟩), none⟩⟩]
  text := rfl
  notEdit := nofun
  editsOf := by simp [newContentOf]
  increasing := by simp
  ids := by simp

/-- The application has the mention of the edit until it fetches the message again. -/
theorem edit_mentions_lost :
    let env := RoomEnv.bare "!r"
    let fetch : Fetch mentioningEdit := ⟨_, List.Perm.refl _, fun _ => false⟩
    (liveView env mentioningEdit ⟨(), none⟩ "$hello").map Message.mentionedUserIds
        = some ["@bob:hs"] ∧
      (fetchedView env mentioningEdit fetch () "$hello").map Message.mentionedUserIds
        = some [] := by
  decide +kernel

end GoudaMatrix.Events
