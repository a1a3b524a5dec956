/-
  `notifications.rs`: the events about changed notification settings.

  The settings that the SDK has loaded are an argument. The maps are iterated in any order, so
  that the events of a change are said room by room (`filter_compareRoomChanges`).
  `settings_follow`: they turn the old settings into the new ones, with one event for each room
  that differs and none for the others, so that the application has the cached settings after any
  number of changes.
-/
import GoudaMatrix.Lib.HashMap
import GoudaMatrix.Utils

namespace GoudaMatrix.Notifications

open GoudaMatrix.Lib

inductive NotificationSetting where
  | allMessages
  | mentionsAndKeywordsOnly
  | mute
deriving DecidableEq, Repr

structure CachedNotificationSettings where
  globalSettings : NotificationSetting
  /-- Of the rooms that do not use the global settings. -/
  roomSettings : HashMap NotificationSetting

/-- `CachedNotificationSettings::default`. -/
def CachedNotificationSettings.default : CachedNotificationSettings := ⟨.allMessages, ∅⟩

structure RoomSettings where
  notificationSetting : Option NotificationSetting
deriving DecidableEq, Repr

/-- A `RoomChangeEvent` that changes the room settings. -/
structure RoomChangeEvent where
  roomId : String
  roomSettings : RoomSettings
deriving DecidableEq, Repr

inductive Event where
  | globalSettings (setting : NotificationSetting)
  | roomChange (event : RoomChangeEvent)
deriving DecidableEq, Repr

/-! ## The events of a change -/

/-- The entries of a map of room settings. -/
abbrev RoomEntry := Sigma fun _ : String => NotificationSetting

/-- The event of `send_room_update_event`. -/
def roomUpdateEvent (roomId : String) (settings : Option NotificationSetting) : RoomChangeEvent :=
  ⟨roomId, ⟨settings⟩⟩

def compareRoomChanges (old new : List RoomEntry) : List RoomChangeEvent :=
  let result := compareLists old new (fun a b => a.1 = b.1) fun a b => a.2 = b.2
  result.new.map (fun entry => roomUpdateEvent entry.1 (some entry.2))
    ++ result.deleted.map (fun entry => roomUpdateEvent entry.1 none)
    ++ result.updated.map fun update => roomUpdateEvent update.2.1 (some update.2.2)

def globalEvents (old : Option CachedNotificationSettings) (new : CachedNotificationSettings) :
    List Event :=
  match old with
  | some old =>
    if old.globalSettings ≠ new.globalSettings then [.globalSettings new.globalSettings] else []
  | none => [.globalSettings new.globalSettings]

/-- The order in which the old and the new map are iterated. -/
structure Orders where
  old : IterationOrder
  new : IterationOrder

def roomEvents (o : Orders) (cached : Option CachedNotificationSettings)
    (new : CachedNotificationSettings) : List RoomChangeEvent :=
  let old := cached.getD .default
  compareRoomChanges (o.old.order old.roomSettings.entries) (o.new.order new.roomSettings.entries)

/-- The events that are sent, and the cached settings afterwards. -/
def handleNotificationSettingsChange (o : Orders) (cached : Option CachedNotificationSettings)
    (new : CachedNotificationSettings) : List Event × Option CachedNotificationSettings :=
  (globalEvents cached new ++ (roomEvents o cached new).map .roomChange, some new)

/-! ## The events of a room -/

section Rooms

variable {old new : List RoomEntry}

/-- A room has an event exactly if its setting differs, with the new setting. -/
theorem filter_compareRoomChanges (hold : old.NodupKeys) (hnew : new.NodupKeys) (roomId : String) :
    ((compareRoomChanges old new).filter fun event => event.roomId = roomId)
      = if old.dlookup roomId = new.dlookup roomId then []
        else [roomUpdateEvent roomId (new.dlookup roomId)] := by
  have hupdated : (compareLists old new (fun a b => decide (a.1 = b.1)) fun a b =>
      a.2 = b.2).updated.map
        (fun update => roomUpdateEvent update.2.1 (some update.2.2))
      = (new.filter fun entry => (old.dlookup entry.1).any fun v => v ≠ entry.2).map
          fun entry => roomUpdateEvent entry.1 (some entry.2) := by
    rw [← updated_of_keys hold, List.map_map]
    rfl
  simp only [compareRoomChanges]
  rw [hupdated, new_of_keys hold, deleted_of_keys hold]
  simp only [List.filter_append, List.filter_map, Function.comp_def, roomUpdateEvent]
  have hcomm : ∀ (entries : List RoomEntry) (p : RoomEntry → Bool),
      (entries.filter p).filter (fun entry => decide (entry.1 = roomId))
        = (entries.filter fun entry => decide (entry.1 = roomId)).filter p := by
    intro entries p
    rw [List.filter_filter, List.filter_filter]
    exact List.filter_congr fun entry _ => Bool.and_comm _ _
  rw [hcomm, hcomm, hcomm, HashMap.filter_key hnew, HashMap.filter_key hold]
  cases ho : old.dlookup roomId with
  | none => cases hn : new.dlookup roomId <;> simp [ho]
  | some v =>
    cases hn : new.dlookup roomId with
    | none => simp [hn]
    | some w => by_cases h : v = w <;> simp [ho, hn, h]

end Rooms

/-! ## The view of the application -/

/-- The settings that the application has. -/
structure View where
  globalSettings : Option NotificationSetting
  roomSettings : String → Option NotificationSetting

namespace View

/-- A room is set to its new settings, or uses the global ones again. -/
def applyRoom (rooms : String → Option NotificationSetting) (event : RoomChangeEvent) :
    String → Option NotificationSetting :=
  fun roomId => if roomId = event.roomId then event.roomSettings.notificationSetting
    else rooms roomId

def apply (view : View) : Event → View
  | .globalSettings setting => { view with globalSettings := some setting }
  | .roomChange event => { view with roomSettings := applyRoom view.roomSettings event }

/-- Only the last event of a room counts. -/
theorem foldl_applyRoom (events : List RoomChangeEvent)
    (rooms : String → Option NotificationSetting) (roomId : String) :
    events.foldl applyRoom rooms roomId
      = match (events.filter fun event => event.roomId = roomId).getLast? with
        | some event => event.roomSettings.notificationSetting
        | none => rooms roomId := by
  induction events using List.reverseRecOn with
  | nil => rfl
  | append_singleton events event ih =>
    rw [List.foldl_append, List.foldl_cons, List.foldl_nil, applyRoom, List.filter_append]
    by_cases h : roomId = event.roomId
    · subst h
      simp
    · have hother : ([event].filter fun event => decide (event.roomId = roomId)) = [] := by
        simpa using Ne.symm h
      rw [if_neg h, ih, hother, List.append_nil]

theorem foldl_apply_roomChange (events : List RoomChangeEvent) (view : View) :
    (events.map Event.roomChange).foldl apply view
      = { view with roomSettings := events.foldl applyRoom view.roomSettings } := by
  induction events generalizing view with
  | nil => rfl
  | cons event events ih => exact ih _

end View

/-! ## One change -/

section Change

variable (o : Orders) (cached : Option CachedNotificationSettings)
  (new : CachedNotificationSettings)

theorem filter_roomEvents (roomId : String) :
    ((roomEvents o cached new).filter fun event => event.roomId = roomId)
      = if (cached.getD .default).roomSettings.lookup roomId
        = new.roomSettings.lookup roomId then []
        else [roomUpdateEvent roomId (new.roomSettings.lookup roomId)] := by
  have horder : ∀ (o : IterationOrder) (m : HashMap NotificationSetting),
      (o.order m.entries).NodupKeys ∧ (o.order m.entries).dlookup roomId = m.lookup roomId := by
    intro o m
    have hnodup := (List.perm_nodupKeys (o.perm m.entries)).mpr m.nodupKeys
    exact ⟨hnodup, List.perm_dlookup roomId hnodup (o.perm m.entries)⟩
  obtain ⟨hold, holdLookup⟩ := horder o.old (cached.getD .default).roomSettings
  obtain ⟨hnew, hnewLookup⟩ := horder o.new new.roomSettings
  rw [roomEvents, filter_compareRoomChanges hold hnew, holdLookup, hnewLookup]

/-- Applied to the old room map, the events give the new one. -/
theorem foldl_roomEvents :
    (roomEvents o cached new).foldl View.applyRoom
        (fun roomId => (cached.getD .default).roomSettings.lookup roomId)
      = fun roomId => new.roomSettings.lookup roomId := by
  funext roomId
  rw [View.foldl_applyRoom, filter_roomEvents]
  by_cases h : (cached.getD .default).roomSettings.lookup roomId = new.roomSettings.lookup roomId
  · rw [if_pos h]
    exact h
  · rw [if_neg h]
    rfl

end Change

/-! ## Any number of changes -/

/-- The application has the cached settings. -/
def Follows (view : View) (cached : Option CachedNotificationSettings) : Prop :=
  (∀ settings, cached = some settings → view.globalSettings = some settings.globalSettings) ∧
  view.roomSettings = fun roomId => (cached.getD .default).roomSettings.lookup roomId

/-- Handle the changes in order. -/
def handleChanges (state : View × Option CachedNotificationSettings)
    (changes : List (Orders × CachedNotificationSettings)) :
    View × Option CachedNotificationSettings :=
  changes.foldl (fun state change =>
    let (events, cached) := handleNotificationSettingsChange change.1 state.2 change.2
    (events.foldl View.apply state.1, cached)) state

theorem foldl_globalEvents {view : View} {cached : Option CachedNotificationSettings}
    (h : Follows view cached) (new : CachedNotificationSettings) :
    (globalEvents cached new).foldl View.apply view
      = { view with globalSettings := some new.globalSettings } := by
  unfold globalEvents
  cases hcached : cached with
  | none => rfl
  | some old =>
    simp only
    split
    · rfl
    · next hsame =>
      rw [← of_not_not hsame, ← h.1 old hcached]
      rfl

theorem follows_handle {view : View} {cached : Option CachedNotificationSettings}
    (h : Follows view cached) (o : Orders) (new : CachedNotificationSettings) :
    Follows ((handleNotificationSettingsChange o cached new).1.foldl View.apply view)
      (handleNotificationSettingsChange o cached new).2 := by
  have hview : (handleNotificationSettingsChange o cached new).1.foldl View.apply view
      = ⟨some new.globalSettings, fun roomId => new.roomSettings.lookup roomId⟩ := by
    show List.foldl View.apply view (globalEvents cached new ++ (roomEvents o cached new).map _) = _
    rw [List.foldl_append, foldl_globalEvents h, View.foldl_apply_roomChange, h.2,
      foldl_roomEvents]
  rw [hview]
  exact ⟨fun settings h => by cases h; rfl, rfl⟩

theorem follows_handleChanges {state : View × Option CachedNotificationSettings}
    (h : Follows state.1 state.2) (changes : List (Orders × CachedNotificationSettings)) :
    Follows (handleChanges state changes).1 (handleChanges state changes).2 := by
  induction changes generalizing state with
  | nil => exact h
  | cons change changes ih => exact ih (follows_handle h change.1 change.2)

/-- The events of one change, and what the application has after any number of them. -/
theorem settings_follow (o : Orders) (cached : Option CachedNotificationSettings)
    (new : CachedNotificationSettings) :
    handleNotificationSettingsChange o cached new
      = ((if cached.map CachedNotificationSettings.globalSettings = some new.globalSettings then []
          else [.globalSettings new.globalSettings])
        ++ (roomEvents o cached new).map .roomChange, some new) ∧
    (roomEvents o cached new).foldl View.applyRoom
        (fun roomId => (cached.getD .default).roomSettings.lookup roomId)
      = (fun roomId => new.roomSettings.lookup roomId) ∧
    (∀ roomId, ((roomEvents o cached new).countP fun event => event.roomId = roomId)
      = if (cached.getD .default).roomSettings.lookup roomId = new.roomSettings.lookup roomId then 0
        else 1) ∧
    ∀ view, Follows view cached → ∀ changes,
      Follows (handleChanges (view, cached) changes).1
        (handleChanges (view, cached) changes).2 := by
  refine ⟨?_, foldl_roomEvents o cached new, fun roomId => ?_,
    fun view h changes => follows_handleChanges h changes⟩
  · unfold handleNotificationSettingsChange globalEvents
    cases cached with
    | none => rfl
    | some old => by_cases h : old.globalSettings = new.globalSettings <;> simp [h]
  · rw [List.countP_eq_length_filter, filter_roomEvents]
    split <;> rfl

end GoudaMatrix.Notifications
