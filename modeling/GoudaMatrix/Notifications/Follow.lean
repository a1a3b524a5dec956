/-
  Whether the application has the notification settings as the SDK has them: the task of
  `subscribe_to_changes`, which loads them setting by setting whenever it is notified, and the
  responses to the requests for them. Anything may happen between two awaits.

  The task tells of a difference to the settings that it has cached. `settings_shown` is the exact
  condition: settings that change back to the cached ones before they have been loaded are not told
  again, although a response may have told of what was in between. `settings_settle`: the task then
  leaves the application right, unless it has fallen behind the channel and stopped.
-/
import GoudaMatrix.Lib.Polling
import GoudaMatrix.Lib.Trace
import GoudaMatrix.Notifications

namespace GoudaMatrix.Notifications

open GoudaMatrix.Lib

/-! ## The settings of the SDK -/

inductive RoomNotificationMode where
  | allMessages
  | mentionsAndKeywordsOnly
  | mute
deriving DecidableEq, Repr

def matrixNotificationModeToChatNotificationSettings : RoomNotificationMode → NotificationSetting
  | .allMessages => .allMessages
  | .mute => .mute
  | .mentionsAndKeywordsOnly => .mentionsAndKeywordsOnly

def applyNotificationMode (setting : NotificationSetting) (mode : RoomNotificationMode) :
    NotificationSetting :=
  if setting = .allMessages then setting
  else if mode = .allMessages then .allMessages
  else if mode = .mentionsAndKeywordsOnly then .mentionsAndKeywordsOnly
  else setting

/-- `NotificationSettings` of the SDK. -/
structure NotificationRules where
  /-- `get_default_room_notification_mode`. -/
  defaultMode : (isEncrypted isOneToOne : Bool) → RoomNotificationMode
  /-- The rules for rooms, by the id in the rule. -/
  rooms : HashMap RoomNotificationMode

/-- The kinds of rooms that `compose_global_notification_settings` asks for, in its order. -/
def globalModes : List (Bool × Bool) :=
  [(true, false), (false, false), (true, true), (false, true)]

namespace NotificationRules

variable (rules : NotificationRules)

def applyMode (setting : NotificationSetting) (kind : Bool × Bool) : NotificationSetting :=
  applyNotificationMode setting (rules.defaultMode kind.1 kind.2)

/-- `compose_global_notification_settings`, if nothing happens meanwhile. -/
def composeGlobalNotificationSettings : NotificationSetting :=
  globalModes.foldl rules.applyMode .mute

/-- What `load_notification_settings` makes of a room. -/
def roomSetting (parses : String → Bool) (roomId : String) : Option NotificationSetting :=
  if parses roomId then
    (rules.rooms.lookup roomId).map matrixNotificationModeToChatNotificationSettings
  else none

end NotificationRules

/-! ## Settings by their keys -/

inductive SettingKey where
  | global
  | room (roomId : String)
deriving DecidableEq, Repr

/-- Of a room, `none` stands for the global settings. -/
abbrev Setting := Option NotificationSetting

def NotificationRules.value (rules : NotificationRules) (parses : String → Bool) :
    SettingKey → Setting
  | .global => some rules.composeGlobalNotificationSettings
  | .room roomId => rules.roomSetting parses roomId

def CachedNotificationSettings.value (settings : CachedNotificationSettings) : SettingKey → Setting
  | .global => some settings.globalSettings
  | .room roomId => settings.roomSettings.lookup roomId

def Event.key : Event → SettingKey
  | .globalSettings _ => .global
  | .roomChange event => .room event.roomId

def Event.setting : Event → Setting
  | .globalSettings setting => some setting
  | .roomChange event => event.roomSettings.notificationSetting

/-- What the application has been told of the settings. -/
abbrev Told := SettingKey → Option Setting

def Told.set (told : Told) (key : SettingKey) (setting : Setting) : Told :=
  fun k => if k = key then some setting else told k

def Told.apply (told : Told) (event : Event) : Told := told.set event.key event.setting

/-- What the last one of the events says of a setting. -/
def saidOf (k : SettingKey) (events : List Event) : Option Setting :=
  (events.filter fun event => event.key = k).getLast?.map Event.setting

theorem saidOf_cons (k : SettingKey) (event : Event) (events : List Event) :
    saidOf k (event :: events)
      = (saidOf k events).or (if event.key = k then some event.setting else none) := by
  unfold saidOf
  rw [List.filter_cons]
  by_cases h : event.key = k
  · rw [if_pos (decide_eq_true h), if_pos h]
    cases hevents : events.filter fun event => event.key = k with
    | nil => rfl
    | cons first rest => rw [List.getLast?_cons_cons, List.getLast?_cons]; rfl
  · rw [if_neg (by simpa using h), if_neg h, Option.or_none]

/-! ## Loading -/

/-- `load_notification_settings` between two of its awaits. -/
inductive Loading where
  | global (setting : NotificationSetting) (left : List (Bool × Bool))
  | rooms (setting : NotificationSetting) (left : List String)
      (settings : HashMap NotificationSetting)

namespace Loading

def start : Loading := .global .mute globalModes

variable (parses : String → Bool) (rules : NotificationRules)

/-- The next await. -/
def read : Loading → Loading
  | .global setting (kind :: left) => .global (rules.applyMode setting kind) left
  | .global setting [] => .rooms setting rules.rooms.keys ∅
  | .rooms setting (roomId :: left) settings =>
    match rules.roomSetting parses roomId with
    | some mode => .rooms setting left (settings.insert roomId mode)
    | none => .rooms setting left settings
  | .rooms setting [] settings => .rooms setting [] settings

def result : Loading → Option CachedNotificationSettings
  | .rooms setting [] settings => some ⟨setting, settings⟩
  | .rooms _ (_ :: _) _ | .global _ _ => none

/-- What is settled of the result. -/
def seen : Loading → Told
  | .global setting [], .global => some (some setting)
  | .global _ _, _ => none
  | .rooms setting _ _, .global => some (some setting)
  | .rooms _ left settings, .room roomId =>
    if roomId ∈ left then none else some (settings.lookup roomId)

variable {parses rules} {l : Loading} {k : SettingKey}

theorem seen_start (k : SettingKey) : start.seen k = none := by
  cases k with
  | global => rfl
  | room roomId => rfl

theorem seen_of_result {new : CachedNotificationSettings} (h : l.result = some new)
    (k : SettingKey) : l.seen k = some (new.value k) := by
  unfold result at h
  split at h
  · obtain rfl := Option.some.inj h
    cases k with
    | global => rfl
    | room roomId =>
      show (if roomId ∈ [] then none else some _) = _
      rw [if_neg List.not_mem_nil]
      rfl
  · cases h
  · cases h

variable (parses rules) in
theorem read_room (setting : NotificationSetting) (first : String) (left : List String)
    (settings : HashMap NotificationSetting) :
    ∃ settings', (rooms setting (first :: left) settings).read parses rules
        = .rooms setting left settings' ∧
      ∀ roomId, settings'.lookup roomId
        = if roomId = first then (rules.roomSetting parses first).or (settings.lookup first)
          else settings.lookup roomId := by
  unfold read
  dsimp only
  split
  · next mode hmode =>
    refine ⟨_, rfl, fun roomId => ?_⟩
    rw [HashMap.lookup_insert_cases, hmode, Option.some_or]
  · next hmode =>
    refine ⟨_, rfl, fun roomId => ?_⟩
    rw [hmode, Option.none_or]
    split
    · next hid => rw [hid]
    · rfl

variable (parses rules) in
/-- What has been seen stays as it is. -/
theorem seen_read {v : Setting} (h : l.seen k = some v) :
    (l.read parses rules).seen k = some v := by
  cases l with
  | global setting left =>
    cases left with
    | cons kind left => cases h
    | nil =>
      cases k with
      | global => exact h
      | room roomId => cases h
  | rooms setting left settings =>
    cases left with
    | nil => exact h
    | cons first left =>
      obtain ⟨settings', hread, hlookup⟩ :=
        read_room parses rules setting first left settings
      rw [hread]
      cases k with
      | global => exact h
      | room roomId =>
        have hseen : (if roomId ∈ first :: left then none else some (settings.lookup roomId))
            = some v := h
        split at hseen
        · cases hseen
        · next hmem =>
          obtain ⟨hne, hleft⟩ := not_or.mp fun h => hmem (List.mem_cons.mpr h)
          show (if roomId ∈ left then none else some _) = _
          rw [if_neg hleft, hlookup, if_neg hne]
          exact hseen

/-- What has been loaded is what the SDK has now. -/
def Current (parses : String → Bool) (rules : NotificationRules) : Loading → Prop
  | .global setting left =>
    left.foldl rules.applyMode setting = rules.composeGlobalNotificationSettings
  | .rooms setting left settings =>
    setting = rules.composeGlobalNotificationSettings ∧
    ∀ roomId, settings.lookup roomId = rules.roomSetting parses roomId ∨
      (settings.lookup roomId = none ∧ roomId ∈ left)

variable (parses rules) in
theorem current_start : start.Current parses rules := rfl

theorem current_read (h : l.Current parses rules) :
    (l.read parses rules).Current parses rules := by
  cases l with
  | global setting left =>
    cases left with
    | cons kind left => exact h
    | nil =>
      refine ⟨h, fun roomId => ?_⟩
      by_cases hmem : roomId ∈ rules.rooms.keys
      · exact .inr ⟨AList.lookup_empty roomId, hmem⟩
      · have hnone : rules.rooms.lookup roomId = none :=
          AList.lookup_eq_none.mpr fun hmem' => hmem (AList.mem_keys.mp hmem')
        left
        unfold NotificationRules.roomSetting
        rw [hnone, AList.lookup_empty, Option.map_none, ite_self]
  | rooms setting left settings =>
    cases left with
    | nil => exact h
    | cons first left =>
      obtain ⟨settings', hread, hlookup⟩ :=
        read_room parses rules setting first left settings
      obtain ⟨hglobal, hrooms⟩ := h
      rw [hread]
      refine ⟨hglobal, fun roomId => ?_⟩
      rw [hlookup]
      by_cases hid : roomId = first
      · subst hid
        left
        rw [if_pos rfl]
        rcases hrooms roomId with heq | ⟨hnone, -⟩
        · rw [heq, Option.or_self]
        · rw [hnone, Option.or_none]
      · rw [if_neg hid]
        exact (hrooms roomId).imp_right fun hmem =>
          ⟨hmem.1, (List.mem_cons.mp hmem.2).resolve_left hid⟩

theorem value_of_current (h : l.Current parses rules) {settings : CachedNotificationSettings}
    (hresult : l.result = some settings) (k : SettingKey) :
    settings.value k = rules.value parses k := by
  unfold result at hresult
  split at hresult
  · obtain rfl := Option.some.inj hresult
    obtain ⟨hglobal, hrooms⟩ := h
    cases k with
    | global => exact congrArg some hglobal
    | room roomId => exact (hrooms roomId).resolve_right fun hmem => List.not_mem_nil hmem.2
  · cases hresult
  · cases hresult

/-- How many awaits are left, with the rules as they are. -/
def awaits (rules : NotificationRules) : Loading → Nat
  | .global _ left => left.length + 1 + rules.rooms.keys.length
  | .rooms _ left _ => left.length

theorem awaits_read (h : l.result = none) :
    (l.read parses rules).awaits rules < l.awaits rules := by
  cases l with
  | global setting left =>
    cases left with
    | nil =>
      show rules.rooms.keys.length < 0 + 1 + rules.rooms.keys.length
      omega
    | cons kind left =>
      show left.length + 1 + _ < left.length + 1 + 1 + _
      omega
  | rooms setting left settings =>
    cases left with
    | nil => cases h
    | cons first left =>
      obtain ⟨settings', hread, -⟩ := read_room parses rules setting first left settings
      rw [hread]
      exact Nat.lt_succ_self _

end Loading

/-! ## The system -/

/-- The task of `subscribe_to_changes`. -/
inductive Task where
  | initial (loading : Loading)
  /-- The settings are cached, the receiver is not created yet. -/
  | unsubscribed
  | waiting
  | handling (old : Option CachedNotificationSettings) (loading : Loading)
  | sending (events : List Event)
  /-- The receiver has lagged behind. -/
  | stopped

/-- A response on its way. -/
inductive Answer where
  /-- `compose_global_notification_settings` between two of its awaits. -/
  | global (setting : NotificationSetting) (left : List (Bool × Bool))
  /-- A room with its `notification_mode`. -/
  | room (roomId : String) (setting : Setting)

/-- The setting that is answered, once it is known. -/
def Answer.ready : Answer → Option (SettingKey × Setting)
  | .global setting [] => some (.global, some setting)
  | .global _ (_ :: _) => none
  | .room roomId setting => some (.room roomId, setting)

structure SettingsState where
  rules : NotificationRules
  task : Task
  /-- The notifications that the receiver has not received. -/
  notices : Nat
  cached : Option CachedNotificationSettings
  told : Told
  answers : List Answer
  /-- The settings have changed while nobody was notified, and not been loaded since (history
      variable). -/
  missed : Bool

inductive SettingsStep where
  | change (rules : NotificationRules)
  /-- The task goes on. -/
  | handle
  | requestGlobal
  | requestRoom (roomId : String)
  /-- A response to a request for the global settings goes on. -/
  | read (index : Nat)
  | deliver (index : Nat)

/-- What the task and the responses need of the SDK. -/
structure SettingsSdk where
  /-- Whether `RoomId::parse` accepts the id. -/
  parses : String → Bool
  /-- `Room::notification_mode`, which falls back to a default of the SDK. -/
  notificationMode : NotificationRules → String → Option RoomNotificationMode
  /-- The capacity of the broadcast channel. -/
  capacity : Nat
  /-- The orders in which the maps of a change are iterated. -/
  orders : Orders

namespace SettingsState

variable (sdk : SettingsSdk)

/-- The receiver is there. -/
def subscribed (s : SettingsState) : Bool :=
  match s.task with
  | .initial _ | .unsubscribed | .stopped => false
  | .waiting | .handling _ _ | .sending _ => true

def change (s : SettingsState) (rules : NotificationRules) : SettingsState :=
  if s.subscribed then { s with rules, notices := s.notices + 1 }
  else { s with rules, missed := true }

def handle (s : SettingsState) : Option SettingsState :=
  match s.task with
  | .initial loading =>
    match loading.result with
    | some settings => some { s with task := .unsubscribed, cached := some settings }
    | none => some { s with task := .initial (loading.read sdk.parses s.rules) }
  | .unsubscribed => some { s with task := .waiting, notices := 0 }
  | .waiting =>
    match s.notices with
    | 0 => none
    | notices + 1 =>
      if sdk.capacity < notices + 1 then some { s with task := .stopped }
      else some { s with task := .handling s.cached .start, notices, missed := false }
  | .handling old loading =>
    match loading.result with
    | some settings =>
      let (events, cached) := handleNotificationSettingsChange sdk.orders old settings
      some { s with task := .sending events, cached }
    | none => some { s with task := .handling old (loading.read sdk.parses s.rules) }
  | .sending (event :: events) =>
    some { s with task := .sending events, told := s.told.apply event }
  | .sending [] => some { s with task := .waiting }
  | .stopped => none

def step (s : SettingsState) : SettingsStep → Option SettingsState
  | .change rules => some (s.change rules)
  | .handle => s.handle sdk
  | .requestGlobal => some { s with answers := s.answers ++ [.global .mute globalModes] }
  | .requestRoom roomId =>
    let setting := (sdk.notificationMode s.rules roomId).map
      matrixNotificationModeToChatNotificationSettings
    some { s with answers := s.answers ++ [.room roomId setting] }
  | .read index =>
    match s.answers[index]? with
    | some (.global setting (kind :: left)) =>
      some { s with
        answers := s.answers.set index (.global (s.rules.applyMode setting kind) left) }
    | none | some (.global _ []) | some (.room _ _) => none
  | .deliver index =>
    ((s.answers[index]?).bind Answer.ready).map fun answer =>
      { s with answers := s.answers.eraseIdx index, told := s.told.set answer.1 answer.2 }

/-- The application has been told of nothing, and `subscribe_to_changes` begins. -/
def start (rules : NotificationRules) : SettingsState where
  rules := rules
  task := .initial .start
  notices := 0
  cached := none
  told := fun _ => none
  answers := []
  missed := false

end SettingsState

def settingsSystem (sdk : SettingsSdk) : System SettingsState SettingsStep where
  step := SettingsState.step sdk

/-! ## The settings as they are polled -/

namespace SettingsState

variable (sdk : SettingsSdk) (k : SettingKey) (s : SettingsState)

/-- The setting with which the next one that is loaded is compared. -/
def base : Option Setting :=
  match s.task with
  | .initial loading => loading.seen k
  | .handling old loading => (loading.seen k).or (old.map fun settings => settings.value k)
  | .unsubscribed | .waiting | .sending _ | .stopped => s.cached.map fun settings =>
    settings.value k

/-- What the task is going to tell of the setting. -/
def coming : Option Setting :=
  match s.task with
  | .handling old loading =>
    (loading.seen k).filter fun setting => old.all fun settings => settings.value k ≠ setting
  | .sending events => saidOf k events
  | .initial _ | .unsubscribed | .waiting | .stopped => none

/-- What the application is told in the end, if nothing else happens. -/
def settled : Option Setting := (s.coming k).or (s.told k)

def polled : Polled Setting where
  source := s.rules.value sdk.parses k
  base := s.base k
  view := s.settled k

/-- Once the settings are loaded as they are, the application has the setting, as far as it has been
    told of it. -/
def Follows : Prop :=
  s.base k = some (s.rules.value sdk.parses k) →
    ∀ setting, s.settled k = some setting → setting = s.rules.value sdk.parses k

/-- The setting that the next await loads, if it is the one that settles it. -/
def loads : Option Setting :=
  match s.task with
  | .initial loading | .handling _ loading =>
    if loading.result.isNone ∧ loading.seen k = none then
      (loading.read sdk.parses s.rules).seen k
    else none
  | .unsubscribed | .waiting | .sending _ | .stopped => none

/-- A setting that changes back to the one that has been loaded last must be the one of which the
    application has been told. A response must not tell of another one either, unless the task is
    going to correct it; nor may one that came before the first load. -/
def KeepsTrack : SettingsStep → Prop
  | .change rules => s.base k = some (rules.value sdk.parses k) →
      ∀ setting, s.settled k = some setting → setting = rules.value sdk.parses k
  | .handle => s.base k = none → s.loads sdk k = some (s.rules.value sdk.parses k) →
      ∀ setting, s.settled k = some setting → setting = s.rules.value sdk.parses k
  | .deliver index => ∀ answer, (s.answers[index]?).bind Answer.ready = some answer →
      k = answer.1 ∧ s.coming k = none → s.base k = some (s.rules.value sdk.parses k) →
      answer.2 = s.rules.value sdk.parses k
  | .requestGlobal | .requestRoom _ | .read _ => True

instance : Decidable (s.Follows sdk k) :=
  inferInstanceAs (Decidable (_ → ∀ setting ∈ s.settled k, setting = _))

instance : DecidablePred (s.KeepsTrack sdk k)
  | .change _ => inferInstanceAs (Decidable (_ → ∀ setting ∈ s.settled k, setting = _))
  | .handle => inferInstanceAs (Decidable (_ → _ → ∀ setting ∈ s.settled k, setting = _))
  | .deliver index => inferInstanceAs (Decidable
      (∀ answer ∈ (s.answers[index]?).bind Answer.ready, k = answer.1 ∧ s.coming k = none →
        s.base k = some (s.rules.value sdk.parses k) → answer.2 = s.rules.value sdk.parses k))
  | .requestGlobal | .requestRoom _ | .read _ => isTrue trivial

variable {sdk k} {s t : SettingsState}

/-! ### The events of a change -/

theorem foldl_apply (events : List Event) (told : Told) :
    events.foldl Told.apply told k = (saidOf k events).or (told k) := by
  induction events generalizing told with
  | nil => rfl
  | cons event events ih =>
    have hfirst : told.apply event k = (if event.key = k then some event.setting else none).or
        (told k) := by
      unfold Told.apply Told.set
      by_cases h : event.key = k
      · rw [if_pos h.symm, if_pos h, Option.some_or]
      · rw [if_neg fun heq => h heq.symm, if_neg h, Option.none_or]
    rw [List.foldl_cons, ih, saidOf_cons, hfirst, Option.or_assoc]

/-- The events of a change tell of a setting exactly if it differs. -/
theorem saidOf_handle (orders : Orders) (old new : CachedNotificationSettings) (k : SettingKey) :
    saidOf k (handleNotificationSettingsChange orders (some old) new).1
      = if old.value k = new.value k then none else some (new.value k) := by
  have hsplit : saidOf k (handleNotificationSettingsChange orders (some old) new).1
      = ((((globalEvents (some old) new).filter fun event => event.key = k)
        ++ ((roomEvents orders (some old) new).filter fun event => .room event.roomId = k).map
          Event.roomChange).getLast?).map Event.setting := by
    show ((List.filter _ (_ ++ List.map _ _)).getLast?).map _ = _
    rw [List.filter_append, List.filter_map]
    rfl
  rw [hsplit]
  cases k with
  | global =>
    have hrooms : ((roomEvents orders (some old) new).filter fun event =>
        decide (SettingKey.room event.roomId = .global)) = [] :=
      List.filter_eq_nil_iff.mpr fun event _ => by simp
    rw [hrooms]
    by_cases h : old.globalSettings = new.globalSettings
    · simp [globalEvents, CachedNotificationSettings.value, h]
    · simp [globalEvents, CachedNotificationSettings.value, h, Event.key, Event.setting]
  | room roomId =>
    have hglobal : ((globalEvents (some old) new).filter fun event =>
        decide (event.key = .room roomId)) = [] := by
      refine List.filter_eq_nil_iff.mpr fun event hevent => ?_
      unfold globalEvents at hevent
      dsimp only at hevent
      split at hevent
      · obtain rfl := List.mem_singleton.mp hevent
        simp [Event.key]
      · cases hevent
    have hrooms : ((roomEvents orders (some old) new).filter fun event =>
        decide (SettingKey.room event.roomId = .room roomId))
        = (roomEvents orders (some old) new).filter fun event => event.roomId = roomId :=
      List.filter_congr fun event _ => by simp
    rw [hglobal, hrooms, filter_roomEvents, List.nil_append, Option.getD_some]
    by_cases h : old.roomSettings.lookup roomId = new.roomSettings.lookup roomId
    · rw [if_pos h, if_pos (show old.value (.room roomId) = new.value (.room roomId) from h)]
      rfl
    · rw [if_neg h, if_neg (show ¬ old.value (.room roomId) = new.value (.room roomId) from h)]
      rfl

/-! ### The steps -/

/-- What the steps rely on: settings have been cached before the first notification. -/
def Caches (s : SettingsState) : Prop :=
  match s.task with
  | .initial _ => True
  | .handling old _ => old.isSome = true
  | .unsubscribed | .waiting | .sending _ | .stopped => s.cached.isSome = true

theorem polled_change (rules : NotificationRules) :
    (s.change rules).polled sdk k = (s.polled sdk k).change (rules.value sdk.parses k) := by
  unfold change
  split <;> rfl

theorem polled_deliver (index : Nat) (answer : SettingKey × Setting) :
    polled sdk k { s with
        answers := s.answers.eraseIdx index, told := s.told.set answer.1 answer.2 }
      = if k = answer.1 ∧ s.coming k = none then (s.polled sdk k).tell answer.2
        else s.polled sdk k := by
  have hview : (s.coming k).or (s.told.set answer.1 answer.2 k)
      = if k = answer.1 ∧ s.coming k = none then some answer.2 else s.settled k := by
    unfold Told.set settled
    by_cases hkey : k = answer.1
    · rw [if_pos hkey]
      cases hcoming : s.coming k with
      | none => rw [if_pos ⟨hkey, rfl⟩, Option.none_or]
      | some setting => rw [if_neg (fun h => by cases h.2), Option.some_or, Option.some_or]
    · rw [if_neg hkey, if_neg fun h => hkey h.1]
  show Polled.mk _ _ ((s.coming k).or (s.told.set answer.1 answer.2 k)) = _
  rw [hview]
  split <;> rfl

/-- What the task does next. -/
inductive Handles (sdk : SettingsSdk) (s : SettingsState) : SettingsState → Prop where
  | cache {loading settings} : s.task = .initial loading → loading.result = some settings →
      Handles sdk s { s with task := .unsubscribed, cached := some settings }
  | readInitial {loading} : s.task = .initial loading → loading.result = none →
      Handles sdk s { s with task := .initial (loading.read sdk.parses s.rules) }
  | subscribe : s.task = .unsubscribed → Handles sdk s { s with task := .waiting, notices := 0 }
  | stop {notices} : s.task = .waiting → s.notices = notices + 1 → sdk.capacity < notices + 1 →
      Handles sdk s { s with task := .stopped }
  | receive {notices} : s.task = .waiting → s.notices = notices + 1 → notices + 1 ≤ sdk.capacity →
      Handles sdk s { s with task := .handling s.cached .start, notices, missed := false }
  | compare {old loading settings} : s.task = .handling old loading →
      loading.result = some settings →
      Handles sdk s { s with
        task := .sending (handleNotificationSettingsChange sdk.orders old settings).1
        cached := some settings }
  | read {old loading} : s.task = .handling old loading → loading.result = none →
      Handles sdk s { s with task := .handling old (loading.read sdk.parses s.rules) }
  | send {event events} : s.task = .sending (event :: events) →
      Handles sdk s { s with task := .sending events, told := s.told.apply event }
  | wait : s.task = .sending [] → Handles sdk s { s with task := .waiting }

theorem handles_of_handle (h : s.handle sdk = some t) : Handles sdk s t := by
  unfold handle at h
  split at h
  · next htask =>
    split at h
    · next hresult => exact Option.some.inj h ▸ .cache htask hresult
    · next hresult => exact Option.some.inj h ▸ .readInitial htask hresult
  · next htask => exact Option.some.inj h ▸ .subscribe htask
  · next htask =>
    split at h
    · cases h
    · next hnotices =>
      split at h
      · next hlag => exact Option.some.inj h ▸ .stop htask hnotices hlag
      · next hlag => exact Option.some.inj h ▸ .receive htask hnotices (Nat.le_of_not_lt hlag)
  · next htask =>
    split at h
    · next hresult => exact Option.some.inj h ▸ .compare htask hresult
    · next hresult => exact Option.some.inj h ▸ .read htask hresult
  · next htask => exact Option.some.inj h ▸ .send htask
  · next htask => exact Option.some.inj h ▸ .wait htask
  · cases h

theorem caches_handle (h : s.Caches) (hstep : Handles sdk s t) : t.Caches := by
  cases hstep with
  | cache htask hresult => exact rfl
  | readInitial htask hresult => trivial
  | compare htask hresult => exact rfl
  | subscribe htask | stop htask | receive htask | read htask | send htask | wait htask =>
    unfold Caches at h
    rw [htask] at h
    exact h

theorem answers_of_read {index : Nat} (hstep : s.step sdk (.read index) = some t) :
    ∃ answers, t = { s with answers := answers } := by
  unfold SettingsState.step at hstep
  dsimp only at hstep
  split at hstep
  · exact ⟨_, (Option.some.inj hstep).symm⟩
  · cases hstep
  · cases hstep
  · cases hstep

theorem caches_step {step : SettingsStep} (h : s.Caches) (hstep : s.step sdk step = some t) :
    t.Caches := by
  cases step with
  | change rules =>
    obtain rfl := Option.some.inj hstep
    unfold change
    split <;> exact h
  | handle => exact caches_handle h (handles_of_handle hstep)
  | requestGlobal => obtain rfl := Option.some.inj hstep; exact h
  | requestRoom roomId => obtain rfl := Option.some.inj hstep; exact h
  | read index =>
    obtain ⟨answers, rfl⟩ := answers_of_read hstep
    exact h
  | deliver index =>
    obtain ⟨answer, hanswer, rfl⟩ := Option.map_eq_some_iff.mp hstep
    exact h

/-- A step of the task polls the setting, or leaves it as it is. -/
theorem polled_handle (h : s.Caches) (hstep : Handles sdk s t) :
    t.polled sdk k = (s.loads sdk k).elim (s.polled sdk k) (s.polled sdk k).poll := by
  cases hstep with
  | @cache loading settings htask hresult =>
    have hseen := Loading.seen_of_result hresult k
    simp [loads, polled, base, settled, coming, htask, hresult, hseen]
  | @readInitial loading htask hresult =>
    cases hseen : loading.seen k with
    | some setting =>
      have hread := Loading.seen_read sdk.parses s.rules hseen
      simp [loads, polled, base, settled, coming, htask, hseen, hread]
    | none =>
      cases hread : (loading.read sdk.parses s.rules).seen k <;>
        simp [loads, polled, base, settled, coming, htask, hresult, hseen, hread, Polled.poll]
  | @compare old loading settings htask hresult =>
    have hseen := Loading.seen_of_result hresult k
    have hold : old.isSome = true := by
      unfold Caches at h
      rw [htask] at h
      exact h
    obtain ⟨old, rfl⟩ := Option.isSome_iff_exists.mp hold
    by_cases heq : old.value k = settings.value k
    · simp [loads, polled, base, settled, coming, htask, hresult, hseen, saidOf_handle, heq,
        Option.filter_some]
    · simp [loads, polled, base, settled, coming, htask, hresult, hseen, saidOf_handle, heq,
        Option.filter_some]
  | @read old loading htask hresult =>
    have hold : old.isSome = true := by
      unfold Caches at h
      rw [htask] at h
      exact h
    obtain ⟨old, rfl⟩ := Option.isSome_iff_exists.mp hold
    cases hseen : loading.seen k with
    | some setting =>
      have hread := Loading.seen_read sdk.parses s.rules hseen
      simp [loads, polled, base, settled, coming, htask, hseen, hread]
    | none =>
      cases hread : (loading.read sdk.parses s.rules).seen k with
      | none => simp [loads, polled, base, settled, coming, htask, hresult, hseen, hread]
      | some setting =>
        by_cases heq : old.value k = setting <;>
          simp [loads, polled, base, settled, coming, htask, hresult, hseen, hread, heq,
            Polled.poll, Option.filter_some]
  | @send event events htask =>
    have hsaid : (saidOf k events).or (s.told.apply event k)
        = (saidOf k (event :: events)).or (s.told k) := by
      rw [← foldl_apply, ← foldl_apply, List.foldl_cons]
    simp [loads, polled, base, settled, coming, htask, hsaid]
  | receive htask =>
    simp [loads, polled, base, settled, coming, htask, Loading.seen_start]
  | wait htask =>
    have hnil : saidOf k [] = none := rfl
    simp [loads, polled, base, settled, coming, htask, hnil]
  | subscribe htask | stop htask =>
    simp [loads, polled, base, settled, coming, htask]

theorem follows_handle (hcaches : s.Caches) (h : s.Follows sdk k) (hstep : Handles sdk s t) :
    s.KeepsTrack sdk k .handle ↔ t.Follows sdk k := by
  have hpolled := polled_handle (k := k) hcaches hstep
  show _ ↔ (t.polled sdk k).Follows
  rw [hpolled]
  cases hloads : s.loads sdk k with
  | none => exact ⟨fun _ => h, fun _ _ hsome => by rw [hloads] at hsome; cases hsome⟩
  | some setting =>
    cases hbase : s.base k with
    | none =>
      refine Iff.trans ?_ (Polled.follows_first (p := s.polled sdk k) hbase setting)
      refine ⟨fun hkeeps heq => hkeeps hbase (hloads.trans (congrArg some heq)), ?_⟩
      intro hshows _ hsome
      exact hshows (Option.some.inj (hloads.symm.trans hsome))
    | some old =>
      refine ⟨fun _ => Polled.follows_poll (p := s.polled sdk k) h hbase setting, ?_⟩
      intro _ hnone
      rw [hbase] at hnone
      cases hnone

theorem follows_step {step : SettingsStep} (hcaches : s.Caches) (h : s.Follows sdk k)
    (hstep : s.step sdk step = some t) : s.KeepsTrack sdk k step ↔ t.Follows sdk k := by
  cases step with
  | change rules =>
    obtain rfl := Option.some.inj hstep
    show _ ↔ ((s.change rules).polled sdk k).Follows
    rw [polled_change]
    exact Polled.follows_change (s.polled sdk k) _
  | handle => exact follows_handle hcaches h (handles_of_handle hstep)
  | requestGlobal =>
    obtain rfl := Option.some.inj hstep
    exact ⟨fun _ => h, fun _ => trivial⟩
  | requestRoom roomId =>
    obtain rfl := Option.some.inj hstep
    exact ⟨fun _ => h, fun _ => trivial⟩
  | read index =>
    obtain ⟨answers, rfl⟩ := answers_of_read hstep
    exact ⟨fun _ => h, fun _ => trivial⟩
  | deliver index =>
    obtain ⟨answer, hanswer, rfl⟩ := Option.map_eq_some_iff.mp hstep
    show _ ↔ (polled sdk k _).Follows
    rw [polled_deliver]
    have hone : s.KeepsTrack sdk k (.deliver index) ↔
        (k = answer.1 ∧ s.coming k = none → s.base k = some (s.rules.value sdk.parses k) →
          answer.2 = s.rules.value sdk.parses k) :=
      ⟨fun hkeeps => hkeeps answer hanswer, fun hvalue other hother =>
        Option.some.inj (hanswer.symm.trans hother) ▸ hvalue⟩
    rw [hone]
    split
    · next hcoming =>
      exact (forall_prop_of_true hcoming).trans (Polled.follows_tell (s.polled sdk k) answer.2)
    · next hcoming => exact ⟨fun _ => h, fun _ hother => absurd hother hcoming⟩

/-! ### What is loaded in the end -/

/-- What has been loaded is what the SDK has now. -/
def Current (sdk : SettingsSdk) (s : SettingsState) : Prop :=
  match s.task with
  | .initial loading | .handling _ loading => loading.Current sdk.parses s.rules
  | .unsubscribed | .waiting | .sending _ =>
    ∀ k, (s.cached.map fun settings => settings.value k) = some (s.rules.value sdk.parses k)
  | .stopped => True

/-- Nothing has changed that the task does not get to know. -/
def Fresh (sdk : SettingsSdk) (s : SettingsState) : Prop :=
  (s.subscribed = true → s.notices = 0) → s.missed = false → s.Current sdk

theorem current_of_fresh (h : s.Fresh sdk) (hsub : s.subscribed = false)
    (hmissed : s.missed = false) : s.Current sdk :=
  h (fun htrue => absurd (hsub.symm.trans htrue) Bool.false_ne_true) hmissed

theorem fresh_handle (h : s.Fresh sdk) (hstep : Handles sdk s t) : t.Fresh sdk := by
  intro hnotices hmissed
  cases hstep with
  | cache htask hresult =>
    have hcurrent := current_of_fresh h (by unfold subscribed; rw [htask]) hmissed
    unfold Current at hcurrent
    rw [htask] at hcurrent
    exact fun k => congrArg some (Loading.value_of_current hcurrent hresult k)
  | readInitial htask hresult =>
    have hcurrent := current_of_fresh h (by unfold subscribed; rw [htask]) hmissed
    unfold Current at hcurrent
    rw [htask] at hcurrent
    exact Loading.current_read hcurrent
  | subscribe htask =>
    have hcurrent := current_of_fresh h (by unfold subscribed; rw [htask]) hmissed
    unfold Current at hcurrent
    rw [htask] at hcurrent
    exact hcurrent
  | stop htask => trivial
  | receive htask => exact Loading.current_start sdk.parses s.rules
  | compare htask hresult =>
    have hcurrent := h (fun _ => hnotices rfl) hmissed
    unfold Current at hcurrent
    rw [htask] at hcurrent
    exact fun k => congrArg some (Loading.value_of_current hcurrent hresult k)
  | read htask hresult =>
    have hcurrent := h (fun _ => hnotices rfl) hmissed
    unfold Current at hcurrent
    rw [htask] at hcurrent
    exact Loading.current_read hcurrent
  | send htask | wait htask =>
    have hcurrent := h (fun _ => hnotices rfl) hmissed
    unfold Current at hcurrent
    rw [htask] at hcurrent
    exact hcurrent

theorem fresh_step {step : SettingsStep} (h : s.Fresh sdk) (hstep : s.step sdk step = some t) :
    t.Fresh sdk := by
  cases step with
  | change rules =>
    obtain rfl := Option.some.inj hstep
    unfold change
    split
    · next hsub => exact fun hnotices => absurd (hnotices hsub) (Nat.succ_ne_zero _)
    · exact fun _ hmissed => by cases hmissed
  | handle => exact fresh_handle h (handles_of_handle hstep)
  | requestGlobal => obtain rfl := Option.some.inj hstep; exact h
  | requestRoom roomId => obtain rfl := Option.some.inj hstep; exact h
  | read index =>
    obtain ⟨answers, rfl⟩ := answers_of_read hstep
    exact h
  | deliver index =>
    obtain ⟨answer, hanswer, rfl⟩ := Option.map_eq_some_iff.mp hstep
    exact h

theorem fresh_start (rules : NotificationRules) : (start rules).Fresh sdk :=
  fun _ _ => Loading.current_start sdk.parses rules

/-- Nothing is left to do for the task. -/
def AtRest (s : SettingsState) : Prop := s.task = .stopped ∨ s.task = .waiting ∧ s.notices = 0

theorem told_of_atRest (htask : s.task = .waiting) (hnotices : s.notices = 0)
    (hmissed : s.missed = false) (hfresh : s.Fresh sdk) (h : s.Follows sdk k) {setting : Setting}
    (htold : s.told k = some setting) : setting = s.rules.value sdk.parses k := by
  have hcurrent := hfresh (fun _ => hnotices) hmissed
  unfold Current at hcurrent
  rw [htask] at hcurrent
  refine h ?_ setting ?_
  · unfold base
    rw [htask]
    exact hcurrent k
  · unfold settled coming
    rw [htask]
    exact htold

/-- How far the task is from its rest: by the notifications, then by the awaits of a load or by the
    events of a change. -/
def work (s : SettingsState) : Nat × Nat × Nat :=
  (s.notices, match s.task with
    | .initial _ | .unsubscribed => (2, 0)
    | .handling _ loading => (1, loading.awaits s.rules)
    | .sending events => (0, events.length + 2)
    | .waiting => (0, 1)
    | .stopped => (0, 0))

theorem work_of_handles (hsub : s.subscribed = true) (hstep : Handles sdk s t) :
    WellFoundedRelation.rel t.work s.work := by
  unfold subscribed at hsub
  cases hstep with
  | cache htask | readInitial htask | subscribe htask =>
    rw [htask] at hsub
    cases hsub
  | stop htask =>
    unfold work
    rw [htask]
    exact Prod.Lex.right _ (Prod.Lex.right _ Nat.zero_lt_one)
  | receive htask hnotices =>
    unfold work
    rw [hnotices]
    exact Prod.Lex.left _ _ (Nat.lt_succ_self _)
  | compare htask hresult =>
    unfold work
    rw [htask]
    exact Prod.Lex.right _ (Prod.Lex.left _ _ Nat.zero_lt_one)
  | read htask hresult =>
    unfold work
    rw [htask]
    exact Prod.Lex.right _ (Prod.Lex.right _ (Loading.awaits_read hresult))
  | send htask =>
    unfold work
    rw [htask]
    exact Prod.Lex.right _ (Prod.Lex.right _ (Nat.lt_succ_self _))
  | wait htask =>
    unfold work
    rw [htask]
    exact Prod.Lex.right _ (Prod.Lex.right _ (Nat.lt_succ_self _))

/-- Once settings are cached, each setting has one with which it is compared. -/
theorem base_ne_none (hcaches : s.Caches) (hsub : s.subscribed = true) : s.base k ≠ none := by
  unfold Caches at hcaches
  unfold base
  cases htask : s.task with
  | initial loading =>
    unfold subscribed at hsub
    rw [htask] at hsub
    cases hsub
  | handling old loading =>
    rw [htask] at hcaches
    obtain ⟨old, rfl⟩ := Option.isSome_iff_exists.mp hcaches
    show (loading.seen k).or (some _) ≠ none
    cases loading.seen k <;> exact Option.some_ne_none _
  | unsubscribed | waiting | sending events | stopped =>
    rw [htask] at hcaches
    obtain ⟨cached, hcached⟩ := Option.isSome_iff_exists.mp hcaches
    rw [hcached]
    exact Option.some_ne_none _

theorem exists_handle (hrest : ¬ s.AtRest) : ∃ t, s.handle sdk = some t := by
  unfold AtRest at hrest
  unfold handle
  split
  · split <;> exact ⟨_, rfl⟩
  · exact ⟨_, rfl⟩
  · next htask =>
    split
    · next hnotices => exact absurd (.inr ⟨htask, hnotices⟩) hrest
    · split <;> exact ⟨_, rfl⟩
  · split <;> exact ⟨_, rfl⟩
  · exact ⟨_, rfl⟩
  · exact ⟨_, rfl⟩
  · next htask => exact absurd (.inl htask) hrest

/-- What the task keeps while nothing else happens, from a state with these rules on. -/
structure Settling (sdk : SettingsSdk) (k : SettingKey) (rules : NotificationRules) (lags : Prop)
    (s : SettingsState) : Prop where
  rules_eq : s.rules = rules
  caches : s.Caches
  fresh : s.Fresh sdk
  follows : s.Follows sdk k
  loaded : 0 < s.notices ∨ s.missed = false
  task : s.subscribed = true ∧ (sdk.capacity < s.notices ↔ lags) ∨ s.task = .stopped ∧ lags

theorem settling_handles {rules : NotificationRules} {lags : Prop}
    (h : s.Settling sdk k rules lags) (hsub : s.subscribed = true) (hstep : Handles sdk s t) :
    t.Settling sdk k rules lags := by
  have hkeeps : s.KeepsTrack sdk k .handle := fun hnone =>
    absurd hnone (base_ne_none h.caches hsub)
  have hfollows := (follows_handle h.caches h.follows hstep).mp hkeeps
  have hcaches := caches_handle h.caches hstep
  have hfresh := fresh_handle h.fresh hstep
  have hlags : sdk.capacity < s.notices ↔ lags := by
    refine (h.task.resolve_right fun hstopped => ?_).2
    unfold subscribed at hsub
    rw [hstopped.1] at hsub
    cases hsub
  cases hstep with
  | cache htask | readInitial htask | subscribe htask =>
    unfold subscribed at hsub
    rw [htask] at hsub
    cases hsub
  | stop htask hnotices hlag =>
    exact ⟨h.rules_eq, hcaches, hfresh, hfollows, h.loaded,
      .inr ⟨rfl, hlags.mp (hnotices ▸ hlag)⟩⟩
  | @receive notices htask hnotices hlag =>
    refine ⟨h.rules_eq, hcaches, hfresh, hfollows, .inr rfl, .inl ⟨rfl, Iff.trans ?_ hlags⟩⟩
    show sdk.capacity < notices ↔ _
    omega
  | compare htask | read htask | send htask | wait htask =>
    exact ⟨h.rules_eq, hcaches, hfresh, hfollows, h.loaded, .inl ⟨rfl, hlags⟩⟩

theorem caches_start (rules : NotificationRules) : (start rules).Caches := trivial

theorem follows_start (rules : NotificationRules) : (start rules).Follows sdk k := by
  intro _ setting hsetting
  cases hsetting

end SettingsState

section Shown

variable (sdk : SettingsSdk) (k : SettingKey) {rules : NotificationRules}
  {steps : List SettingsStep} {s : SettingsState}

/-- The application keeps up with a setting exactly as long as the steps do not part them. -/
theorem settings_shown (hrun : (settingsSystem sdk).run (.start rules) steps = some s) :
    (settingsSystem sdk).Meets (SettingsState.KeepsTrack sdk k) (.start rules) steps ↔
      ∀ n t, (settingsSystem sdk).run (.start rules) (steps.take n) = some t → t.Follows sdk k :=
  System.meets_iff_of_step _ (fun _ _ _ h hstep => SettingsState.caches_step h hstep)
    (fun _ _ _ hcaches h hstep => SettingsState.follows_step hcaches h hstep)
    (SettingsState.caches_start rules) (SettingsState.follows_start rules) hrun

/-- Left alone, the task then leaves the application right, unless it has fallen behind the channel
    and stops. -/
theorem settings_settle (hrun : (settingsSystem sdk).run (.start rules) steps = some s)
    (hok : (settingsSystem sdk).Meets (SettingsState.KeepsTrack sdk k) (.start rules) steps)
    (hsub : s.subscribed = true) (hloaded : 0 < s.notices ∨ s.missed = false) :
    ∃ as t, (∀ a ∈ as, a = SettingsStep.handle) ∧ (settingsSystem sdk).run s as = some t ∧
      t.rules = s.rules ∧
      if s.notices ≤ sdk.capacity then
        t.task = .waiting ∧ t.notices = 0 ∧
          ∀ setting, t.told k = some setting → setting = t.rules.value sdk.parses k
      else t.task = .stopped := by
  have hcaches : s.Caches := (settingsSystem sdk).inv_of_any_run
    (fun _ _ _ h hstep => SettingsState.caches_step h hstep) (SettingsState.caches_start rules) hrun
  have hfresh : s.Fresh sdk := (settingsSystem sdk).inv_of_any_run
    (fun _ _ _ h hstep => SettingsState.fresh_step h hstep) (SettingsState.fresh_start rules) hrun
  have hfollows : s.Follows sdk k := by
    refine (settings_shown sdk k hrun).mp hok steps.length s ?_
    rw [List.take_length]
    exact hrun
  have hstart : s.Settling sdk k s.rules (sdk.capacity < s.notices) :=
    ⟨rfl, hcaches, hfresh, hfollows, hloaded, .inl ⟨hsub, Iff.rfl⟩⟩
  obtain ⟨as, t, has, hrun', h, hrest⟩ := (settingsSystem sdk).exists_run_to_rest_of_rel
    SettingsState.work SettingsState.AtRest (fun u h hrest => by
      have hsub : u.subscribed = true :=
        (h.task.resolve_right fun hstopped => hrest (.inl hstopped.1)).1
      obtain ⟨v, hv⟩ := SettingsState.exists_handle hrest
      have hstep := SettingsState.handles_of_handle hv
      exact ⟨.handle, v, rfl, hv, SettingsState.settling_handles h hsub hstep,
        SettingsState.work_of_handles hsub hstep⟩) hstart
  refine ⟨as, t, fun a ha => (has a ha).symm, hrun', h.rules_eq, ?_⟩
  split
  · next hnotices =>
    have hkeeps : ¬ sdk.capacity < s.notices := Nat.not_lt.mpr hnotices
    obtain ⟨hsub', -⟩ := h.task.resolve_right fun hstopped => hkeeps hstopped.2
    obtain ⟨htask, hzero⟩ := hrest.resolve_left fun hstopped => by
      unfold SettingsState.subscribed at hsub'
      rw [hstopped] at hsub'
      cases hsub'
    refine ⟨htask, hzero, fun setting htold => ?_⟩
    have hmissed : t.missed = false := h.loaded.resolve_left (by rw [hzero]; exact Nat.lt_irrefl 0)
    exact SettingsState.told_of_atRest htask hzero hmissed h.fresh h.follows htold
  · next hnotices =>
    refine hrest.resolve_right fun hwaiting => ?_
    have hlag := (h.task.resolve_right fun hstopped => by
      rw [hwaiting.1] at hstopped
      cases hstopped.1).2.mpr (Nat.lt_of_not_le hnotices)
    rw [hwaiting.2] at hlag
    exact Nat.not_lt_zero _ hlag

end Shown

/-! ## Two runs -/

section Examples

def exampleSdk : SettingsSdk where
  parses _ := true
  notificationMode rules roomId := rules.rooms.lookup roomId
  capacity := 100
  orders := ⟨.entries, .entries⟩

def silent : NotificationRules := ⟨fun _ _ => .mute, ∅⟩

def loud : NotificationRules := ⟨fun _ _ => .allMessages, ∅⟩

/-- The settings are loaded, and the task subscribes to their changes. -/
def subscribes : List SettingsStep := List.replicate 7 .handle

/-- The settings become loud, which a response tells, and silent again before they are loaded. -/
def changesBack : List SettingsStep :=
  subscribes ++ [.change loud, .requestGlobal] ++ List.replicate 4 (.read 0)
    ++ [.deliver 0, .change silent] ++ List.replicate 16 .handle

theorem settings_shown_changesBack :
    ∃ t, (settingsSystem exampleSdk).run (.start silent) changesBack = some t ∧
      ((settingsSystem exampleSdk).Meets (SettingsState.KeepsTrack exampleSdk .global)
          (.start silent) changesBack ↔
        ∀ n u, (settingsSystem exampleSdk).run (.start silent) (changesBack.take n) = some u →
          u.Follows exampleSdk .global) ∧
      t.AtRest ∧ t.told .global = some (some .allMessages) ∧
      t.rules.value exampleSdk.parses .global = some .mute :=
  ⟨_, rfl, settings_shown exampleSdk .global rfl, .inr ⟨rfl, rfl⟩, rfl, rfl⟩

theorem settings_settle_loud :
    ∃ s, (settingsSystem exampleSdk).run (.start silent) (subscribes ++ [.change loud]) = some s ∧
      ∃ as t, (∀ a ∈ as, a = SettingsStep.handle) ∧
        (settingsSystem exampleSdk).run s as = some t ∧ t.rules = s.rules ∧
        if s.notices ≤ exampleSdk.capacity then
          t.task = .waiting ∧ t.notices = 0 ∧ ∀ setting, t.told .global = some setting →
            setting = t.rules.value exampleSdk.parses .global
        else t.task = .stopped := by
  obtain ⟨s, hrun, hsub, hnotices⟩ : ∃ s,
      (settingsSystem exampleSdk).run (.start silent) (subscribes ++ [.change loud]) = some s ∧
        s.subscribed = true ∧ 0 < s.notices := ⟨_, rfl, rfl, Nat.zero_lt_one⟩
  exact ⟨s, hrun, settings_settle exampleSdk .global hrun (by decide) hsub (.inl hnotices)⟩

end Examples

end GoudaMatrix.Notifications
