/-
  The chat messages exchanged with the application (the protobuf types of `gouda_proto::chat`),
  with the fields the adapter reads or writes.
-/
import Mathlib.Data.Option.Basic

namespace GoudaMatrix

/-! ## Users -/

structure UserStatus where
  state : Int
  statusMessage : Option String
deriving DecidableEq, Repr

structure User where
  userId : String
  displayName : Option String
  avatarPath : Option String
  status : Option UserStatus
deriving DecidableEq, Repr

/-- A change of a user; a field that is `none` stays as it is. -/
structure UserChangeEvent where
  userId : String
  displayName : Option String
  avatarPath : Option String
  status : Option UserStatus
deriving DecidableEq, Repr

/-! ## Messages -/

inductive PollType where
  | disclosed
  | undisclosed
deriving DecidableEq, Repr

structure PollOption where
  id : String
  text : String
  votedUserIds : List String
deriving DecidableEq, Repr

structure MessageContentPoll where
  type : PollType
  completed : Bool
  maxSelections : Nat
  question : String
  options : List PollOption
deriving DecidableEq, Repr

inductive MembershipChange where
  | joined
  | left
  | banned
  | kicked
  | invited
  | knocked
deriving DecidableEq, Repr

/-- `message::Content`, and `message_change_event::Content`, which has the same variants. -/
inductive Content where
  | text (content : String)
  | file (filePath : String) (fileName : Option String)
  | poll (poll : MessageContentPoll)
  | removed (reason : Option String)
  | membershipChange (change : MembershipChange) (affectedUserId : String)
deriving DecidableEq, Repr

structure Reaction where
  roomId : String
  messageId : String
  reaction : String
  userId : Option String
deriving DecidableEq, Repr

structure Message where
  messageId : String
  roomId : String
  senderId : String
  timestamp : Nat
  content : Option Content
  relatedMessageId : Option String
  isEncrypted : Bool
  reactions : List Reaction
  mentionedUserIds : List String
  roomMentioned : Bool
  threadId : Option String
  edited : Bool
deriving DecidableEq, Repr

/-- The defaults of the fields that a handler does not set. -/
def Message.new (roomId messageId senderId : String) (timestamp : Nat) : Message where
  messageId := messageId
  roomId := roomId
  senderId := senderId
  timestamp := timestamp
  content := none
  relatedMessageId := none
  isEncrypted := false
  reactions := []
  mentionedUserIds := []
  roomMentioned := false
  threadId := none
  edited := false

/-- A change of a message; a field that is `none` stays as it is. -/
structure MessageChangeEvent where
  roomId : String
  messageId : String
  content : Option Content
  isEncrypted : Option Bool
  edited : Option Bool
  mentionedUserIds : Option (List String)
deriving DecidableEq, Repr

/-- `MessageChangeEventBuilder::new`. -/
def MessageChangeEvent.new (roomId messageId : String) : MessageChangeEvent where
  roomId := roomId
  messageId := messageId
  content := none
  isEncrypted := none
  edited := none
  mentionedUserIds := none

structure MessageRemoveEvent where
  roomId : String
  messageId : String
deriving DecidableEq, Repr

/-- The events about messages that reach the application. -/
inductive MessageEvent where
  | received (message : Message)
  | changed (change : MessageChangeEvent)
  | removed (remove : MessageRemoveEvent)
  | reactionCreated (reaction : Reaction)
deriving DecidableEq, Repr

end GoudaMatrix
