import GoudaMatrix.MemoryCache.Totality
import GoudaMatrix.MemoryCache.MediaEdits
import GoudaMatrix.Events.Messages
import GoudaMatrix.Events.Replacements
import GoudaMatrix.Polls.Agreement
import GoudaMatrix.Polls.Tally
import GoudaMatrix.Polls.Strangers
import GoudaMatrix.Polls.Ballots
import GoudaMatrix.MemoryCache.Room
import GoudaMatrix.MemoryCache.Message
import GoudaMatrix.Polls.Assemble
import GoudaMatrix.Ruma.Event
import GoudaMatrix.Lib.HashMap
import GoudaMatrix.Events.RoomChanges
import GoudaMatrix.MemoryCache.ReadMarkers
import GoudaMatrix.ProtoCache.Save
import GoudaMatrix.ProtoCache.Contexts
import GoudaMatrix.Login.Sync
import GoudaMatrix.Login.Sso
import GoudaMatrix.Crypto
import GoudaMatrix.ProtoCache.Frames
import GoudaMatrix.ProtoCache.Restart
import GoudaMatrix.Events.EditedMessages
import GoudaMatrix.Messages.Builder
import GoudaMatrix.MemoryCache.View
import GoudaMatrix.Lib.Bytes
import GoudaMatrix.MemoryCache.ReactionCalls
import GoudaMatrix.Media.AssetPaths
import GoudaMatrix.MemoryCache.RetryRuns
import GoudaMatrix.MemoryCache.Delivery
import GoudaMatrix.Events.Rooms
import GoudaMatrix.MemoryCache.Redactions
import GoudaMatrix.MemoryCache.Redecryption
import GoudaMatrix.MemoryCache.MarkerCalls
import GoudaMatrix.MemoryCache.Fetching
import GoudaMatrix.Crypto.Interrupted
import GoudaMatrix.Events.QueuedChanges
import GoudaMatrix.Events.RoomQueues
import GoudaMatrix.Events.MarkerOrder
import GoudaMatrix.Events.ReadTimestamps
import GoudaMatrix.Events.UserChanges
import GoudaMatrix.Events.Announcements
import GoudaMatrix.MemoryCache.Confluence
import GoudaMatrix.MemoryCache.Building
import GoudaMatrix.Users
import GoudaMatrix.Media.Downloads
import GoudaMatrix.Verification.EndEvents
import GoudaMatrix.Verification.Protocol
import GoudaMatrix.Events.ActionQueue
import GoudaMatrix.MemoryCache.MessageStream
import GoudaMatrix.MemoryCache.Paging
import GoudaMatrix.Session.BackgroundSync
import GoudaMatrix.Notifications
import GoudaMatrix.Polls.Live
import GoudaMatrix.MemoryCache.RemoveReaction
import GoudaMatrix.Media.AssetContracts
import GoudaMatrix.Media.InterruptedDownloads
import GoudaMatrix.Media.AssetSlots
import GoudaMatrix.Media.Avatars
import GoudaMatrix.Media.AvatarStore
import GoudaMatrix.MemoryCache.ResolvedEvents
import GoudaMatrix.MemoryCache.RedactionTargets
import GoudaMatrix.Lib.Mirror
import GoudaMatrix.Rooms.Properties
import GoudaMatrix.Rooms.Follow
import GoudaMatrix.Messages.Changes
import GoudaMatrix.MemoryCache.CachedReactions
import GoudaMatrix.MemoryCache.ReactionView
import GoudaMatrix.Lib.Polling
import GoudaMatrix.Notifications.Follow
import GoudaMatrix.MemoryCache.RetryLoop
import GoudaMatrix.MemoryCache.RetryRounds
