/-
  The content of a message as the media manager downloads it, and two file systems whose stored
  assets are the same up to one id: `generateMessageContent_same`.
-/
import GoudaMatrix.Media.Attachments

namespace GoudaMatrix.Media

open GoudaMatrix.Lib GoudaMatrix.Ruma

/-- The media of a message, if it has one. -/
def mediaOf : MessageType → Option MediaContent
  | .audio file | .file file | .image file | .video file => some file
  | _ => none

section AnyManager

variable {M : Type} (mediaManager : MediaManager M) (roomId eventId : String)

theorem generateMessageContent_of_mediaOf {msgtype : MessageType} {file : MediaContent}
    (h : mediaOf msgtype = some file) (media : M) :
    Messages.generateMessageContent mediaManager roomId eventId msgtype media
      = Messages.downloadFile mediaManager roomId eventId file media := by
  cases msgtype <;> cases h <;> rfl

/-- Without media, the content does not depend on the media manager. -/
theorem generateMessageContent_of_no_media {msgtype : MessageType} (h : mediaOf msgtype = none)
    (media media' : M) :
    (Messages.generateMessageContent mediaManager roomId eventId msgtype media).1
        = (Messages.generateMessageContent mediaManager roomId eventId msgtype media').1 ∧
      (Messages.generateMessageContent mediaManager roomId eventId msgtype media).2 = media := by
  cases msgtype <;> cases h <;> exact ⟨rfl, rfl⟩

end AnyManager

variable {B : Type} (inner : MediaManagerInner B) (roomId : String)

theorem downloadFile_eq (id : String) (content : MediaContent) (fs : FileSystem B) :
    Messages.downloadFile inner.toMediaManager roomId id content fs
      = ((match (fetch inner roomId id content fs).1 with
          | .ok path => some (.file (Path.display path) (some (content.filename.getD content.body)))
          | .error _ => none),
        (fetch inner roomId id content fs).2) := by
  simp only [Messages.downloadFile, MediaManagerInner.toMediaManager, fetch]
  generalize inner.downloadFromMediaEventContent roomId id content
    (some (content.filename.getD content.body)) fs = r
  obtain ⟨result, fs'⟩ := r
  cases result <;> rfl

/-! ## Assets that are the same up to one id -/

/-- The stored assets are the same, up to that of the target. -/
def SameSlots (ids : List String) (target : String) (fs fs' : FileSystem B) : Prop :=
  ∃ slots slots' : String → Option (StoredAsset B),
    Slots inner roomId ids slots fs ∧ Slots inner roomId ids slots' fs' ∧
      ∀ id, id ≠ target → slots id = slots' id

variable {inner roomId} {ids : List String} {target : String} {fs fs' : FileSystem B}

theorem SameSlots.refl {slots : String → Option (StoredAsset B)}
    (h : Slots inner roomId ids slots fs) : SameSlots inner roomId ids target fs fs :=
  ⟨slots, slots, h, h, fun _ _ => rfl⟩

end GoudaMatrix.Media
