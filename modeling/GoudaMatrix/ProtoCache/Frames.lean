/-
  The bytes of the users file (`proto_cache.rs`): `encode_proto_messages` and
  `decode_proto_messages`. The messages are those of any `prost::Message`.

  `decode_frames`: the round trip, the bytes that are accepted, and what is read of a file that
  has been cut off. A slice out of range is a panic, the outcome `none`.
-/
import GoudaMatrix.Lib.Bytes

namespace GoudaMatrix.ProtoCache

open GoudaMatrix.Lib

inductive ProtoCacheError where
  | decodeError
  | unknown
  | prostDecodeError
deriving DecidableEq, Repr

/-- A type of messages. The bytes of a message are a `Vec`, whose length is a 64 bit number. -/
structure ProstMessage (T : Type) where
  encodeToVec : T → List UInt8
  /-- `none` is a `prost::DecodeError`. -/
  decode : List UInt8 → Option T
  decode_encodeToVec : ∀ message, decode (encodeToVec message) = some message
  length_encodeToVec : ∀ message, (encodeToVec message).length < UInt64.size

section Codec

variable {T : Type} (prost : ProstMessage T)

/-! ## Encoding -/

/-- The frame of one message. -/
def encodeFrame (msg : T) : List UInt8 :=
  let encoded := prost.encodeToVec msg
  let size := toLeBytes 8 (encoded.length % UInt64.size)
  size ++ encoded

def encodeProtoMessages (messages : List T) : List UInt8 :=
  messages.foldl (fun result msg => result ++ encodeFrame prost msg) []

theorem encodeProtoMessages_eq (messages : List T) :
    encodeProtoMessages prost messages = (messages.map (encodeFrame prost)).flatten := by
  have hloop : ∀ result, messages.foldl (fun result msg => result ++ encodeFrame prost msg) result
      = result ++ (messages.map (encodeFrame prost)).flatten := by
    induction messages with
    | nil => simp
    | cons msg messages ih =>
      intro result
      rw [List.foldl_cons, ih, List.map_cons, List.flatten_cons, List.append_assoc]
  exact hloop []

theorem encodeProtoMessages_cons (msg : T) (messages : List T) :
    encodeProtoMessages prost (msg :: messages)
      = encodeFrame prost msg ++ encodeProtoMessages prost messages := by
  rw [encodeProtoMessages_eq, encodeProtoMessages_eq, List.map_cons, List.flatten_cons]

/-! ## Decoding -/

/-- `try_into` an array of eight bytes. -/
def tryIntoSize (bytes : List UInt8) : Option Nat :=
  if bytes.length = 8 then some (fromLeBytes bytes) else none

/-- One iteration of the loop: the message and the bytes that are left. -/
def decodeProtoMessage (encoded : List UInt8) :
    Option (Except ProtoCacheError (T × List UInt8)) :=
  if encoded.length < 8 then some (.error .decodeError)
  else do
    let bytes ← sliceTo encoded 8
    match tryIntoSize bytes with
    | none => some (.error .unknown)
    | some size =>
      let encoded ← sliceFrom encoded 8
      if encoded.length < size then some (.error .decodeError)
      else do
        let message ← sliceTo encoded size
        match prost.decode message with
        | none => some (.error .prostDecodeError)
        | some message =>
          let encoded ← sliceFrom encoded size
          some (.ok (message, encoded))

/-- A frame: the length of the body in eight bytes, and the body. -/
def IsFrame (frame body : List UInt8) : Prop :=
  ∃ header, frame = header ++ body ∧ header.length = 8 ∧ fromLeBytes header = body.length

theorem decodeProtoMessage_append {frame body : List UInt8} (h : IsFrame frame body)
    (rest : List UInt8) :
    decodeProtoMessage prost (frame ++ rest)
      = match prost.decode body with
        | none => some (.error .prostDecodeError)
        | some message => some (.ok (message, rest)) := by
  obtain ⟨header, rfl, hheader, hsize⟩ := h
  have hlong : ¬ (header ++ body ++ rest).length < 8 := by
    rw [List.length_append, List.length_append]
    omega
  have hbody : ¬ (body ++ rest).length < body.length := by
    rw [List.length_append]
    omega
  unfold decodeProtoMessage
  rw [if_neg hlong, List.append_assoc, sliceTo_append hheader, sliceFrom_append hheader]
  simp only [Option.bind_eq_bind, Option.bind_some, tryIntoSize, hheader, if_true, hsize]
  rw [if_neg hbody, sliceTo_append rfl, sliceFrom_append rfl]
  cases hdecode : prost.decode body with
  | none => simp [hdecode]
  | some message => simp [hdecode]

/-- What the iteration does to any bytes: it reads a frame off, or it fails without a panic. -/
theorem decodeProtoMessage_cases (encoded : List UInt8) :
    (∃ e, decodeProtoMessage prost encoded = some (.error e)) ∨
      ∃ frame body message rest, encoded = frame ++ rest ∧ IsFrame frame body ∧
        prost.decode body = some message ∧
        decodeProtoMessage prost encoded = some (.ok (message, rest)) := by
  by_cases hshort : encoded.length < 8
  · exact .inl ⟨.decodeError, by rw [decodeProtoMessage, if_pos hshort]⟩
  have hheader : (encoded.take 8).length = 8 := by
    rw [List.length_take]
    omega
  have hsplit : encoded = encoded.take 8 ++ encoded.drop 8 := (List.take_append_drop 8 encoded).symm
  by_cases hbody : (encoded.drop 8).length < fromLeBytes (encoded.take 8)
  · refine .inl ⟨.decodeError, ?_⟩
    unfold decodeProtoMessage
    rw [if_neg hshort]
    simp only [sliceTo, sliceFrom, if_pos (Nat.le_of_not_lt hshort), Option.bind_eq_bind,
      Option.bind_some, tryIntoSize, hheader, if_true, if_pos hbody]
  · generalize hsize : fromLeBytes (encoded.take 8) = size at hbody
    generalize hb : (encoded.drop 8).take size = body
    have hlen : body.length = size := by
      rw [← hb, List.length_take]
      omega
    have hframe : IsFrame (encoded.take 8 ++ body) body := ⟨_, rfl, hheader, hsize.trans hlen.symm⟩
    have hrest : encoded = (encoded.take 8 ++ body) ++ (encoded.drop 8).drop size := by
      rw [List.append_assoc, ← hb, List.take_append_drop, List.take_append_drop]
    have hstep := decodeProtoMessage_append prost hframe ((encoded.drop 8).drop size)
    rw [← hrest] at hstep
    cases hdecode : prost.decode body with
    | none =>
      rw [hdecode] at hstep
      exact .inl ⟨_, hstep⟩
    | some message =>
      rw [hdecode] at hstep
      exact .inr ⟨_, body, message, _, hrest, hframe, hdecode, hstep⟩

theorem length_of_decodeProtoMessage {encoded rest : List UInt8} {message : T}
    (h : decodeProtoMessage prost encoded = some (.ok (message, rest))) :
    rest.length < encoded.length := by
  rcases decodeProtoMessage_cases prost encoded with
    ⟨e, he⟩ | ⟨frame, body, m, rest', rfl, ⟨header, rfl, hheader, -⟩, -, hok⟩
  · rw [he] at h
    cases h
  · rw [hok] at h
    obtain ⟨rfl, rfl⟩ := Prod.mk.inj (Except.ok.inj (Option.some.inj h))
    rw [List.length_append, List.length_append, hheader]
    omega

/-- The loop of `decode_proto_messages`, with the messages that have been decoded. -/
def decodeLoop (result : List T) (encoded : List UInt8) :
    Option (Except ProtoCacheError (List T)) :=
  if encoded.isEmpty then some (.ok result)
  else
    match _h : decodeProtoMessage prost encoded with
    | none => none
    | some (.error e) => some (.error e)
    | some (.ok (message, encoded)) => decodeLoop (result ++ [message]) encoded
termination_by encoded.length
decreasing_by exact length_of_decodeProtoMessage prost _h

def decodeProtoMessages (encoded : List UInt8) : Option (Except ProtoCacheError (List T)) :=
  decodeLoop prost [] encoded

@[simp] theorem decodeLoop_nil (result : List T) :
    decodeLoop prost result [] = some (.ok result) := by
  rw [decodeLoop]
  rfl

theorem decodeLoop_of_error {encoded : List UInt8} (hne : encoded ≠ []) {e : ProtoCacheError}
    (h : decodeProtoMessage prost encoded = some (.error e)) (result : List T) :
    decodeLoop prost result encoded = some (.error e) := by
  rw [decodeLoop, if_neg (by simpa using hne)]
  split <;> simp_all

theorem decodeLoop_of_ok {encoded rest : List UInt8} {message : T}
    (h : decodeProtoMessage prost encoded = some (.ok (message, rest))) (result : List T) :
    decodeLoop prost result encoded = decodeLoop prost (result ++ [message]) rest := by
  have hlt := length_of_decodeProtoMessage prost h
  have hne : encoded ≠ [] := by
    rintro rfl
    simp at hlt
  rw [decodeLoop, if_neg (by simpa using hne)]
  split <;> simp_all

/-! ## Frames -/

/-- The bytes are frames of the messages, one after another. -/
def FramesOf (encoded : List UInt8) (messages : List T) : Prop :=
  ∃ frames : List (List UInt8), encoded = frames.flatten ∧
    List.Forall₂ (fun frame message => ∃ body, IsFrame frame body ∧
      prost.decode body = some message)
      frames messages

theorem framesOf_nil : FramesOf prost [] [] := ⟨[], rfl, .nil⟩

theorem FramesOf.cons {frame body encoded : List UInt8} {message : T} {messages : List T}
    (hframe : IsFrame frame body) (hdecode : prost.decode body = some message)
    (h : FramesOf prost encoded messages) :
    FramesOf prost (frame ++ encoded) (message :: messages) := by
  obtain ⟨frames, rfl, hframes⟩ := h
  exact ⟨frame :: frames, rfl, .cons ⟨body, hframe, hdecode⟩ hframes⟩

theorem decodeLoop_of_frames {encoded : List UInt8} {messages : List T}
    (h : FramesOf prost encoded messages) (result : List T) :
    decodeLoop prost result encoded = some (.ok (result ++ messages)) := by
  obtain ⟨frames, rfl, hframes⟩ := h
  induction hframes generalizing result with
  | nil => rw [List.flatten_nil, decodeLoop_nil, List.append_nil]
  | cons hhead _ ih =>
    obtain ⟨body, hframe, hdecode⟩ := hhead
    have hstep := decodeProtoMessage_append prost hframe
    simp only [hdecode] at hstep
    rw [List.flatten_cons, decodeLoop_of_ok prost (hstep _), ih, List.append_assoc]
    rfl

/-- The loop ends without a panic, and what it has decoded is in the bytes. -/
theorem decodeLoop_cases (result : List T) (encoded : List UInt8) :
    (∃ e, decodeLoop prost result encoded = some (.error e)) ∨
      ∃ messages, FramesOf prost encoded messages ∧
        decodeLoop prost result encoded = some (.ok (result ++ messages)) := by
  induction hlen : encoded.length using Nat.strongRecOn generalizing result encoded with
  | ind n ih =>
    rcases List.eq_nil_or_concat encoded with rfl | hne
    · exact .inr ⟨[], framesOf_nil prost, by rw [decodeLoop_nil, List.append_nil]⟩
    · have hne : encoded ≠ [] := by
        obtain ⟨_, _, rfl⟩ := hne
        simp
      rcases decodeProtoMessage_cases prost encoded with
        ⟨e, he⟩ | ⟨frame, body, message, rest, rfl, hframe, hdecode, hok⟩
      · exact .inl ⟨e, decodeLoop_of_error prost hne he result⟩
      · rw [decodeLoop_of_ok prost hok]
        rcases ih _ (hlen ▸ length_of_decodeProtoMessage prost hok)
          (result ++ [message]) rest rfl with
          herror | ⟨messages, hrest, hloop⟩
        · exact .inl herror
        · refine .inr ⟨message :: messages, hrest.cons prost hframe hdecode, ?_⟩
          rw [hloop, List.append_assoc]
          rfl

theorem decodeProtoMessages_ne_none (encoded : List UInt8) :
    decodeProtoMessages prost encoded ≠ none := by
  unfold decodeProtoMessages
  rcases decodeLoop_cases prost [] encoded with ⟨e, he⟩ | ⟨messages, -, hok⟩
  · rw [he]
    simp
  · rw [hok]
    simp

theorem decodeProtoMessages_eq_ok (encoded : List UInt8) (messages : List T) :
    decodeProtoMessages prost encoded = some (.ok messages) ↔ FramesOf prost encoded messages := by
  constructor
  · intro h
    rcases decodeLoop_cases prost [] encoded with ⟨e, he⟩ | ⟨messages', hframes, hok⟩
    · rw [decodeProtoMessages, he] at h
      cases h
    · rw [decodeProtoMessages, hok, List.nil_append] at h
      obtain rfl := Except.ok.inj (Option.some.inj h)
      exact hframes
  · exact fun h => decodeLoop_of_frames prost h []

theorem isFrame_encodeFrame (msg : T) :
    IsFrame (encodeFrame prost msg) (prost.encodeToVec msg) := by
  have hsize := prost.length_encodeToVec msg
  have hpow : UInt64.size = 256 ^ 8 := by decide
  refine ⟨_, rfl, length_toLeBytes 8 _, ?_⟩
  rw [Nat.mod_eq_of_lt hsize]
  exact fromLeBytes_toLeBytes 8 (hpow ▸ hsize)

theorem framesOf_encode (messages : List T) :
    FramesOf prost (encodeProtoMessages prost messages) messages := by
  induction messages with
  | nil => exact framesOf_nil prost
  | cons msg messages ih =>
    rw [encodeProtoMessages_cons]
    exact ih.cons prost (isFrame_encodeFrame prost msg) (prost.decode_encodeToVec msg)

/-! ## Files that have been cut off -/

/-- Fewer bytes than the frame has are an error. -/
theorem decodeProtoMessage_of_short {frame body : List UInt8} (h : IsFrame frame body) {n : Nat}
    (hn : n < frame.length) : ∃ e, decodeProtoMessage prost (frame.take n) = some (.error e) := by
  rcases decodeProtoMessage_cases prost (frame.take n) with
    herror | ⟨frame', body', message, rest, heq, ⟨header', rfl, hheader', hsize'⟩, -, -⟩
  · exact herror
  · -- A frame that can be read off has the same header, so that it is as long.
    exfalso
    obtain ⟨header, rfl, hheader, hsize⟩ := h
    have hlen := congrArg List.length heq
    simp only [List.length_append, List.length_take] at hlen hn
    have hhead : header' = header := by
      have htake := congrArg (List.take 8) heq
      rw [List.take_take, Nat.min_eq_left (by omega), List.take_left' hheader, List.append_assoc,
        List.take_left' hheader'] at htake
      exact htake.symm
    subst hhead
    omega

/-- What is read of the first bytes of an encoding: the messages before the end, if the bytes
    end behind one, and an error otherwise. -/
theorem decodeLoop_take (messages result : List T) (n : Nat) :
    (∃ k ≤ messages.length,
      (encodeProtoMessages prost messages).take n = encodeProtoMessages prost (messages.take k) ∧
      decodeLoop prost result ((encodeProtoMessages prost messages).take n)
        = some (.ok (result ++ messages.take k))) ∨
    (∀ k, (encodeProtoMessages prost messages).take n ≠ encodeProtoMessages prost
      (messages.take k)) ∧
      ∃ e, decodeLoop prost result ((encodeProtoMessages prost messages).take n)
        = some (.error e) := by
  induction messages generalizing result n with
  | nil => exact .inl ⟨0, Nat.le_refl 0, List.take_nil, by simp [encodeProtoMessages]⟩
  | cons msg messages ih =>
    have hframe := isFrame_encodeFrame prost msg
    have htake : ∀ k, encodeProtoMessages prost ((msg :: messages).take (k + 1))
        = encodeFrame prost msg ++ encodeProtoMessages prost (messages.take k) := by
      intro k
      rw [List.take_succ_cons, encodeProtoMessages_cons]
    have hpos : 0 < (encodeFrame prost msg).length := by
      obtain ⟨header, hmsg, hheader, -⟩ := hframe
      rw [hmsg, List.length_append]
      omega
    rw [encodeProtoMessages_cons]
    by_cases hshort : n < (encodeFrame prost msg).length
    · rw [List.take_append_of_le_length (Nat.le_of_lt hshort)]
      rcases Nat.eq_zero_or_pos n with rfl | hn
      · exact .inl ⟨0, Nat.zero_le _, rfl, by simp⟩
      refine .inr ⟨fun k heq => ?_, ?_⟩
      · have hlen := congrArg List.length heq
        rw [List.length_take, Nat.min_eq_left (Nat.le_of_lt hshort)] at hlen
        cases k with
        | zero => exact absurd hlen (Nat.ne_of_gt hn)
        | succ k =>
          rw [htake, List.length_append] at hlen
          omega
      · obtain ⟨e, he⟩ := decodeProtoMessage_of_short prost hframe hshort
        have hne : (encodeFrame prost msg).take n ≠ [] := by
          intro hnil
          have hlen := congrArg List.length hnil
          rw [List.length_take, List.length_nil] at hlen
          omega
        exact ⟨e, decodeLoop_of_error prost hne he result⟩
    · obtain ⟨m, rfl⟩ := Nat.exists_eq_add_of_le (Nat.le_of_not_lt hshort)
      have hstep := decodeProtoMessage_append prost hframe
        ((encodeProtoMessages prost messages).take m)
      simp only [prost.decode_encodeToVec] at hstep
      rw [List.take_length_add_append, decodeLoop_of_ok prost hstep]
      rcases ih (result ++ [msg]) m with ⟨k, hk, hm, hloop⟩ | ⟨hne, herror⟩
      · refine .inl ⟨k + 1, Nat.succ_le_succ hk, by rw [htake, hm], ?_⟩
        rw [hloop, List.append_assoc]
        rfl
      · refine .inr ⟨fun k heq => ?_, herror⟩
        cases k with
        | zero =>
          have hlen := congrArg List.length heq
          have hzero : (encodeProtoMessages prost ((msg :: messages).take 0)).length = 0 := rfl
          rw [List.length_append] at hlen
          omega
        | succ k =>
          rw [htake] at heq
          exact hne k (List.append_cancel_left heq)

/-- `decode_proto_messages` reads what `encode_proto_messages` writes, accepts exactly the
    frames of messages, and reads a cut off encoding only up to the end of a frame. -/
theorem decode_frames :
    (∀ messages : List T,
      decodeProtoMessages prost (encodeProtoMessages prost messages) = some (.ok messages)) ∧
    (∀ encoded, decodeProtoMessages prost encoded ≠ none ∧ ∀ messages,
      decodeProtoMessages prost encoded = some (.ok messages) ↔ FramesOf prost encoded messages) ∧
    ∀ (messages : List T) (n : Nat),
      let cut := (encodeProtoMessages prost messages).take n
      (∃ k ≤ messages.length, cut = encodeProtoMessages prost (messages.take k) ∧
        decodeProtoMessages prost cut = some (.ok (messages.take k))) ∨
      (∀ k, cut ≠ encodeProtoMessages prost (messages.take k)) ∧
        ∃ e, decodeProtoMessages prost cut = some (.error e) := by
  refine ⟨fun messages => ?_, fun encoded => ?_, fun messages n => ?_⟩
  · exact (decodeProtoMessages_eq_ok prost _ _).mpr (framesOf_encode prost messages)
  · exact ⟨decodeProtoMessages_ne_none prost encoded, decodeProtoMessages_eq_ok prost encoded⟩
  · exact decodeLoop_take prost messages [] n

end Codec

end GoudaMatrix.ProtoCache
