import Fubun.Frames.Reader
import Fubun.Vscode.Frames

/-! The frames of both encoders in the decoder of the VS Code extension, however a socket cuts them. -/

namespace Fubun.Frames
open Encoding Vscode

variable {α : Type}

/-! ## Encoders -/

/-- `setUint32` is told to write little endian. -/
def encodeUdsFrame (stringify : α → List UInt8) (value : α) : Except String (List UInt8) :=
  let payload := stringify value
  if maxMessageSize < payload.length then .error "message too large"
  else .ok (littleEndian 4 payload.length ++ payload)

/-- The texts that `JSON.stringify` and `serde_json` write for the same values, both of which
`JSON.parse` reads. -/
structure Peers (α : Type) where
  stringify : α → List UInt8
  codec : Codec α
  parse : List UInt8 → Option α
  parse_stringify : ∀ value, parse (stringify value) = some value
  parse_toVec : ∀ value, parse (codec.toVec value) = some value

inductive Encoder where
  | encodeUdsFrame
  | encodeJsonFrame
deriving DecidableEq

namespace Peers
variable (peers : Peers α)

def payload : Encoder × α → List UInt8
  | (.encodeUdsFrame, value) => peers.stringify value
  | (.encodeJsonFrame, value) => peers.codec.toVec value

def encode : Encoder × α → Option (List UInt8)
  | (.encodeUdsFrame, value) => (encodeUdsFrame peers.stringify value).toOption
  | (.encodeJsonFrame, value) => (encodeJsonFrame peers.codec value).toOption

theorem encode_eq {sent : Encoder × α} (h : (peers.payload sent).length ≤ maxMessageSize) :
    peers.encode sent = some (frame (peers.payload sent)) := by
  obtain ⟨encoder, value⟩ := sent
  cases encoder with
  | encodeUdsFrame =>
    have hframe : Frames.encodeUdsFrame peers.stringify value = .ok (frame (peers.stringify value)) := if_neg (Nat.not_lt.mpr h)
    rw [encode, hframe]
    rfl
  | encodeJsonFrame =>
    rw [encode, encodeJsonFrame_eq h]
    rfl

theorem parse_payload (sent : Encoder × α) : peers.parse (peers.payload sent) = some sent.2 := by
  obtain ⟨encoder, value⟩ := sent
  cases encoder with
  | encodeUdsFrame => exact peers.parse_stringify value
  | encodeJsonFrame => exact peers.parse_toVec value

end Peers

/-! ## Decoding -/

section Decoder
variable (parse : List UInt8 → Option α)

/-- Successive calls of `push`; a call that throws is the last. -/
def pushAll (buffer : List UInt8) : List (List UInt8) → Except String (List α) × List UInt8
  | [] => (.ok [], buffer)
  | chunk :: chunks =>
    match push parse buffer chunk with
    | (.ok values, buffer) =>
      let more := pushAll buffer chunks
      (more.1.map (values ++ ·), more.2)
    | (.error e, buffer) => (.error e, buffer)

/-- The loop of `push` on all that is there. -/
def drain (buffer : List UInt8) : Except String (List α) × List UInt8 := takeFrames parse buffer.length buffer

variable {parse}

theorem ofLittleEndian_header {payload : List UInt8} (h : payload.length ≤ maxMessageSize) :
    readUInt32LE (littleEndian 4 payload.length) = payload.length :=
  ofLittleEndian_littleEndian (Nat.lt_of_le_of_lt h (by decide))

theorem drain_frame {payload : List UInt8} {value : α} (hsome : 1 ≤ payload.length) (hmax : payload.length ≤ maxMessageSize)
    (hparse : parse payload = some value) (rest : List UInt8) :
    drain parse (frame payload ++ rest) = ((drain parse rest).1.map (value :: ·), (drain parse rest).2) := by
  have hlength : (frame payload ++ rest).length = (payload.length + 3 + rest.length) + 1 := by
    rw [List.length_append, length_frame]
    omega
  have hfour : ¬ (frame payload ++ rest).length < 4 := by
    rw [hlength]
    omega
  have hheader : readUInt32LE ((frame payload ++ rest).take 4) = payload.length := by
    rw [take_frame, ofLittleEndian_header hmax]
  have hvalid : ¬ (payload.length = 0 ∨ maxMessageSize < payload.length) := by omega
  have hwhole : ¬ (frame payload ++ rest).length < payload.length + 4 := by
    rw [hlength]
    omega
  have hpayload : ((frame payload ++ rest).drop 4).take payload.length = payload := by
    rw [drop_frame, List.take_left]
  have hrest : (frame payload ++ rest).drop (payload.length + 4) = rest := by
    rw [Nat.add_comm, ← List.drop_drop, drop_frame, List.drop_left]
  have henough : takeFrames parse (payload.length + 3 + rest.length) rest = drain parse rest :=
    takeFrames_enough parse (Nat.le_add_left _ _)
  unfold drain
  rw [hlength, takeFrames, if_neg hfour]
  dsimp only
  rw [hheader, if_neg hvalid, if_neg hwhole, hpayload, hparse, hrest, henough]
  rfl

theorem drain_part {payload part : List UInt8} (hsome : 1 ≤ payload.length) (hmax : payload.length ≤ maxMessageSize)
    (hpart : part <+: frame payload) (hne : part ≠ frame payload) : drain parse part = (.ok [], part) := by
  have hlt : part.length < (frame payload).length :=
    Nat.lt_of_le_of_ne hpart.length_le fun heq => hne (hpart.eq_of_length heq)
  unfold drain
  cases hlength : part.length with
  | zero => rfl
  | succ n =>
    rw [takeFrames]
    split_ifs with hfour
    · rfl
    · have htake : part.take 4 = littleEndian 4 payload.length := by
        obtain ⟨missing, hmissing⟩ := hpart
        rw [← take_frame payload [], List.append_nil, ← hmissing, List.take_append_of_le_length (Nat.not_lt.mp hfour)]
      have hvalid : ¬ (payload.length = 0 ∨ maxMessageSize < payload.length) := by omega
      have hshort : part.length < payload.length + 4 := by
        rw [length_frame] at hlt
        exact hlt
      dsimp only
      rw [htake, ofLittleEndian_header hmax, if_neg hvalid, if_pos hshort]

end Decoder

/-! ## A stream in chunks -/

section Stream
variable {peers : Peers α}

def Peers.Fits (peers : Peers α) (sent : Encoder × α) : Prop :=
  1 ≤ (peers.payload sent).length ∧ (peers.payload sent).length ≤ maxMessageSize

theorem mapM_encode {sent : List (Encoder × α)} (h : ∀ s ∈ sent, peers.Fits s) :
    sent.mapM peers.encode = some (sent.map fun s => frame (peers.payload s)) := by
  induction sent with
  | nil => rfl
  | cons s sent ih =>
    obtain ⟨hs, hsent⟩ := List.forall_mem_cons.mp h
    rw [List.mapM_cons, peers.encode_eq hs.2, ih hsent]
    rfl

theorem drain_frames {sent : List (Encoder × α)} (h : ∀ s ∈ sent, peers.Fits s) {rest : List UInt8}
    (hrest : drain peers.parse rest = (.ok [], rest)) :
    drain peers.parse ((sent.map fun s => frame (peers.payload s)).flatten ++ rest) = (.ok (sent.map (·.2)), rest) := by
  induction sent with
  | nil => exact hrest
  | cons s sent ih =>
    obtain ⟨hs, hsent⟩ := List.forall_mem_cons.mp h
    rw [List.map_cons, List.flatten_cons, List.append_assoc, drain_frame hs.1 hs.2 (peers.parse_payload s), ih hsent]
    rfl

theorem drain_isPartial {sent : List (Encoder × α)} (h : ∀ s ∈ sent, peers.Fits s) {rest : List UInt8}
    (hrest : IsPartial rest (sent.map fun s => frame (peers.payload s))) : drain peers.parse rest = (.ok [], rest) := by
  cases sent with
  | nil =>
    obtain rfl : rest = [] := hrest
    rfl
  | cons s sent =>
    obtain ⟨hs, -⟩ := List.forall_mem_cons.mp h
    exact drain_part hs.1 hs.2 hrest.1 hrest.2

/-- The buffer holds a part of the next frame, before every chunk and after it. -/
theorem pushAll_frames {sent : List (Encoder × α)} (h : ∀ s ∈ sent, peers.Fits s) (chunks : List (List UInt8)) {buffer : List UInt8}
    (hbuffer : IsPartial buffer (sent.map fun s => frame (peers.payload s)))
    (hstream : buffer ++ chunks.flatten <+: (sent.map fun s => frame (peers.payload s)).flatten) :
    ∃ read unread rest, sent = read ++ unread ∧
      buffer ++ chunks.flatten = (read.map fun s => frame (peers.payload s)).flatten ++ rest ∧
      IsPartial rest (unread.map fun s => frame (peers.payload s)) ∧
      pushAll peers.parse buffer chunks = (.ok (read.map (·.2)), rest) := by
  induction chunks generalizing sent buffer with
  | nil => exact ⟨[], sent, buffer, rfl, List.append_nil _, hbuffer, rfl⟩
  | cons chunk chunks ih =>
    rw [List.flatten_cons, ← List.append_assoc] at hstream ⊢
    have hchunk : buffer ++ chunk <+: (sent.map fun s => frame (peers.payload s)).flatten :=
      (List.prefix_append _ _).trans hstream
    obtain ⟨done, left, rest, hpieces, hreceived, hrest⟩ := exists_split hchunk
    obtain ⟨read, unread, rfl, rfl, rfl⟩ := List.map_eq_append_iff.mp hpieces
    obtain ⟨hread, hunread⟩ := List.forall_mem_append.mp h
    have hdrained := drain_frames hread (drain_isPartial hunread hrest)
    rw [hreceived, List.append_assoc, List.map_append, List.flatten_append] at hstream
    have hleft := (List.prefix_append_right_inj _).mp hstream
    obtain ⟨more, later, last, rfl, hmore, hlast, hpushed⟩ := ih hunread hrest hleft
    refine ⟨read ++ more, later, last, (List.append_assoc ..).symm, ?_, hlast, ?_⟩
    · rw [hreceived, List.append_assoc, hmore, List.map_append, List.flatten_append, List.append_assoc]
    · have hpush : push peers.parse buffer chunk = (.ok (read.map (·.2)), rest) := by
        show drain peers.parse (buffer ++ chunk) = _
        rw [hreceived, hdrained]
      rw [pushAll, hpush]
      dsimp only
      rw [hpushed, List.map_append]
      rfl

end Stream

/-- What the decoder gives for chunks of a stream. -/
structure IsDecoded (peers : Peers α) (sent : List (Encoder × α)) (frames chunks : List (List UInt8)) : Prop where
  whole : pushAll peers.parse [] chunks = (.ok (sent.map (·.2)), [])
  /-- After some of the chunks it has given the values of the frames that are complete, and holds the rest. -/
  part : ∀ before after, chunks = before ++ after → ∃ k rest, before.flatten = (frames.take k).flatten ++ rest ∧
    IsPartial rest (frames.drop k) ∧ pushAll peers.parse [] before = (.ok ((sent.take k).map (·.2)), rest)

theorem chunks_decoded (peers : Peers α) (sent : List (Encoder × α)) (h : ∀ s ∈ sent, peers.Fits s) :
    ∃ frames, sent.mapM peers.encode = some frames ∧
      ∀ chunks : List (List UInt8), chunks.flatten = frames.flatten → IsDecoded peers sent frames chunks := by
  refine ⟨_, mapM_encode h, ?_⟩
  intro chunks hchunks
  have hempty : ∀ sent : List (Encoder × α), IsPartial [] (sent.map fun s => frame (peers.payload s)) := by
    rintro (_ | ⟨s, sent⟩)
    · rfl
    · exact ⟨List.nil_prefix, (frame_ne_nil _).symm⟩
  constructor
  · obtain ⟨read, unread, rest, rfl, hreceived, hrest, hpushed⟩ := pushAll_frames h chunks (hempty sent) (by
      rw [List.nil_append, hchunks])
    -- the stream ends on a boundary, so that nothing is left of a next frame
    have hnone : rest = [] := by
      apply (split_boundary hrest).mp
      refine ⟨(read ++ unread).length, ?_⟩
      rw [← hreceived, List.nil_append, hchunks, ← List.map_append, List.take_of_length_le (List.length_map _).le]
    subst hnone
    -- and no frame is unread
    have hunread : unread = [] := by
      rw [List.nil_append, hchunks, List.map_append, List.flatten_append, List.append_cancel_left_eq] at hreceived
      cases unread with
      | nil => rfl
      | cons s unread =>
        rw [List.map_cons, List.flatten_cons] at hreceived
        exact absurd (List.append_eq_nil_iff.mp hreceived).1 (frame_ne_nil _)
    rw [hpushed, hunread, List.append_nil]
  · intro before after hsplit
    have hprefix : [] ++ before.flatten <+: (sent.map fun s => frame (peers.payload s)).flatten := by
      rw [← hchunks, hsplit, List.flatten_append]
      exact List.prefix_append _ _
    obtain ⟨read, unread, rest, rfl, hreceived, hrest, hpushed⟩ := pushAll_frames h before (hempty sent) hprefix
    refine ⟨read.length, rest, ?_, ?_, ?_⟩
    · rw [List.map_append, List.take_left' (List.length_map _)]
      exact hreceived
    · rw [List.map_append, List.drop_left' (List.length_map _)]
      exact hrest
    · rw [List.take_left]
      exact hpushed

end Fubun.Frames

namespace Fubun.Sample
open Frames

def truthPeers : Peers Bool where
  stringify := truthCodec.toVec
  codec := truthCodec
  parse := truthCodec.fromSlice
  parse_stringify := truthCodec.fromSlice_toVec
  parse_toVec := truthCodec.fromSlice_toVec

end Fubun.Sample

namespace Fubun.Frames

/-- A header in two chunks, an empty chunk, and the end of one frame with the next. -/
theorem chunks_decoded_truths : pushAll Sample.truthPeers.parse []
    [[4, 0], [], [0, 0, 116, 114, 117], [101, 5, 0, 0, 0, 102, 97, 108, 115, 101]] = (.ok [true, false], []) := by
  obtain ⟨frames, hframes, h⟩ := chunks_decoded Sample.truthPeers [(.encodeUdsFrame, true), (.encodeJsonFrame, false)]
    (by unfold Peers.Fits; decide)
  obtain rfl := Option.some.inj hframes
  exact (h _ rfl).whole

end Fubun.Frames
