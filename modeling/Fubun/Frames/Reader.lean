import Fubun.Encoding.Framing
import Fubun.Relational.Table
import Fubun.Wire

/-! The frames of the core on a byte stream: `encode_json_frame`, and `read_json_frame` again and again. -/

namespace Fubun.Frames
open Encoding Relational

inductive FrameError where
  | io
  | oversized (actual maximum : Nat)
  | json
deriving DecidableEq

/-- `to_vec` and `from_slice` of `serde_json` at one type, which decodes what it has encoded. -/
structure Codec (α : Type) where
  toVec : α → List UInt8
  fromSlice : List UInt8 → Option α
  fromSlice_toVec : ∀ value, fromSlice (toVec value) = some value

/-- What one read comes to, with what is left of the stream and the size of the buffer that it has
asked for. -/
structure Read (α : Type) where
  result : Except FrameError (Option α)
  rest : List UInt8
  requested : Option Nat

/-- The first byte of the header is read alone: where there is none, the stream has ended. -/
def readFrame : List UInt8 → Read (List UInt8)
  | [] => ⟨.ok none, [], none⟩
  | byte :: rest =>
    if rest.length < 3 then ⟨.error .io, [], none⟩
    else
      let length := ofLittleEndian (byte :: rest.take 3)
      if maxMessageSize < length then ⟨.error (.oversized length maxMessageSize), rest.drop 3, none⟩
      else if (rest.drop 3).length < length then ⟨.error .io, [], some length⟩
      else ⟨.ok (some ((rest.drop 3).take length)), (rest.drop 3).drop length, some length⟩

section Json
variable {α : Type} (codec : Codec α)

def encodeJsonFrame (value : α) : Except FrameError (List UInt8) :=
  let payload := codec.toVec value
  if maxMessageSize < payload.length then .error (.oversized payload.length maxMessageSize)
  else .ok (littleEndian 4 payload.length ++ payload)

def readJsonFrame (stream : List UInt8) : Read α :=
  let read := readFrame stream
  { read with
    result :=
      match read.result with
      | .ok (some bytes) => (codec.fromSlice bytes).elim (.error .json) fun value => .ok (some value)
      | .ok none => .ok none
      | .error e => .error e }

inductive Ending where
  | endOfStream
  | failed (error : FrameError)
deriving DecidableEq

structure Reading (α : Type) where
  values : List α
  ending : Ending
  requested : List Nat

end Json

/-! ## One frame -/

theorem length_rest_lt {stream payload : List UInt8} (h : (readFrame stream).result = .ok (some payload)) :
    (readFrame stream).rest.length < stream.length := by
  unfold readFrame at h ⊢
  split at h
  · exact nomatch h
  · dsimp only at h ⊢
    split_ifs at h ⊢
    simp only [List.length_drop, List.length_cons]
    omega

theorem requested_le {stream : List UInt8} {n : Nat} (h : (readFrame stream).requested = some n) : n ≤ maxMessageSize := by
  unfold readFrame at h
  split at h
  · exact nomatch h
  · dsimp only at h
    split_ifs at h with hshort hlong hpart
    · exact Option.some.inj h ▸ Nat.not_lt.mp hlong
    · exact Option.some.inj h ▸ Nat.not_lt.mp hlong

theorem readFrame_header {stream : List UInt8} (h : 4 ≤ stream.length) : readFrame stream =
    if maxMessageSize < ofLittleEndian (stream.take 4) then
      ⟨.error (.oversized (ofLittleEndian (stream.take 4)) maxMessageSize), stream.drop 4, none⟩
    else if (stream.drop 4).length < ofLittleEndian (stream.take 4) then ⟨.error .io, [], some (ofLittleEndian (stream.take 4))⟩
    else ⟨.ok (some ((stream.drop 4).take (ofLittleEndian (stream.take 4)))), (stream.drop 4).drop (ofLittleEndian (stream.take 4)),
      some (ofLittleEndian (stream.take 4))⟩ := by
  cases stream with
  | nil => exact nomatch h
  | cons byte rest =>
    have hthree : ¬ rest.length < 3 := by
      rw [List.length_cons] at h
      omega
    rw [readFrame, if_neg hthree]
    rfl

theorem ofLittleEndian_frame {payload : List UInt8} (h : payload.length ≤ maxMessageSize) :
    ofLittleEndian (littleEndian 4 payload.length) = payload.length :=
  ofLittleEndian_littleEndian (Nat.lt_of_le_of_lt h (by decide))

theorem readFrame_frame {payload : List UInt8} (h : payload.length ≤ maxMessageSize) (rest : List UInt8) :
    readFrame (frame payload ++ rest) = ⟨.ok (some payload), rest, some payload.length⟩ := by
  have hlong : 4 ≤ (frame payload ++ rest).length := by
    rw [List.length_append, length_frame]
    omega
  have hfits : ¬ maxMessageSize < payload.length := Nat.not_lt.mpr h
  have hwhole : ¬ (payload ++ rest).length < payload.length := by
    rw [List.length_append]
    omega
  rw [readFrame_header hlong, take_frame, drop_frame, ofLittleEndian_frame h, if_neg hfits, if_neg hwhole, List.take_left,
    List.drop_left]

theorem readFrame_part {payload part : List UInt8} (h : payload.length ≤ maxMessageSize) (hpart : part <+: frame payload)
    (hne : part ≠ frame payload) (hsome : part ≠ []) : (readFrame part).result = .error .io := by
  obtain ⟨missing, hmissing⟩ := hpart
  have hlt : part.length < (frame payload).length := by
    apply Nat.lt_of_le_of_ne (List.IsPrefix.length_le ⟨missing, hmissing⟩)
    intro heq
    exact hne (List.IsPrefix.eq_of_length ⟨missing, hmissing⟩ heq)
  by_cases hfour : 4 ≤ part.length
  · have htake : part.take 4 = littleEndian 4 payload.length := by
      rw [← take_frame payload [], List.append_nil, ← hmissing, List.take_append_of_le_length hfour]
    have hfits : ¬ maxMessageSize < payload.length := Nat.not_lt.mpr h
    have hshort : (part.drop 4).length < payload.length := by
      rw [length_frame] at hlt
      rw [List.length_drop]
      omega
    rw [readFrame_header hfour, htake, ofLittleEndian_frame h, if_neg hfits, if_pos hshort]
  · cases part with
    | nil => exact absurd rfl hsome
    | cons byte rest =>
      have hthree : rest.length < 3 := by
        rw [List.length_cons] at hfour
        omega
      rw [readFrame, if_pos hthree]

/-! ## A stream -/

section Stream
variable {α : Type} (codec : Codec α)

theorem length_rest_json {stream : List UInt8} {value : α} {rest : List UInt8} {requested : Option Nat}
    (h : readJsonFrame codec stream = ⟨.ok (some value), rest, requested⟩) : rest.length < stream.length := by
  unfold readJsonFrame at h
  obtain ⟨hresult, rfl, -⟩ := Read.mk.inj h
  cases hread : (readFrame stream).result with
  | error e =>
    rw [hread] at hresult
    exact nomatch hresult
  | ok bytes =>
    cases bytes with
    | none =>
      rw [hread] at hresult
      exact nomatch hresult
    | some bytes => exact length_rest_lt hread

def readAll (stream : List UInt8) : Reading α :=
  match _h : readJsonFrame codec stream with
  | ⟨.ok (some value), rest, requested⟩ =>
    let more := readAll rest
    ⟨value :: more.values, more.ending, requested.toList ++ more.requested⟩
  | ⟨.ok none, _, requested⟩ => ⟨[], .endOfStream, requested.toList⟩
  | ⟨.error e, _, requested⟩ => ⟨[], .failed e, requested.toList⟩
termination_by stream.length
decreasing_by exact length_rest_json codec _h

variable {codec}

theorem readAll_nil : readAll codec [] = ⟨[], .endOfStream, []⟩ := by
  rw [readAll]
  rfl

theorem readAll_cons {stream rest : List UInt8} {value : α} {requested : Option Nat}
    (h : readJsonFrame codec stream = ⟨.ok (some value), rest, requested⟩) :
    readAll codec stream =
      ⟨value :: (readAll codec rest).values, (readAll codec rest).ending, requested.toList ++ (readAll codec rest).requested⟩ := by
  rw [readAll]
  split
  · rename_i heq
    rw [h] at heq
    obtain ⟨hvalue, rfl, rfl⟩ := Read.mk.inj heq
    obtain rfl := Option.some.inj (Except.ok.inj hvalue)
    rfl
  · rename_i heq
    rw [h] at heq
    exact nomatch (Read.mk.inj heq).1
  · rename_i heq
    rw [h] at heq
    exact nomatch (Read.mk.inj heq).1

theorem readAll_error {stream : List UInt8} {e : FrameError} (h : (readJsonFrame codec stream).result = .error e) :
    (readAll codec stream).values = [] ∧ (readAll codec stream).ending = .failed e := by
  rw [readAll]
  split
  · rename_i heq
    rw [heq] at h
    exact nomatch h
  · rename_i heq
    rw [heq] at h
    exact nomatch h
  · rename_i heq
    rw [heq] at h
    obtain rfl := Except.error.inj h
    exact ⟨rfl, rfl⟩

/-- No read asks for more than a message may take, whatever the stream holds. -/
theorem readAll_requested (stream : List UInt8) : ∀ n ∈ (readAll codec stream).requested, n ≤ maxMessageSize := by
  induction hlength : stream.length using Nat.strong_induction_on generalizing stream with
  | _ length ih =>
    have hrequested : ∀ n, (readJsonFrame codec stream).requested = some n → n ≤ maxMessageSize := fun n hn => requested_le hn
    intro n hn
    rw [readAll] at hn
    split at hn
    · rename_i value rest requested heq
      rw [heq] at hrequested
      rcases List.mem_append.mp hn with hn | hn
      · exact hrequested n (Option.mem_toList.mp hn)
      · exact ih rest.length (hlength ▸ length_rest_json codec heq) rest rfl n hn
    · rename_i heq
      rw [heq] at hrequested
      exact hrequested n (Option.mem_toList.mp hn)
    · rename_i heq
      rw [heq] at hrequested
      exact hrequested n (Option.mem_toList.mp hn)

theorem encodeJsonFrame_eq {value : α} (h : (codec.toVec value).length ≤ maxMessageSize) :
    encodeJsonFrame codec value = .ok (frame (codec.toVec value)) := if_neg (Nat.not_lt.mpr h)

theorem readJsonFrame_frame {value : α} (h : (codec.toVec value).length ≤ maxMessageSize) (rest : List UInt8) :
    readJsonFrame codec (frame (codec.toVec value) ++ rest) = ⟨.ok (some value), rest, some (codec.toVec value).length⟩ := by
  unfold readJsonFrame
  rw [readFrame_frame h]
  simp only [codec.fromSlice_toVec, Option.elim_some]

theorem readAll_frames {values : List α} (h : ∀ value ∈ values, (codec.toVec value).length ≤ maxMessageSize) (rest : List UInt8) :
    (readAll codec ((values.map fun value => frame (codec.toVec value)).flatten ++ rest)).values =
        values ++ (readAll codec rest).values ∧
      (readAll codec ((values.map fun value => frame (codec.toVec value)).flatten ++ rest)).ending = (readAll codec rest).ending := by
  induction values with
  | nil => exact ⟨rfl, rfl⟩
  | cons value values ih =>
    obtain ⟨hvalue, hvalues⟩ := List.forall_mem_cons.mp h
    obtain ⟨hread, hending⟩ := ih hvalues
    rw [List.map_cons, List.flatten_cons, List.append_assoc, readAll_cons (readJsonFrame_frame hvalue _)]
    exact ⟨by rw [hread, List.cons_append], hending⟩

theorem mapM_encodeJsonFrame {values : List α} (h : ∀ value ∈ values, (codec.toVec value).length ≤ maxMessageSize) :
    values.mapM (encodeJsonFrame codec) = .ok (values.map fun value => frame (codec.toVec value)) := by
  induction values with
  | nil => rfl
  | cons value values ih =>
    obtain ⟨hvalue, hvalues⟩ := List.forall_mem_cons.mp h
    rw [List.mapM_cons, encodeJsonFrame_eq hvalue, ih hvalues]
    rfl

end Stream

/-- What the reader makes of a stream of frames, of a part of it, and of any stream. -/
structure IsFaithful {α : Type} (codec : Codec α) (values : List α) (frames : List (List UInt8)) : Prop where
  encoded : values.mapM (encodeJsonFrame codec) = .ok frames
  whole : (readAll codec frames.flatten).values = values ∧ (readAll codec frames.flatten).ending = .endOfStream
  part : ∀ received, received <+: frames.flatten → ∃ k rest, received = (frames.take k).flatten ++ rest ∧
    IsPartial rest (frames.drop k) ∧ (readAll codec received).values = values.take k ∧
    ((readAll codec received).ending = .endOfStream ↔ ∃ j, received = (frames.take j).flatten)

theorem frame_stream {α : Type} (codec : Codec α) : (∀ values : List α, (∀ value ∈ values, (codec.toVec value).length ≤ maxMessageSize) →
      ∃ frames, IsFaithful codec values frames) ∧
    ∀ stream, ∀ n ∈ (readAll codec stream).requested, n ≤ maxMessageSize := by
  refine ⟨?_, readAll_requested⟩
  intro values hvalues
  refine ⟨_, mapM_encodeJsonFrame hvalues, ?_, ?_⟩
  · obtain ⟨hread, hending⟩ := readAll_frames hvalues []
    rw [List.append_nil, readAll_nil] at hread hending
    exact ⟨hread.trans (List.append_nil _), hending⟩
  · intro received hreceived
    obtain ⟨done, left, rest, hpieces, rfl, hrest⟩ := exists_split hreceived
    obtain ⟨read, unread, rfl, rfl, rfl⟩ := List.map_eq_append_iff.mp hpieces
    obtain ⟨hread, hunread⟩ := List.forall_mem_append.mp hvalues
    have htake : ((read ++ unread).map fun value => frame (codec.toVec value)).take read.length =
        read.map fun value => frame (codec.toVec value) := by
      rw [List.map_append, List.take_left' (List.length_map _)]
    have hdrop : ((read ++ unread).map fun value => frame (codec.toVec value)).drop read.length =
        unread.map fun value => frame (codec.toVec value) := by
      rw [List.map_append, List.drop_left' (List.length_map _)]
    obtain ⟨hvalues, hending⟩ := readAll_frames hread rest
    -- what is left of the stream is a part of a frame, or nothing
    have hpart : (readAll codec rest).values = [] ∧ ((readAll codec rest).ending = .endOfStream ↔ rest = []) := by
      by_cases hnone : rest = []
      · subst hnone
        rw [readAll_nil]
        exact ⟨rfl, fun _ => rfl, fun _ => rfl⟩
      · cases unread with
        | nil => exact absurd hrest hnone
        | cons value unread =>
          have hio := readFrame_part (List.forall_mem_cons.mp hunread).1 hrest.1 hrest.2 hnone
          have herror : (readJsonFrame codec rest).result = .error .io := by
            unfold readJsonFrame
            dsimp only
            rw [hio]
          obtain ⟨hnothing, hfailed⟩ := readAll_error herror
          rw [hfailed]
          exact ⟨hnothing, fun heq => (nomatch heq), fun heq => absurd heq hnone⟩
    refine ⟨read.length, rest, by rw [htake], by rw [hdrop]; exact hrest, ?_, ?_⟩
    · rw [hvalues, hpart.1, List.append_nil, List.take_left]
    · rw [hending, hpart.2, List.map_append]
      exact (split_boundary hrest).symm

end Fubun.Frames

namespace Fubun.Sample
open Frames

def truthCodec : Codec Bool where
  toVec value := if value then [116, 114, 117, 101] else [102, 97, 108, 115, 101]
  fromSlice bytes :=
    if bytes = [116, 114, 117, 101] then some true else if bytes = [102, 97, 108, 115, 101] then some false else none
  fromSlice_toVec := by decide

end Fubun.Sample

namespace Fubun.Frames

theorem frame_stream_truths : ∃ frames, IsFaithful Sample.truthCodec [true, false] frames ∧ frames.flatten.length = 17 := by
  obtain ⟨frames, h⟩ := (frame_stream Sample.truthCodec).1 [true, false] (by decide)
  have hframes : Except.ok frames = [true, false].mapM (encodeJsonFrame Sample.truthCodec) := h.encoded.symm
  obtain rfl := Except.ok.inj hframes
  exact ⟨_, h, rfl⟩

end Fubun.Frames
