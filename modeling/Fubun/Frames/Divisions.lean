import Fubun.Encoding.Incremental
import Fubun.Frames.Chunks

/-! The decoder of the VS Code extension on any stream. What is malformed in a chunk takes the values of
the frames before it in the same chunk with it, so that they come out only where a chunk ends between. -/

namespace Fubun.Frames
open Encoding Vscode

variable {α : Type} (parse : List UInt8 → Option α)

def nextFrame (buffer : List UInt8) : Next α :=
  if buffer.length < 4 then .more
  else
    let length := readUInt32LE (buffer.take 4)
    if length = 0 ∨ maxMessageSize < length then .malformed 4
    else if buffer.length < length + 4 then .more
    else (parse ((buffer.drop 4).take length)).elim (.malformed (length + 4)) (.value (length + 4))

/-- Successive calls of `push` up to the first that throws: the values that they return, and whether one throws. -/
def received (buffer : List UInt8) : List (List UInt8) → List α × Bool
  | [] => ([], false)
  | chunk :: chunks =>
    match push parse buffer chunk with
    | (.ok values, buffer) => (values ++ (received buffer chunks).1, (received buffer chunks).2)
    | (.error _, _) => ([], true)

variable {parse}

theorem upTo_elim_of_lt {n size : Nat} (h : n < size) (result : Option α) :
    (result.elim (Next.malformed size) (Next.value size)).upTo n = .more := by
  cases result with
  | none => exact if_neg (Nat.not_le_of_lt h)
  | some v => exact if_neg (Nat.not_le_of_lt h)

theorem upTo_elim_of_le {n size : Nat} (h : size ≤ n) (result : Option α) :
    (result.elim (Next.malformed size) (Next.value size)).upTo n = result.elim (Next.malformed size) (Next.value size) := by
  cases result with
  | none => exact if_pos h
  | some v => exact if_pos h

/-- Bytes behind a frame do not change what it is taken for. -/
theorem nextFrame_prefix (buffer rest : List UInt8) :
    nextFrame parse buffer = (nextFrame parse (buffer ++ rest)).upTo buffer.length := by
  unfold nextFrame
  dsimp only
  by_cases hfour : buffer.length < 4
  · rw [if_pos hfour]
    split_ifs with hmore hbad hshort
    · rfl
    · exact (if_neg (Nat.not_le_of_lt hfour)).symm
    · rfl
    · exact (upTo_elim_of_lt (by omega) _).symm
  · have hlong : ¬ (buffer ++ rest).length < 4 := by
      rw [List.length_append]
      omega
    rw [if_neg hfour, if_neg hlong, List.take_append_of_le_length (Nat.not_lt.mp hfour)]
    split_ifs with hbad hshort hless hless
    · exact (if_pos (Nat.not_lt.mp hfour)).symm
    · rfl
    · exact (upTo_elim_of_lt hshort _).symm
    · rw [List.length_append] at hless
      omega
    · have hpayload : readUInt32LE (buffer.take 4) ≤ (buffer.drop 4).length := by
        rw [List.length_drop]
        omega
      rw [upTo_elim_of_le (Nat.not_lt.mp hshort), List.drop_append_of_le_length (Nat.not_lt.mp hfour),
        List.take_append_of_le_length hpayload]

theorem nextFrame_pos (buffer : List UInt8) (size : Nat) (v : α) (h : nextFrame parse buffer = .value size v) : 0 < size := by
  unfold nextFrame at h
  dsimp only at h
  split_ifs at h
  cases hparse : parse ((buffer.drop 4).take (readUInt32LE (buffer.take 4))) with
  | none => rw [hparse] at h; exact nomatch h
  | some v =>
    rw [hparse] at h
    obtain ⟨rfl, -⟩ := Next.value.inj h
    exact Nat.succ_pos _

variable (parse) in
/-- The decoder of `push`. -/
def udsFrames : Incremental UInt8 α where
  next := nextFrame parse
  next_prefix := nextFrame_prefix
  value_pos := nextFrame_pos

/-! ## The loop of `push` -/

theorem takeFrames_more (n : Nat) {buffer : List UInt8} (h : nextFrame parse buffer = .more) :
    takeFrames parse n buffer = (.ok [], buffer) := by
  cases n with
  | zero => rfl
  | succ n =>
    unfold nextFrame at h
    rw [takeFrames]
    dsimp only at h ⊢
    split_ifs at h ⊢
    · rfl
    · rfl
    · cases hparse : parse ((buffer.drop 4).take (readUInt32LE (buffer.take 4))) with
      | none => rw [hparse] at h; cases h
      | some v => rw [hparse] at h; cases h

theorem takeFrames_malformed (n : Nat) {buffer : List UInt8} {size : Nat} (h : nextFrame parse buffer = .malformed size) :
    ∃ e rest, takeFrames parse (n + 1) buffer = (.error e, rest) := by
  unfold nextFrame at h
  rw [takeFrames]
  dsimp only at h ⊢
  split_ifs at h ⊢
  · exact ⟨_, _, rfl⟩
  · cases hparse : parse ((buffer.drop 4).take (readUInt32LE (buffer.take 4))) with
    | none => exact ⟨_, _, rfl⟩
    | some v => rw [hparse] at h; cases h

theorem takeFrames_value (n : Nat) {buffer : List UInt8} {size : Nat} {v : α} (h : nextFrame parse buffer = .value size v) :
    takeFrames parse (n + 1) buffer =
      ((takeFrames parse n (buffer.drop size)).1.map (v :: ·), (takeFrames parse n (buffer.drop size)).2) := by
  unfold nextFrame at h
  rw [takeFrames]
  dsimp only at h ⊢
  split_ifs at h ⊢
  cases hparse : parse ((buffer.drop 4).take (readUInt32LE (buffer.take 4))) with
  | none => rw [hparse] at h; cases h
  | some w =>
    rw [hparse] at h
    obtain ⟨rfl, rfl⟩ := Next.value.inj h
    rfl

/-- The loop of `push` is the draining of its buffer. -/
theorem takeFrames_drain {n : Nat} {buffer : List UInt8} (h : buffer.length ≤ n) :
    match (udsFrames parse).drain buffer with
    | some (values, rest) => takeFrames parse n buffer = (.ok values, rest)
    | none => ∃ e rest, takeFrames parse n buffer = (.error e, rest) := by
  induction n generalizing buffer with
  | zero =>
    obtain rfl := List.eq_nil_of_length_eq_zero (Nat.le_zero.mp h)
    rw [Incremental.drain_more (D := udsFrames parse) rfl]
    rfl
  | succ n ih =>
    cases hnext : nextFrame parse buffer with
    | more =>
      rw [Incremental.drain_more (D := udsFrames parse) hnext]
      exact takeFrames_more _ hnext
    | malformed size =>
      rw [Incremental.drain_malformed (D := udsFrames parse) hnext]
      exact takeFrames_malformed n hnext
    | value size v =>
      -- a value takes something from the buffer
      have hlt : (buffer.drop size).length < buffer.length := Incremental.length_drop_lt (D := udsFrames parse) hnext
      have hrest := @ih (buffer.drop size) (by omega)
      rw [Incremental.drain_value (D := udsFrames parse) hnext, takeFrames_value n hnext]
      cases hdrain : (udsFrames parse).drain (buffer.drop size) with
      | none =>
        rw [hdrain] at hrest
        obtain ⟨e, rest, heq⟩ := hrest
        exact ⟨e, rest, by rw [heq]; rfl⟩
      | some drained =>
        rw [hdrain] at hrest
        dsimp only [Option.map_some] at hrest ⊢
        rw [hrest]
        rfl

theorem received_eq (buffer : List UInt8) (chunks : List (List UInt8)) :
    received parse buffer chunks = (udsFrames parse).returned buffer chunks := by
  induction chunks generalizing buffer with
  | nil => rfl
  | cons chunk chunks ih =>
    have hpush : match (udsFrames parse).drain (buffer ++ chunk) with
        | some (values, rest) => takeFrames parse (buffer ++ chunk).length (buffer ++ chunk) = (.ok values, rest)
        | none => ∃ e rest, takeFrames parse (buffer ++ chunk).length (buffer ++ chunk) = (.error e, rest) :=
      takeFrames_drain (Nat.le_refl _)
    rw [received, Incremental.returned, push]
    cases hdrain : (udsFrames parse).drain (buffer ++ chunk) with
    | none =>
      rw [hdrain] at hpush
      obtain ⟨e, rest, heq⟩ := hpush
      rw [heq]
    | some drained =>
      rw [hdrain] at hpush
      rw [hpush]
      dsimp only
      rw [ih]

/-! ## Divisions of one stream -/

section
variable (parse)

def frameEnds (stream : List UInt8) : List Nat := ((udsFrames parse).layout 0 stream).1.map Prod.fst

/-- How much of the stream it takes to throw. -/
def malformedAt (stream : List UInt8) : Option Nat := ((udsFrames parse).layout 0 stream).2

end

/-- Whether a call throws is told by the stream alone. -/
theorem received_raises (chunks : List (List UInt8)) :
    (received parse [] chunks).2 = (malformedAt parse chunks.flatten).isSome := by
  rw [received_eq, Incremental.returned_nil rfl, malformedAt]
  cases hp : ((udsFrames parse).layout 0 chunks.flatten).2 with
  | none => rw [Incremental.given_none hp]; rfl
  | some p => rw [Incremental.given_some hp]; rfl

/-- What comes out does not depend on the division just when no frame ends between the chunks that throw. -/
theorem received_division {chunks chunks' : List (List UInt8)} (h : chunks.flatten = chunks'.flatten) :
    received parse [] chunks = received parse [] chunks' ↔ ∀ p, malformedAt parse chunks.flatten = some p →
      ∀ e ∈ frameEnds parse chunks.flatten,
        (e ≤ Incremental.fedBefore p chunks ↔ e ≤ Incremental.fedBefore p chunks') := by
  rw [received_eq, received_eq, Incremental.returned_eq_iff h rfl]
  simp only [frameEnds, malformedAt, List.forall_mem_map]

/-- In both divisions the frame comes in a chunk before the one that throws. -/
theorem received_division_truth :
    received Sample.truthPeers.parse [] [[4, 0, 0, 0, 116, 114, 117, 101], [0, 0, 0, 0]] =
        received Sample.truthPeers.parse [] [[4, 0, 0, 0, 116, 114], [117, 101], [0, 0, 0, 0]] ∧
      ∀ p, malformedAt Sample.truthPeers.parse [4, 0, 0, 0, 116, 114, 117, 101, 0, 0, 0, 0] = some p →
        ∀ e ∈ frameEnds Sample.truthPeers.parse [4, 0, 0, 0, 116, 114, 117, 101, 0, 0, 0, 0],
          (e ≤ Incremental.fedBefore p [[4, 0, 0, 0, 116, 114, 117, 101], [0, 0, 0, 0]] ↔
            e ≤ Incremental.fedBefore p [[4, 0, 0, 0, 116, 114], [117, 101], [0, 0, 0, 0]]) := by
  have hflatten : [[4, 0, 0, 0, 116, 114, 117, 101], [0, 0, 0, 0]].flatten =
      [[4, 0, 0, 0, 116, 114], [117, 101], [0, 0, 0, (0 : UInt8)]].flatten := rfl
  have hsame : received Sample.truthPeers.parse [] [[4, 0, 0, 0, 116, 114, 117, 101], [0, 0, 0, 0]] =
      received Sample.truthPeers.parse [] [[4, 0, 0, 0, 116, 114], [117, 101], [0, 0, 0, 0]] := by decide
  exact ⟨hsame, (received_division hflatten).mp hsame⟩

/-- A frame of length zero behind one that is well formed: the first is lost when both come in one chunk. -/
theorem division_changes_outcome : ¬ ∀ chunks chunks' : List (List UInt8), chunks.flatten = chunks'.flatten →
    received Sample.truthPeers.parse [] chunks = received Sample.truthPeers.parse [] chunks' := by
  intro h
  have hsame := h [[4, 0, 0, 0, 116, 114, 117, 101, 0, 0, 0, 0]] [[4, 0, 0, 0, 116, 114, 117, 101], [0, 0, 0, 0]] rfl
  exact absurd hsame (by decide)

end Fubun.Frames
