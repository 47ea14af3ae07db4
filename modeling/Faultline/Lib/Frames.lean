/-
Streams that are read frame by frame.

`next r stream` judges the front of a stream: it needs more bytes, refuses
what is there, or finds a frame of some size. The parameter is what the
reader knows when it comes to a frame. A judge is `Stable` when a verdict,
once reached, stands whatever follows. `parse` applies a judge again and
again; `Frames` describes the part of a stream that is behind the reader.
The rule clients use is `Frames.parse_append`: parsing goes on where the
frames end.
-/
import Mathlib.Data.List.Infix

namespace Lib

/-- What can be said about the front of a stream. -/
inductive Verdict (ε μ : Type) where
  | more
  | reject (why : ε)
  | deliver (message : μ) (size : Nat)
deriving DecidableEq, Repr

/-- What a reader makes of a stream: the messages it found, the bytes they
took, and why it gave up, if it did. -/
structure Parsed (ε μ : Type) where
  messages : List μ
  consumed : Nat
  rejected : Option ε
deriving DecidableEq, Repr

variable {ρ ε μ : Type}

/-- Put a frame in front. -/
def Parsed.cons (message : μ) (size : Nat) (parsed : Parsed ε μ) :
    Parsed ε μ :=
  { parsed with
    messages := message :: parsed.messages
    consumed := size + parsed.consumed }

/-- Read frame by frame, one parameter for each. -/
def parse (next : ρ → List UInt8 → Verdict ε μ) :
    List ρ → List UInt8 → Parsed ε μ
  | [], _ => ⟨[], 0, none⟩
  | r :: rs, stream =>
      match next r stream with
      | .more => ⟨[], 0, none⟩
      | .reject why => ⟨[], 0, some why⟩
      | .deliver message size =>
          (parse next rs (stream.drop size)).cons message size

/-- A verdict is never taken back, and a frame it finds is there. -/
structure Stable (next : ρ → List UInt8 → Verdict ε μ) : Prop where
  stands : ∀ {r : ρ} {stream : List UInt8} (rest : List UInt8),
    next r stream ≠ .more → next r (stream ++ rest) = next r stream
  size : ∀ {r : ρ} {stream : List UInt8} {message : μ} {size : Nat},
    next r stream = .deliver message size → size ≤ stream.length

variable {next : ρ → List UInt8 → Verdict ε μ} {r : ρ} {rs rs' : List ρ}
  {stream rest frame : List UInt8} {ms : List μ} {message : μ} {why : ε}
  {size : Nat}

theorem parse_more (h : next r stream = .more) :
    parse next (r :: rs) stream = ⟨[], 0, none⟩ := by
  simp [parse, h]

theorem parse_reject (h : next r stream = .reject why) :
    parse next (r :: rs) stream = ⟨[], 0, some why⟩ := by
  simp [parse, h]

theorem parse_deliver (h : next r stream = .deliver message size) :
    parse next (r :: rs) stream
      = (parse next rs (stream.drop size)).cons message size := by
  simp [parse, h]

/-- A stream that is whole frames, with the parameters they were read with
and what they hold. -/
inductive Frames (next : ρ → List UInt8 → Verdict ε μ) :
    List ρ → List UInt8 → List μ → Prop where
  | nil : Frames next [] [] []
  | snoc {rs : List ρ} {stream frame : List UInt8} {ms : List μ} {r : ρ}
      {message : μ} (before : Frames next rs stream ms)
      (last : next r frame = .deliver message frame.length) :
      Frames next (rs ++ [r]) (stream ++ frame) (ms ++ [message])

/-- Parsing goes on where the frames end. -/
theorem Frames.parse_append (stable : Stable next)
    (h : Frames next rs stream ms) (rs' : List ρ) (rest : List UInt8) :
    parse next (rs ++ rs') (stream ++ rest)
      = { messages := ms ++ (parse next rs' rest).messages
          consumed := stream.length + (parse next rs' rest).consumed
          rejected := (parse next rs' rest).rejected } := by
  induction h generalizing rs' rest with
  | nil => simp
  | snoc before last ih =>
      rename_i rs stream frame ms r message
      have hlast : next r (frame ++ rest) = .deliver message frame.length :=
        (stable.stands rest (by simp [last])).trans last
      rw [List.append_assoc, List.append_assoc, ih, List.singleton_append,
        parse_deliver hlast, List.drop_left]
      simp [Parsed.cons, Nat.add_assoc]

/-- Nothing is left when the parameters are used up. -/
theorem Frames.parse (stable : Stable next) (h : Frames next rs stream ms)
    (rest : List UInt8) :
    parse next rs (stream ++ rest) = ⟨ms, stream.length, none⟩ := by
  have happend := h.parse_append stable [] rest
  rw [List.append_nil] at happend
  rw [happend]
  simp [Lib.parse]

end Lib
