import Mathlib.Data.Nat.Notation
import Mathlib.Tactic.TypeStar

/-! A bounded queue of bytes, as `kfifo` is: a put copies what there is room for, a get what
there is. Frames of one size survive as long as no put is cut short. -/

namespace GapsoRbfPid.Library.ByteQueue

variable {β : Type*}

/-- `kfifo_in`. -/
def put (capacity : ℕ) (queue data : List β) : List β :=
  queue ++ data.take (capacity - queue.length)

/-- `kfifo_out`: the bytes copied, and the queue. -/
def get (size : ℕ) (queue : List β) : List β × List β := (queue.take size, queue.drop size)

/-- The queue is a sequence of whole frames. -/
def Holds (size : ℕ) (frames : List (List β)) (queue : List β) : Prop :=
  queue = frames.flatten ∧ ∀ frame ∈ frames, frame.length = size

theorem Holds.length {size : ℕ} {frames : List (List β)} {queue : List β}
    (holds : Holds size frames queue) : queue.length = size * frames.length := by
  obtain ⟨rfl, sizes⟩ := holds
  induction frames with
  | nil => rfl
  | cons frame frames ih =>
    have rest := ih fun frame member => sizes frame (List.mem_cons_of_mem _ member)
    rw [List.flatten_cons, List.length_append, sizes frame List.mem_cons_self, rest,
      List.length_cons, Nat.mul_add, Nat.mul_one, Nat.add_comm]

theorem put_of_room {capacity : ℕ} {queue data : List β}
    (room : queue.length + data.length ≤ capacity) : put capacity queue data = queue ++ data := by
  rw [put, List.take_of_length_le (by omega)]

theorem Holds.put {capacity size : ℕ} {frames : List (List β)} {queue : List β}
    (holds : Holds size frames queue) {frame : List β} (whole : frame.length = size)
    (room : queue.length + size ≤ capacity) :
    Holds size (frames ++ [frame]) (put capacity queue frame) := by
  rw [put_of_room (by omega)]
  refine ⟨by rw [holds.1, List.flatten_append, List.flatten_singleton], ?_⟩
  intro other member
  rcases List.mem_append.mp member with old | new
  · exact holds.2 other old
  · rw [List.mem_singleton.mp new, whole]

theorem get_frame {size : ℕ} {frame : List β} (whole : frame.length = size) (rest : List β) :
    get size (frame ++ rest) = (frame, rest) := by
  rw [get, List.take_left' whole, List.drop_left' whole]

/-- A put that does not fit as a whole leaves the queue full. -/
theorem put_length_of_full {capacity : ℕ} {queue data : List β} (bounded : queue.length ≤ capacity)
    (full : capacity < queue.length + data.length) : (put capacity queue data).length = capacity := by
  rw [put, List.length_append, List.length_take]
  omega

end GapsoRbfPid.Library.ByteQueue
