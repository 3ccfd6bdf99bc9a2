import CppMyth.Library.Transition

/-! A queue of bounded length that drops its oldest element when it is full, as an acceptor of
what is seen of a buffer. What it delivers was written before, in the same order. -/
namespace CppMyth.Library

inductive FifoEvent (α : Type*) where
  | wrote (a : α) (discarded : Option α)
  | got (result : Option α)
  | cleared
  | silent

variable {α : Type*} [DecidableEq α]

def fifo (capacity : Nat) (queue : List α) : FifoEvent α → Option (List α)
  | .wrote a discarded =>
    if queue.length < capacity then
      if discarded = none then some (queue ++ [a]) else none
    else if discarded = queue.head? then some (queue.tail ++ [a]) else none
  | .got result => if result = queue.head? then some queue.tail else none
  | .cleared => some []
  | .silent => some queue

namespace FifoEvent

def written : List (FifoEvent α) → List α
  | [] => []
  | .wrote a _ :: rest => a :: written rest
  | _ :: rest => written rest

def delivered : List (FifoEvent α) → List α
  | [] => []
  | .got (some a) :: rest => a :: delivered rest
  | _ :: rest => delivered rest

end FifoEvent

/-- Delivery in the order of writing, whatever was discarded in between. -/
theorem delivered_sublist {capacity : Nat} {queue : List α} {events : List (FifoEvent α)}
    (accepted : Machine.Accepts (fifo capacity) queue events) :
    (FifoEvent.delivered events).Sublist (queue ++ FifoEvent.written events) := by
  induction events generalizing queue with
  | nil => exact List.nil_sublist _
  | cons event rest ih =>
    obtain ⟨next, step, accepted⟩ := accepted
    have tail := ih accepted
    cases event with
    | wrote a discarded =>
      have short : next = queue ++ [a] ∨ next = queue.tail ++ [a] := by
        unfold fifo at step
        grind
      have bound : (next ++ FifoEvent.written rest).Sublist
          (queue ++ a :: FifoEvent.written rest) := by
        rcases short with rfl | rfl
        · simp
        · simpa using (List.tail_sublist queue).append_right (a :: FifoEvent.written rest)
      exact tail.trans bound
    | got result =>
      have taken : result = queue.head? ∧ next = queue.tail := by
        unfold fifo at step
        grind
      obtain ⟨rfl, rfl⟩ := taken
      cases queue with
      | nil => exact tail
      | cons a queue => exact tail.cons_cons a
    | cleared =>
      obtain rfl : [] = next := Option.some.inj step
      exact tail.trans (List.sublist_append_right queue _)
    | silent =>
      obtain rfl : queue = next := Option.some.inj step
      exact tail

end CppMyth.Library
