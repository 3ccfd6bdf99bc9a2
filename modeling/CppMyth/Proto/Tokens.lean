import CppMyth.Proto.Event

/-! The tokens that `mythprotoevent.cpp` splits the subject of an event and a signal status
into, when null tokens are kept. -/
namespace CppMyth
open Library

/-- `tokens` are the pieces of a text between delimiters, of which at most `cap` are cut. -/
structure Tokens {α : Type*} (delimiter : α) (cap : Nat) (str : List α)
    (tokens : List (List α)) : Prop where
  some_token : tokens ≠ []
  capped : tokens.length ≤ cap
  joined : joinFields [delimiter] tokens = str
  free : ∀ token ∈ tokens.dropLast, delimiter ∉ token
  whole : tokens.length < cap → ∀ token ∈ tokens, delimiter ∉ token

section Tokens

variable {α : Type*} {delimiter : α} {cap : Nat} {front str : List α} {tokens : List (List α)}

theorem Tokens.one (room : 1 < cap → delimiter ∉ str) (positive : 0 < cap) :
    Tokens delimiter cap str [str] where
  some_token := List.cons_ne_nil str []
  capped := positive
  joined := rfl
  free := by simp
  whole := by simpa using room

theorem Tokens.cons (absent : delimiter ∉ front) (split : Tokens delimiter cap str tokens) :
    Tokens delimiter (cap + 1) (front ++ delimiter :: str) (front :: tokens) where
  some_token := List.cons_ne_nil front tokens
  capped := Nat.succ_le_succ split.capped
  joined := by
    rw [joinFields_cons _ _ split.some_token, split.joined]
    simp
  free := by
    intro token mem
    rw [List.dropLast_cons_of_ne_nil split.some_token] at mem
    cases mem with
    | head => exact absent
    | tail _ mem => exact split.free token mem
  whole := by
    intro below token mem
    cases mem with
    | head => exact absent
    | tail _ mem => exact split.whole (Nat.lt_of_succ_lt_succ below) token mem

end Tokens

variable {delimiter : UInt8} {trimnull : Bool} {front str : List UInt8}

theorem tokenizeLoop_absent (splits : Nat) (absent : delimiter ∉ str) :
    tokenizeLoop [delimiter] trimnull splits str = [str] := by
  cases splits with
  | zero => rfl
  | succ splits =>
    have all : str.takeWhile (· ∉ [delimiter]) = str := by
      apply List.takeWhile_eq_self_iff.mpr
      intro x mem
      have other : x ≠ delimiter := fun same => absent (same ▸ mem)
      simpa using other
    simp only [tokenizeLoop, all, List.drop_length]

theorem tokenizeLoop_found (splits : Nat) (absent : delimiter ∉ front) :
    tokenizeLoop [delimiter] false (splits + 1) (front ++ delimiter :: str) =
      front :: tokenizeLoop [delimiter] false splits str := by
  have first : (front ++ delimiter :: str).takeWhile (· ∉ [delimiter]) = front := by
    rw [List.takeWhile_append_of_pos]
    · simp
    · intro x mem
      have other : x ≠ delimiter := fun same => absent (same ▸ mem)
      simpa using other
  simp only [tokenizeLoop, first, List.drop_left, Bool.false_eq_true, if_false]

theorem tokenizeLoop_tokens (splits : Nat) (str : List UInt8) :
    Tokens delimiter (splits + 1) str (tokenizeLoop [delimiter] false splits str) := by
  induction splits generalizing str with
  | zero =>
    apply Tokens.one
    · intro more
      omega
    · exact Nat.zero_lt_one
  | succ splits ih =>
    by_cases mem : delimiter ∈ str
    · obtain ⟨front, rest, rfl, absent⟩ := List.eq_append_cons_of_mem mem
      rw [tokenizeLoop_found splits absent]
      exact .cons absent (ih rest)
    · rw [tokenizeLoop_absent _ mem]
      exact .one (fun _ => mem) (Nat.succ_pos _)

theorem tokenizeLoop_splitOn (splits : Nat) (str : List UInt8)
    (below : str.count delimiter ≤ splits) :
    tokenizeLoop [delimiter] false splits str = str.splitOn delimiter := by
  induction splits generalizing str with
  | zero =>
    have absent : delimiter ∉ str := List.count_eq_zero.mp (Nat.le_zero.mp below)
    rw [tokenizeLoop_absent 0 absent, List.splitOn_eq_singleton absent]
  | succ splits ih =>
    by_cases mem : delimiter ∈ str
    · obtain ⟨front, rest, rfl, absent⟩ := List.eq_append_cons_of_mem mem
      have fewer : rest.count delimiter ≤ splits := by
        rw [List.count_append, List.count_cons_self] at below
        omega
      rw [tokenizeLoop_found splits absent, ih rest fewer,
        List.splitOn_append_cons_self_of_not_mem absent]
    · rw [tokenizeLoop_absent _ mem, List.splitOn_eq_singleton mem]

namespace ProtoBase

variable {D : Type}

theorem rcvSubject_subject (codec : DoubleCodec D) (subject : List (List UInt8))
    (t : ProtoBase) : (rcvSubject codec subject t).1.subject = subject := by
  apply rcvSubject_cases (Q := fun r => r.1.subject = subject) <;> exact fun _ same => same

/-- The message at hand is announced and its first field says that a subject follows. -/
def BackendMessage (t : ProtoBase) : Prop :=
  t.rcvMessageLength.1 = true ∧
    t.rcvMessageLength.2.readField.1 = some (ascii "BACKEND_MESSAGE")

def subjectField (t : ProtoBase) : List UInt8 :=
  t.rcvMessageLength.2.readField.2.readField.1.getD []

theorem rcvEvent_subject (codec : DoubleCodec D) {t : ProtoBase} (message : t.BackendMessage) :
    (rcvEvent codec t).1.subject = tokenize t.subjectField (ascii " ") false := by
  obtain ⟨announced, first⟩ := message
  unfold rcvEvent
  simp only [announced, first, if_true]
  exact rcvSubject_subject codec _ _

/-- The tokens of a text are its pieces, with a cap of 255; the dispatcher looks at the pieces
of its field and always finds a first one. -/
theorem tokens_complete (codec : DoubleCodec D) (t : ProtoBase) (str : List UInt8)
    (delimiter : UInt8) :
    Tokens delimiter 255 str (tokenize str [delimiter] false) ∧
    (str.count delimiter < 255 →
      tokenize str [delimiter] false = str.splitOn delimiter) ∧
    (t.BackendMessage →
      Tokens 32 255 t.subjectField (rcvEvent codec t).1.subject ∧
      (t.subjectField.count 32 < 255 →
        (rcvEvent codec t).1.subject = t.subjectField.splitOn 32) ∧
      ∃ head, (rcvEvent codec t).1.subject[0]? = some head) := by
  have pieces (d : UInt8) (s : List UInt8) : Tokens d 255 s (tokenize s [d] false) :=
    tokenizeLoop_tokens 254 s
  have exact_pieces (d : UInt8) (s : List UInt8) (below : s.count d < 255) :
      tokenize s [d] false = s.splitOn d :=
    tokenizeLoop_splitOn 254 s (Nat.le_of_lt_succ below)
  refine ⟨pieces delimiter str, exact_pieces delimiter str, ?_⟩
  intro message
  rw [rcvEvent_subject codec message]
  refine ⟨pieces 32 _, exact_pieces 32 _, ?_⟩
  obtain ⟨head, rest, split⟩ := List.exists_cons_of_ne_nil (pieces 32 t.subjectField).some_token
  exact ⟨head, congrArg (·[0]?) split⟩

def quitting : ProtoBase :=
  subscribed [] (ascii "33      BACKEND_MESSAGE[]:[]QUIT_LIVETV 1") (fun _ => .ready 99)
    (fun _ => true) 91 fun _ => []

theorem tokens_complete_quitting :
    Tokens 32 255 quitting.subjectField (rcvEvent zeroCodec quitting).1.subject ∧
      (rcvEvent zeroCodec quitting).1.subject = [ascii "QUIT_LIVETV", ascii "1"] ∧
      ∃ head, (rcvEvent zeroCodec quitting).1.subject[0]? = some head := by
  have complete := (tokens_complete zeroCodec quitting [] 32).2.2 ⟨by decide, by decide⟩
  exact ⟨complete.1, by decide, complete.2.2⟩

end ProtoBase
end CppMyth
