import CppMyth.Http.Chunked

/-! How a chunked body may end. ReadContent answers zero for a body that ends in the middle of a
chunk, and for a size line that it cannot read: what holds when it does neither. -/
namespace CppMyth.WSResponse
open Library NetSocket

variable {S D : Type} [NetSocket S]

/-- The lines and chunks of a body lead to a whole line with the size zero, and `data` are the
bytes of the chunks before it. Lines are those of ReadHeaderLine, blank ones are passed over. -/
inductive Terminated : List UInt8 → List UInt8 → Prop where
  | last {body : List UInt8} : (sizeLine body).1.complete = true →
      hexSize (sizeLine body).1.line = some 0 → Terminated body []
  | chunk {body data : List UInt8} {size : Nat} : (sizeLine body).1.complete = true →
      hexSize (sizeLine body).1.line = some size → 0 < size → size ≤ chunkMaxSize →
      size ≤ (sizeLine body).2.length → Terminated ((sizeLine body).2.drop size) data →
      Terminated body ((sizeLine body).2.take size ++ data)

/-- The end of content is reported after the terminal line only, and an end without such a line
by some negative answer. What is answered after a negative value reports nothing. -/
structure EndsTruly (answers : Nat → Int × List UInt8) (body : List UInt8) : Prop where
  zero : ∀ i, (∀ j, j < i → 0 ≤ (answers j).1) → (answers i).1 = 0 →
    Terminated body ((List.range i).flatMap fun j => (answers j).2)
  negative : (¬ ∃ data, Terminated body data) → ∃ i, (answers i).1 < 0

/-- Where the size lines lead, each with the number that `%x` takes from it: to a line without
text or with a size over the limit, or to a size zero by lines that are whole and exact. -/
def Reliable (body : List UInt8) : Prop :=
  (scan 0 body).ending = .refused ∨
    ((scan 0 body).ending = .zero ∧ (scan 0 body).exact = true)

instance (body : List UInt8) : Decidable (Reliable body) :=
  inferInstanceAs (Decidable (_ ∨ (_ ∧ _)))

theorem hexSize_digits {line : List UInt8} {size : Nat} (h : hexSize line = some size) :
    line.takeWhile isxdigit ≠ [] ∧ hexValue (line.takeWhile isxdigit) = size := by
  unfold hexSize at h
  simp only at h
  split at h
  · rename_i number
    exact ⟨number.1, Option.some.inj h⟩
  · cases h

theorem hexSize_scanSize {line : List UInt8} {size : Nat} (h : hexSize line = some size)
    (fits : size ≤ chunkMaxSize) : scanSize line = some size := by
  obtain ⟨digits, value⟩ := hexSize_digits h
  have some_text : line ≠ [] := by
    rintro rfl
    exact digits rfl
  have small : size < 2 ^ 32 := Nat.lt_of_le_of_lt fits (by decide)
  rw [scanSize_eq some_text, value, Nat.mod_eq_of_lt small]

theorem Terminated.scanned {body data : List UInt8} (terminated : Terminated body data) :
    scan 0 body = ⟨data, .zero, true⟩ := by
  induction terminated with
  | @last body complete zero =>
    have size := hexSize_scanSize zero (Nat.zero_le _)
    have exact_line : Exact (sizeLine body).1 := ⟨complete, zero.trans size.symm⟩
    rw [scan_line (Nat.not_lt_zero _), List.drop_zero, size]
    simp only [if_pos, exact_line, decide_true, List.take_zero]
  | @chunk body data size complete number positive fits enough _ ih =>
    have read := hexSize_scanSize number fits
    have exact_line : Exact (sizeLine body).1 := ⟨complete, number.trans read.symm⟩
    have front : ((sizeLine body).2.take size).length ≤ size := List.length_take_le _ _
    have next := scan_received front ((sizeLine body).2.drop size)
    rw [List.take_append_drop, List.length_take, Nat.min_eq_left enough, Nat.sub_self, ih] at next
    rw [scan_line (Nat.not_lt_zero _), List.drop_zero, read]
    simp only [if_neg (Nat.ne_of_gt positive), if_neg (Nat.not_lt.mpr fits), next, exact_line,
      decide_true, List.take_zero, List.nil_append, Bool.and_self]

theorem scan_zero_room {room : Nat} {body : List UInt8} (zero : (scan room body).ending = .zero) :
    room ≤ body.length := by
  apply Nat.le_of_not_lt
  intro short
  rw [scan_cut short] at zero
  cases zero

/-- A body that is read through by exact lines is terminated where it is taken to be. -/
theorem terminated_of_scan (n : Nat) {room : Nat} {body : List UInt8}
    (bound : body.length - room < n) (zero : (scan room body).ending = .zero)
    (exact_lines : (scan room body).exact = true) :
    ∃ data, (scan room body).data = body.take room ++ data ∧
      Terminated (body.drop room) data := by
  induction n generalizing room body with
  | zero => exact absurd bound (Nat.not_lt_zero _)
  | succ n ih =>
    have enough := Nat.not_lt.mpr (scan_zero_room zero)
    rw [scan_line enough] at zero exact_lines ⊢
    cases hs : scanSize (sizeLine (body.drop room)).1.line with
    | none =>
      rw [hs] at zero
      cases zero
    | some size =>
      simp only [hs] at zero exact_lines ⊢
      by_cases last : size = 0
      · simp only [if_pos last, decide_eq_true_eq] at exact_lines ⊢
        subst last
        exact ⟨[], (List.append_nil _).symm,
          .last exact_lines.1 (exact_lines.2.trans hs)⟩
      · by_cases overflow : size > chunkMaxSize
        · simp only [if_neg last, if_pos overflow] at zero
          cases zero
        · simp only [if_neg last, if_neg overflow, Bool.and_eq_true, decide_eq_true_eq]
            at zero exact_lines ⊢
          have more : body.drop room ≠ [] := by
            intro none
            rw [none, scanSize_nil_line] at hs
            cases hs
          have less := (sizeLine_length (body.drop room)).2 more
          rw [List.length_drop] at less
          obtain ⟨data, whole, terminated⟩ := ih (by omega) zero exact_lines.2
          exact ⟨_, rfl, whole ▸ .chunk exact_lines.1.1 (exact_lines.1.2.trans hs)
            (Nat.pos_of_ne_zero last) (Nat.le_of_not_lt overflow) (scan_zero_room zero) terminated⟩

section Answers

variable {answers : Nat → Int × List UInt8} {body : List UInt8}

theorem reliable_of_truly
    (drains : Drains answers (scan 0 body).data (scan 0 body).ending.code)
    (truly : EndsTruly answers body) : Reliable body := by
  have at_end : ∀ code, (scan 0 body).ending.code = code → code = 0 →
      Terminated body (scan 0 body).data := by
    rintro code same rfl
    rw [same] at drains
    obtain ⟨i, before, zero, whole⟩ := drains.zero_at_end
    exact whole ▸ truly.zero i before zero
  cases ending : (scan 0 body).ending with
  | refused => exact .inl ending
  | zero =>
    have terminated := (at_end _ (by rw [ending]; rfl) rfl).scanned
    exact .inr ⟨ending, congrArg Scan.exact terminated⟩
  | cut =>
    have terminated := (at_end _ (by rw [ending]; rfl) rfl).scanned
    rw [terminated] at ending
    cases ending

theorem truly_of_reliable
    (drains : Drains answers (scan 0 body).data (scan 0 body).ending.code)
    (reliable : Reliable body) : EndsTruly answers body := by
  rcases reliable with refused | ⟨zero, exact_lines⟩
  · rw [refused] at drains
    constructor
    · intro i before none
      cases (drains.at_zero (by decide) before none).1
    · intro _
      exact drains.negative (by decide)
  · obtain ⟨data, whole, terminated⟩ :=
      terminated_of_scan (body.length + 1) (Nat.lt_succ_self _) zero exact_lines
    rw [List.take_zero, List.nil_append] at whole
    rw [List.drop_zero, ← whole] at terminated
    rw [zero] at drains
    constructor
    · intro i before none
      rw [(drains.at_zero (by decide) before none).2]
      exact terminated
    · intro never
      exact absurd ⟨_, terminated⟩ never

end Answers

theorem content_ends_truly_iff {Arrives : S → List UInt8 → Prop} (delivery : Delivery Arrives)
    (dec : Decompressor D) {s : S} {body : List UInt8} (arrives : Arrives s body)
    {lens : Nat → Nat} (positive : ∀ i, 0 < lens i) :
    EndsTruly ((content S dec).answerAt (chunkedResponse D s) lens) body ↔ Reliable body :=
  have drains := content_drains delivery dec arrives lens positive
  ⟨reliable_of_truly drains, truly_of_reliable drains⟩

/-- No digit at all and a size that `%x` reduces to zero both end the content, where a size just
over the limit is refused. -/
example : ¬ Reliable (ascii "xyz\r\n") ∧ ¬ Reliable (ascii "100000000\r\n\r\n") ∧
    Reliable (ascii "20001\r\n") := by decide

/-- The stream of a whole body with one chunk. -/
theorem content_ends_truly_iff_whole :
    let s := TcpSocket.connected (ascii "2\r\nok\r\n0\r\n\r\n") (fun _ => .ready 2) fun _ => true
    EndsTruly ((content TcpSocket storedDecompressor).answerAt (chunkedResponse _ s) fun _ => 1)
      (ascii "2\r\nok\r\n0\r\n\r\n") :=
  (content_ends_truly_iff ready_delivery storedDecompressor ⟨rfl, fun _ => ⟨2, rfl⟩, rfl⟩
    fun _ => Nat.one_pos).mpr (by decide)

/-- Three bytes of five come, and then the end of the stream. -/
theorem not_always_ends_truly :
    ¬ ∀ (s : TcpSocket) (body : List UInt8) (lens : Nat → Nat), Ready s body →
      (∀ i, 0 < lens i) → EndsTruly
        ((content TcpSocket storedDecompressor).answerAt (chunkedResponse _ s) lens) body := by
  intro claim
  let s := TcpSocket.connected (ascii "5\r\nhel") (fun _ => .ready 2) fun _ => true
  have ready : Ready s (ascii "5\r\nhel") := ⟨rfl, fun _ => ⟨2, rfl⟩, rfl⟩
  have truly := claim s (ascii "5\r\nhel") (fun _ => 4000) ready fun _ => by decide
  have drains := content_drains ready_delivery storedDecompressor ready (fun _ => 4000)
    fun _ => by decide
  exact absurd (reliable_of_truly drains truly) (by decide)

end CppMyth.WSResponse
